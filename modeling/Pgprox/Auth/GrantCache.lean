/-
The grant cache, as the tasks that share it see it.

A step is one look at a clock, or one stretch under a lock; other tasks may take theirs in
between, and a task that waits may be given up.  The wall clock and the monotonic one
advance together, so one number stands for both.
-/

import Pgprox.Core.Basic
import Pgprox.Library.FiniteMap
import Pgprox.Library.Run

namespace Pgprox.Auth

inductive AuthRejection
  | tokenRejected
  | tokenExpired
  | algorithmNotAllowed
  | malformed
  | notPermitted
  deriving DecidableEq

structure Grant where
  tenant : TenantId
  primary : PoolKey
  ttl : Nat
  expiresAt : Option Nat
  deriving DecidableEq

/-- The earliest of three limits: the sidecar's, the token's and the configured one. -/
def Grant.effectiveTtl (grant : Grant) (now configuredCap : Nat) : Nat :=
  let ttl := min grant.ttl configuredCap
  match grant.expiresAt with
  | none => ttl
  | some expiresAt => min ttl (expiresAt - now)

inductive AuthError
  | refused (reason : AuthRejection)
  | unavailable (reason : Text)
  | malformed (reason : Text)
  deriving DecidableEq

abbrev Resolution := Except AuthError Grant

structure AuthRequest where
  token : Text
  startupDatabase : Text
  startupUser : Text
  clientAddr : Text
  deriving DecidableEq

structure AuthRequest.Alike (one two : AuthRequest) : Prop where
  token : one.token = two.token
  database : one.startupDatabase = two.startupDatabase
  user : one.startupUser = two.startupUser

structure CacheConfig where
  maxTtl : Nat
  negativeTtl : Nat
  capacity : Nat
  deriving DecidableEq

structure CacheKey (Digest : Type) where
  tokenHash : Digest
  database : Text
  user : Text
  deriving DecidableEq

inductive Outcome
  | resolved (grant : Grant)
  | refused (reason : AuthRejection)
  deriving DecidableEq

def Outcome.intoResult : Outcome → Resolution
  | .resolved grant => .ok grant
  | .refused reason => .error (.refused reason)

def Outcome.lifetime (config : CacheConfig) (wall : Nat) : Outcome → Nat
  | .resolved grant => grant.effectiveTtl wall config.maxTtl
  | .refused _ => config.negativeTtl

structure Entry where
  outcome : Outcome
  expiresAt : Nat
  deriving DecidableEq

/-! ### The map -/

def sweepInterval : Nat := 1000

structure Entries (Digest : Type) where
  map : FiniteMap (CacheKey Digest) Entry
  sweptAt : Option Nat

namespace Entries

variable {Digest : Type} [DecidableEq Digest]

def empty : Entries Digest where
  map := ∅
  sweptAt := none

def len (entries : Entries Digest) : Nat :=
  entries.map.keys.length

def sweep (entries : Entries Digest) (now : Nat) : Entries Digest :=
  if entries.sweptAt.any fun last => saturatingDurationSince now last < sweepInterval then entries
  else
    { map := entries.map.retain fun _ entry => now < entry.expiresAt
      sweptAt := some now }

def lookup (entries : Entries Digest) (key : CacheKey Digest) (now : Nat) :
    Entries Digest × Option Outcome :=
  match entries.map.lookup key with
  | none => (entries, none)
  | some entry =>
    if now < entry.expiresAt then (entries, some entry.outcome)
    else ({ entries with map := entries.map.erase key }, none)

def isFull (entries : Entries Digest) (capacity : Nat) (key : CacheKey Digest) : Bool :=
  capacity ≤ entries.len && (entries.map.lookup key).isNone

def makeRoom (entries : Entries Digest) (capacity : Nat) (key : CacheKey Digest) (now : Nat) :
    Entries Digest :=
  if entries.isFull capacity key then entries.sweep now else entries

def insert (entries : Entries Digest) (key : CacheKey Digest) (entry : Entry) : Entries Digest :=
  { entries with map := entries.map.insert key entry }

def invalidatePrimary (entries : Entries Digest) (server : ServerId) : Entries Digest :=
  { entries with
    map := entries.map.retain fun _ entry =>
      match entry.outcome with
      | .resolved grant => grant.primary.server ≠ server
      | .refused _ => true }

end Entries

/-! ### The tasks -/

inductive Phase
  | idle
  | looping (request : AuthRequest)
  | glanced (request : AuthRequest) (now : Nat)
  | missed (request : AuthRequest)
  | waiting (request : AuthRequest) (channel : Nat)
  | leading (request : AuthRequest)
  | rechecking (request : AuthRequest) (now : Nat)
  /-- A second look found the outcome, at a time; the claim is still held. -/
  | releasing (request : AuthRequest) (outcome : Outcome) (read : Nat)
  | calling (request : AuthRequest)
  | answered (request : AuthRequest) (result : Resolution)
  | priced (request : AuthRequest) (outcome : Outcome) (wall : Nat)
  | stamped (request : AuthRequest) (outcome : Outcome) (ttl now : Nat)
  | finishing (request : AuthRequest) (result : Resolution)
  /-- The guard is about to be dropped, and then the result is returned. -/
  | dropping (request : AuthRequest) (result : Resolution) (read : Option Nat)
  | abandoning (request : AuthRequest)
  deriving DecidableEq

structure Answer where
  request : AuthRequest
  result : Resolution
  deriving DecidableEq

structure Stored where
  request : AuthRequest
  outcome : Outcome
  time : Nat
  deriving DecidableEq

structure Returned where
  request : AuthRequest
  result : Resolution
  read : Option Nat
  deriving DecidableEq

structure GrantCache (Digest : Type) where
  time : Nat
  entries : Entries Digest
  inflight : FiniteMap (CacheKey Digest) Nat
  nextChannel : Nat
  tasks : Nat → Phase
  answers : List Answer
  stored : List Stored
  returned : List Returned

inductive CacheEvent
  | tick (elapsed : Nat)
  | resolve (task : Nat) (request : AuthRequest)
  | advance (task : Nat)
  | answer (task : Nat) (result : Resolution)
  | cancel (task : Nat)
  | clear
  | invalidatePrimary (server : ServerId)
  deriving DecidableEq

namespace GrantCache

variable {Digest : Type} [DecidableEq Digest]

def start : GrantCache Digest where
  time := 0
  entries := .empty
  inflight := ∅
  nextChannel := 0
  tasks _ := .idle
  answers := []
  stored := []
  returned := []

variable (hash : Text → Digest) (config : CacheConfig)
  (checkAlgorithm : Text → Option AuthRejection)

def keyOf (request : AuthRequest) : CacheKey Digest where
  tokenHash := hash request.token
  database := request.startupDatabase
  user := request.startupUser

def put (cache : GrantCache Digest) (task : Nat) (phase : Phase) : GrantCache Digest :=
  { cache with tasks := Function.update cache.tasks task phase }

def release (cache : GrantCache Digest) (request : AuthRequest) : GrantCache Digest :=
  { cache with inflight := cache.inflight.erase (keyOf hash request) }

def finish (cache : GrantCache Digest) (task : Nat) (request : AuthRequest) (result : Resolution)
    (read : Option Nat) : GrantCache Digest :=
  { cache.put task .idle with returned := cache.returned ++ [⟨request, result, read⟩] }

def look (cache : GrantCache Digest) (request : AuthRequest) (now : Nat) :
    GrantCache Digest × Option Outcome :=
  let (entries, found) := cache.entries.lookup (keyOf hash request) now
  ({ cache with entries := entries }, found)

def claim (cache : GrantCache Digest) (task : Nat) (request : AuthRequest) : GrantCache Digest :=
  match cache.inflight.lookup (keyOf hash request) with
  | some channel => cache.put task (.waiting request channel)
  | none =>
    { cache.put task (.leading request) with
      inflight := cache.inflight.insert (keyOf hash request) cache.nextChannel
      nextChannel := cache.nextChannel + 1 }

def store (cache : GrantCache Digest) (request : AuthRequest) (outcome : Outcome) (ttl now : Nat) :
    GrantCache Digest :=
  let key := keyOf hash request
  let entries := cache.entries.makeRoom config.capacity key now
  if entries.isFull config.capacity key then { cache with entries := entries }
  else
    { cache with
      entries := entries.insert key ⟨outcome, now + ttl⟩
      stored := cache.stored ++ [⟨request, outcome, cache.time⟩] }

def advance (cache : GrantCache Digest) (task : Nat) : GrantCache Digest :=
  match cache.tasks task with
  | .idle => cache
  | .looping request => cache.put task (.glanced request cache.time)
  | .glanced request now =>
    match cache.look hash request now with
    | (looked, some outcome) => looked.finish task request outcome.intoResult (some cache.time)
    | (looked, none) => looked.put task (.missed request)
  | .missed request => cache.claim hash task request
  | .waiting request channel =>
    if cache.inflight.lookup (keyOf hash request) = some channel then cache
    else cache.put task (.looping request)
  | .leading request => cache.put task (.rechecking request cache.time)
  | .rechecking request now =>
    match cache.look hash request now with
    | (looked, some outcome) => looked.put task (.releasing request outcome cache.time)
    | (looked, none) => looked.put task (.calling request)
  | .releasing request outcome read =>
    (cache.release hash request).put task (.dropping request outcome.intoResult (some read))
  | .calling _ => cache
  | .answered request result =>
    match result with
    | .ok grant => cache.put task (.priced request (.resolved grant) cache.time)
    | .error (.refused reason) => cache.put task (.priced request (.refused reason) cache.time)
    -- Only a refusal is remembered.
    | .error _ => cache.put task (.finishing request result)
  | .priced request outcome wall =>
    let ttl := outcome.lifetime config wall
    if ttl = 0 then cache.put task (.finishing request outcome.intoResult)
    else cache.put task (.stamped request outcome ttl cache.time)
  | .stamped request outcome ttl now =>
    (cache.store hash config request outcome ttl now).put task
      (.finishing request outcome.intoResult)
  | .finishing request result =>
    (cache.release hash request).put task (.dropping request result none)
  | .dropping request result read =>
    (cache.release hash request).finish task request result read
  | .abandoning request => (cache.release hash request).put task .idle

def step (cache : GrantCache Digest) (event : CacheEvent) : GrantCache Digest :=
  match event with
  | .tick elapsed => { cache with time := cache.time + elapsed }
  | .resolve task request =>
    match cache.tasks task with
    | .idle =>
      match checkAlgorithm request.token with
      | some reason => cache.finish task request (.error (.refused reason)) none
      | none => cache.put task (.looping request)
    | _ => cache
  | .advance task => cache.advance hash config task
  | .answer task result =>
    match cache.tasks task with
    | .calling request =>
      { cache.put task (.answered request result) with
        answers := cache.answers ++ [⟨request, result⟩] }
    | _ => cache
  | .cancel task =>
    match cache.tasks task with
    | .waiting _ _ => cache.put task .idle
    | .calling request => cache.put task (.abandoning request)
    | _ => cache
  | .clear => { cache with entries := .empty }
  | .invalidatePrimary server =>
    { cache with entries := cache.entries.invalidatePrimary server }

end GrantCache

end Pgprox.Auth
