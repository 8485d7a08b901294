/-
All pools of one node, and the pass that holds them to the node's allowance.

`apply_quota` reads all pools once, then goes server by server: it learns the allowance in
force, and only then sets the limits of the pools it had read.  Everything else may happen
in between.
-/

import Pgprox.Cluster.Lease
import Pgprox.Library.Run
import Pgprox.Pool.Pool

namespace Pgprox.Pools

structure Keyed where
  pool : Pool
  connections : Finset UpstreamId

def Keyed.isUnused (keyed : Keyed) : Bool :=
  keyed.pool.isUnused && decide (keyed.connections = ∅)

structure LivePool where
  config : PoolConfig
  keyed : FiniteMap PoolKey Keyed

namespace LivePool

def new (config : PoolConfig) : LivePool where
  config := config
  keyed := ∅

def entry (live : LivePool) (key : PoolKey) : Keyed :=
  (live.keyed.lookup key).getD { pool := Pool.new key live.config, connections := ∅ }

def withPool (live : LivePool) (key : PoolKey) (change : Pool → Pool) : LivePool :=
  { live with
    keyed := live.keyed.insert key
      { live.entry key with pool := change (live.entry key).pool } }

def setLimit (live : LivePool) (key : PoolKey) (limit : Nat) : LivePool :=
  live.withPool key fun pool => pool.setLimit limit

def acquire (live : LivePool) (key : PoolKey) : LivePool × Acquired :=
  (live.withPool key fun pool => pool.acquire.1, (live.entry key).pool.acquire.2)

def opened (live : LivePool) (key : PoolKey) (now : Nat) : LivePool :=
  let (pool, id) := (live.entry key).pool.opened now
  { live with
    keyed := live.keyed.insert key
      { pool := pool, connections := insert id (live.entry key).connections } }

def release (live : LivePool) (key : PoolKey) (id : UpstreamId) (outcome : ReleaseOutcome)
    (now : Nat) : LivePool :=
  match live.keyed.lookup key with
  | none => live
  | some entry =>
    let (pool, kept) := entry.pool.release id outcome now
    { live with
      keyed := live.keyed.insert key
        { pool := pool
          connections := if kept then entry.connections else entry.connections.erase id } }

def takeConnection (live : LivePool) (key : PoolKey) (id : UpstreamId) : LivePool :=
  match live.keyed.lookup key with
  | none => live
  | some entry =>
    { live with
      keyed := live.keyed.insert key { entry with connections := entry.connections.erase id } }

def returnConnection (live : LivePool) (key : PoolKey) (id : UpstreamId) : LivePool :=
  match live.keyed.lookup key with
  | none => live
  | some entry =>
    { live with
      keyed := live.keyed.insert key { entry with connections := insert id entry.connections } }

def allStats (live : LivePool) : List (PoolKey × PoolStats) :=
  (live.keyed.entries.map fun entry => (entry.1, entry.2.pool.stats)).insertionSort
    fun a b => a.1.le b.1

def reapEntry (config : ReapConfig) (now : Nat) (entry : Keyed) : Keyed :=
  let closed := (reap entry.pool config now).foldl
    (fun entry id =>
      { pool := (entry.pool.closeIdle id).1
        connections :=
          if (entry.pool.closeIdle id).2 then entry.connections.erase id else entry.connections })
    entry
  { closed with pool := closed.pool.expireInUse config.maxLifetime now }

theorem reapEntry_pool (config : ReapConfig) (now : Nat) (entry : Keyed) :
    (reapEntry config now entry).pool =
      (entry.pool.closeAll (reap entry.pool config now)).expireInUse config.maxLifetime now := by
  have closing (ids : List UpstreamId) : ∀ keyed : Keyed,
      (ids.foldl (fun (entry : Keyed) id =>
        ({ pool := (entry.pool.closeIdle id).1
           connections := if (entry.pool.closeIdle id).2 then entry.connections.erase id
             else entry.connections } : Keyed)) keyed).pool = keyed.pool.closeAll ids := by
    induction ids with
    | nil => exact fun _ => rfl
    | cons id later ih => exact fun keyed => ih _
  exact congrArg (Pool.expireInUse · config.maxLifetime now) (closing _ entry)

/-- Close what is idle for too long, mark what is too old, forget unused pools. -/
def reapIdle (live : LivePool) (config : ReapConfig) (now : Nat) : LivePool :=
  { live with
    keyed := (live.keyed.mapValues fun _ entry => reapEntry config now entry).retain
      fun _ entry => !entry.isUnused }

/-! ### The entry of a key -/

variable {live : LivePool} {key : PoolKey}

theorem entry_insert (live : LivePool) (key other : PoolKey) (keyed : Keyed) :
    ({ live with keyed := live.keyed.insert key keyed } : LivePool).entry other =
      if other = key then keyed else live.entry other := by
  unfold entry
  rw [AList.lookup_insert_if]
  split
  · rfl
  · rfl

variable {keyed : Keyed}

section

variable (found : live.keyed.lookup key = some keyed)
include found

theorem entry_of_lookup : live.entry key = keyed := by
  unfold entry
  rw [found]
  rfl

theorem entry_release (id : UpstreamId) (outcome : ReleaseOutcome) (now : Nat) (other : PoolKey) :
    (live.release key id outcome now).entry other =
      if other = key then
        { pool := (keyed.pool.release id outcome now).1
          connections := if (keyed.pool.release id outcome now).2 then keyed.connections
            else keyed.connections.erase id }
      else live.entry other := by
  unfold release
  rw [found]
  exact entry_insert _ _ _ _

theorem entry_takeConnection (id : UpstreamId) (other : PoolKey) :
    (live.takeConnection key id).entry other =
      if other = key then { keyed with connections := keyed.connections.erase id }
      else live.entry other := by
  unfold takeConnection
  rw [found]
  exact entry_insert _ _ _ _

theorem entry_returnConnection (id : UpstreamId) (other : PoolKey) :
    (live.returnConnection key id).entry other =
      if other = key then { keyed with connections := insert id keyed.connections }
      else live.entry other := by
  unfold returnConnection
  rw [found]
  exact entry_insert _ _ _ _

end

end LivePool

/-! ### The quota pass -/

def poolsFor (all : List (PoolKey × PoolStats)) (server : ServerId) : List (PoolKey × Nat) :=
  (all.filter fun entry => decide (entry.1.server = server)).map fun entry =>
    (entry.1, entry.2.active + entry.2.idle + entry.2.waiting)

def handOut : List Nat → Nat → List Nat → List Nat
  | [], _, shares => shares
  | _ :: _, 0, shares => shares
  | index :: order, remainder + 1, shares =>
    handOut order remainder (shares.modify index (· + 1))

/-- Split an allowance over the pools it has to cover: the floor for each, the
remainder one by one to the pools with the most demand. -/
def sharesAcrossPools (guaranteed leased : Nat) (demand : List Nat) : List Nat :=
  let total := saturatingAdd guaranteed leased
  let count := demand.length
  if u32Max < count then List.replicate demand.length 0
  else if count = 0 then []
  else
    let order := (List.range count).insertionSort fun a b =>
      demand.getD b 0 < demand.getD a 0 ∨ demand.getD a 0 = demand.getD b 0 ∧ a ≤ b
    handOut order (total % count) (List.replicate count (total / count))

def limitsFor (all : List (PoolKey × PoolStats)) (server : ServerId)
    (allowance : Option (Nat × Nat)) : List (PoolKey × Nat) :=
  let keys := poolsFor all server
  match allowance with
  | none => keys.map fun entry => (entry.1, 0)
  | some (guaranteed, leased) =>
    (keys.map Prod.fst).zip (sharesAcrossPools guaranteed leased (keys.map Prod.snd))

def permitted : Option (Nat × Nat) → Nat
  | none => 0
  | some (guaranteed, leased) => guaranteed + leased

/-! ### The node -/

structure NodePools where
  live : LivePool
  reading : List (PoolKey × PoolStats)
  inForce : ServerId → Option (Nat × Nat)

inductive NodeStep where
  | acquire (key : PoolKey)
  | opened (key : PoolKey) (now : Nat)
  | openFailed (key : PoolKey)
  | beginWait (key : PoolKey)
  | endWait (key : PoolKey)
  | release (key : PoolKey) (id : UpstreamId) (outcome : ReleaseOutcome) (now : Nat)
  | takeConnection (key : PoolKey) (id : UpstreamId)
  | returnConnection (key : PoolKey) (id : UpstreamId)
  | readPools
  | applyQuota (server : ServerId) (allowance : Option (Nat × Nat))
  | reapIdle (config : ReapConfig) (now : Nat)

namespace NodePools

def start (config : PoolConfig) (inForce : ServerId → Option (Nat × Nat)) : NodePools where
  live := LivePool.new config
  reading := []
  inForce := inForce

def step (node : NodePools) : NodeStep → NodePools
  | .acquire key => { node with live := (node.live.acquire key).1 }
  | .opened key now => { node with live := node.live.opened key now }
  | .openFailed key => { node with live := node.live.withPool key Pool.openFailed }
  | .beginWait key => { node with live := node.live.withPool key Pool.beginWait }
  | .endWait key => { node with live := node.live.withPool key Pool.endWait }
  | .release key id outcome now => { node with live := node.live.release key id outcome now }
  | .takeConnection key id => { node with live := node.live.takeConnection key id }
  | .returnConnection key id => { node with live := node.live.returnConnection key id }
  | .readPools => { node with reading := node.live.allStats }
  -- a pass sets the limits of a server's pools in one step: no client comes in between
  | .applyQuota server allowance =>
    { node with
      live := (limitsFor node.reading server allowance).foldl
        (fun live entry => live.setLimit entry.1 entry.2) node.live
      inForce := Function.update node.inForce server allowance }
  | .reapIdle config now => { node with live := node.live.reapIdle config now }

/-- A reserved slot is what `opened` and a failed open consume, and a registered
wait is what `end_wait` consumes.  A pass goes over the servers it has read. -/
def Enabled (node : NodePools) : NodeStep → Prop
  | .opened key _ => ∃ entry, node.live.keyed.lookup key = some entry ∧ 0 < entry.pool.opening
  | .openFailed key => ∃ entry, node.live.keyed.lookup key = some entry ∧ 0 < entry.pool.opening
  | .endWait key => ∃ entry, node.live.keyed.lookup key = some entry ∧ 0 < entry.pool.waiting
  | .applyQuota server _ => ∃ entry ∈ node.reading, entry.1.server = server
  | _ => True

def sizeAt (server : ServerId) (key : PoolKey) (entry : Keyed) : Nat :=
  if key.server = server then entry.pool.size else 0

def limitAt (server : ServerId) (key : PoolKey) (entry : Keyed) : Nat :=
  if key.server = server then entry.pool.limit else 0

def openConnections (node : NodePools) (server : ServerId) : Nat :=
  node.live.keyed.weigh (sizeAt server)

def limits (node : NodePools) (server : ServerId) : Nat :=
  node.live.keyed.weigh (limitAt server)

end NodePools

/-! ### A pool of one tenant -/

def acmeKey : PoolKey where
  server := ⟨"db-1:5432"⟩
  database := "tenant_acme"
  user := "acme_app"

end Pgprox.Pools
