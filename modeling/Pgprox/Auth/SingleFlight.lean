/-
One call to the sidecar for each key.

The claim is removed twice, by the turn as it finishes and by its guard, and both remove
whatever claim is on the key.  Each turn is written down with the channel that it made when
it claimed its key.
-/

import Pgprox.Auth.CachedAnswer

namespace Pgprox.Auth

def Phase.turn : Phase → Option AuthRequest
  | .leading request | .rechecking request _ | .releasing request _ _ | .calling request
  | .answered request _ | .priced request _ _ | .stamped request _ _ _ | .finishing request _
  | .dropping request _ _ | .abandoning request => some request
  | _ => none

def Phase.claiming : Phase → Option AuthRequest
  | .dropping .. => none
  | phase => phase.turn

structure Flights (Digest : Type) where
  cache : GrantCache Digest
  channels : Nat → Option Nat

namespace GrantCache

variable {Digest : Type} [DecidableEq Digest] {hash : Text → Digest} {config : CacheConfig}
  {checkAlgorithm : Text → Option AuthRejection}

section Moves

variable (hash) (cache : GrantCache Digest)

/-- What an event can make of a task and of the claims. -/
inductive Moves (event : CacheEvent) (task : Nat) :
    Phase → FiniteMap (CacheKey Digest) Nat → Prop
  | stays {phase : Phase} (turn : phase.turn = (cache.tasks task).turn)
      (claiming : phase.claiming = (cache.tasks task).claiming) :
      Moves event task phase cache.inflight
  | claims {request : AuthRequest} (outside : (cache.tasks task).turn = none)
      (free : cache.inflight.lookup (keyOf hash request) = none) :
      Moves event task (.leading request)
        (cache.inflight.insert (keyOf hash request) cache.nextChannel)
  | removes {phase : Phase} {request : AuthRequest} (turn : (cache.tasks task).turn = some request)
      (done : phase.claiming = none)
      (own : (cache.tasks task).claiming = some request ∨ event = .advance task ∧
        ∃ result read, cache.tasks task = .dropping request result read) :
      Moves event task phase (cache.inflight.erase (keyOf hash request))

variable {hash}

theorem look_shared (hash : Text → Digest) (request : AuthRequest) (now : Nat) :
    (cache.look hash request now).1.tasks = cache.tasks ∧
      (cache.look hash request now).1.inflight = cache.inflight :=
  ⟨rfl, rfl⟩

theorem store_shared (request : AuthRequest) (outcome : Outcome) (ttl now : Nat) :
    (cache.store hash config request outcome ttl now).tasks = cache.tasks ∧
      (cache.store hash config request outcome ttl now).inflight = cache.inflight := by
  unfold store
  dsimp only
  split
  · exact ⟨rfl, rfl⟩
  · exact ⟨rfl, rfl⟩

theorem moves_put {other : GrantCache Digest}
    (shared : other.tasks = cache.tasks ∧ other.inflight = cache.inflight) {event : CacheEvent}
    {task : Nat} {phase before : Phase} (here : cache.tasks task = before)
    (turn : phase.turn = before.turn) (claiming : phase.claiming = before.claiming) :
    ∃ phase', (other.put task phase).tasks = Function.update cache.tasks task phase' ∧
      cache.Moves hash event task phase' (other.put task phase).inflight := by
  refine ⟨phase, ?_, ?_⟩
  · change Function.update other.tasks task phase = _
    rw [shared.1]
  change cache.Moves hash event task phase other.inflight
  rw [shared.2]
  exact .stays (here ▸ turn) (here ▸ claiming)

theorem advance_moves (task : Nat) :
    ∃ phase, (cache.advance hash config task).tasks = Function.update cache.tasks task phase ∧
      cache.Moves hash (.advance task) task phase (cache.advance hash config task).inflight := by
  have still : ∃ phase, cache.tasks = Function.update cache.tasks task phase ∧
      cache.Moves hash (.advance task) task phase cache.inflight :=
    ⟨_, (Function.update_eq_self task cache.tasks).symm, .stays rfl rfl⟩
  unfold advance
  cases phase : cache.tasks task with
  | idle | calling => exact still
  | looping | leading => exact cache.moves_put ⟨rfl, rfl⟩ phase rfl rfl
  | glanced request now | rechecking request now =>
    dsimp only
    have shared := cache.look_shared hash request now
    generalize cache.look hash request now = result at shared ⊢
    obtain ⟨looked, found⟩ := result
    cases found with
    | none | some => exact cache.moves_put shared phase rfl rfl
  | missed request =>
    dsimp only [claim]
    split
    · exact cache.moves_put ⟨rfl, rfl⟩ phase rfl rfl
    · rename_i free
      exact ⟨_, rfl, .claims (by rw [phase]; rfl) free⟩
  | waiting request channel =>
    dsimp only
    split
    · exact still
    · exact cache.moves_put ⟨rfl, rfl⟩ phase rfl rfl
  | answered request result =>
    dsimp only
    split <;> exact cache.moves_put ⟨rfl, rfl⟩ phase rfl rfl
  | priced request outcome wall =>
    dsimp only
    split <;> exact cache.moves_put ⟨rfl, rfl⟩ phase rfl rfl
  | stamped request outcome ttl now =>
    exact cache.moves_put (cache.store_shared request outcome ttl now) phase rfl rfl
  | releasing | finishing | abandoning =>
    exact ⟨_, rfl, .removes (by rw [phase]; rfl) rfl (.inl (by rw [phase]; rfl))⟩
  | dropping =>
    exact ⟨_, rfl, .removes (by rw [phase]; rfl) rfl (.inr ⟨rfl, _, _, phase⟩)⟩

theorem step_moves (event : CacheEvent) :
    ∃ task phase, (cache.step hash config checkAlgorithm event).tasks =
        Function.update cache.tasks task phase ∧
      cache.Moves hash event task phase (cache.step hash config checkAlgorithm event).inflight := by
  have still : ∃ task phase, cache.tasks = Function.update cache.tasks task phase ∧
      cache.Moves hash event task phase cache.inflight :=
    ⟨0, _, (Function.update_eq_self 0 cache.tasks).symm, .stays rfl rfl⟩
  unfold step
  cases event with
  | advance task => exact ⟨task, cache.advance_moves task⟩
  | tick | clear | invalidatePrimary => exact still
  | resolve task request =>
    dsimp only
    split
    · rename_i phase
      split <;> exact ⟨task, cache.moves_put ⟨rfl, rfl⟩ phase rfl rfl⟩
    · exact still
  | answer task result =>
    dsimp only
    split
    · rename_i request phase
      exact ⟨task, cache.moves_put ⟨rfl, rfl⟩ phase rfl rfl⟩
    · exact still
  | cancel task =>
    dsimp only
    split
    · rename_i phase
      exact ⟨task, cache.moves_put ⟨rfl, rfl⟩ phase rfl rfl⟩
    · rename_i phase
      exact ⟨task, cache.moves_put ⟨rfl, rfl⟩ phase rfl rfl⟩
    · exact still

end Moves

end GrantCache

namespace Flights

open GrantCache (keyOf)

variable {Digest : Type} [DecidableEq Digest] (hash : Text → Digest) (config : CacheConfig)
  (checkAlgorithm : Text → Option AuthRejection)

def start : Flights Digest where
  cache := .start
  channels _ := none

def step (flights : Flights Digest) (event : CacheEvent) : Flights Digest where
  cache := flights.cache.step hash config checkAlgorithm event
  channels task :=
    match ((flights.cache.step hash config checkAlgorithm event).tasks task).turn with
    | none => none
    | some _ =>
      if (flights.cache.tasks task).turn.isSome then flights.channels task
      else some flights.cache.nextChannel

/-- The guard of a turn that has removed its claim finds no claim on the key. -/
def Allowed (flights : Flights Digest) (event : CacheEvent) : Prop :=
  ∀ task request result read, event = .advance task →
    flights.cache.tasks task = .dropping request result read →
      flights.cache.inflight.lookup (keyOf hash request) = none

def allows (flights : Flights Digest) : CacheEvent → Bool
  | .advance task =>
    match flights.cache.tasks task with
    | .dropping request _ _ => (flights.cache.inflight.lookup (keyOf hash request)).isNone
    | _ => true
  | _ => true

theorem allowed_iff {flights : Flights Digest} {event : CacheEvent} :
    flights.Allowed hash event ↔ flights.allows hash event = true := by
  unfold Allowed allows
  cases event with
  | advance task =>
    dsimp only
    split
    · rename_i request result read phase
      rw [Option.isNone_iff_eq_none]
      refine ⟨fun allowed => allowed task request result read rfl phase, ?_⟩
      rintro free other asked given time ⟨⟩ dropping
      rw [phase] at dropping
      cases dropping
      exact free
    · rename_i other
      refine iff_of_true ?_ rfl
      rintro task request result read ⟨⟩ dropping
      exact absurd dropping (other request result read)
  | _ => exact iff_of_true (fun _ _ _ _ same => by cases same) rfl

instance (flights : Flights Digest) (event : CacheEvent) : Decidable (flights.Allowed hash event) :=
  decidable_of_iff _ (allowed_iff hash).symm

def Led (flights : Flights Digest) : Prop :=
  ∀ key channel, flights.cache.inflight.lookup key = some channel →
    ∃ task request, (flights.cache.tasks task).turn = some request ∧
      keyOf hash request = key ∧ flights.channels task = some channel

/-- Every turn that has not removed its claim has it, and no other such turn is for its
key. -/
structure Alone (cache : GrantCache Digest) : Prop where
  held : ∀ {task request}, (cache.tasks task).claiming = some request →
    cache.inflight.lookup (keyOf hash request) ≠ none
  one : ∀ {task other request asked}, (cache.tasks task).claiming = some request →
    (cache.tasks other).claiming = some asked →
      keyOf hash request = keyOf hash asked → task = other

variable {hash config checkAlgorithm}

theorem Led.step {flights : Flights Digest} (led : flights.Led hash) (event : CacheEvent) :
    (flights.step hash config checkAlgorithm event).Led hash := by
  obtain ⟨task, phase, tasks, moves⟩ :=
    @GrantCache.step_moves _ _ hash config checkAlgorithm flights.cache event
  have channels {other : Nat} {request : AuthRequest}
      (now : (Function.update flights.cache.tasks task phase other).turn = some request)
      (before : (flights.cache.tasks other).turn = some request) :
      (flights.step hash config checkAlgorithm event).channels other = flights.channels other := by
    unfold Flights.step
    dsimp only
    rw [tasks, now, before]
    rfl
  intro key channel found
  change (flights.cache.step hash config checkAlgorithm event).inflight.lookup key = _ at found
  generalize (flights.cache.step hash config checkAlgorithm event).inflight = inflight at *
  change ∃ other request, ((flights.cache.step hash config checkAlgorithm event).tasks
    other).turn = _ ∧ _
  rw [tasks]
  -- a turn that goes on keeps its claim
  have goesOn (kept : flights.cache.inflight.lookup key = some channel)
      (same : ∀ request, (flights.cache.tasks task).turn = some request →
        keyOf hash request = key → phase.turn = some request) :
      ∃ other request, (Function.update flights.cache.tasks task phase other).turn =
          some request ∧ keyOf hash request = key ∧
        (flights.step hash config checkAlgorithm event).channels other = some channel := by
    obtain ⟨leader, request, turn, keyed, made⟩ := led key channel kept
    have now : (Function.update flights.cache.tasks task phase leader).turn = some request := by
      by_cases own : leader = task
      · rw [own, Function.update_self]
        exact same request (own ▸ turn) keyed
      · rw [Function.update_of_ne own]
        exact turn
    exact ⟨leader, request, now, keyed, (channels now turn).trans made⟩
  cases moves with
  | stays turn claiming => exact goesOn found fun request before _ => turn.trans before
  | @claims request outside free =>
    rw [AList.lookup_insert_if] at found
    split at found
    · rename_i same
      refine ⟨task, request, by rw [Function.update_self]; rfl, same.symm, ?_⟩
      unfold Flights.step
      dsimp only
      rw [tasks, Function.update_self, outside]
      exact found
    · refine goesOn found fun asked before _ => ?_
      rw [outside] at before
      cases before
  | removes turn done own =>
    rw [AList.lookup_erase_if] at found
    split at found
    · cases found
    · rename_i other
      refine goesOn found fun asked before keyed => ?_
      rw [turn] at before
      exact absurd (Option.some.inj before ▸ keyed.symm) other

theorem Alone.step {flights : Flights Digest} (alone : Alone hash flights.cache)
    {event : CacheEvent} (allowed : flights.Allowed hash event) :
    Alone hash (flights.cache.step hash config checkAlgorithm event) := by
  obtain ⟨task, phase, tasks, moves⟩ :=
    @GrantCache.step_moves _ _ hash config checkAlgorithm flights.cache event
  generalize flights.cache.step hash config checkAlgorithm event = next at *
  have elsewhere {other : Nat} (apart : other ≠ task) :
      (next.tasks other).claiming = (flights.cache.tasks other).claiming := by
    rw [tasks, Function.update_of_ne apart]
  have here : (next.tasks task).claiming = phase.claiming := by
    rw [tasks, Function.update_self]
  generalize shared : next.inflight = inflight at moves
  cases moves with
  | stays turn claiming =>
    have same (other : Nat) :
        (next.tasks other).claiming = (flights.cache.tasks other).claiming := by
      by_cases own : other = task
      · rw [own, here, claiming]
      · exact elsewhere own
    constructor
    · intro other asked claims
      rw [shared]
      exact alone.held ((same other).symm.trans claims)
    · intro other another request asked first second
      exact alone.one ((same other).symm.trans first) ((same another).symm.trans second)
  | @claims request outside free =>
    have first {other : Nat} {asked : AuthRequest}
        (claims : (next.tasks other).claiming = some asked) :
        other = task ∧ asked = request ∨
          (flights.cache.tasks other).claiming = some asked ∧
            keyOf hash asked ≠ keyOf hash request := by
      by_cases own : other = task
      · rw [own, here] at claims
        exact .inl ⟨own, (Option.some.inj claims).symm⟩
      · rw [elsewhere own] at claims
        exact .inr ⟨claims, fun same => alone.held claims (same ▸ free)⟩
    constructor
    · intro other asked claims
      rw [shared, AList.lookup_insert_if]
      split
      · exact nofun
      · rename_i differs
        rcases first claims with ⟨-, rfl⟩ | ⟨before, -⟩
        · exact absurd rfl differs
        · exact alone.held before
    · intro other another asked wanted one two same
      rcases first one with ⟨rfl, rfl⟩ | ⟨before, apart⟩
      · rcases first two with ⟨rfl, -⟩ | ⟨-, apart⟩
        · rfl
        · exact absurd same.symm apart
      · rcases first two with ⟨-, rfl⟩ | ⟨later, -⟩
        · exact absurd same apart
        · exact alone.one before later same
  | @removes _ request turn done own =>
    have before {other : Nat} {asked : AuthRequest}
        (claims : (next.tasks other).claiming = some asked) :
        (flights.cache.tasks other).claiming = some asked ∧
          keyOf hash asked ≠ keyOf hash request := by
      have apart : other ≠ task := by
        rintro rfl
        rw [here, done] at claims
        cases claims
      rw [elsewhere apart] at claims
      refine ⟨claims, fun same => ?_⟩
      rcases own with held | ⟨acts, result, read, dropping⟩
      · exact apart (alone.one claims held same)
      · exact alone.held claims (same ▸ allowed task request result read acts dropping)
    constructor
    · intro other asked claims
      rw [shared, AList.lookup_erase_if, if_neg (before claims).2]
      exact alone.held (before claims).1
    · intro other another asked wanted first second
      exact alone.one (before first).1 (before second).1

/-- No follower is left behind: a claim that a follower waits for is that of a turn, and a
follower whose claim is gone goes on.  No two calls for one key are out at once, as long as
the guard of a turn that has removed its claim finds none. -/
theorem single_flight (flights : Flights Digest) :
    (Run.Reachable start (fun _ _ => True) (step hash config checkAlgorithm) flights →
      ∀ follower request channel, flights.cache.tasks follower = .waiting request channel →
        if flights.cache.inflight.lookup (keyOf hash request) = some channel then
          ∃ leader asked, (flights.cache.tasks leader).turn = some asked ∧
            keyOf hash asked = keyOf hash request ∧
              flights.channels leader = some channel
        else (flights.cache.advance hash config follower).tasks follower = .looping request) ∧
    (Run.Reachable start (Allowed hash) (step hash config checkAlgorithm) flights →
      ∀ task other request asked, flights.cache.tasks task = .calling request →
        flights.cache.tasks other = .calling asked →
          keyOf hash request = keyOf hash asked → task = other) := by
  constructor
  · intro reached follower request channel waits
    have led : flights.Led hash := by
      apply reached.invariant (P := Led hash)
      · exact fun key channel found => by cases found
      · exact fun before event led _ => led.step event
    split
    · rename_i subscribed
      exact led _ _ subscribed
    · rename_i gone
      unfold GrantCache.advance
      rw [waits]
      dsimp only
      rw [if_neg gone]
      exact Function.update_self _ _ _
  · intro reached task other request asked calls callsToo same
    have alone : Alone hash flights.cache := by
      apply reached.invariant (P := fun flights => Alone hash flights.cache)
      · exact ⟨nofun, nofun⟩
      · exact fun before event alone allowed => alone.step allowed
    exact alone.one (calls ▸ rfl) (callsToo ▸ rfl) same

/-- A call that finds nothing, claims the key and asks the sidecar. -/
def call (task : Nat) : List CacheEvent :=
  .resolve task GrantCache.login :: List.replicate 5 (.advance task)

def followed : List CacheEvent :=
  call 0 ++ .resolve 1 GrantCache.login :: List.replicate 5 (.advance 1)

/-- The second call waits for the first, which is the only one to ask the sidecar. -/
theorem single_flight_followed :
    let flights : Flights Text :=
      followed.foldl (step id GrantCache.smallConfig fun _ => none) start
    flights.cache.tasks 1 = .waiting GrantCache.login 0 ∧
      (∃ leader asked, (flights.cache.tasks leader).turn = some asked ∧
        keyOf id asked = keyOf id GrantCache.login ∧ flights.channels leader = some 0) ∧
      ∀ other, flights.cache.tasks other = .calling GrantCache.login → 0 = other := by
  intro flights
  have shown : flights.cache.tasks 1 = .waiting GrantCache.login 0 ∧
      flights.cache.tasks 0 = .calling GrantCache.login ∧
      flights.cache.inflight.lookup (keyOf id GrantCache.login) = some 0 := by
    decide +kernel
  have permitted : Run.Permitted (Allowed id) (step id GrantCache.smallConfig fun _ => none)
      (start : Flights Text) followed := by
    decide +kernel
  have free : Run.Permitted (fun _ _ => True) (step id GrantCache.smallConfig fun _ => none)
      (start : Flights Text) followed := by
    decide +kernel
  obtain ⟨waits, calls, claimed⟩ := shown
  obtain ⟨led, alone⟩ :=
    @single_flight Text _ id GrantCache.smallConfig (fun _ => none) flights
  have leader := led (.foldl .start free) 1 GrantCache.login 0 waits
  rw [if_pos claimed] at leader
  exact ⟨waits, leader, fun other callsToo =>
    alone (.foldl .start permitted) 0 other _ _ calls callsToo rfl⟩

def overlapping : List CacheEvent :=
  call 0 ++ [.answer 0 (.error (.unavailable [])), .advance 0, .advance 0] ++ call 1 ++
    [.advance 0] ++ call 2

theorem two_calls_at_once :
    let flights : Flights Text :=
      overlapping.foldl (step id GrantCache.smallConfig fun _ => none) start
    flights.cache.tasks 1 = .calling GrantCache.login ∧
      flights.cache.tasks 2 = .calling GrantCache.login := by
  decide +kernel

end Flights

end Pgprox.Auth
