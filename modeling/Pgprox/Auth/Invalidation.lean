/-
Invalidating grants while calls are out.

Events are counted.  Each task is written down with the count at which its call to the
sidecar began, each entry with that of the call it comes from, and each invalidation with
its own.  An entry comes out of the cache when a look finds it.
-/

import Pgprox.Auth.CachedAnswer

namespace Pgprox.Auth

structure Dated (Digest : Type) where
  cache : GrantCache Digest
  count : Nat
  began : Nat → Nat
  origin : CacheKey Digest → Nat
  invalidations : List (Option ServerId × Nat)

def Phase.isCalling : Phase → Bool
  | .calling _ => true
  | _ => false

/-- The grants that an invalidation is about. -/
def Grant.Within (grant : Grant) (servers : Option ServerId) : Prop :=
  ∀ server ∈ servers, grant.primary.server = server

namespace Dated

variable {Digest : Type} [DecidableEq Digest] (hash : Text → Digest) (config : CacheConfig)
  (checkAlgorithm : Text → Option AuthRejection)

open GrantCache (keyOf)

def start : Dated Digest where
  cache := .start
  count := 0
  began _ := 0
  origin _ := 0
  invalidations := []

def step (dated : Dated Digest) (event : CacheEvent) : Dated Digest where
  cache := dated.cache.step hash config checkAlgorithm event
  count := dated.count + 1
  began task :=
    if !(dated.cache.tasks task).isCalling &&
      ((dated.cache.step hash config checkAlgorithm event).tasks task).isCalling then dated.count
    else dated.began task
  origin :=
    match event with
    | .advance task =>
      match dated.cache.tasks task with
      | .stamped request _ _ _ =>
        Function.update dated.origin (keyOf hash request) (dated.began task)
      | _ => dated.origin
    | _ => dated.origin
  invalidations :=
    match event with
    | .clear => dated.invalidations ++ [(none, dated.count)]
    | .invalidatePrimary server => dated.invalidations ++ [(some server, dated.count)]
    | _ => dated.invalidations

/-- The call began after every invalidation that is about the grant. -/
def Follows (dated : Dated Digest) (began : Nat) : Outcome → Prop
  | .resolved grant => ∀ made ∈ dated.invalidations, grant.Within made.1 → made.2 ≤ began
  | .refused _ => True

/-- What is stored follows every invalidation that is about it. -/
def Allowed (dated : Dated Digest) : CacheEvent → Prop
  | .advance task =>
    match dated.cache.tasks task with
    | .stamped _ outcome _ _ => dated.Follows (dated.began task) outcome
    | _ => True
  | _ => True

instance (dated : Dated Digest) (began : Nat) (outcome : Outcome) :
    Decidable (dated.Follows began outcome) :=
  match outcome with
  | .resolved grant => inferInstanceAs (Decidable (∀ made ∈ dated.invalidations,
      (∀ server ∈ made.1, grant.primary.server = server) → made.2 ≤ began))
  | .refused _ => isTrue trivial

instance (dated : Dated Digest) (event : CacheEvent) : Decidable (dated.Allowed event) := by
  apply CacheEvent.casesOn (motive := fun event => Decidable (dated.Allowed event)) event
  case advance =>
    intro task
    apply Phase.casesOn (motive := fun phase => Decidable (match phase with
      | .stamped _ outcome _ _ => dated.Follows (dated.began task) outcome
      | _ => True)) (dated.cache.tasks task)
    case stamped => exact fun _ outcome _ _ => inferInstanceAs (Decidable (dated.Follows _ outcome))
    all_goals intros; exact isTrue trivial
  all_goals intros; exact isTrue trivial

variable {hash config checkAlgorithm}

theorem lookup_store {cache : GrantCache Digest} {request : AuthRequest} {outcome : Outcome}
    {ttl now : Nat} {key : CacheKey Digest} {entry : Entry}
    (found : (cache.store hash config request outcome ttl now).entries.map.lookup key =
      some entry) :
    key = keyOf hash request ∧ entry.outcome = outcome ∨
      key ≠ keyOf hash request ∧ cache.entries.map.lookup key = some entry := by
  have within := cache.entries.within_makeRoom config.capacity (keyOf hash request) now
  unfold GrantCache.store at found
  dsimp only at found
  split at found
  · rename_i full
    refine .inr ⟨?_, within.found found⟩
    -- a map that is full for a key does not have it
    rintro rfl
    unfold Entries.isFull at full
    rw [found, Option.isNone_some, Bool.and_false] at full
    cases full
  · unfold Entries.insert at found
    rw [AList.lookup_insert_if] at found
    split at found
    · rename_i same
      exact .inl ⟨same, congrArg Entry.outcome (Option.some.inj found).symm⟩
    · rename_i other
      exact .inr ⟨other, within.found found⟩

theorem within_advance (cache : GrantCache Digest) (task : Nat)
    (other : ∀ request outcome ttl now, cache.tasks task ≠ .stamped request outcome ttl now) :
    (cache.advance hash config task).entries.Within cache.entries := by
  have same := Entries.Within.refl cache.entries
  unfold GrantCache.advance
  cases phase : cache.tasks task with
  | glanced request now | rechecking request now =>
    have looked := cache.entries.within_lookup (keyOf hash request) now
    dsimp only [GrantCache.look]
    generalize cache.entries.lookup (keyOf hash request) now = result at looked ⊢
    obtain ⟨entries, found⟩ := result
    cases found <;> exact looked
  | missed request =>
    dsimp only [GrantCache.claim]
    split <;> exact same
  | waiting | answered | priced =>
    dsimp only
    split <;> exact same
  | stamped => exact absurd phase (other _ _ _ _)
  | _ => exact same

theorem within_step (cache : GrantCache Digest) (event : CacheEvent)
    (other : ∀ task request outcome ttl now, event = .advance task →
      cache.tasks task ≠ .stamped request outcome ttl now) :
    (cache.step hash config checkAlgorithm event).entries.Within cache.entries := by
  have same := Entries.Within.refl cache.entries
  unfold GrantCache.step
  cases event with
  | advance task => exact within_advance cache task fun _ _ _ _ => other task _ _ _ _ rfl
  | clear => exact Entries.within_empty _
  | invalidatePrimary server => exact Entries.within_retain _ _ _
  | tick => exact same
  | resolve =>
    dsimp only
    split
    · split <;> exact same
    · exact same
  | answer | cancel =>
    dsimp only
    split <;> exact same

def Fresh (dated : Dated Digest) : Prop :=
  ∀ key entry, dated.cache.entries.map.lookup key = some entry →
    dated.Follows (dated.origin key) entry.outcome

theorem Fresh.stored {dated : Dated Digest} (fresh : dated.Fresh) {task : Nat}
    {request : AuthRequest} {outcome : Outcome} {ttl now : Nat}
    (stamped : dated.cache.tasks task = .stamped request outcome ttl now)
    (follows : dated.Follows (dated.began task) outcome) :
    (dated.step hash config checkAlgorithm (.advance task)).Fresh := by
  intro key entry found
  have entries : (dated.cache.advance hash config task).entries =
      (dated.cache.store hash config request outcome ttl now).entries := by
    unfold GrantCache.advance
    rw [stamped]
    rfl
  have origin : (dated.step hash config checkAlgorithm (.advance task)).origin =
      Function.update dated.origin (keyOf hash request) (dated.began task) := by
    unfold step
    dsimp only
    rw [stamped]
  change (dated.cache.advance hash config task).entries.map.lookup key = _ at found
  rw [entries] at found
  rw [origin]
  rcases lookup_store found with ⟨rfl, rfl⟩ | ⟨other, before⟩
  · rw [Function.update_self]
    exact follows
  · rw [Function.update_of_ne other]
    exact fresh key entry before

theorem Fresh.step {dated : Dated Digest} (fresh : dated.Fresh) {event : CacheEvent}
    (allowed : dated.Allowed event) :
    (dated.step hash config checkAlgorithm event).Fresh := by
  by_cases stores : ∃ task request outcome ttl now, event = .advance task ∧
      dated.cache.tasks task = .stamped request outcome ttl now
  · obtain ⟨task, request, outcome, ttl, now, rfl, stamped⟩ := stores
    refine fresh.stored stamped ?_
    unfold Allowed at allowed
    dsimp only at allowed
    rwa [stamped] at allowed
  have within := @within_step _ _ hash config checkAlgorithm dated.cache event
    fun task request outcome ttl now acts stamped =>
      stores ⟨task, request, outcome, ttl, now, acts, stamped⟩
  have origin : (dated.step hash config checkAlgorithm event).origin = dated.origin := by
    unfold Dated.step
    split
    · split
      · rename_i stamped
        exact absurd ⟨_, _, _, _, _, rfl, stamped⟩ stores
      · rfl
    · rfl
  intro key entry found
  have before := fresh key entry (within.found found)
  rw [origin]
  cases outcome : entry.outcome with
  | refused => trivial
  | resolved grant =>
    rw [outcome] at before
    intro made listed about
    cases event with
    | clear => cases found
    | invalidatePrimary server =>
      rcases List.mem_append.mp listed with earlier | now
      · exact before made earlier about
      · obtain rfl := List.mem_singleton.mp now
        change (dated.cache.entries.map.retain _).lookup key = some entry at found
        rw [AList.lookup_retain] at found
        have other := (Option.filter_eq_some_iff.mp found).2
        rw [outcome] at other
        exact absurd (about server rfl) (of_decide_eq_true other)
    | _ => exact before made listed about

/-- A grant that comes out of the cache is from a call that began after every invalidation
about it, if what is stored is. -/
theorem invalidation_beats_answers (dated : Dated Digest)
    (reached : Run.Reachable start Allowed (step hash config checkAlgorithm) dated)
    (request : AuthRequest) (now : Nat) (grant : Grant)
    (found : (dated.cache.look hash request now).2 = some (.resolved grant))
    (servers : Option ServerId) (count : Nat) (listed : (servers, count) ∈ dated.invalidations)
    (about : grant.Within servers) : count ≤ dated.origin (keyOf hash request) := by
  have fresh : dated.Fresh := by
    apply reached.invariant
    · exact nofun
    · exact fun before event fresh allowed => fresh.step allowed
  obtain ⟨entry, present, -, same⟩ := Entries.lookup_found found
  have follows := fresh _ entry present
  rw [same] at follows
  exact follows _ listed about

def datedRun (events : List CacheEvent) : Dated Text :=
  events.foldl (step id GrantCache.smallConfig fun _ => none) start

/-- A call that fails, an invalidation, and a call that is answered. -/
def inOrder : List CacheEvent :=
  .resolve 1 GrantCache.login :: List.replicate 5 (.advance 1) ++
    .answer 1 (.error (.unavailable [])) :: List.replicate 3 (.advance 1) ++
    .invalidatePrimary ⟨"db:5432"⟩ :: GrantCache.asked ++ List.replicate 3 (.advance 0)

theorem invalidation_beats_answers_in_order :
    ((datedRun inOrder).cache.look id GrantCache.login 6).2 =
        some (.resolved GrantCache.shortLived) ∧
      10 ≤ (datedRun inOrder).origin (keyOf id GrantCache.login) := by
  have permitted : Run.Permitted Allowed (step id GrantCache.smallConfig fun _ => none)
      (start : Dated Text) inOrder := by
    decide +kernel
  have found : ((datedRun inOrder).cache.look id GrantCache.login 6).2 =
      some (.resolved GrantCache.shortLived) := by
    decide +kernel
  exact ⟨found, invalidation_beats_answers _ (.foldl .start permitted) _ 6 _ found
    (some ⟨"db:5432"⟩) 10 (by decide +kernel) fun _ same => Option.some.inj same⟩

def overtaken : List CacheEvent :=
  GrantCache.asked ++ .invalidatePrimary ⟨"db:5432"⟩ :: List.replicate 3 (.advance 0)

theorem invalidation_overtaken :
    ((datedRun overtaken).cache.look id GrantCache.login 6).2 =
        some (.resolved GrantCache.shortLived) ∧
      (datedRun overtaken).origin (keyOf id GrantCache.login) = 5 ∧
        (datedRun overtaken).invalidations = [(some ⟨"db:5432"⟩, 8)] := by
  decide +kernel

end Dated
end Pgprox.Auth
