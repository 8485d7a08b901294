/-
The backend a borrow uses.

A replica is taken from the grant; the primary may have been replaced by the answer to a
refresh.  The table of answers belongs to the whole node: it knows neither the tenant of a
grant nor when the grant was resolved.
-/

import Pgprox.Topology.PrimaryWatch

namespace Pgprox.Topologies

open List

def primaryOrOverride (grant : Grant) (primaries : PrimaryWatches) : Backend :=
  (primaries.currentBackend grant.primary.server).getD grant.primary

def backendFor (grant : Grant) (target : RouteTarget) (primaries : PrimaryWatches) : Backend :=
  match target with
  | .replica index => grant.replicas[index]?.getD (primaryOrOverride grant primaries)
  | .primary => primaryOrOverride grant primaries

def borrowKey (grant : Grant) (target : RouteTarget) (primaries : PrimaryWatches) : PoolKey :=
  (backendFor grant target primaries).poolKey

def Grant.backend (grant : Grant) : RouteTarget → Backend
  | .replica index => grant.replicas[index]?.getD grant.primary
  | .primary => grant.primary

/-! ### Whose pool a session borrows from -/

def Grant.HasReplica (grant : Grant) (target : RouteTarget) : Prop :=
  ∃ index, target = .replica index ∧ index < grant.replicas.length

theorem backendFor_of_hasReplica {grant : Grant} {target : RouteTarget}
    (has : grant.HasReplica target) (primaries : PrimaryWatches) :
    backendFor grant target primaries = grant.backend target := by
  obtain ⟨index, rfl, inside⟩ := has
  simp only [backendFor, Grant.backend, getElem?_eq_getElem inside, Option.getD_some]

theorem backendFor_of_not_hasReplica {grant : Grant} {target : RouteTarget}
    (lacks : ¬ grant.HasReplica target) (primaries : PrimaryWatches) :
    backendFor grant target primaries = primaryOrOverride grant primaries ∧
      grant.backend target = grant.primary := by
  cases target with
  | primary => exact ⟨rfl, rfl⟩
  | replica index =>
    have outside : grant.replicas.length ≤ index := by
      by_contra inside
      exact lacks ⟨index, rfl, Nat.lt_of_not_le inside⟩
    simp only [backendFor, Grant.backend, getElem?_eq_none outside, Option.getD_none,
      and_self]

/-- A statement about the primary in use that also holds of the grant's own one is a
statement about every recorded answer. -/
theorem primaryOrOverride_iff {events : List PollEvent} {polls : Polls}
    (history : PollHistory events polls) (grant : Grant) {P : Backend → Prop}
    (own : P grant.primary) :
    P (primaryOrOverride grant polls.primaries) ↔
      ∀ backend ∈ answersAbout grant.primary.server events, P backend := by
  rw [history.answersAbout_eq, primaryOrOverride]
  cases polls.primaries.currentBackend grant.primary.server with
  | none => simpa using own
  | some backend => simp

/-- A borrow takes the database and the role of the grant's own backend exactly when
the target is a replica of the grant, or every answer recorded about the grant's
primary names the grant's database and role. -/
theorem borrowKey_own_iff (events : List PollEvent) (polls : Polls)
    (history : PollHistory events polls) (grant : Grant) (target : RouteTarget) :
    ((borrowKey grant target polls.primaries).database = (grant.backend target).database ∧
      (borrowKey grant target polls.primaries).user = (grant.backend target).user) ↔
    (grant.HasReplica target ∨
      ∀ backend ∈ answersAbout grant.primary.server events,
        backend.database = grant.primary.database ∧ backend.user = grant.primary.user) := by
  by_cases has : grant.HasReplica target
  · have same := backendFor_of_hasReplica has polls.primaries
    refine ⟨fun _ => .inl has, fun _ => ?_⟩
    unfold borrowKey
    rw [same]
    exact ⟨rfl, rfl⟩
  · obtain ⟨used, own⟩ := backendFor_of_not_hasReplica has polls.primaries
    unfold borrowKey
    rw [used, own, or_iff_right has]
    exact primaryOrOverride_iff history grant (P := fun backend =>
      backend.database = grant.primary.database ∧ backend.user = grant.primary.user) ⟨rfl, rfl⟩

/-! ### Two tenants of one server -/

def acmeGrant : Grant where
  tenant := ⟨"acme"⟩
  primary := ⟨⟨"db-1:5432"⟩, "acme", "acme_app"⟩
  replicas := []

def otherGrant : Grant where
  tenant := ⟨"other"⟩
  primary := ⟨⟨"db-1:5432"⟩, "other", "other_app"⟩
  replicas := []

def failover (successor : Backend) : List PollEvent :=
  [.session acmeGrant, .session otherGrant,
    .probed ⟨"db-1:5432"⟩ (.ok ⟨0, true⟩),
    .refreshed ⟨"db-1:5432"⟩ (.ok ⟨successor, []⟩)]

theorem failover_history (successor : Backend) :
    PollHistory (failover successor) ((failover successor).foldl Polls.step .new) := by
  refine .snoc (.snoc (.snoc (.snoc .nil ?_) ?_) ?_) ?_
  · exact trivial
  · exact trivial
  · exact ⟨by decide, by decide⟩
  · exact Finset.mem_insert_self _ _

theorem borrowKey_own_after_failover :
    (borrowKey acmeGrant .primary
      ((failover ⟨⟨"db-2:5432"⟩, "acme", "acme_app"⟩).foldl Polls.step .new).primaries).user =
        "acme_app" := by
  have own := (borrowKey_own_iff _ _ (failover_history ⟨⟨"db-2:5432"⟩, "acme", "acme_app"⟩)
    acmeGrant .primary).mpr (.inr (by decide))
  exact own.2

/-- After the failover a session of one tenant borrows from the pool of the other. -/
theorem borrowKey_foreign_after_failover :
    ¬ ∀ (events : List PollEvent) (polls : Polls), PollHistory events polls →
      ∀ (grant : Grant) (target : RouteTarget),
        (borrowKey grant target polls.primaries).database = (grant.backend target).database ∧
          (borrowKey grant target polls.primaries).user = (grant.backend target).user := by
  intro always
  have own := always _ _ (failover_history ⟨⟨"db-2:5432"⟩, "other", "other_app"⟩)
    acmeGrant .primary
  exact absurd own.2 (by decide)

/-! ### Which answers a grant should follow -/

/-- The server reached by following answers, oldest first, each replacing the server
it was asked about. -/
def follow (current : ServerId) : List (ServerId × Backend) → ServerId
  | [] => current
  | (asked, answer) :: later =>
    follow (if asked = current then answer.server else current) later

theorem follow_of_unasked {current : ServerId} {recorded : List (ServerId × Backend)}
    (unasked : ∀ backend, (current, backend) ∉ recorded) : follow current recorded = current := by
  induction recorded with
  | nil => rfl
  | cons answer later ih =>
    have other : answer.1 ≠ current := by
      rintro rfl
      exact unasked answer.2 mem_cons_self
    rw [follow, if_neg other]
    exact ih fun backend present => unasked backend (mem_cons_of_mem _ present)

theorem follow_append (current : ServerId) (earlier later : List (ServerId × Backend)) :
    follow current (earlier ++ later) = follow (follow current earlier) later := by
  induction earlier generalizing current with
  | nil => rfl
  | cons answer rest ih =>
    exact ih _

theorem follow_of_first {current : ServerId} {backend : Backend}
    {earlier later : List (ServerId × Backend)}
    (unasked : ∀ backend, (current, backend) ∉ earlier) :
    follow current (earlier ++ (current, backend) :: later) = follow backend.server later := by
  rw [follow_append, follow_of_unasked unasked, follow, if_pos rfl]

/-- The answers a node recorded before and after a grant was resolved leave the
grant where the latest topology puts it: none before names another server, and the
server named by one after is not itself replaced later. -/
def Undisturbed (server : ServerId) (before after : List PollEvent) : Prop :=
  (∀ backend ∈ answersAbout server before, backend.server = server) ∧
    ∀ earlier backend later, answers after = earlier ++ (server, backend) :: later →
      follow backend.server later = backend.server

theorem PollHistory.answer_unique {before after : List PollEvent} {polls : Polls}
    (history : PollHistory (before ++ after) polls) {server : ServerId}
    {earlier later : List (ServerId × Backend)} {backend : Backend}
    (at_answer : answers after = earlier ++ (server, backend) :: later) :
    answersAbout server before = [] ∧ (∀ other, (server, other) ∉ earlier) ∧
      polls.primaries.currentBackend server = some backend := by
  have recorded := history.answersAbout_eq server
  have about : answersAbout server after =
      (earlier.filter fun answer => answer.1 = server).map Prod.snd ++
        backend :: (later.filter fun answer => answer.1 = server).map Prod.snd := by
    simp [answersAbout, at_answer]
  rw [answersAbout_append, about] at recorded
  cases stored : polls.primaries.currentBackend server with
  | none => simp [stored] at recorded
  | some current =>
    rw [stored, Option.toList_some, append_eq_singleton_iff] at recorded
    rcases recorded with ⟨none, one⟩ | ⟨_, more⟩
    · rw [append_eq_singleton_iff] at one
      rcases one with ⟨empty, last⟩ | ⟨_, more⟩
      · refine ⟨none, ?_, ?_⟩
        · intro other present
          have kept : other ∈ (earlier.filter fun answer => answer.1 = server).map Prod.snd := by
            simpa using present
          rw [empty] at kept
          cases kept
        · rw [(List.cons.inj last).1]
      · cases more
    · simp at more

/-- The primary in use for a grant resolved between the two parts of a history is the
one the answers recorded since lead to exactly when the history is undisturbed. -/
theorem backendFor_follows_iff (before after : List PollEvent) (polls : Polls)
    (history : PollHistory (before ++ after) polls) (grant : Grant) :
    (backendFor grant .primary polls.primaries).server =
        follow grant.primary.server (answers after) ↔
      Undisturbed grant.primary.server before after := by
  change (primaryOrOverride grant polls.primaries).server = _ ↔ _
  by_cases answered : ∃ backend, (grant.primary.server, backend) ∈ answers after
  · obtain ⟨backend, present⟩ := answered
    obtain ⟨earlier, later, split⟩ := append_of_mem present
    obtain ⟨none, unasked, stored⟩ := history.answer_unique split
    have used : primaryOrOverride grant polls.primaries = backend := by
      rw [primaryOrOverride, stored]
      rfl
    have reached : follow grant.primary.server (answers after) = follow backend.server later := by
      rw [split]
      exact follow_of_first unasked
    rw [used, reached]
    constructor
    · intro settled
      refine ⟨by simp [none], fun earlier' backend' later' split' => ?_⟩
      obtain ⟨-, unasked', stored'⟩ := history.answer_unique split'
      have sameBackend : backend = backend' := Option.some.inj (stored.symm.trans stored')
      have reached' : follow grant.primary.server (answers after) =
          follow backend'.server later' := by
        rw [split']
        exact follow_of_first unasked'
      rw [← reached', reached, ← settled, sameBackend]
    · intro undisturbed
      exact (undisturbed.2 earlier backend later split).symm
  · have unasked : ∀ backend, (grant.primary.server, backend) ∉ answers after :=
      fun backend present => answered ⟨backend, present⟩
    have none : answersAbout grant.primary.server after = [] :=
      eq_nil_iff_forall_not_mem.mpr fun backend present =>
        unasked backend (mem_answersAbout.mp present)
    have stays := primaryOrOverride_iff history grant (P := fun backend =>
      backend.server = grant.primary.server) rfl
    rw [follow_of_unasked unasked, stays, answersAbout_append, none, append_nil]
    refine ⟨fun same => ⟨same, fun earlier backend later split => ?_⟩, fun both => both.1⟩
    exact absurd (split ▸ mem_append_right _ mem_cons_self) (unasked backend)

/-! ### A second failover -/

def serverA : ServerId := ⟨"db-a:5432"⟩
def serverB : ServerId := ⟨"db-b:5432"⟩
def serverC : ServerId := ⟨"db-c:5432"⟩

def grantOn (server : ServerId) : Grant where
  tenant := ⟨"acme"⟩
  primary := ⟨server, "acme", "acme_app"⟩
  replicas := []

def firstFailover : List PollEvent :=
  [.session (grantOn serverA), .probed serverA (.ok ⟨0, true⟩),
    .refreshed serverA (.ok ⟨(grantOn serverB).primary, []⟩)]

def secondFailover : List PollEvent :=
  [.session (grantOn serverB), .probed serverB (.ok ⟨0, true⟩),
    .refreshed serverB (.ok ⟨(grantOn serverC).primary, []⟩)]

theorem firstFailover_history :
    PollHistory firstFailover (firstFailover.foldl Polls.step .new) := by
  refine .snoc (.snoc (.snoc .nil ?_) ?_) ?_
  · exact trivial
  · exact ⟨by decide, by decide⟩
  · exact Finset.mem_insert_self _ _

theorem secondFailover_history :
    PollHistory (firstFailover ++ secondFailover)
      ((firstFailover ++ secondFailover).foldl Polls.step .new) := by
  refine .snoc (.snoc (.snoc firstFailover_history ?_) ?_) ?_
  · exact trivial
  · exact ⟨by decide, by decide⟩
  · exact Finset.mem_insert_self _ _

theorem backendFor_follows_first :
    (backendFor (grantOn serverA) .primary
      (firstFailover.foldl Polls.step .new).primaries).server = serverB := by
  refine (backendFor_follows_iff [] firstFailover _ firstFailover_history
    (grantOn serverA)).mpr ⟨by decide, fun earlier backend later split => ?_⟩
  have length := congrArg List.length split
  have last : later = [] := by
    have one : (answers firstFailover).length = 1 := by decide
    rw [one, length_append, length_cons] at length
    exact length_eq_zero_iff.mp (by omega)
  rw [last]
  rfl

/-- A session from before both failovers keeps using the second server. -/
theorem backendFor_stops_after_first :
    ¬ ∀ (before after : List PollEvent) (polls : Polls), PollHistory (before ++ after) polls →
      ∀ grant : Grant, (backendFor grant .primary polls.primaries).server =
        follow grant.primary.server (answers after) := by
  intro always
  have followed := always [] (firstFailover ++ secondFailover) _ secondFailover_history
    (grantOn serverA)
  exact absurd followed (by decide)

end Pgprox.Topologies
