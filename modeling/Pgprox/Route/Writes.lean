/-
Where a write goes, over every run of one session's router.

A target the router holds to was fixed by a message since the last transaction ended, so
whether a write can reach a replica is decided by what that message brought.
-/

import Pgprox.Route.Router
import Pgprox.Sql.Segments

namespace Pgprox.Route

open Sql
open List hiding lex

theorem classify_of_statements {sql statement : List Char} (listed : statement ∈ statements sql)
    (write : classify statement = .write) : classify sql = .write := by
  obtain ⟨word, present, writes⟩ := (classify_eq_write_iff statement).mp write
  exact (classify_eq_write_iff sql).mpr ⟨word, (tokens_of_statements listed present).1, writes⟩

inductive RouterEvent
  | message (sql : List Char) (inTransaction : Bool) (replicas : Replicas) (now : Nat)
  | transactionEnded
  | pinned (pinned : Bool)
  | written (lsn : Nat)
  deriving DecidableEq

namespace SessionRouter

def observe (router : SessionRouter) : RouterEvent → SessionRouter
  | .message sql inTransaction replicas now => (router.route sql inTransaction replicas now).1
  | .transactionEnded => router.endTransaction
  | .pinned pinned => router.setPinned pinned
  | .written lsn => router.recordWrite lsn

def run (events : List RouterEvent) : SessionRouter :=
  events.foldl observe new

variable (events : List RouterEvent)

theorem run_append_singleton (event : RouterEvent) :
    run (events ++ [event]) = (run events).observe event := by
  unfold run
  rw [foldl_append]
  rfl

/-! ### What the run says about the open transaction -/

def Since (P : SessionRouter → RouterEvent → Prop) (events : List RouterEvent) : Prop :=
  ∃ before event after, events = before ++ event :: after ∧
    RouterEvent.transactionEnded ∉ after ∧ P (run before) event

theorem not_since_nil {P : SessionRouter → RouterEvent → Prop} : ¬ Since P [] := by
  rintro ⟨before, event, after, shape, -⟩
  cases before <;> cases shape

theorem since_append_singleton {P : SessionRouter → RouterEvent → Prop}
    {events : List RouterEvent} {event : RouterEvent} :
    Since P (events ++ [event]) ↔
      P (run events) event ∨ (event ≠ .transactionEnded ∧ Since P events) := by
  constructor
  · rintro ⟨before, found, after, shape, open_, holds⟩
    rcases eq_nil_or_concat after with rfl | ⟨earlier, last, rfl⟩
    · obtain ⟨rfl, same⟩ := append_inj' shape rfl
      obtain rfl := singleton_inj.mp same
      exact .inl holds
    · rw [concat_eq_append] at shape open_
      rw [← cons_append, ← append_assoc] at shape
      obtain ⟨rfl, same⟩ := append_inj' shape rfl
      obtain rfl := singleton_inj.mp same
      refine .inr ⟨?_, before, found, earlier, rfl, ?_, holds⟩
      · rintro rfl
        exact open_ (mem_append_right _ mem_cons_self)
      · exact fun ended => open_ (mem_append_left _ ended)
  · rintro (holds | ⟨goesOn, before, found, after, rfl, open_, holds⟩)
    · exact ⟨events, event, [], rfl, not_mem_nil, holds⟩
    · refine ⟨before, found, after ++ [event], by simp, ?_, holds⟩
      intro ended
      rcases mem_append.mp ended with inside | last
      · exact open_ inside
      · exact goesOn (mem_singleton.mp last).symm

theorem Since.mono {P Q : SessionRouter → RouterEvent → Prop} {events : List RouterEvent}
    (since : Since P events) (holds : ∀ router event, P router event → Q router event) :
    Since Q events := by
  obtain ⟨before, event, after, shape, open_, first⟩ := since
  exact ⟨before, event, after, shape, open_, holds _ _ first⟩

/-- The message at which a transaction's target is fixed. -/
def Opens (P : SessionRouter → List Char → Replicas → Nat → Prop) (router : SessionRouter) :
    RouterEvent → Prop
  | .message sql inTransaction replicas now =>
    (router.fixed = none ∧ parseRouteAssignment sql = none ∧
      (inTransaction || beginsTransaction sql) = true) ∧ P router sql replicas now
  | _ => False

theorem Opens.mono {P Q : SessionRouter → List Char → Replicas → Nat → Prop}
    {router : SessionRouter} {event : RouterEvent} (opens : router.Opens P event)
    (holds : ∀ sql replicas now, P router sql replicas now → Q router sql replicas now) :
    router.Opens Q event := by
  cases event with
  | message sql inTransaction replicas now => exact ⟨opens.1, holds sql replicas now opens.2⟩
  | transactionEnded | pinned pinned | written lsn => exact opens

def SentTo (target : RouteTarget) (router : SessionRouter) (sql : List Char)
    (replicas : Replicas) (now : Nat) : Prop :=
  (router.context sql).CallsFor (replicas.fillStates now) target

theorem route_fixed_iff (router : SessionRouter) (sql : List Char) (inTransaction : Bool)
    (replicas : Replicas) (now : Nat) (target : RouteTarget) :
    (router.route sql inTransaction replicas now).1.fixed = some target ↔
      router.Opens (SentTo target) (.message sql inTransaction replicas now) ∨
        router.fixed = some target := by
  unfold Opens SentTo
  dsimp only
  rw [← RouteCtx.decide_eq_iff]
  cases hint : parseRouteAssignment sql with
  | some assignment =>
    have same : (router.route sql inTransaction replicas now).1.fixed = router.fixed := by
      unfold route
      rw [hint]
      cases assignment <;> rfl
    simp [same]
  | none =>
    cases current : router.fixed with
    | some fixed => simp [route, hint, current]
    | none =>
      cases belongs : inTransaction || beginsTransaction sql <;>
        simp [route, hint, current, belongs]

theorem run_fixed_iff (target : RouteTarget) :
    (run events).fixed = some target ↔ Since (Opens (SentTo target)) events := by
  induction events using List.reverseRecOn with
  | nil => exact ⟨nofun, fun since => absurd since not_since_nil⟩
  | append_singleton events event ih =>
    rw [run_append_singleton, since_append_singleton, ← ih]
    cases event with
    | message sql inTransaction replicas now =>
      simpa [observe] using route_fixed_iff (run events) sql inTransaction replicas now target
    | transactionEnded => simp [observe, endTransaction, Opens]
    | pinned pinned => simp [observe, setPinned, Opens]
    | written lsn => simp [observe, recordWrite, Opens]

/-! ### Where a write goes -/

/-- Nothing holds the session at the primary, and a replica has caught up. -/
def ReplicaAtHand (router : SessionRouter) (sql : List Char) (replicas : Replicas)
    (now : Nat) : Prop :=
  router.pinned = false ∧ router.wrote = false ∧
    (statementHint sql).getD router.hint ≠ .primary ∧
    ∃ state ∈ replicas.fillStates now, state.canServe router.watermark = true

def PromisesReadOnly (router : SessionRouter) (sql : List Char) : Prop :=
  router.readOnlyTransaction = true ∨ beginsReadOnlyTransaction sql = true

/-- A message may go to a replica by a promise not to write, by its text, or, where its text
says nothing either way, by a hint. -/
def OpenToReplica (router : SessionRouter) (sql : List Char) (replicas : Replicas)
    (now : Nat) : Prop :=
  router.ReplicaAtHand sql replicas now ∧
    (router.PromisesReadOnly sql ∨ classify sql = .readOnly ∨
      classify sql = .unknown ∧ (statementHint sql).getD router.hint = .replica)

theorem eligible_context_iff {router : SessionRouter} {sql : List Char} :
    (router.context sql).eligible = true ↔
      router.PromisesReadOnly sql ∨ classify sql = .readOnly ∨
        classify sql = .unknown ∧ (statementHint sql).getD router.hint = .replica := by
  unfold RouteCtx.eligible context classOf StmtClass.replicaEligible PromisesReadOnly
  dsimp only
  cases router.readOnlyTransaction <;> cases beginsReadOnlyTransaction sql <;>
    cases (statementHint sql).getD router.hint <;> cases classify sql <;> simp

theorem sentTo_primary_iff {router : SessionRouter} {sql : List Char} {replicas : Replicas}
    {now : Nat} :
    router.SentTo .primary sql replicas now ↔ ¬ router.OpenToReplica sql replicas now := by
  unfold SentTo RouteCtx.CallsFor RouteCtx.NeedsPrimary OpenToReplica ReplicaAtHand
  rw [← eligible_context_iff]
  simp only [context, Bool.false_eq_true, false_or]
  grind

theorem exists_sentTo (router : SessionRouter) (sql : List Char) (replicas : Replicas)
    (now : Nat) : ∃ target, router.SentTo target sql replicas now :=
  ⟨_, (RouteCtx.decide_eq_iff _ _ _).mp rfl⟩

theorem fixed_ne_none_iff :
    (run events).fixed ≠ none ↔ Since (Opens fun _ _ _ _ => True) events := by
  constructor
  · intro fixed
    obtain ⟨target, current⟩ := Option.ne_none_iff_exists'.mp fixed
    refine ((run_fixed_iff events target).mp current).mono fun router event opens => ?_
    exact opens.mono fun _ _ _ _ => trivial
  · rintro ⟨before, event, after, shape, open_, opens⟩
    cases event with
    | message sql inTransaction replicas now =>
      obtain ⟨target, sent⟩ := exists_sentTo (run before) sql replicas now
      rw [(run_fixed_iff events target).mpr ⟨before, _, after, shape, open_, opens.1, sent⟩]
      exact Option.some_ne_none target
    | transactionEnded | pinned pinned | written lsn => exact opens.elim

theorem fixed_primary_iff {target : RouteTarget} (fixed : (run events).fixed = some target) :
    target = .primary ↔ ¬ Since (Opens OpenToReplica) events := by
  constructor
  · rintro rfl ⟨before, event, after, shape, open_, opens⟩
    cases event with
    | message sql inTransaction replicas now =>
      obtain ⟨other, sent⟩ := exists_sentTo (run before) sql replicas now
      have same := (run_fixed_iff events other).mpr ⟨before, _, after, shape, open_, opens.1, sent⟩
      obtain rfl := Option.some.inj (fixed.symm.trans same)
      exact sentTo_primary_iff.mp sent opens.2
    | transactionEnded | pinned pinned | written lsn => exact opens.elim
  · intro closed
    by_contra other
    refine closed (((run_fixed_iff events target).mp fixed).mono fun router event opens => ?_)
    refine opens.mono fun sql replicas now sent => ?_
    by_contra kept
    exact other ((RouteCtx.decide_eq_iff _ _ _).mpr sent ▸
      (RouteCtx.decide_eq_iff _ _ _).mpr (sentTo_primary_iff.mpr kept))

/-- A message with a write goes to the primary exactly when it is no assignment of the
route, the message that fixed its transaction's target was not open to a replica and, where
none is fixed, no promise not to write lets it go to a replica at hand. -/
theorem write_goes_to_primary_iff (events : List RouterEvent) {sql : List Char}
    (writes : ∃ part ∈ statements sql, classify part = .write)
    (inTransaction : Bool) (replicas : Replicas) (now : Nat) :
    ((run events).route sql inTransaction replicas now).2 = .to .primary ↔
      parseRouteAssignment sql = none ∧ ¬ Since (Opens OpenToReplica) events ∧
        (Since (Opens fun _ _ _ _ => True) events ∨
          ¬ ((run events).PromisesReadOnly sql ∧
            (run events).ReplicaAtHand sql replicas now)) := by
  obtain ⟨part, listed, partWrites⟩ := writes
  have write := classify_of_statements listed partWrites
  by_cases statement : parseRouteAssignment sql = none
  · rw [route_eq_to_iff statement, ← fixed_ne_none_iff, and_iff_right statement]
    unfold RoutesTo
    cases fixed : (run events).fixed with
    | some target => simpa using fixed_primary_iff events fixed
    | none =>
      have unopened : ¬ Since (Opens OpenToReplica) events := fun since =>
        (fixed_ne_none_iff events).mpr
          (since.mono fun _ _ opens => opens.mono fun _ _ _ _ => trivial) fixed
      have closed : (run events).OpenToReplica sql replicas now ↔
          (run events).PromisesReadOnly sql ∧ (run events).ReplicaAtHand sql replicas now := by
        simp [OpenToReplica, write, and_comm]
      rw [← closed, ← sentTo_primary_iff]
      simp [unopened, SentTo]
  · obtain ⟨assignment, hint⟩ := Option.ne_none_iff_exists'.mp statement
    simp [statement, route_ne_to hint]

def oneReplica : Replicas where
  freshness := 5
  observations := [some ⟨10, true, 0⟩]

def replicaAsked : List RouterEvent :=
  [.message "SET pgprox.route = 'replica'".toList false oneReplica 0]

theorem hinted_update_goes_to_primary :
    ((run replicaAsked).route "SELECT 1; /* pgprox:replica */ UPDATE t SET a = 1".toList false
      oneReplica 0).2 = .to .primary := by
  have fixed : (run replicaAsked).fixed = none := by decide +kernel
  have promised : (run replicaAsked).readOnlyTransaction = false := by decide +kernel
  refine (write_goes_to_primary_iff replicaAsked
    ⟨" /* pgprox:replica */ UPDATE t SET a = 1".toList, by decide +kernel, by decide +kernel⟩
    false oneReplica 0).mpr ⟨by decide +kernel, fun since => ?_, .inr fun promises => ?_⟩
  · exact (fixed_ne_none_iff replicaAsked).mpr
      (since.mono fun _ _ opens => opens.mono fun _ _ _ _ => trivial) fixed
  · rcases promises.1 with earlier | own
    · rw [promised] at earlier
      cases earlier
    · exact absurd own (by decide +kernel)

/-- The update of a transaction that opened under a replica hint, or with a read behind a
`BEGIN` the router did not see, goes to the replica, and so does one that follows a
read-only transaction within its message. -/
theorem update_follows_to_replica :
    let update := "UPDATE t SET a = 1".toList
    let message := fun sql : String => RouterEvent.message sql.toList
    (∃ part ∈ statements update, classify part = .write) ∧
    ((run (replicaAsked ++ [message "BEGIN" false oneReplica 0])).route
      update true oneReplica 0).2 = .to (.replica 0) ∧
    ((run [message "SELECT 1; BEGIN" false oneReplica 0,
      message "SELECT 2" true oneReplica 0]).route update true oneReplica 0).2 =
        .to (.replica 0) ∧
    ((run []).route ("BEGIN READ ONLY; COMMIT; ".toList ++ update) false oneReplica 0).2 =
      .to (.replica 0) := by
  decide +kernel

end SessionRouter

end Pgprox.Route
