/-
Where a statement goes, and the session state that decides it.

The target is chosen at a transaction's first statement and repeated until the
transaction ends.  The rule itself is `RouteCtx.decide`; the router supplies its inputs and
remembers its answer.
-/

import Pgprox.Core.Basic
import Pgprox.Route.Classify
import Pgprox.Route.Hints

namespace Pgprox.Route

open Sql
open List hiding lex

/-! ### Replicas and the read-your-writes floor -/

structure ReplicaState where
  replayed : Nat
  healthy : Bool
  deriving DecidableEq

def ReplicaState.canServe (replica : ReplicaState) (watermark : Option Nat) : Bool :=
  replica.healthy && watermark.all fun floor => floor ≤ replica.replayed

structure Observation where
  replayed : Nat
  inRecovery : Bool
  at_ : Nat
  deriving DecidableEq

structure Replicas where
  freshness : Nat
  observations : List (Option Observation)
  deriving DecidableEq

namespace Replicas

def state (replicas : Replicas) (now : Nat) (observation : Option Observation) : ReplicaState :=
  match observation with
  | none => ⟨0, false⟩
  | some seen =>
    if !seen.inRecovery then ⟨0, false⟩
    else if replicas.freshness < saturatingDurationSince now seen.at_ then ⟨0, false⟩
    else ⟨seen.replayed, true⟩

def fillStates (replicas : Replicas) (now : Nat) : List ReplicaState :=
  replicas.observations.map (replicas.state now)

end Replicas

def advanceWatermark (watermark : Option Nat) (lsn : Nat) : Option Nat :=
  match watermark with
  | some current => if lsn ≤ current then some current else some lsn
  | none => some lsn

theorem le_advanceWatermark (watermark : Option Nat) (lsn : Nat) :
    ∃ floor, advanceWatermark watermark lsn = some floor ∧ lsn ≤ floor := by
  unfold advanceWatermark
  split
  · split
    · rename_i covered
      exact ⟨_, rfl, covered⟩
    · exact ⟨_, rfl, le_rfl⟩
  · exact ⟨_, rfl, le_rfl⟩

theorem Replicas.seen_of_healthy {replicas : Replicas} {now : Nat}
    {observation : Option Observation} (healthy : (replicas.state now observation).healthy = true) :
    ∃ seen, observation = some seen ∧
      (replicas.state now observation).replayed = seen.replayed := by
  cases observation with
  | none => cases healthy
  | some seen =>
    unfold Replicas.state at healthy ⊢
    dsimp only at healthy ⊢
    split at healthy
    · cases healthy
    · split at healthy
      · cases healthy
      · rename_i recovering fresh
        rw [if_neg recovering, if_neg fresh]
        exact ⟨seen, rfl, rfl⟩

/-! ### The rule -/

structure RouteCtx where
  cls : StmtClass
  watermark : Option Nat
  inTransaction : Bool
  pinned : Bool
  wrote : Bool
  hint : RouteHint
  deriving DecidableEq

namespace RouteCtx

def eligible (ctx : RouteCtx) : Bool :=
  match ctx.hint with
  | .replica => ctx.cls ≠ .write
  | _ => ctx.cls.replicaEligible

def decide (ctx : RouteCtx) (replicas : List ReplicaState) : RouteTarget :=
  if ctx.pinned || ctx.inTransaction || ctx.wrote || ctx.hint = .primary then .primary
  else if ctx.eligible then
    match replicas.findIdx? fun replica => replica.canServe ctx.watermark with
    | some index => .replica index
    | none => .primary
  else .primary

/-- Something about the session or the statement rules out every replica. -/
def NeedsPrimary (ctx : RouteCtx) : Prop :=
  ctx.pinned = true ∨ ctx.inTransaction = true ∨ ctx.wrote = true ∨ ctx.hint = .primary ∨
    ctx.eligible = false

def CallsFor (ctx : RouteCtx) (replicas : List ReplicaState) : RouteTarget → Prop
  | .primary =>
    ctx.NeedsPrimary ∨ ∀ replica ∈ replicas, replica.canServe ctx.watermark = false
  | .replica index =>
    ¬ ctx.NeedsPrimary ∧
      replicas.findIdx? (fun replica => replica.canServe ctx.watermark) = some index

theorem decide_eq_iff (ctx : RouteCtx) (replicas : List ReplicaState) (target : RouteTarget) :
    ctx.decide replicas = target ↔ ctx.CallsFor replicas target := by
  have needs : (ctx.pinned || ctx.inTransaction || ctx.wrote || ctx.hint = .primary) = true ∨
      ctx.eligible = false ↔ ctx.NeedsPrimary := by
    simp [NeedsPrimary, or_assoc]
  by_cases forced : ctx.NeedsPrimary
  · have primary : ctx.decide replicas = .primary := by
      unfold decide
      rcases needs.mpr forced with first | second
      · rw [if_pos first]
      · rw [second]
        split
        · rfl
        · rfl
    rw [primary]
    cases target with
    | primary => exact ⟨fun _ => .inl forced, fun _ => rfl⟩
    | replica index => exact ⟨fun same => (nomatch same), fun calls => absurd forced calls.1⟩
  · have free := not_or.mp fun either => forced (needs.mp either)
    have searched : ctx.decide replicas =
        match replicas.findIdx? fun replica => replica.canServe ctx.watermark with
        | some index => .replica index
        | none => .primary := by
      unfold decide
      rw [if_neg free.1, if_pos (Bool.eq_true_of_not_eq_false free.2)]
    rw [searched]
    cases found : replicas.findIdx? fun replica => replica.canServe ctx.watermark with
    | none =>
      have refused := findIdx?_eq_none_iff.mp found
      cases target with
      | primary => exact ⟨fun _ => .inr refused, fun _ => rfl⟩
      | replica index =>
        refine ⟨fun same => (nomatch same), fun calls => ?_⟩
        exact absurd (found.symm.trans calls.2) (by simp)
    | some first =>
      cases target with
      | primary =>
        refine ⟨fun same => (nomatch same), fun calls => ?_⟩
        have refused := calls.resolve_left forced
        rw [findIdx?_eq_none_iff.mpr refused] at found
        cases found
      | replica index =>
        constructor
        · intro same
          exact ⟨forced, found.trans (congrArg some (RouteTarget.replica.inj same))⟩
        · intro calls
          rw [Option.some.inj (found.symm.trans calls.2)]

/-- A replica is called for only when no write is unconfirmed, and on an observation that
has reached the floor. -/
theorem observed_of_callsFor {ctx : RouteCtx} {replicas : Replicas} {now index : Nat}
    (calls : ctx.CallsFor (replicas.fillStates now) (.replica index)) :
    ctx.wrote = false ∧ ∃ seen, replicas.observations[index]? = some (some seen) ∧
      ∀ floor, ctx.watermark = some floor → floor ≤ seen.replayed := by
  obtain ⟨free, found⟩ := calls
  constructor
  · by_contra wrote
    exact free (.inr (.inr (.inl (Bool.eq_true_of_not_eq_false wrote))))
  · obtain ⟨inside, serves, -⟩ := findIdx?_eq_some_iff_getElem.mp found
    have listed : index < replicas.observations.length := by
      simpa [Replicas.fillStates] using inside
    have state : (replicas.fillStates now)[index] =
        replicas.state now replicas.observations[index] := by
      simp [Replicas.fillStates]
    rw [state] at serves
    obtain ⟨healthy, reached⟩ := (Bool.and_eq_true _ _).mp serves
    obtain ⟨seen, observed, replayed⟩ := Replicas.seen_of_healthy healthy
    refine ⟨seen, ?_, ?_⟩
    · rw [getElem?_eq_getElem listed, observed]
    · intro floor current
      rw [current, Option.all_some, replayed] at reached
      exact of_decide_eq_true reached

end RouteCtx

/-! ### The router of one session -/

inductive Routed
  | to (target : RouteTarget)
  | hintAccepted
  | hintRejected
  deriving DecidableEq

structure SessionRouter where
  hint : RouteHint
  watermark : Option Nat
  fixed : Option RouteTarget
  readOnlyTransaction : Bool
  pinned : Bool
  wrote : Bool
  deriving DecidableEq

namespace SessionRouter

def new : SessionRouter where
  hint := .auto
  watermark := none
  fixed := none
  readOnlyTransaction := false
  pinned := false
  wrote := false

def setPinned (router : SessionRouter) (pinned : Bool) : SessionRouter :=
  { router with pinned := pinned }

def recordWrite (router : SessionRouter) (lsn : Nat) : SessionRouter :=
  { router with watermark := advanceWatermark router.watermark lsn, wrote := false }

def endTransaction (router : SessionRouter) : SessionRouter :=
  { router with fixed := none, readOnlyTransaction := false }

def assign (router : SessionRouter) : RouteAssignment → SessionRouter × Routed
  | .set hint => ({ router with hint := hint }, .hintAccepted)
  | .reset => ({ router with hint := .auto }, .hintAccepted)
  | .invalid => (router, .hintRejected)

def classOf (readOnlyTransaction : Bool) (sql : List Char) : StmtClass :=
  if readOnlyTransaction then .readOnly else classify sql

def context (router : SessionRouter) (sql : List Char) : RouteCtx where
  cls := classOf (router.readOnlyTransaction || beginsReadOnlyTransaction sql) sql
  watermark := router.watermark
  inTransaction := false
  pinned := router.pinned
  wrote := router.wrote
  hint := (statementHint sql).getD router.hint

def route (router : SessionRouter) (sql : List Char) (inTransaction : Bool)
    (replicas : Replicas) (now : Nat) : SessionRouter × Routed :=
  match parseRouteAssignment sql with
  | some assignment => router.assign assignment
  | none =>
    match router.fixed with
    | some target =>
      -- the target is fixed, what counts as a write is not
      let wrote := router.wrote || (!router.readOnlyTransaction && classify sql = .write)
      ({ router with wrote := wrote }, .to target)
    | none =>
      let readOnly := router.readOnlyTransaction || beginsReadOnlyTransaction sql
      let target := (router.context sql).decide (replicas.fillStates now)
      ({ router with
          readOnlyTransaction := readOnly
          wrote := router.wrote || classOf readOnly sql = .write
          fixed := if inTransaction || beginsTransaction sql then some target
            else none },
        .to target)

def RoutesTo (router : SessionRouter) (sql : List Char) (replicas : Replicas) (now : Nat)
    (target : RouteTarget) : Prop :=
  match router.fixed with
  | some fixed => fixed = target
  | none => (router.context sql).CallsFor (replicas.fillStates now) target

variable {router : SessionRouter} {sql : List Char} {inTransaction : Bool} {replicas : Replicas}

theorem route_eq_to_iff {now : Nat} {target : RouteTarget}
    (statement : parseRouteAssignment sql = none) :
    (router.route sql inTransaction replicas now).2 = .to target ↔
      router.RoutesTo sql replicas now target := by
  unfold route RoutesTo
  rw [statement]
  cases router.fixed with
  | some fixed => exact ⟨Routed.to.inj, congrArg Routed.to⟩
  | none =>
    rw [← RouteCtx.decide_eq_iff]
    exact ⟨Routed.to.inj, congrArg Routed.to⟩

theorem route_of_statement (statement : parseRouteAssignment sql = none) (router : SessionRouter)
    (inTransaction : Bool) (replicas : Replicas) (now : Nat) :
    ∃ target, (router.route sql inTransaction replicas now).2 = .to target := by
  unfold route
  rw [statement]
  cases router.fixed with
  | some fixed => exact ⟨fixed, rfl⟩
  | none => exact ⟨_, rfl⟩

theorem route_ne_to {now : Nat} {assignment : RouteAssignment}
    (hint : parseRouteAssignment sql = some assignment) (target : RouteTarget) :
    (router.route sql inTransaction replicas now).2 ≠ .to target := by
  unfold route
  rw [hint]
  cases assignment <;> exact Routed.noConfusion

theorem routesTo_of_route {now : Nat} {target : RouteTarget}
    (routed : (router.route sql inTransaction replicas now).2 = .to target) :
    parseRouteAssignment sql = none ∧ router.RoutesTo sql replicas now target := by
  cases hint : parseRouteAssignment sql with
  | some assignment => exact absurd routed (route_ne_to hint target)
  | none => exact ⟨rfl, (route_eq_to_iff hint).mp routed⟩

theorem routesTo_unique {now : Nat} {one two : RouteTarget}
    (first : router.RoutesTo sql replicas now one) (second : router.RoutesTo sql replicas now two) :
    one = two := by
  unfold RoutesTo at first second
  cases current : router.fixed with
  | some fixed =>
    rw [current] at first second
    exact first.symm.trans second
  | none =>
    rw [current] at first second
    exact ((RouteCtx.decide_eq_iff _ _ _).mpr first).symm.trans
      ((RouteCtx.decide_eq_iff _ _ _).mpr second)

theorem exists_routesTo (router : SessionRouter) (sql : List Char) (replicas : Replicas)
    (now : Nat) : ∃ target, router.RoutesTo sql replicas now target := by
  unfold RoutesTo
  cases router.fixed with
  | some fixed => exact ⟨fixed, rfl⟩
  | none => exact ⟨_, (RouteCtx.decide_eq_iff _ _ _).mp rfl⟩

/-! ### What a statement changes in the router -/

@[simp] theorem route_watermark (router : SessionRouter) (sql : List Char)
    (inTransaction : Bool) (replicas : Replicas) (now : Nat) :
    (router.route sql inTransaction replicas now).1.watermark = router.watermark := by
  unfold route
  split
  · rename_i assignment _
    cases assignment <;> rfl
  · split
    · rfl
    · rfl

@[simp] theorem route_pinned (router : SessionRouter) (sql : List Char)
    (inTransaction : Bool) (replicas : Replicas) (now : Nat) :
    (router.route sql inTransaction replicas now).1.pinned = router.pinned := by
  unfold route
  split
  · rename_i assignment _
    cases assignment <;> rfl
  · split
    · rfl
    · rfl

theorem route_wrote_of_wrote (wrote : router.wrote = true) (sql : List Char)
    (inTransaction : Bool) (replicas : Replicas) (now : Nat) :
    (router.route sql inTransaction replicas now).1.wrote = true := by
  unfold route
  split
  · rename_i assignment _
    cases assignment <;> exact wrote
  · split
    · simp [wrote]
    · simp [wrote]

theorem route_fixed (router : SessionRouter) (sql : List Char) (inTransaction : Bool)
    (replicas : Replicas) (now : Nat) :
    (router.route sql inTransaction replicas now).1.fixed = router.fixed ∨
      router.fixed = none ∧ ∃ target,
        (router.route sql inTransaction replicas now).1.fixed = some target ∧
          (router.route sql inTransaction replicas now).2 = .to target := by
  unfold route
  split
  · rename_i assignment _
    cases assignment <;> exact .inl rfl
  · cases current : router.fixed with
    | some target => exact .inl rfl
    | none =>
      dsimp only
      split
      · exact .inr ⟨rfl, _, rfl, rfl⟩
      · exact .inl rfl

def promised (router : SessionRouter) (sql : List Char) : Bool :=
  router.readOnlyTransaction || (router.fixed.isNone && beginsReadOnlyTransaction sql)

theorem route_wrote_of_write (statement : parseRouteAssignment sql = none)
    (write : classify sql = .write) (free : router.promised sql = false) (inTransaction : Bool)
    (replicas : Replicas) (now : Nat) :
    (router.route sql inTransaction replicas now).1.wrote = true := by
  obtain ⟨closed, silent⟩ := Bool.or_eq_false_iff.mp free
  unfold route
  rw [statement]
  cases current : router.fixed with
  | some target => simp [closed, write]
  | none =>
    rw [current] at silent
    have quiet : beginsReadOnlyTransaction sql = false := silent
    simp [classOf, closed, quiet, write]

end SessionRouter

end Pgprox.Route
