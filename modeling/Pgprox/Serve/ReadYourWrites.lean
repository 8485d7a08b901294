/-
Reads of a session after its own writes.

The router keeps a floor that a replica must have reached, and a flag while the floor does
not cover a write yet.  The flag is raised by the class of a statement's text only, so a
write that runs without its text leaves the floor behind the commit.
-/

import Pgprox.Serve.OneConnection

namespace Pgprox.Serve

open Proto Pools Route Session

structure Tracked where
  live : Live
  portals : FiniteMap Text Text
  /-- A statement that writes has run on the primary since the last idle
  `ReadyForQuery`. -/
  running : Bool
  /-- Where the session's writes were committed. -/
  commits : List Nat
  /-- The observation the fixed target was chosen on. -/
  basis : Option Observation

inductive WriteEvent
  | loop (event : LoopEvent)
  /-- The primary commits what the session wrote. -/
  | committed (lsn : Nat)

def statementOf (portals : FiniteMap Text Text) : FrontendMessage → Option Text
  | .query sql => some sql
  | .execute portal _ => portals.lookup portal
  | _ => none

def sentTo (outputs : List Output) (message : FrontendMessage) : Bool :=
  outputs.any fun output => match output with
    | .toServer _ frame => frame = message
    | _ => false

namespace Tracked

def start (mode : PoolMode) (statementTimeout : Option Nat) (settings : List (Text × Text)) :
    Tracked where
  live := .start mode statementTimeout settings
  portals := ∅
  running := false
  commits := []
  basis := none

def portalsAfter (tracked : Tracked) : FrontendMessage → FiniteMap Text Text
  | .bind portal statement _ =>
    match tracked.live.session.statements.get statement with
    | some prepared => tracked.portals.insert portal prepared.sql
    | none => tracked.portals
  | .close .portal name => tracked.portals.erase name
  -- a simple query takes the unnamed portal with it
  | .query _ => tracked.portals.erase []
  | _ => tracked.portals

def basisAfter (tracked : Tracked) (after : Live) (replicas : Replicas) : Option Observation :=
  match tracked.live.relay.router.fixed, after.relay.router.fixed with
  | none, some (.replica index) => replicas.observations.getD index none
  | _, _ => tracked.basis

def takeClient (writes : Text → Bool) (tracked : Tracked) (message : FrontendMessage)
    (replicas : Replicas) (now : Nat) (lent : Option Upstreamed) : Tracked :=
  let after := tracked.live.step (.client message replicas now lent)
  { live := after.1
    portals := tracked.portalsAfter message
    running := tracked.running ||
      (sentTo after.2 message && after.1.serving = .primary &&
        (statementOf tracked.portals message).any writes)
    commits := tracked.commits
    basis := tracked.basisAfter after.1 replicas }

def takeServer (tracked : Tracked) (message : BackendMessage) (position : Option Nat) :
    Tracked :=
  let after := (tracked.live.step (.server message position)).1
  match tracked.live.phase with
  | .pumping _ =>
    if message = .readyForQuery .idle then
      -- the transaction is over, and its portals with it
      { tracked with live := after, portals := ∅, running := false }
    else { tracked with live := after }
  | _ => tracked

def step (writes : Text → Bool) (tracked : Tracked) : WriteEvent → Tracked
  | .committed lsn => { tracked with commits := lsn :: tracked.commits }
  | .loop (.client message replicas now lent) =>
    tracked.takeClient writes message replicas now lent
  | .loop (.server message position) => tracked.takeServer message position
  | .loop .lost => { tracked with live := (tracked.live.step .lost).1 }

/-- Only what has run is committed, and a probe reports a position at or past every commit
before it.  On a replica the probe is refused. -/
def Allowed (tracked : Tracked) : WriteEvent → Prop
  | .committed _ => tracked.running = true
  | .loop (.server _ (some position)) => ∀ lsn ∈ tracked.commits, lsn ≤ position
  | _ => True

instance (tracked : Tracked) : (event : WriteEvent) → Decidable (tracked.Allowed event)
  | .committed _ => inferInstanceAs (Decidable (tracked.running = true))
  | .loop (.server _ (some position)) =>
    inferInstanceAs (Decidable (∀ lsn ∈ tracked.commits, lsn ≤ position))
  | .loop (.server _ none) => .isTrue trivial
  | .loop (.client ..) => .isTrue trivial
  | .loop .lost => .isTrue trivial

def routedOn (tracked : Tracked) (replicas : Replicas) (index : Nat) : Option Observation :=
  match tracked.live.relay.router.fixed with
  | some _ => tracked.basis
  | none => replicas.observations.getD index none

/-- A statement that is to write on the primary raises the router's flag: its own text
does, or the flag is up already. -/
def Noted (writes : Text → Bool) (tracked : Tracked) (message : FrontendMessage)
    (replicas : Replicas) (now : Nat) : Prop :=
  let router := tracked.live.relay.router
  match tracked.live.phase, message with
  | .copying _, _ => ∀ sql, statementOf tracked.portals message = some sql → writes sql = false
  | _, .query sql =>
    writes sql = true → parseRouteAssignment sql = none →
      (pinnedBy tracked.live.relay sql).router.RoutesTo sql replicas now .primary →
        router.wrote = true ∨ classify sql = .write ∧ router.promised sql = false
  | _, .execute portal _ =>
    ∀ sql, tracked.portals.lookup portal = some sql → writes sql = true →
      router.wrote = true ∧ ∀ index, router.fixed ≠ some (.replica index)
  | _, _ => True

def EventNoted (writes : Text → Bool) (tracked : Tracked) : WriteEvent → Prop
  | .loop (.client message replicas now _) => tracked.Noted writes message replicas now
  | _ => True

end Tracked

/-! ### Where a statement that is sent runs -/

theorem not_sentTo_queueAnswer (routed : Routed) (message : FrontendMessage) :
    sentTo (queueAnswer routed) message = false := by
  unfold queueAnswer
  split
  · rfl
  · rfl

namespace Live

theorem act_sentTo {live : Live} {message onward : FrontendMessage} {lent : Option Upstreamed}
    {action : ClientAction} (sent : sentTo (live.act message onward lent action).2 message = true) :
    ∃ target acquire, action = .send target acquire ∧
      (live.act message onward lent action).1.serving =
        if acquire then target else live.serving := by
  cases action with
  | close => cases sent
  | answer routed =>
    change sentTo (queueAnswer routed) message = true at sent
    rw [not_sentTo_queueAnswer] at sent
    cases sent
  | send target acquire =>
    refine ⟨target, acquire, rfl, ?_⟩
    cases acquire with
    | true =>
      cases lent with
      | none => cases sent
      | some taken => exact (sendOn_eq _ taken message onward).2.1
    | false =>
      cases current : live.upstream with
      | none =>
        simp only [act, current] at sent
        cases sent
      | some upstream =>
        simp only [act, current]
        exact (sendOn_eq live upstream message onward).2.1

theorem takeFrame_sentTo {live : Live} (holding : live.Holding) {message : FrontendMessage}
    {replicas : Replicas} {now : Nat} {lent : Option Upstreamed}
    (sent : sentTo (live.takeFrame message replicas now lent).2 message = true) :
    (live.takeFrame message replicas now lent).1.relay.router =
        (live.relay.onClient message replicas now).1.router ∧
      ∃ acquire, (live.relay.onClient message replicas now).2.action =
        .send (live.takeFrame message replicas now lent).1.serving acquire := by
  unfold takeFrame at sent ⊢
  split at sent
  · cases sent
  · obtain ⟨target, acquire, action, serving⟩ := act_sentTo sent
    refine ⟨act_router .., acquire, ?_⟩
    rw [serving, action]
    cases acquire with
    | true => rfl
    | false =>
      -- nothing is acquired: the connection in hand is for that target
      have held : live.relay.held = some target := by
        have kept := acquire_of_send action
        simpa using kept
      rw [holding.held] at held
      obtain ⟨_, -, same⟩ := Option.map_eq_some_iff.mp held
      rw [← same]
      rfl

end Live

namespace Tracked

theorem pinnedBy_promised (relay : Relay) (sql : Text) :
    (pinnedBy relay sql).router.promised sql = relay.router.promised sql := by
  unfold SessionRouter.promised
  rw [(pinnedBy_router relay sql).2.2.1, (pinnedBy_router relay sql).2.2.2]

/-! ### The invariant -/

structure Covered (tracked : Tracked) : Prop where
  holding : tracked.live.Holding
  running : tracked.running = true → tracked.live.relay.router.wrote = true ∧
    ∀ index, tracked.live.relay.router.fixed ≠ some (.replica index)
  committed : ∀ lsn ∈ tracked.commits, tracked.live.relay.router.wrote = true ∨
    ∃ floor, tracked.live.relay.router.watermark = some floor ∧ lsn ≤ floor
  fixed : ∀ index, tracked.live.relay.router.fixed = some (.replica index) →
    ∃ seen, tracked.basis = some seen ∧ ∀ lsn ∈ tracked.commits, lsn ≤ seen.replayed

variable {tracked : Tracked} {replicas : Replicas}

theorem Covered.observed (covered : tracked.Covered) {sql : Text} {now index : Nat}
    (unfixed : tracked.live.relay.router.fixed = none)
    (routes : (pinnedBy tracked.live.relay sql).router.RoutesTo sql replicas now
      (.replica index)) :
    tracked.live.relay.router.wrote = false ∧
      ∃ seen, replicas.observations.getD index none = some seen ∧
        ∀ lsn ∈ tracked.commits, lsn ≤ seen.replayed := by
  obtain ⟨wrote, watermark, fixed, -⟩ := pinnedBy_router tracked.live.relay sql
  unfold SessionRouter.RoutesTo at routes
  rw [fixed, unfixed] at routes
  obtain ⟨confirmed, seen, listed, reached⟩ := RouteCtx.observed_of_callsFor routes
  have silent : tracked.live.relay.router.wrote = false := wrote.symm.trans confirmed
  refine ⟨silent, seen, ?_, ?_⟩
  · rw [List.getD_eq_getElem?_getD, listed]
    rfl
  · intro lsn known
    rcases covered.committed lsn known with flagged | ⟨floor, current, below⟩
    · rw [silent] at flagged
      cases flagged
    · exact below.trans (reached floor (watermark.trans current))

theorem Covered.client_router (covered : tracked.Covered) (message : FrontendMessage)
    (replicas : Replicas) (now : Nat) (lent : Option Upstreamed) :
    let before := tracked.live.relay.router
    let after := (tracked.live.step (.client message replicas now lent)).1.relay.router
    after.watermark = before.watermark ∧ (before.wrote = true → after.wrote = true) ∧
      (after.fixed = before.fixed ∨ before.fixed = none ∧ ∀ index,
        after.fixed = some (.replica index) → before.wrote = false ∧
          ∃ seen, replicas.observations.getD index none = some seen ∧
            ∀ lsn ∈ tracked.commits, lsn ≤ seen.replayed) := by
  intro before after
  have unmoved : after = before → after.watermark = before.watermark ∧
      (before.wrote = true → after.wrote = true) ∧ after.fixed = before.fixed := by
    intro same
    rw [same]
    exact ⟨rfl, id, rfl⟩
  rcases Live.step_client_router tracked.live message replicas now lent with same | ⟨-, decided⟩
  · exact ⟨(unmoved same).1, (unmoved same).2.1, .inl (unmoved same).2.2⟩
  · rcases onClient_router tracked.live.relay message replicas now with
      same | ⟨sql, inTransaction, -, routed⟩
    · have whole := unmoved (decided.trans same)
      exact ⟨whole.1, whole.2.1, .inl whole.2.2⟩
    · obtain ⟨wrote, watermark, fixed, -⟩ := pinnedBy_router tracked.live.relay sql
      have moved : after = _ := decided.trans routed
      rw [moved]
      refine ⟨?_, ?_, ?_⟩
      · rw [SessionRouter.route_watermark, watermark]
      · intro flagged
        exact SessionRouter.route_wrote_of_wrote (wrote.trans flagged) _ _ _ _
      · rcases (pinnedBy tracked.live.relay sql).router.route_fixed sql inTransaction replicas now
          with kept | ⟨unfixed, target, chosen, answered⟩
        · exact .inl (kept.trans fixed)
        · have free : before.fixed = none := fixed.symm.trans unfixed
          refine .inr ⟨free, fun index replica => ?_⟩
          rw [chosen] at replica
          rw [Option.some.inj replica] at answered
          exact covered.observed free (SessionRouter.routesTo_of_route answered).2

variable {writes : Text → Bool}

theorem Covered.written (covered : tracked.Covered) {message : FrontendMessage} {now : Nat}
    {lent : Option Upstreamed} (noted : tracked.Noted writes message replicas now) {sql : Text}
    (statement : statementOf tracked.portals message = some sql) (write : writes sql = true)
    (sent : sentTo (tracked.live.step (.client message replicas now lent)).2 message = true)
    (primary : (tracked.live.step (.client message replicas now lent)).1.serving = .primary) :
    let after := (tracked.live.step (.client message replicas now lent)).1.relay.router
    after.wrote = true ∧ ∀ index, after.fixed ≠ some (.replica index) := by
  intro after
  obtain ⟨-, flagged, fixed⟩ := covered.client_router message replicas now lent
  unfold Noted at noted
  cases phase : tracked.live.phase with
  | pumping | closed =>
    simp only [Live.step, phase] at sent
    cases sent
  | copying flushing =>
    rw [phase] at noted
    rw [noted sql statement] at write
    cases write
  | reading =>
    rw [phase] at noted
    have taken : tracked.live.step (.client message replicas now lent) =
        tracked.live.takeFrame message replicas now lent := by
      simp only [Live.step, phase]
    cases message with
    | query text =>
      obtain rfl : text = sql := Option.some.inj statement
      rw [taken] at sent primary
      obtain ⟨decided, acquire, action⟩ := Live.takeFrame_sentTo covered.holding sent
      rw [primary] at action
      obtain ⟨assignment, routes⟩ := routesTo_of_send rfl action
      have carried : (FrontendMessage.query text).sql? = some text := rfl
      obtain ⟨inTransaction, routed⟩ :=
        onClient_router_of_sql tracked.live.relay carried replicas now
      have moved : after =
          ((pinnedBy tracked.live.relay text).router.route text inTransaction replicas now).1 :=
        (congrArg (fun taken => taken.1.relay.router) taken).trans (decided.trans routed)
      constructor
      · rcases noted write assignment routes with wrote | ⟨write, free⟩
        · exact flagged wrote
        · rw [moved]
          apply SessionRouter.route_wrote_of_write assignment write
          exact (pinnedBy_promised _ text).trans free
      · rw [moved]
        rcases SessionRouter.route_fixed (pinnedBy tracked.live.relay text).router text
          inTransaction replicas now with kept | ⟨-, target, chosen, answered⟩
        · rw [kept]
          intro index replica
          unfold SessionRouter.RoutesTo at routes
          rw [replica] at routes
          cases routes
        · have same := SessionRouter.routesTo_unique routes
            (SessionRouter.routesTo_of_route answered).2
          rw [chosen, ← same]
          exact fun index => nofun
    | execute portal maxRows =>
      obtain ⟨wrote, unfixed⟩ := noted sql statement write
      refine ⟨flagged wrote, fun index replica => ?_⟩
      rcases fixed with kept | ⟨-, moved⟩
      · exact unfixed index (kept.symm.trans replica)
      · rw [(moved index replica).1] at wrote
        cases wrote
    | _ => cases statement

theorem Covered.takeClient (covered : tracked.Covered) {message : FrontendMessage} {now : Nat}
    (lent : Option Upstreamed) (noted : tracked.Noted writes message replicas now) :
    (tracked.takeClient writes message replicas now lent).Covered := by
  obtain ⟨watermark, flagged, fixed⟩ := covered.client_router message replicas now lent
  constructor
  · exact covered.holding.step _
  · intro running
    rcases (Bool.or_eq_true _ _).mp running with earlier | here
    · obtain ⟨wrote, unfixed⟩ := covered.running earlier
      refine ⟨flagged wrote, fun index replica => ?_⟩
      rcases fixed with kept | ⟨-, moved⟩
      · exact unfixed index (kept.symm.trans replica)
      · rw [(moved index replica).1] at wrote
        cases wrote
    · obtain ⟨reaches, write⟩ := (Bool.and_eq_true _ _).mp here
      obtain ⟨sent, primary⟩ := (Bool.and_eq_true _ _).mp reaches
      obtain ⟨sql, statement, writing⟩ := (Option.any_eq_true _ _).mp write
      exact covered.written noted statement writing sent (of_decide_eq_true primary)
  · intro lsn known
    rcases covered.committed lsn known with wrote | ⟨floor, current, below⟩
    · exact .inl (flagged wrote)
    · exact .inr ⟨floor, watermark.trans current, below⟩
  · intro index replica
    change (tracked.live.step _).1.relay.router.fixed = _ at replica
    change ∃ seen, tracked.basisAfter _ replicas = _ ∧ _
    unfold basisAfter
    rcases fixed with kept | ⟨unfixed, moved⟩
    · have before := kept.symm.trans replica
      rw [before]
      exact covered.fixed index before
    · rw [unfixed, replica]
      exact (moved index replica).2

theorem Covered.takeServer (covered : tracked.Covered) {message : BackendMessage}
    {position : Option Nat} (allowed : tracked.Allowed (.loop (.server message position))) :
    (tracked.takeServer message position).Covered := by
  unfold Tracked.takeServer
  split
  · rename_i flushing pumping
    have taken := Live.step_server pumping message position
    have holding := covered.holding.step (.server message position)
    have router := Live.takeAnswer_router tracked.live flushing message position
    rw [← taken] at router
    have fixed := Relay.onServer_fixed tracked.live.relay message
    split
    · rename_i idle
      rw [if_pos idle] at fixed
      rcases router with heard | ⟨-, lsn, known, recorded⟩
      · constructor
        · exact holding
        · exact nofun
        · rw [heard, Relay.onServer_wrote, Relay.onServer_watermark]
          exact covered.committed
        · rw [heard, fixed]
          exact fun index => nofun
      · constructor
        · exact holding
        · exact nofun
        · rw [recorded]
          intro committed listed
          obtain ⟨floor, raised, below⟩ := le_advanceWatermark
            (tracked.live.relay.onServer message).1.router.watermark lsn
          rw [known] at allowed
          exact .inr ⟨floor, raised, (allowed committed listed).trans below⟩
        · rw [recorded]
          change ∀ index, (tracked.live.relay.onServer message).1.router.fixed = _ → _
          rw [fixed]
          exact fun index => nofun
    · rename_i busy
      have heard := router.resolve_right fun recorded => busy recorded.1
      rw [if_neg busy] at fixed
      constructor
      · exact holding
      · rw [heard, Relay.onServer_wrote, fixed]
        exact covered.running
      · rw [heard, Relay.onServer_wrote, Relay.onServer_watermark]
        exact covered.committed
      · rw [heard, fixed]
        exact covered.fixed
  · exact covered

theorem covered_start (mode : PoolMode) (statementTimeout : Option Nat)
    (settings : List (Text × Text)) : (start mode statementTimeout settings).Covered := by
  constructor
  · exact Live.holding_start mode statementTimeout settings
  · exact nofun
  · exact nofun
  · change ∀ index, (Relay.new.onStartupSettings settings).router.fixed = _ → _
    rw [Relay.onStartupSettings_fixed]
    exact fun index => nofun

theorem Covered.step (covered : tracked.Covered) {event : WriteEvent}
    (allowed : tracked.Allowed event) (noted : tracked.EventNoted writes event) :
    (tracked.step writes event).Covered := by
  cases event with
  | committed lsn =>
    -- what runs has the flag up, so the new commit is covered by it
    obtain ⟨wrote, unfixed⟩ := covered.running allowed
    exact ⟨covered.holding, covered.running, fun _ _ => .inl wrote,
      fun index replica => absurd replica (unfixed index)⟩
  | loop event =>
    cases event with
    | client message replicas now lent => exact covered.takeClient lent noted
    | server message position => exact covered.takeServer allowed
    | lost =>
      exact ⟨covered.holding.step .lost, covered.running, covered.committed, covered.fixed⟩

end Tracked

/-- Along every run in which each statement that writes on the primary raises the router's
flag, a statement is routed to a replica only on an observation that has reached every
commit of the session. -/
theorem replica_reads_reach_commits (writes : Text → Bool) (mode : PoolMode)
    (statementTimeout : Option Nat) (settings : List (Text × Text)) (tracked : Tracked)
    (reached : Run.Reachable (Tracked.start mode statementTimeout settings)
      (fun tracked event => tracked.Allowed event ∧ tracked.EventNoted writes event)
      (Tracked.step writes) tracked)
    (message : FrontendMessage) (replicas : Replicas) (now index : Nat) (acquire : Bool)
    (routed : (tracked.live.relay.onClient message replicas now).2.action =
      .send (.replica index) acquire) :
    ∃ seen, tracked.routedOn replicas index = some seen ∧
      ∀ lsn ∈ tracked.commits, lsn ≤ seen.replayed := by
  have covered : tracked.Covered := by
    apply reached.invariant
    · exact Tracked.covered_start mode statementTimeout settings
    · intro before event covered allowed
      exact covered.step allowed.1 allowed.2
  have carried : ∃ sql, message.sql? = some sql := by
    cases found : message.sql? with
    | some sql => exact ⟨sql, rfl⟩
    | none =>
      by_cases ends : message = .terminate
      · rw [ends] at routed
        cases routed
      · rw [onClient_action_of_no_sql found ends] at routed
        cases routed
  obtain ⟨sql, carried⟩ := carried
  obtain ⟨-, routes⟩ := routesTo_of_send carried routed
  unfold Tracked.routedOn
  cases current : tracked.live.relay.router.fixed with
  | none => exact (covered.observed current routes).2
  | some target =>
    unfold SessionRouter.RoutesTo at routes
    rw [(pinnedBy_router tracked.live.relay sql).2.2.1, current] at routes
    rw [routes] at current
    exact covered.fixed index current

/-! ### A write that raises the flag, and one that does not -/

def notReadOnly (sql : Text) : Bool :=
  classify sql ≠ .readOnly

def replicaAt (replayed : Nat) : Replicas where
  freshness := 1000
  observations := [some { replayed := replayed, inRecovery := true, at_ := 0 }]

def sessionStart : Tracked :=
  .start .transaction none []

def fromClient (message : FrontendMessage) (id : Nat) : WriteEvent :=
  .loop (.client message noReplica 0 (some (connection id)))

def ready (position : Option Nat) : WriteEvent :=
  .loop (.server (.readyForQuery .idle) position)

def update : Text := "UPDATE t SET a = 1".toList

def afterUpdate : Tracked :=
  (((sessionStart.step notReadOnly (fromClient (.query update) 1)).step notReadOnly
    (.committed 7)).step notReadOnly (ready (some 9)))

/-- The write was sent as a query: the next read goes to a replica that has reached it. -/
theorem replica_read_reaches_update :
    ∃ seen, afterUpdate.routedOn (replicaAt 12) 0 = some seen ∧
      ∀ lsn ∈ afterUpdate.commits, lsn ≤ seen.replayed := by
  refine replica_reads_reach_commits notReadOnly .transaction none [] afterUpdate ?_
    (.query "SELECT 1".toList) (replicaAt 12) 0 0 true (by decide +kernel)
  refine .step (.step (.step .start ⟨trivial, ?_⟩) ⟨?_, trivial⟩) ⟨?_, trivial⟩
  · intro _ _ _
    exact .inr ⟨by decide +kernel, by decide +kernel⟩
  · decide +kernel
  · decide +kernel

def preparedUpdate : List WriteEvent :=
  [fromClient (.parse "s1".toList update) 1, fromClient .sync 1,
    .loop (.server .parseComplete none), ready (some 10),
    fromClient (.bind [] "s1".toList []) 2, fromClient (.execute [] 0) 2, fromClient .sync 2,
    .loop (.server .parseComplete none), .loop (.server .bindComplete none),
    .loop (.server (.commandComplete "UPDATE 1".toList) none), .committed 20, ready none]

def afterPreparedUpdate : Tracked :=
  preparedUpdate.foldl (Tracked.step notReadOnly) sessionStart

/-- Running a statement parsed earlier raises no flag: the floor stays behind the commit,
and the next read goes to a replica that has not reached it. -/
theorem replica_read_misses_prepared_update :
    ¬ ∀ writes : Text → Bool, (∀ sql, classify sql = .readOnly → writes sql = false) →
      ∀ (mode : PoolMode) (statementTimeout : Option Nat) (settings : List (Text × Text))
        (tracked : Tracked),
        Run.Reachable (Tracked.start mode statementTimeout settings) Tracked.Allowed
          (Tracked.step writes) tracked →
        ∀ (message : FrontendMessage) (replicas : Replicas) (now index : Nat) (acquire : Bool),
          (tracked.live.relay.onClient message replicas now).2.action =
            .send (.replica index) acquire →
          ∃ seen, tracked.routedOn replicas index = some seen ∧
            ∀ lsn ∈ tracked.commits, lsn ≤ seen.replayed := by
  intro always
  have honest : ∀ sql, classify sql = .readOnly → notReadOnly sql = false := by
    intro sql read
    simp [notReadOnly, read]
  have reached : Run.Reachable sessionStart Tracked.Allowed (Tracked.step notReadOnly)
      afterPreparedUpdate :=
    Run.Reachable.start.foldl (by decide +kernel)
  obtain ⟨seen, observed, covers⟩ := always notReadOnly honest .transaction none []
    afterPreparedUpdate reached (.query "SELECT 1".toList) (replicaAt 15) 0 0 true
    (by decide +kernel)
  have fifteen : seen.replayed = 15 := by
    have same : afterPreparedUpdate.routedOn (replicaAt 15) 0 =
        some { replayed := 15, inRecovery := true, at_ := 0 } := by
      decide +kernel
    rw [← Option.some.inj (same.symm.trans observed)]
  have late := covers 20 (by decide +kernel)
  omega

end Pgprox.Serve
