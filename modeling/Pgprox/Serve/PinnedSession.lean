/-
What a pinned session does with the connection it holds.

The pin keeps an idle `ReadyForQuery` from releasing the connection, and makes the router
choose the primary.  It does not say which connection the session is bound to.
-/

import Pgprox.Serve.OneConnection

namespace Pgprox.Pools

theorem PinState.observeStatement_cases (state : PinState) (sql : List Char)
    (allowlist : Replayable) :
    state.observeStatement sql allowlist = (state, none) ∨
      ∃ reason, state.observeStatement sql allowlist = (⟨some reason⟩, some reason) := by
  unfold observeStatement
  split
  · exact .inl rfl
  · split
    · exact .inl rfl
    · exact .inr ⟨_, rfl⟩

theorem PinState.pin_cases (state : PinState) (reason : PinReason) :
    state.isPinned = true ∧ state.pin reason = (state, false) ∨
      state.isPinned = false ∧ state.pin reason = (⟨some reason⟩, true) := by
  unfold pin isPinned
  cases state.reason with
  | none => exact .inr ⟨rfl, rfl⟩
  | some known => exact .inl ⟨rfl, rfl⟩

theorem PinState.observeNotification_cases (state : PinState) :
    state.observeNotification = (state, none) ∨
      ∃ reason, state.observeNotification = (⟨some reason⟩, some reason) := by
  unfold observeNotification
  rcases state.pin_cases .listen with ⟨-, same⟩ | ⟨-, new⟩
  · rw [same]
    exact .inl rfl
  · rw [new]
    exact .inr ⟨_, rfl⟩

end Pgprox.Pools

namespace Pgprox.Session

open Proto Pools Route

namespace Relay

def PinAgrees (relay : Relay) : Prop :=
  relay.router.pinned = relay.pin.isPinned

variable {relay : Relay}

theorem PinAgrees.withPin (agrees : relay.PinAgrees) {observed : PinState × Option PinReason}
    (cases_ : observed = (relay.pin, none) ∨ ∃ reason, observed = (⟨some reason⟩, some reason)) :
    (relay.withPin observed).PinAgrees := by
  rcases cases_ with rfl | ⟨reason, rfl⟩
  · exact agrees
  · rfl

theorem PinAgrees.onStartupSettings (relay : Relay) (agrees : relay.PinAgrees)
    (settings : List (Text × Text)) : (relay.onStartupSettings settings).PinAgrees := by
  induction settings generalizing relay with
  | nil => exact agrees
  | cons setting later ih =>
    refine ih (relay.onStartupSetting setting.1) ?_
    unfold Relay.onStartupSetting
    split
    · exact agrees
    · rcases relay.pin.pin_cases .unreplayableSet with ⟨-, same⟩ | ⟨-, new⟩
      · rw [same]
        exact agrees.withPin (.inl rfl)
      · rw [new]
        exact agrees.withPin (.inr ⟨_, rfl⟩)

theorem PinAgrees.onClient (agrees : relay.PinAgrees) (message : FrontendMessage)
    (replicas : Replicas) (now : Nat) : (relay.onClient message replicas now).1.PinAgrees := by
  unfold Relay.onClient
  split
  · exact agrees
  · split
    · exact agrees
    · rename_i sql _
      unfold Relay.routeStatement PinAgrees
      rw [SessionRouter.route_pinned]
      have heard : ({ relay with session := relay.session.onFrontend message } : Relay).PinAgrees :=
        agrees
      exact heard.withPin (relay.pin.observeStatement_cases sql .default)

theorem PinAgrees.onServer (agrees : relay.PinAgrees) (message : BackendMessage) :
    (relay.onServer message).1.PinAgrees := by
  have heard : ({ relay with session := relay.session.onBackend message } : Relay).PinAgrees :=
    agrees
  unfold Relay.onServer
  dsimp only
  split
  · exact heard
  · split
    · exact heard.withPin relay.pin.observeNotification_cases
    · exact heard

theorem onServer_pin (pinned : relay.pin.isPinned = true) (message : BackendMessage) :
    (relay.onServer message).1.pin = relay.pin := by
  cases message with
  | notificationResponse body =>
    change relay.pin.observeNotification.1 = relay.pin
    rcases relay.pin.pin_cases .listen with ⟨-, same⟩ | ⟨free, -⟩
    · unfold PinState.observeNotification
      rw [same]
    · exact absurd (free.symm.trans pinned) Bool.false_ne_true
  | readyForQuery status => cases status <;> rfl
  | _ => rfl

theorem onServer_release_of_pinned (pinned : relay.pin.isPinned = true) (message : BackendMessage) :
    (relay.onServer message).2.release = false := by
  have still : (relay.onServer message).1.pin.isPinned = true := by
    rw [onServer_pin pinned]
    exact pinned
  unfold Relay.onServer at still ⊢
  dsimp only at still ⊢
  rw [still]
  exact Bool.and_false _

end Relay

end Pgprox.Session

namespace Pgprox.Serve

open Proto Pools Route Session List

/-- The output leaves the session with the connection: it neither borrows another one nor
gives this one back, and sends frames on no other. -/
def Output.Keeps (connection : Nat) : Output → Prop
  | .borrowed _ => False
  | .returned _ => False
  | .toServer id _ => id = connection
  | _ => True

namespace Live

/-! ### The router knows of the pin -/

variable {live : Live}

theorem pinAgrees_release (agrees : live.relay.PinAgrees) (position : Option Nat) :
    (live.release position).1.relay.PinAgrees := by
  unfold release
  cases live.upstream with
  | none => exact agrees
  | some upstream =>
    split
    · split
      · exact agrees
      · exact agrees
    · exact agrees

theorem pinAgrees_step (agrees : live.relay.PinAgrees) (event : LoopEvent) :
    (live.step event).1.relay.PinAgrees := by
  unfold step
  split
  · rename_i message replicas now lent
    split
    · unfold takeFrame
      split
      · exact agrees
      · have heard := agrees.onClient message replicas now
        rcases act_relay _ message _ lent _ with same | ⟨target, same⟩
        · rw [same]
          exact heard
        · rw [same]
          exact heard
    · unfold takeCopyFrame
      split
      · exact agrees
      · exact agrees
    · exact agrees
  · rename_i message position
    have heard := agrees.onServer message
    split
    · rename_i flushing _
      rcases live.takeAnswer_cases flushing message position with
        ⟨pumping, phase, outputs, took, -⟩ | ⟨status, pumping, -, -, took⟩
      · rw [took]
        exact heard
      · rw [took]
        exact pinAgrees_release heard position
    · exact agrees
  · exact agrees

theorem Reached.pinAgrees {mode : PoolMode} {statementTimeout : Option Nat}
    {settings : List (Text × Text)} (reached : Reached mode statementTimeout settings live) :
    live.relay.PinAgrees := by
  apply reached.invariant
  · exact Relay.PinAgrees.onStartupSettings .new rfl settings
  · intro before event agrees _
    exact pinAgrees_step agrees event

/-! ### A session bound to the primary -/

/-- The session is pinned and holds the connection for the primary, and nothing sends its
statements elsewhere. -/
structure Bound (live : Live) (connection : Nat) : Prop where
  holding : live.Holding
  current : ∃ held, live.upstream = some held ∧ held.id = connection
  primary : live.serving = .primary
  pinned : live.relay.pin.isPinned = true
  routed : live.relay.router.pinned = true
  unfixed : ∀ index, live.relay.router.fixed ≠ some (.replica index)

theorem step_client_not_returned (live : Live) (message : FrontendMessage) (replicas : Replicas)
    (now : Nat) (lent : Option Upstreamed) (id : Nat) :
    .returned id ∉ (live.step (.client message replicas now lent)).2 := by
  have sent (live : Live) (upstream : Upstreamed) (onward : FrontendMessage) :
      .returned id ∉ (live.sendOn upstream message onward).2 := by
    unfold sendOn
    dsimp only
    split
    · simp
    · simp
  unfold step
  dsimp only
  split
  · unfold takeFrame
    split
    · simp [refuse]
    · rename_i memory onward _
      dsimp only
      cases (live.relay.onClient message replicas now).2.action with
      | close => simp [act]
      | answer routed => cases routed <;> simp [act, queueAnswer]
      | send target acquire =>
        cases acquire with
        | true =>
          cases lent with
          | none => simp [act, refuse]
          | some taken => simp [act, sendOnBorrowed, sent]
        | false =>
          unfold act
          cases live.upstream with
          | none => simp [refuse]
          | some upstream => exact sent _ upstream onward
  · unfold takeCopyFrame
    split
    · simp [refuse]
    · simp
  · simp

theorem keeps_of_staysOn {connection : Nat} {output : Output} (stays : output.StaysOn connection)
    (kept : ∀ id, output ≠ .returned id) : output.Keeps connection := by
  cases output with
  | returned id => exact absurd rfl (kept id)
  | borrowed | toServer => exact stays
  | toClient | refused => trivial

theorem act_of_not_acquire (live : Live) {held : Upstreamed} (current : live.upstream = some held)
    (message onward : FrontendMessage) (lent : Option Upstreamed) {action : ClientAction}
    (never : ∀ target, action ≠ .send target true) :
    (live.act message onward lent action).1.relay = live.relay ∧
      (live.act message onward lent action).1.serving = live.serving ∧
      ∃ later, (live.act message onward lent action).1.upstream = some later ∧
        later.id = held.id := by
  cases action with
  | close | answer => exact ⟨rfl, rfl, held, current, rfl⟩
  | send target acquire =>
    cases acquire with
    | true => exact absurd rfl (never target)
    | false =>
      simp only [act, current]
      obtain ⟨relay, serving, record, kept⟩ := sendOn_eq live held message onward
      exact ⟨relay, serving, _, kept, rfl⟩

namespace Bound

variable {live : Live} {connection : Nat}

section

variable (bound : live.Bound connection)
include bound

theorem pinnedBy_eq (sql : Text) :
    pinnedBy live.relay sql = live.relay := by
  unfold pinnedBy PinState.observeStatement
  rw [if_pos bound.pinned]
  rfl

theorem routesTo_primary (sql : Text) (replicas : Replicas)
    (now : Nat) : live.relay.router.RoutesTo sql replicas now .primary := by
  unfold SessionRouter.RoutesTo
  cases fixed : live.relay.router.fixed with
  | none => exact .inl (.inl bound.routed)
  | some target =>
    cases target with
    | primary => rfl
    | replica index => exact absurd fixed (bound.unfixed index)

theorem follows (message : FrontendMessage)
    (replicas : Replicas) (now : Nat) : live.Follows message replicas now := by
  refine .inr ?_
  split
  · exact bound.primary
  · rename_i sql _
    refine .inr ?_
    rw [bound.pinnedBy_eq, bound.primary]
    exact bound.routesTo_primary sql replicas now

theorem onClient_router (message : FrontendMessage) (replicas : Replicas) (now : Nat) :
    (live.relay.onClient message replicas now).1.router.pinned = true ∧
      ∀ index, (live.relay.onClient message replicas now).1.router.fixed ≠
        some (.replica index) := by
  rcases Serve.onClient_router live.relay message replicas now with
    same | ⟨sql, inTransaction, -, routed⟩
  · rw [same]
    exact ⟨bound.routed, bound.unfixed⟩
  · rw [routed, bound.pinnedBy_eq, SessionRouter.route_pinned]
    refine ⟨bound.routed, fun index fixed => ?_⟩
    rcases live.relay.router.route_fixed sql inTransaction replicas now with
      same | ⟨-, target, new, sent⟩
    · exact bound.unfixed index (same.symm.trans fixed)
    · obtain ⟨-, calls⟩ := SessionRouter.routesTo_of_route sent
      have primary := SessionRouter.routesTo_unique calls
        (bound.routesTo_primary sql replicas now)
      rw [fixed, primary] at new
      cases new

theorem onClient_pin (message : FrontendMessage) (replicas : Replicas) (now : Nat) :
    (live.relay.onClient message replicas now).1.pin = live.relay.pin := by
  unfold Relay.onClient
  split
  · rfl
  · dsimp only
    split
    · rfl
    · unfold Relay.routeStatement PinState.observeStatement
      rw [if_pos bound.pinned]
      rfl

theorem holds : live.relay.held = some live.serving := by
  obtain ⟨held, current, -⟩ := bound.current
  rw [bound.holding.held, current]
  rfl

theorem close : { live with phase := .closed }.Bound connection :=
  ⟨bound.holding.close, bound.current, bound.primary, bound.pinned, bound.routed, bound.unfixed⟩

theorem takeFrame (message : FrontendMessage)
    (replicas : Replicas) (now : Nat) (lent : Option Upstreamed) :
    (live.takeFrame message replicas now lent).1.Bound connection := by
  have holding := bound.holding.takeFrame message replicas now lent
  have never := (never_acquires_iff_follows bound.holds message replicas now).mpr
    (bound.follows message replicas now)
  obtain ⟨held, current, same⟩ := bound.current
  obtain ⟨routed, unfixed⟩ := bound.onClient_router message replicas now
  have pinned := bound.onClient_pin message replicas now
  unfold Live.takeFrame at holding ⊢
  split
  · exact bound.close
  · rename_i memory onward accepted
    rw [accepted] at holding
    obtain ⟨relay, serving, later, kept, id⟩ := act_of_not_acquire
      { live with relay := (live.relay.onClient message replicas now).1, session := memory }
      current message onward lent never
    refine ⟨holding, ⟨later, kept, id.trans same⟩, serving.trans bound.primary, ?_, ?_, ?_⟩
    · rw [relay, pinned]
      exact bound.pinned
    · rw [relay]
      exact routed
    · rw [relay]
      exact unfixed

theorem takeCopyFrame (flushing : Bool)
    (message : FrontendMessage) : (live.takeCopyFrame flushing message).1.Bound connection := by
  have holding := bound.holding.takeCopyFrame flushing message
  obtain ⟨held, current, same⟩ := bound.current
  unfold Live.takeCopyFrame at holding ⊢
  rw [current] at holding ⊢
  exact ⟨holding, ⟨held, rfl, same⟩, bound.primary, bound.pinned, bound.routed, bound.unfixed⟩

theorem takeAnswer_eq (flushing : Bool) (message : BackendMessage) (position : Option Nat) :
    (live.takeAnswer flushing message position).1.relay = (live.relay.onServer message).1 ∧
      (live.takeAnswer flushing message position).1.serving = live.serving ∧
      (live.takeAnswer flushing message position).1.upstream = live.upstream ∧
      ∀ output ∈ (live.takeAnswer flushing message position).2, output = .toClient message := by
  have held := Relay.onServer_release_of_pinned bound.pinned message
  rcases live.takeAnswer_cases flushing message position with
    ⟨pumping, phase, outputs, took, only, -⟩ | ⟨status, pumping, -, released, -⟩
  · rw [took]
    exact ⟨rfl, rfl, rfl, only⟩
  · rw [held] at released
    cases released

theorem takeAnswer (flushing : Bool) (message : BackendMessage)
    (position : Option Nat) : (live.takeAnswer flushing message position).1.Bound connection := by
  obtain ⟨held, current, same⟩ := bound.current
  have holding := bound.holding.takeAnswer (Option.isSome_iff_exists.mpr ⟨held, current⟩)
    flushing message position
  obtain ⟨relay, serving, upstream, -⟩ := bound.takeAnswer_eq flushing message position
  have agrees : live.relay.PinAgrees := bound.routed.trans bound.pinned.symm
  have pinned : (live.relay.onServer message).1.pin.isPinned = true := by
    rw [Relay.onServer_pin bound.pinned]
    exact bound.pinned
  refine ⟨holding, ⟨held, upstream.trans current, same⟩, serving.trans bound.primary, ?_, ?_, ?_⟩
  · rw [relay]
    exact pinned
  · rw [relay]
    exact (agrees.onServer message).trans pinned
  · intro index fixed
    rw [relay, Relay.onServer_fixed] at fixed
    split at fixed
    · cases fixed
    · exact bound.unfixed index fixed

theorem step (event : LoopEvent) :
    (live.step event).1.Bound connection := by
  unfold Live.step
  split
  · split
    · exact bound.takeFrame ..
    · exact bound.takeCopyFrame ..
    · exact bound
  · split
    · exact bound.takeAnswer ..
    · exact bound
  · exact bound.close

theorem step_keeps (event : LoopEvent) :
    ∀ output ∈ (live.step event).2, output.Keeps connection := by
  intro output present
  cases event with
  | client message replicas now lent =>
    obtain ⟨held, current, rfl⟩ := bound.current
    apply keeps_of_staysOn
    · exact step_staysOn bound.holding current lent
        (.inr (bound.follows message replicas now)) output present
    · rintro id rfl
      exact step_client_not_returned live message replicas now lent id present
  | server message position =>
    unfold Live.step at present
    dsimp only at present
    split at present
    · rw [(bound.takeAnswer_eq _ message position).2.2.2 output present]
      trivial
    · cases present
  | lost => cases present

theorem outputs_keep (events : List LoopEvent) :
    ∀ output ∈ live.outputs events, output.Keeps connection := by
  induction events generalizing live with
  | nil => exact fun _ present => (nomatch present)
  | cons event later ih =>
    intro output present
    rcases mem_append.mp present with here | after
    · exact bound.step_keeps event output here
    · exact ih (bound.step event) output after

end

end Bound

/-! ### A session that is not -/

def untilReading : Phase → List LoopEvent
  | .pumping _ => [.server (.readyForQuery .inTransaction) none]
  | .copying _ =>
    [.client .copyDone ⟨0, []⟩ 0 none, .server (.readyForQuery .inTransaction) none]
  | _ => []

/-- Back at reading, with the connection in hand and where statements go unchanged. -/
structure Back (live ready : Live) : Prop where
  reading : ready.phase = .reading
  holding : ready.Holding
  upstream : ready.upstream = live.upstream
  serving : ready.serving = live.serving
  fixed : ready.relay.router.fixed = live.relay.router.fixed

theorem outputs_append (live : Live) (earlier later : List LoopEvent) :
    live.outputs (earlier ++ later) =
      live.outputs earlier ++ (live.after earlier).outputs later := by
  induction earlier generalizing live with
  | nil => rfl
  | cons event rest ih =>
    rw [cons_append, outputs, outputs, ih, append_assoc]
    rfl

theorem back_of_ready (holding : live.Holding) (pinned : live.relay.pin.isPinned = true)
    (flushing : Bool) (answering : live.phase = .pumping flushing) :
    Back live (live.step (.server (.readyForQuery .inTransaction) none)).1 := by
  have kept := holding.step (.server (.readyForQuery .inTransaction) none)
  have shape : (live.step (.server (.readyForQuery .inTransaction) none)).1 =
      { live with
        relay := (live.relay.onServer (.readyForQuery .inTransaction)).1
        pumping := { live.pumping with
          owed := live.pumping.owed.received (.readyForQuery .inTransaction) }
        phase := .reading } := by
    have held := Relay.onServer_release_of_pinned pinned (.readyForQuery .inTransaction)
    unfold step
    rw [answering]
    change (forwardAnswer _ flushing (.readyForQuery .inTransaction) _ none).1 = _
    unfold forwardAnswer
    dsimp only
    rw [if_neg (by simp [held])]
  rw [shape] at kept ⊢
  refine ⟨rfl, kept, rfl, rfl, ?_⟩
  exact Relay.onServer_fixed live.relay (.readyForQuery .inTransaction)

theorem back_untilReading (holding : live.Holding) (pinned : live.relay.pin.isPinned = true)
    {held : Upstreamed} (current : live.upstream = some held) (running : live.phase ≠ .closed) :
    Back live (live.after (untilReading live.phase)) := by
  cases phase : live.phase with
  | reading => exact ⟨phase, holding, rfl, rfl, rfl⟩
  | closed => exact absurd phase running
  | pumping flushing => exact back_of_ready holding pinned flushing phase
  | copying flushing =>
    have copied : (live.step (.client .copyDone ⟨0, []⟩ 0 none)).1 =
        { live with phase := .pumping flushing } := by
      simp only [step, phase, takeCopyFrame, current]
      rfl
    have still := holding.step (.client .copyDone ⟨0, []⟩ 0 none)
    rw [copied] at still
    have back := back_of_ready still pinned flushing rfl
    unfold untilReading after
    rw [foldl_cons, copied]
    exact ⟨back.reading, back.holding, back.upstream, back.serving, back.fixed⟩

theorem staysOn_of_keeps {connection : Nat} {output : Output} (keeps : output.Keeps connection) :
    output.StaysOn connection := by
  cases output with
  | borrowed | toServer => exact keeps
  | _ => trivial

theorem follows_of_outputs_keep (holding : live.Holding) (pinned : live.relay.pin.isPinned = true)
    {held : Upstreamed} (current : live.upstream = some held) (running : live.phase ≠ .closed)
    (keeps : ∀ events, ∀ output ∈ live.outputs events, output.Keeps held.id)
    (message : FrontendMessage) (replicas : Replicas) (now : Nat)
    (accepted : ∀ session, Serve.observe session message ≠ none) :
    (live.after (untilReading live.phase)).Follows message replicas now := by
  have back := back_untilReading holding pinned current running
  have stays : ∀ output ∈ ((live.after (untilReading live.phase)).step
      (.client message replicas now (some ⟨held.id, .new 0⟩))).2, output.StaysOn held.id := by
    intro output present
    refine staysOn_of_keeps (keeps
      (untilReading live.phase ++ [.client message replicas now (some ⟨held.id, .new 0⟩)])
      output ?_)
    rw [outputs_append]
    exact mem_append_right _ (mem_append_left _ present)
  rw [step_staysOn_iff back.holding (back.upstream.trans current)] at stays
  rcases stays with notRelayed | follows
  · rcases notRelayed with busy | refused
    · exact absurd back.reading busy
    · exact absurd refused (accepted _)
  · exact follows

end Live

/-- A pinned session keeps the connection it holds, whatever the client and the server
send, exactly when the connection was acquired for the primary and no open transaction is
fixed to a replica. -/
theorem pinned_connection_kept_iff (mode : PoolMode) (statementTimeout : Option Nat)
    (settings : List (Text × Text)) (live : Live)
    (reached : Live.Reached mode statementTimeout settings live)
    (pinned : live.relay.pin.isPinned = true) (held : Upstreamed)
    (current : live.upstream = some held) (running : live.phase ≠ .closed) :
    (∀ events, ∀ output ∈ live.outputs events, output.Keeps held.id) ↔
      live.serving = .primary ∧
        ∀ index, live.relay.router.fixed ≠ some (.replica index) := by
  have holding := reached.holding
  have agrees := reached.pinAgrees
  constructor
  · intro keeps
    have back := Live.back_untilReading holding pinned current running
    have primary : live.serving = .primary := by
      have follows := Live.follows_of_outputs_keep holding pinned current running keeps
        .sync ⟨0, []⟩ 0 nofun
      rw [follows_iff_of_followsStatement rfl] at follows
      exact back.serving.symm.trans follows
    refine ⟨primary, fun index fixed => ?_⟩
    have follows := Live.follows_of_outputs_keep holding pinned current running keeps
      (.query "SELECT 1".toList) ⟨0, []⟩ 0 nofun
    rcases follows with ends | hint | routed
    · cases ends
    · exact absurd hint (by decide +kernel)
    · unfold SessionRouter.RoutesTo at routed
      rw [(pinnedBy_router _ _).2.2.1, back.fixed, fixed, back.serving, primary] at routed
      cases routed
  · rintro ⟨primary, unfixed⟩
    refine Live.Bound.outputs_keep ?_
    exact ⟨holding, ⟨held, current, rfl⟩, primary, pinned, agrees.trans pinned, unfixed⟩

/-! ### A pin inside a read-only transaction -/

def listening (begin : String) : List LoopEvent :=
  [.client (.query begin.toList) oneReplica 0 (some (connection 1)),
    .server (.readyForQuery .inTransaction) none,
    .client (.query "LISTEN jobs".toList) oneReplica 0 none,
    .server (.readyForQuery .inTransaction) none]

def afterListen (begin : String) : Live :=
  (Live.start .transaction none []).after (listening begin)

theorem afterListen_reached (begin : String) :
    Live.Reached .transaction none [] (afterListen begin) :=
  Run.Reachable.start.foldl (by simp [Run.Permitted, listening])

def commitThenSelect : List LoopEvent :=
  [.client (.query "COMMIT".toList) oneReplica 0 (some (connection 2)),
    .server (.readyForQuery .idle) none,
    .client (.query "SELECT 1".toList) oneReplica 0 (some (connection 2))]

/-- A session that listens inside an ordinary transaction stays on its connection. -/
theorem listener_kept_on_primary :
    ∃ held, (afterListen "BEGIN").upstream = some held ∧
      ∀ output ∈ (afterListen "BEGIN").outputs commitThenSelect, output.Keeps held.id := by
  have holds : (afterListen "BEGIN").upstream.isSome = true := by
    decide +kernel
  obtain ⟨held, current⟩ := Option.isSome_iff_exists.mp holds
  refine ⟨held, current, (pinned_connection_kept_iff .transaction none [] (afterListen "BEGIN")
    (afterListen_reached "BEGIN") (by decide +kernel) held current (by decide +kernel)).mpr
      ⟨by decide +kernel, fun index => ?_⟩ commitThenSelect⟩
  exact nofun

/-- One that listens inside a read-only transaction is on the replica: the frame after the
transaction acquires a connection to the primary. -/
theorem listener_leaves_replica :
    ¬ ∀ (mode : PoolMode) (statementTimeout : Option Nat) (settings : List (Text × Text))
        (live : Live), Live.Reached mode statementTimeout settings live →
      live.relay.pin.isPinned = true → ∀ held, live.upstream = some held →
      ∀ events, ∀ output ∈ live.outputs events, output.Keeps held.id := by
  intro always
  have holds : (afterListen "BEGIN READ ONLY").upstream.isSome = true := by
    decide +kernel
  obtain ⟨held, current⟩ := Option.isSome_iff_exists.mp holds
  exact always _ _ _ _ (afterListen_reached "BEGIN READ ONLY") (by decide +kernel) held current
    commitThenSelect (.borrowed 2) (by decide +kernel)

end Pgprox.Serve
