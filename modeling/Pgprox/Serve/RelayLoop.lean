/-
The loop that moves frames between a client and the connections it borrows.

The result cache is off.  What the pool lends, what the server sends and whether the
position of a write can be read are the environment's.
-/

import Pgprox.Library.Run
import Pgprox.Serve.Upstream
import Pgprox.Session.Relay

namespace Pgprox.Serve

open Proto Pools Route Session

inductive PoolMode
  | transaction
  | session
  deriving DecidableEq

structure Upstreamed where
  id : Nat
  record : ConnectionStatements

inductive Phase
  | reading
  /-- The server's answer is being read; a `Flush` has no terminator. -/
  | pumping (flushing : Bool)
  | copying (flushing : Bool)
  | closed
  deriving DecidableEq

structure Live where
  mode : PoolMode
  statementTimeout : Option Nat
  relay : Relay
  upstream : Option Upstreamed
  serving : RouteTarget
  pumping : Pumping
  session : SessionMemory
  phase : Phase

inductive Refusal
  | unknownStatement
  | noConnection
  | notAcquired
  deriving DecidableEq

inductive Output
  | borrowed (connection : Nat)
  | toServer (connection : Nat) (frame : FrontendMessage)
  | toClient (frame : BackendMessage)
  | returned (connection : Nat)
  | refused (reason : Refusal)
  deriving DecidableEq

/-- What a freshly borrowed connection is told before the client's frame: the tenant's
own cap, then the session's parameters onto a connection assumed to carry none. -/
def resume (session : SessionMemory) (statementTimeout : Option Nat) : List Text :=
  (statementTimeout.toList.map fun milliseconds =>
      "SET statement_timeout = ".toList ++ (Nat.repr milliseconds).toList) ++
    onAcquire session .new

def queueAnswer : Routed → List Output
  | .hintRejected =>
    [.toClient (.errorResponse "invalid value for parameter \"pgprox.route\"".toList),
      .toClient (.readyForQuery .idle)]
  | _ => [.toClient (.readyForQuery .idle)]

namespace Live

def start (mode : PoolMode) (statementTimeout : Option Nat) (settings : List (Text × Text)) :
    Live where
  mode := mode
  statementTimeout := statementTimeout
  relay := Relay.new.onStartupSettings settings
  upstream := none
  serving := .primary
  pumping := .new
  session :=
    { params := settings.foldl (fun params setting => params.record setting.1 setting.2) .new
      statements := ∅ }
  phase := .reading

def refuse (live : Live) (reason : Refusal) : Live × List Output :=
  ({ live with phase := .closed }, [.refused reason])

def afterSending (live : Live) (message : FrontendMessage) : Live :=
  if awaitsMore message then live
  else if message = .flush ∧ live.pumping.owed.settled then live
  else { live with phase := .pumping (message = .flush) }

def sendOn (live : Live) (upstream : Upstreamed) (message onward : FrontendMessage) :
    Live × List Output :=
  let sent := sendUpstream live.session.statements upstream.record message onward
  let settled : Live :=
    { live with
      upstream := some { upstream with record := sent.record }
      session := { live.session with statements := sent.session } }
  if sent.forwarded then
    (afterSending
      { settled with
        pumping :=
          { swallow := live.pumping.swallow + sent.swallow
            owed := live.pumping.owed.sent message } }
      message,
      sent.upstream.map (Output.toServer upstream.id))
  else (settled, [.toClient .parseComplete])

def sendOnBorrowed (live : Live) (target : RouteTarget) (taken : Upstreamed)
    (message onward : FrontendMessage) : Live × List Output :=
  let sent := { live with
    relay := live.relay.acquired target
    serving := target
    upstream := some taken }.sendOn taken message onward
  (sent.1,
    .borrowed taken.id ::
      (resume live.session live.statementTimeout).map
        (fun sql => Output.toServer taken.id (.query sql)) ++ sent.2)

def act (live : Live) (message onward : FrontendMessage) (lent : Option Upstreamed) :
    ClientAction → Live × List Output
  | .close => ({ live with phase := .closed }, [])
  | .answer routed => (live, queueAnswer routed)
  | .send target true =>
    match lent with
    | none => live.refuse .notAcquired
    | some taken => live.sendOnBorrowed target taken message onward
  | .send _ false =>
    match live.upstream with
    | none => live.refuse .noConnection
    | some upstream => live.sendOn upstream message onward

def takeFrame (live : Live) (message : FrontendMessage) (replicas : Replicas) (now : Nat)
    (lent : Option Upstreamed) : Live × List Output :=
  match observe live.session message with
  | none => live.refuse .unknownStatement
  | some (memory, onward) =>
    let decided := live.relay.onClient message replicas now
    { live with relay := decided.1, session := memory }.act message onward lent
      decided.2.action

def takeCopyFrame (live : Live) (flushing : Bool) (message : FrontendMessage) :
    Live × List Output :=
  match live.upstream with
  | none => live.refuse .noConnection
  | some upstream =>
    ({ live with phase := if message = .copyData then .copying flushing else .pumping flushing },
      [.toServer upstream.id message])

def release (live : Live) (position : Option Nat) : Live × List Output :=
  let relay := match position with
    | some lsn => if live.relay.router.wrote then live.relay.recordWrite lsn else live.relay
    | none => live.relay
  match live.upstream with
  | none => live.refuse .noConnection
  | some upstream =>
    ({ live with relay := relay.released, upstream := none }, [.returned upstream.id])

def forwardAnswer (live : Live) (flushing : Bool) (message : BackendMessage)
    (outcome : ServerOutcome) (position : Option Nat) : Live × List Output :=
  let received := { live with
    pumping := { live.pumping with owed := live.pumping.owed.received message } }
  match message with
  | .copyInResponse | .copyBothResponse =>
    ({ live with phase := .copying flushing }, [.toClient message])
  | .readyForQuery _ =>
    let answered := { received with phase := .reading }
    if outcome.release ∧ live.mode ≠ .session then
      let freed := answered.release position
      (freed.1, .toClient message :: freed.2)
    else (answered, [.toClient message])
  | _ =>
    (if flushing ∧ received.pumping.owed.settled then { received with phase := .reading }
      else received,
      [.toClient message])

def takeAnswer (live : Live) (flushing : Bool) (message : BackendMessage)
    (position : Option Nat) : Live × List Output :=
  let decided := live.relay.onServer message
  let heard := { live with relay := decided.1 }
  match live.pumping.swallowOne message with
  | some pumping =>
    -- a hidden completion still counts against what is owed
    let received := { heard with
      pumping := { pumping with owed := pumping.owed.received message } }
    (if flushing ∧ received.pumping.owed.settled then { received with phase := .reading }
      else received, [])
  | none => heard.forwardAnswer flushing message decided.2 position

end Live

inductive LoopEvent
  | client (message : FrontendMessage) (replicas : Replicas) (now : Nat)
      (lent : Option Upstreamed)
  | server (message : BackendMessage) (position : Option Nat)
  | lost

namespace Live

def step (live : Live) (event : LoopEvent) : Live × List Output :=
  match event with
  | .client message replicas now lent =>
    match live.phase with
    | .reading => live.takeFrame message replicas now lent
    | .copying flushing => live.takeCopyFrame flushing message
    | _ => (live, [])
  | .server message position =>
    match live.phase with
    | .pumping flushing => live.takeAnswer flushing message position
    | _ => (live, [])
  | .lost => ({ live with phase := .closed }, [])

def after (live : Live) (events : List LoopEvent) : Live :=
  events.foldl (fun live event => (live.step event).1) live

def outputs (live : Live) : List LoopEvent → List Output
  | [] => []
  | event :: later => (live.step event).2 ++ outputs (live.step event).1 later

theorem step_server {live : Live} {flushing : Bool} (phase : live.phase = .pumping flushing)
    (message : BackendMessage) (position : Option Nat) :
    live.step (.server message position) = live.takeAnswer flushing message position := by
  unfold step
  rw [phase]

theorem step_server_elsewhere {live : Live}
    (elsewhere : ∀ flushing, live.phase ≠ .pumping flushing) (message : BackendMessage)
    (position : Option Nat) : live.step (.server message position) = (live, []) := by
  unfold step
  dsimp only
  split
  · rename_i flushing phase
    exact absurd phase (elsewhere flushing)
  · rfl

abbrev Reached (mode : PoolMode) (statementTimeout : Option Nat)
    (settings : List (Text × Text)) (live : Live) : Prop :=
  Run.Reachable (start mode statementTimeout settings) (fun _ (_ : LoopEvent) => True)
    (fun live event => (live.step event).1) live

/-! ### What the relay believes it holds -/

/-- The relay holds what the session holds, and a session in the middle of a
transaction or of an answer holds a connection. -/
structure Holding (live : Live) : Prop where
  held : live.relay.held = live.upstream.map fun _ => live.serving
  inTransaction : live.relay.session.txStatus ≠ .idle → live.upstream.isSome
  answering : live.phase ≠ .reading → live.phase ≠ .closed → live.upstream.isSome

variable {live : Live}

theorem Holding.close (holding : live.Holding) :
    { live with phase := .closed }.Holding where
  held := holding.held
  inTransaction := holding.inTransaction
  answering := fun _ opened => absurd rfl opened

theorem sendOn_eq (live : Live) (upstream : Upstreamed) (message onward : FrontendMessage) :
    (live.sendOn upstream message onward).1.relay = live.relay ∧
      (live.sendOn upstream message onward).1.serving = live.serving ∧
      ∃ record, (live.sendOn upstream message onward).1.upstream =
        some { upstream with record := record } := by
  unfold sendOn
  dsimp only
  split
  · unfold afterSending
    split
    · exact ⟨rfl, rfl, _, rfl⟩
    · split
      · exact ⟨rfl, rfl, _, rfl⟩
      · exact ⟨rfl, rfl, _, rfl⟩
  · exact ⟨rfl, rfl, _, rfl⟩

theorem act_relay (live : Live) (message onward : FrontendMessage) (lent : Option Upstreamed)
    (action : ClientAction) :
    (live.act message onward lent action).1.relay = live.relay ∨
      ∃ target, (live.act message onward lent action).1.relay = live.relay.acquired target := by
  cases action with
  | close | answer => exact .inl rfl
  | send target acquire =>
    cases acquire with
    | true =>
      cases lent with
      | none => exact .inl rfl
      | some taken => exact .inr ⟨target, (sendOn_eq _ taken message onward).1⟩
    | false =>
      cases current : live.upstream with
      | none =>
        simp only [act, current]
        exact .inl rfl
      | some upstream =>
        simp only [act, current]
        exact .inl (sendOn_eq live upstream message onward).1

@[simp] theorem act_router (live : Live) (message onward : FrontendMessage)
    (lent : Option Upstreamed) (action : ClientAction) :
    (live.act message onward lent action).1.relay.router = live.relay.router := by
  rcases live.act_relay message onward lent action with same | ⟨target, same⟩
  · rw [same]
  · rw [same]
    rfl

theorem step_client_router (live : Live) (message : FrontendMessage) (replicas : Replicas)
    (now : Nat) (lent : Option Upstreamed) :
    (live.step (.client message replicas now lent)).1.relay.router = live.relay.router ∨
      live.phase = .reading ∧ (live.step (.client message replicas now lent)).1.relay.router =
        (live.relay.onClient message replicas now).1.router := by
  unfold step
  dsimp only
  split
  · rename_i reading
    unfold takeFrame
    split
    · exact .inl rfl
    · refine .inr ⟨reading, ?_⟩
      rw [act_router]
  · unfold takeCopyFrame
    split
    · exact .inl rfl
    · exact .inl rfl
  · exact .inl rfl

theorem release_router (live : Live) (position : Option Nat) :
    (live.release position).1.relay.router = live.relay.router ∨
      ∃ lsn, position = some lsn ∧
        (live.release position).1.relay.router = live.relay.router.recordWrite lsn := by
  unfold release
  cases live.upstream with
  | none => exact .inl rfl
  | some upstream =>
    cases position with
    | none => exact .inl rfl
    | some lsn =>
      dsimp only
      split
      · exact .inr ⟨lsn, rfl, rfl⟩
      · exact .inl rfl

theorem takeAnswer_cases (live : Live) (flushing : Bool) (message : BackendMessage)
    (position : Option Nat) :
    (∃ pumping phase outputs, live.takeAnswer flushing message position =
        ({ live with relay := (live.relay.onServer message).1, pumping, phase }, outputs) ∧
      (∀ output ∈ outputs, output = .toClient message) ∧
      (phase = live.phase ∨ phase = .copying flushing ∨
        phase = .reading ∧ (flushing = true ∨ ∃ status, message = .readyForQuery status))) ∨
      ∃ status pumping, message = .readyForQuery status ∧
        (live.relay.onServer message).2.release = true ∧
        live.takeAnswer flushing message position =
          let freed := { live with
            relay := (live.relay.onServer message).1
            pumping
            phase := .reading }.release position
          (freed.1, .toClient message :: freed.2) := by
  have only : ∀ output ∈ [Output.toClient message], output = .toClient message :=
    fun output listed => List.mem_singleton.mp listed
  unfold takeAnswer
  dsimp only
  split
  · split
    · rename_i settled
      exact .inl ⟨_, _, _, rfl, nofun, .inr (.inr ⟨rfl, .inl settled.1⟩)⟩
    · exact .inl ⟨_, _, _, rfl, nofun, .inl rfl⟩
  · unfold forwardAnswer
    split
    · exact .inl ⟨_, _, _, rfl, only, .inr (.inl rfl)⟩
    · exact .inl ⟨_, _, _, rfl, only, .inr (.inl rfl)⟩
    · rename_i status _
      split
      · rename_i released
        exact .inr ⟨status, _, rfl, released.1, rfl⟩
      · exact .inl ⟨_, _, _, rfl, only, .inr (.inr ⟨rfl, .inr ⟨status, rfl⟩⟩)⟩
    · dsimp only
      split
      · rename_i settled
        exact .inl ⟨_, _, _, rfl, only, .inr (.inr ⟨rfl, .inl settled.1⟩)⟩
      · exact .inl ⟨_, _, _, rfl, only, .inl rfl⟩

theorem takeAnswer_router (live : Live) (flushing : Bool) (message : BackendMessage)
    (position : Option Nat) :
    (live.takeAnswer flushing message position).1.relay.router =
        (live.relay.onServer message).1.router ∨
      message = .readyForQuery .idle ∧ ∃ lsn, position = some lsn ∧
        (live.takeAnswer flushing message position).1.relay.router =
          (live.relay.onServer message).1.router.recordWrite lsn := by
  rcases live.takeAnswer_cases flushing message position with
    ⟨pumping, phase, outputs, took, -⟩ | ⟨status, pumping, rfl, released, took⟩
  · rw [took]
    exact .inl rfl
  · rw [took]
    have idle := Relay.idle_of_release released
    rw [Relay.onServer_session] at idle
    obtain rfl : status = .idle := idle
    rcases release_router _ position with same | ⟨lsn, known, recorded⟩
    · exact .inl same
    · exact .inr ⟨rfl, lsn, known, recorded⟩

theorem holding_sendOn {upstream : Upstreamed} (held : live.relay.held = some live.serving)
    (message onward : FrontendMessage) : (live.sendOn upstream message onward).1.Holding := by
  obtain ⟨relay, serving, record, kept⟩ := sendOn_eq live upstream message onward
  constructor
  · rw [relay, kept, serving]
    exact held
  · intro _
    rw [kept]
    rfl
  · intro _ _
    rw [kept]
    rfl

theorem holding_act (holding : live.Holding) (message onward : FrontendMessage)
    (lent : Option Upstreamed) (action : ClientAction) :
    (live.act message onward lent action).1.Holding := by
  cases action with
  | close => exact holding.close
  | answer routed => exact holding
  | send target acquire =>
    cases acquire with
    | true =>
      cases lent with
      | none => exact holding.close
      | some taken =>
        exact holding_sendOn rfl message onward
    | false =>
      cases current : live.upstream with
      | none =>
        simp only [act, current]
        exact holding.close
      | some upstream =>
        simp only [act, current]
        apply holding_sendOn
        rw [holding.held, current]
        rfl

theorem Holding.takeFrame (holding : live.Holding) (message : FrontendMessage)
    (replicas : Replicas) (now : Nat) (lent : Option Upstreamed) :
    (live.takeFrame message replicas now lent).1.Holding := by
  unfold Live.takeFrame
  split
  · exact holding.close
  · apply holding_act
    constructor
    · rw [Relay.onClient_held]
      exact holding.held
    · rw [Relay.onClient_txStatus]
      exact holding.inTransaction
    · exact holding.answering

theorem Holding.takeCopyFrame (holding : live.Holding) (flushing : Bool)
    (message : FrontendMessage) : (live.takeCopyFrame flushing message).1.Holding := by
  unfold Live.takeCopyFrame
  split
  · exact holding.close
  · rename_i upstream current
    constructor
    · exact holding.held
    · exact holding.inTransaction
    · intro _ _
      exact Option.isSome_iff_exists.mpr ⟨upstream, current⟩

theorem holding_release (idle : live.relay.session.txStatus = .idle)
    (reading : live.phase = .reading) (present : live.upstream.isSome) (position : Option Nat) :
    (live.release position).1.Holding := by
  obtain ⟨upstream, current⟩ := Option.isSome_iff_exists.mp present
  unfold release
  rw [current]
  constructor
  · rfl
  · intro opened
    apply absurd _ opened
    split
    · split
      · exact idle
      · exact idle
    · exact idle
  · intro other
    exact absurd reading other

theorem Holding.takeAnswer (holding : live.Holding) (present : live.upstream.isSome)
    (flushing : Bool) (message : BackendMessage) (position : Option Nat) :
    (live.takeAnswer flushing message position).1.Holding := by
  have heard : ({ live with relay := (live.relay.onServer message).1 } : Live).relay.held =
      live.upstream.map fun _ => live.serving := by
    rw [Relay.onServer_held]
    exact holding.held
  rcases live.takeAnswer_cases flushing message position with
    ⟨pumping, phase, outputs, took, -⟩ | ⟨status, pumping, rfl, released, took⟩
  · rw [took]
    exact ⟨heard, fun _ => present, fun _ _ => present⟩
  · rw [took]
    apply holding_release
    · exact Relay.idle_of_release released
    · rfl
    · exact present

theorem Holding.step (holding : live.Holding) (event : LoopEvent) :
    (live.step event).1.Holding := by
  unfold Live.step
  split
  · split
    · exact holding.takeFrame ..
    · exact holding.takeCopyFrame ..
    · exact holding
  · split
    · rename_i flushing answering
      apply holding.takeAnswer
      apply holding.answering
      · rw [answering]
        exact Phase.noConfusion
      · rw [answering]
        exact Phase.noConfusion
    · exact holding
  · exact holding.close

theorem holding_start (mode : PoolMode) (statementTimeout : Option Nat)
    (settings : List (Text × Text)) : (start mode statementTimeout settings).Holding where
  held := (Relay.onStartupSettings_eq .new settings).1
  inTransaction := by
    intro opened
    apply absurd _ opened
    change (Relay.new.onStartupSettings settings).session.txStatus = .idle
    rw [(Relay.onStartupSettings_eq .new settings).2]
    rfl
  answering := fun other => absurd rfl other

theorem Reached.holding {mode : PoolMode} {statementTimeout : Option Nat}
    {settings : List (Text × Text)} (reached : Reached mode statementTimeout settings live) :
    live.Holding := by
  apply reached.invariant
  · exact holding_start mode statementTimeout settings
  · intro before event holding _
    exact holding.step event

end Live

end Pgprox.Serve
