/-
One frame in, one decision out.

The relay joins the protocol state, the pin, the router and the target of the
connection the session holds.  It acquires and releases nothing itself: it says what
the shell should do and is told what was done.
-/

import Pgprox.Pool.Pin
import Pgprox.Proto.SessionState
import Pgprox.Route.Router

namespace Pgprox.Session

open Proto Pools Route

inductive ClientAction
  | send (target : RouteTarget) (acquire : Bool)
  | answer (routed : Routed)
  | close
  deriving DecidableEq

structure ClientOutcome where
  action : ClientAction
  pinned : Option PinReason
  deriving DecidableEq

structure ServerOutcome where
  release : Bool
  pinned : Option PinReason
  deriving DecidableEq

structure Relay where
  session : SessionState
  pin : PinState
  router : SessionRouter
  held : Option RouteTarget
  deriving DecidableEq

namespace Relay

def new : Relay where
  session := .new
  pin := .new
  router := .new
  held := none

def recordWrite (relay : Relay) (lsn : Nat) : Relay :=
  { relay with router := relay.router.recordWrite lsn }

def acquired (relay : Relay) (target : RouteTarget) : Relay :=
  { relay with held := some target }

def released (relay : Relay) : Relay :=
  { relay with held := none }

def withPin (relay : Relay) (observed : PinState × Option PinReason) : Relay :=
  { relay with
    pin := observed.1
    router := if observed.2.isSome then relay.router.setPinned true else relay.router }

def onStartupSetting (relay : Relay) (name : Text) : Relay :=
  if Replayable.default.contains (Sql.toAsciiLowercase (Sql.trim name)) then relay
  else
    let (pin, pinned) := relay.pin.pin .unreplayableSet
    relay.withPin (pin, if pinned then some .unreplayableSet else none)

def onStartupSettings (relay : Relay) (settings : List (Text × Text)) : Relay :=
  settings.foldl (fun relay setting => relay.onStartupSetting setting.1) relay

def forwardWithoutRouting (relay : Relay) : ClientOutcome where
  action := .send .primary (relay.held ≠ some .primary)
  pinned := none

def routeStatement (relay : Relay) (sql : Text) (replicas : Replicas) (now : Nat) :
    Relay × ClientOutcome :=
  let observed := relay.pin.observeStatement sql .default
  let pinned := relay.withPin observed
  let (router, routed) :=
    pinned.router.route sql (relay.session.txStatus = .inTransaction) replicas now
  let action := match routed with
    | .to target => ClientAction.send target (relay.held ≠ some target)
    | answered => .answer answered
  ({ pinned with router := router }, ⟨action, observed.2⟩)

def onClient (relay : Relay) (message : FrontendMessage) (replicas : Replicas) (now : Nat) :
    Relay × ClientOutcome :=
  if message = .terminate then (relay, ⟨.close, none⟩)
  else
    let heard := { relay with session := relay.session.onFrontend message }
    match message.sql? with
    | none => (heard, heard.forwardWithoutRouting)
    | some sql => heard.routeStatement sql replicas now

def onServer (relay : Relay) (message : BackendMessage) : Relay × ServerOutcome :=
  let heard := { relay with session := relay.session.onBackend message }
  let observed := match message with
    | .notificationResponse _ => heard.pin.observeNotification
    | _ => (heard.pin, none)
  let pinned := heard.withPin observed
  let ended := match message with
    | .readyForQuery .idle => { pinned with router := pinned.router.endTransaction }
    | _ => pinned
  (ended,
    { release := ended.held.isSome && ended.session.isReleasable && !ended.pin.isPinned
      pinned := observed.2 })

/-! ### What a frame leaves alone -/

variable (relay : Relay) (observed : PinState × Option PinReason)

@[simp] theorem onClient_held (message : FrontendMessage) (replicas : Replicas) (now : Nat) :
    (relay.onClient message replicas now).1.held = relay.held := by
  unfold onClient
  split
  · rfl
  · split
    · rfl
    · rfl

/-- Only the server's status byte moves the transaction status. -/
@[simp] theorem onClient_txStatus (message : FrontendMessage) (replicas : Replicas) (now : Nat) :
    (relay.onClient message replicas now).1.session.txStatus = relay.session.txStatus := by
  have heard : (relay.session.onFrontend message).txStatus = relay.session.txStatus := by
    unfold SessionState.onFrontend
    split
    · split <;> rfl
    · split <;> rfl
    · rfl
    · split <;> rfl
  unfold onClient
  split
  · rfl
  · split
    · exact heard
    · exact heard

variable (message : BackendMessage)

@[simp] theorem onServer_held : (relay.onServer message).1.held = relay.held := by
  unfold onServer
  dsimp only
  split
  · rfl
  · rfl

@[simp] theorem onServer_session :
    (relay.onServer message).1.session = relay.session.onBackend message := by
  unfold onServer
  dsimp only
  split
  · rfl
  · rfl

theorem idle_of_release {relay : Relay} {message : BackendMessage}
    (released : (relay.onServer message).2.release = true) :
    (relay.onServer message).1.session.txStatus = .idle := by
  have releasable : (relay.onServer message).1.session.isReleasable = true := by
    simp only [onServer, Bool.and_eq_true] at released ⊢
    exact released.1.2
  unfold SessionState.isReleasable SessionState.holdReason at releasable
  cases status : (relay.onServer message).1.session.txStatus with
  | idle => rfl
  | inTransaction | failed =>
    rw [status] at releasable
    split at releasable <;> cases releasable

theorem withPin_router :
    (relay.withPin observed).router = relay.router ∨
      (relay.withPin observed).router = relay.router.setPinned true := by
  unfold withPin
  dsimp only
  split
  · exact .inr rfl
  · exact .inl rfl

@[simp] theorem onServer_wrote : (relay.onServer message).1.router.wrote = relay.router.wrote := by
  have pinned : ∀ observed, (relay.withPin observed).router.wrote = relay.router.wrote := by
    intro observed
    rcases relay.withPin_router observed with same | set
    · rw [same]
    · rw [set]
      rfl
  unfold onServer
  dsimp only
  split
  · exact pinned _
  · exact pinned _

@[simp] theorem onServer_watermark :
    (relay.onServer message).1.router.watermark = relay.router.watermark := by
  have pinned : ∀ observed,
      (relay.withPin observed).router.watermark = relay.router.watermark := by
    intro observed
    rcases relay.withPin_router observed with same | set
    · rw [same]
    · rw [set]
      rfl
  unfold onServer
  dsimp only
  split
  · exact pinned _
  · exact pinned _

theorem onServer_fixed :
    (relay.onServer message).1.router.fixed =
      if message = .readyForQuery .idle then none else relay.router.fixed := by
  have pinned : ∀ observed, (relay.withPin observed).router.fixed = relay.router.fixed := by
    intro observed
    rcases relay.withPin_router observed with same | set
    · rw [same]
    · rw [set]
      rfl
  unfold onServer
  dsimp only
  split
  · rfl
  · rename_i other
    rw [if_neg other]
    exact pinned _

theorem onStartupSettings_eq (settings : List (Text × Text)) :
    (relay.onStartupSettings settings).held = relay.held ∧
      (relay.onStartupSettings settings).session = relay.session := by
  induction settings generalizing relay with
  | nil => exact ⟨rfl, rfl⟩
  | cons setting later ih =>
    have one : (relay.onStartupSetting setting.1).held = relay.held ∧
        (relay.onStartupSetting setting.1).session = relay.session := by
      unfold onStartupSetting
      split
      · exact ⟨rfl, rfl⟩
      · exact ⟨rfl, rfl⟩
    rw [← one.1, ← one.2]
    exact ih _

theorem onStartupSettings_fixed (settings : List (Text × Text)) :
    (relay.onStartupSettings settings).router.fixed = relay.router.fixed := by
  induction settings generalizing relay with
  | nil => rfl
  | cons setting later ih =>
    have one : (relay.onStartupSetting setting.1).router.fixed = relay.router.fixed := by
      unfold onStartupSetting
      split
      · rfl
      · rcases relay.withPin_router _ with same | set
        · rw [same]
        · rw [set]
          rfl
    rw [← one]
    exact ih _

end Relay

end Pgprox.Session
