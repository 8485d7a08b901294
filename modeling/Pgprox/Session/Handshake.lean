/-
The connection handshake: the decision about TLS, the refusal of GSSAPI, the protocol
version, and which credential the client is asked for.

The machine neither reads nor writes.  It is given one decoded message of the startup
phase at a time and says what to answer.
-/

import Pgprox.Proto.Startup

namespace Pgprox.Session

open Proto List

inductive TlsPosture
  | required
  | optional
  | disabled
  deriving DecidableEq

inductive Credential
  | jwt
  | scram
  deriving DecidableEq

inductive ClientError
  | tlsRequired
  | protocolViolation (what : String)
  | unsupported (what : String)
  | internal (what : String)
  deriving DecidableEq

inductive Action
  | acceptTls
  | refuseTls
  | refuseGss
  | ask (credential : Credential)
  | cancel (processId secret : Int)
  | fail (error : ClientError)
  deriving DecidableEq

structure Negotiation where
  minor : Int
  unsupported : List Text
  deriving DecidableEq

structure Reply where
  negotiate : Option Negotiation
  action : Action
  deriving DecidableEq

def Reply.just (action : Action) : Reply where
  negotiate := none
  action := action

structure StartupInfo where
  user : Text
  database : Text
  /-- Every runtime setting the client asked for, in the order they apply. -/
  settings : List (Text × Text)
  deriving DecidableEq

def StartupInfo.settingsOf (message : Startup) : List (Text × Text) :=
  message.settings ++ message.options

structure HandshakeConfig where
  tls : TlsPosture
  staticUsers : List Text
  deriving DecidableEq

namespace Handshake

inductive Stage
  | opening
  | settled
  | asked
  | closed
  deriving DecidableEq

end Handshake

structure Handshake where
  config : HandshakeConfig
  stage : Handshake.Stage
  tls : Bool
  startup : Option StartupInfo
  deriving DecidableEq

namespace Handshake

def new (config : HandshakeConfig) : Handshake where
  config := config
  stage := .opening
  tls := false
  startup := none

def fail (handshake : Handshake) (error : ClientError) : Handshake × Reply :=
  ({ handshake with stage := .closed }, .just (.fail error))

def violation (handshake : Handshake) (what : String) : Handshake × Reply :=
  handshake.fail (.protocolViolation what)

def onSslRequest (handshake : Handshake) : Handshake × Reply :=
  if handshake.stage ≠ .opening then
    handshake.violation "SSLRequest arrived after the handshake had moved on"
  else
    let settled := { handshake with stage := .settled }
    if handshake.config.tls = .disabled then (settled, .just .refuseTls)
    else ({ settled with tls := true }, .just .acceptTls)

/-- Refused without settling anything: the client may still ask for TLS. -/
def onGssRequest (handshake : Handshake) : Handshake × Reply :=
  if handshake.stage = .asked ∨ handshake.stage = .closed then
    handshake.violation "GSSENCRequest arrived after the handshake had moved on"
  else (handshake, .just .refuseGss)

def onCancel (handshake : Handshake) (processId secret : Int) : Handshake × Reply :=
  if handshake.stage = .asked ∨ handshake.stage = .closed then
    handshake.violation "CancelRequest arrived mid-handshake"
  else ({ handshake with stage := .closed }, .just (.cancel processId secret))

def ask (handshake : Handshake) (message : Startup) (negotiated : Option Negotiation) :
    Handshake × Reply :=
  if message.replication then
    handshake.fail (.unsupported
      "replication connections are not proxied: connect to the database directly")
  else
    match message.user, message.database with
    | none, _ => handshake.violation "startup packet has no user parameter"
    | some _, none => handshake.violation "startup packet has no database parameter"
    | some user, some database =>
      let credential := if user ∈ handshake.config.staticUsers then .scram else .jwt
      let startup : StartupInfo :=
        { user := user, database := database, settings := StartupInfo.settingsOf message }
      ({ handshake with startup := some startup, stage := .asked },
        { negotiate := negotiated, action := .ask credential })

def onMessage (handshake : Handshake) (version : Int) (message : Startup) : Handshake × Reply :=
  if handshake.stage = .asked ∨ handshake.stage = .closed then
    handshake.violation "a second startup packet arrived"
  else if handshake.config.tls = .required ∧ handshake.tls = false then
    handshake.fail .tlsRequired
  else
    match negotiate version (message.extensions ≠ []) with
    | .accept => handshake.ask message none
    | .negotiate minor => handshake.ask message (some ⟨minor, message.extensions⟩)
    | .unsupported => handshake.violation "unsupported protocol major version"

def onStartup (handshake : Handshake) (message : Startup) : Handshake × Reply :=
  match message with
  | .sslRequest => handshake.onSslRequest
  | .gssEncRequest => handshake.onGssRequest
  | .cancelRequest processId secret => handshake.onCancel processId secret
  | .startupMessage version _ => handshake.onMessage version message

/-! ### What a message can do -/

def Over (handshake : Handshake) : Prop :=
  handshake.stage = .asked ∨ handshake.stage = .closed

def Moves (before : Handshake) (after : Handshake) : Action → Prop
  | .acceptTls => ¬ before.Over ∧ after.tls = true
  | .refuseTls => ¬ before.Over ∧ after.tls = before.tls
  | .refuseGss => ¬ before.Over ∧ after.tls = before.tls
  | .ask _ =>
    ¬ before.Over ∧ after.Over ∧ after.tls = before.tls ∧
      (before.config.tls = .required → before.tls = true)
  | .cancel _ _ => ¬ before.Over ∧ after.Over ∧ after.tls = before.tls
  | .fail _ => after.Over ∧ after.tls = before.tls

variable (handshake : Handshake)

theorem moves_violation (what : String) :
    handshake.Moves (handshake.violation what).1 (handshake.violation what).2.action :=
  ⟨.inr rfl, rfl⟩

theorem moves_fail (error : ClientError) :
    handshake.Moves (handshake.fail error).1 (handshake.fail error).2.action :=
  ⟨.inr rfl, rfl⟩

theorem moves_onSslRequest :
    handshake.Moves handshake.onSslRequest.1 handshake.onSslRequest.2.action := by
  unfold onSslRequest
  split
  · exact handshake.moves_violation _
  · next opening =>
      have unsettled : ¬ handshake.Over := by
        rw [Over, not_not.mp opening]
        decide
      split
      · exact ⟨unsettled, rfl⟩
      · exact ⟨unsettled, rfl⟩

theorem moves_onGssRequest :
    handshake.Moves handshake.onGssRequest.1 handshake.onGssRequest.2.action := by
  unfold onGssRequest
  split
  · exact handshake.moves_violation _
  · next going => exact ⟨going, rfl⟩

theorem moves_onCancel (processId secret : Int) :
    handshake.Moves (handshake.onCancel processId secret).1
      (handshake.onCancel processId secret).2.action := by
  unfold onCancel
  split
  · exact handshake.moves_violation _
  · next going => exact ⟨going, .inr rfl, rfl⟩

variable (message : Startup)

theorem moves_ask {handshake : Handshake} (negotiated : Option Negotiation)
    (going : ¬ handshake.Over) (covered : handshake.config.tls = .required → handshake.tls = true) :
    handshake.Moves (handshake.ask message negotiated).1
      (handshake.ask message negotiated).2.action := by
  unfold ask
  split
  · exact handshake.moves_fail _
  · split
    · exact handshake.moves_violation _
    · exact handshake.moves_violation _
    · exact ⟨going, .inl rfl, rfl, covered⟩

theorem moves_onMessage (version : Int) (message : Startup) :
    handshake.Moves (handshake.onMessage version message).1
      (handshake.onMessage version message).2.action := by
  unfold onMessage
  split
  · exact handshake.moves_violation _
  · next going =>
      split
      · exact handshake.moves_fail _
      · next clear =>
          have covered : handshake.config.tls = .required → handshake.tls = true := by
            intro required
            exact Bool.eq_true_of_not_eq_false fun plain => clear ⟨required, plain⟩
          split
          · exact moves_ask message none going covered
          · exact moves_ask message _ going covered
          · exact handshake.moves_violation _

theorem moves_onStartup :
    handshake.Moves (handshake.onStartup message).1 (handshake.onStartup message).2.action := by
  cases message with
  | sslRequest => exact handshake.moves_onSslRequest
  | gssEncRequest => exact handshake.moves_onGssRequest
  | cancelRequest processId secret => exact handshake.moves_onCancel processId secret
  | startupMessage version params => exact handshake.moves_onMessage version _

theorem config_onStartup : (handshake.onStartup message).1.config = handshake.config := by
  unfold onStartup onSslRequest onGssRequest onCancel onMessage ask violation fail
  grind

/-! ### A sequence of messages -/

def replies (handshake : Handshake) : List Startup → List Reply
  | [] => []
  | message :: later =>
    (handshake.onStartup message).2 :: replies (handshake.onStartup message).1 later

def after (handshake : Handshake) (messages : List Startup) : Handshake :=
  messages.foldl (fun reached message => (reached.onStartup message).1) handshake

theorem replies_append (front back : List Startup) :
    handshake.replies (front ++ back) =
      handshake.replies front ++ (handshake.after front).replies back := by
  induction front generalizing handshake with
  | nil => rfl
  | cons message later ih => exact congrArg (_ :: ·) (ih _)

end Handshake

namespace Action

def isAsk : Action → Bool
  | .ask _ => true
  | _ => false

def isFail : Action → Bool
  | .fail _ => true
  | _ => false

def isFinal : Action → Bool
  | .ask _ | .cancel _ _ | .fail _ => true
  | _ => false

end Action

/-- A credential is asked for at most once and only after TLS was accepted, and what follows
a final answer are failures. -/
structure Guarded (actions : List Action) : Prop where
  tlsFirst : ∀ before later credential, actions = before ++ .ask credential :: later →
    .acceptTls ∈ before
  once : (actions.filter Action.isAsk).length ≤ 1
  final : actions.Pairwise fun earlier later => earlier.isFinal → later.isFail

theorem length_asks_le_one {actions : List Action}
    (final : actions.Pairwise fun earlier later => earlier.isFinal → later.isFail) :
    (actions.filter Action.isAsk).length ≤ 1 := by
  have kept := final.filter Action.isAsk
  rcases listed : actions.filter Action.isAsk with _ | ⟨first, _ | ⟨second, further⟩⟩
  · exact Nat.zero_le 1
  · exact le_rfl
  · have asks : ∀ action ∈ actions.filter Action.isAsk, action.isAsk := fun action member =>
      (mem_filter.mp member).2
    rw [listed] at kept asks
    have firstAsks := asks first mem_cons_self
    have secondAsks := asks second (mem_cons_of_mem _ mem_cons_self)
    have fails := rel_of_pairwise_cons kept mem_cons_self
    cases first with
    | ask credential =>
      cases second with
      | ask _ => exact absurd (fails rfl) nofun
      | acceptTls | refuseTls | refuseGss | cancel | fail => exact absurd secondAsks nofun
    | acceptTls | refuseTls | refuseGss | cancel | fail => exact absurd firstAsks nofun

namespace Handshake

variable {handshake : Handshake}

theorem isFail_of_over (finished : handshake.Over) (message : Startup) :
    (handshake.onStartup message).2.action.isFail ∧ (handshake.onStartup message).1.Over := by
  have moves := handshake.moves_onStartup message
  cases action : (handshake.onStartup message).2.action with
  | fail error =>
    rw [action] at moves
    exact ⟨rfl, moves.1⟩
  | acceptTls | refuseTls | refuseGss | ask | cancel =>
    rw [action] at moves
    exact absurd finished moves.1

theorem over_of_isFinal {message : Startup}
    (final : (handshake.onStartup message).2.action.isFinal) :
    (handshake.onStartup message).1.Over := by
  have moves := handshake.moves_onStartup message
  cases action : (handshake.onStartup message).2.action with
  | acceptTls | refuseTls | refuseGss =>
    rw [action] at final
    exact absurd final nofun
  | ask | cancel =>
    rw [action] at moves
    exact moves.2.1
  | fail =>
    rw [action] at moves
    exact moves.1

theorem isFail_of_mem_replies (finished : handshake.Over) (messages : List Startup) :
    ∀ reply ∈ handshake.replies messages, reply.action.isFail := by
  induction messages generalizing handshake with
  | nil => exact nofun
  | cons message later ih =>
    obtain ⟨fails, stays⟩ := isFail_of_over finished message
    intro reply listed
    rcases mem_cons.mp listed with rfl | further
    · exact fails
    · exact ih stays reply further

theorem pairwise_replies (handshake : Handshake) (messages : List Startup) :
    (handshake.replies messages).Pairwise
      fun earlier later => earlier.action.isFinal → later.action.isFail := by
  induction messages generalizing handshake with
  | nil => exact List.Pairwise.nil
  | cons message later ih =>
    apply List.Pairwise.cons
    · intro reply listed final
      exact isFail_of_mem_replies (over_of_isFinal final) later reply listed
    · exact ih _

theorem tls_of_not_acceptTls {message : Startup}
    (other : (handshake.onStartup message).2.action ≠ .acceptTls) :
    (handshake.onStartup message).1.tls = handshake.tls := by
  have moves := handshake.moves_onStartup message
  cases action : (handshake.onStartup message).2.action with
  | acceptTls => exact absurd action other
  | refuseTls | refuseGss | fail =>
    rw [action] at moves
    exact moves.2
  | cancel =>
    rw [action] at moves
    exact moves.2.2
  | ask =>
    rw [action] at moves
    exact moves.2.2.1

/-- Where TLS is required and has not been accepted, nothing is asked for before it is. -/
theorem acceptTls_before_ask (required : handshake.config.tls = .required)
    (inClear : handshake.tls = false) {messages : List Startup} {before later : List Action}
    {credential : Credential}
    (split : (handshake.replies messages).map Reply.action = before ++ .ask credential :: later) :
    .acceptTls ∈ before := by
  induction messages generalizing handshake before with
  | nil => exact absurd split (by simp [replies])
  | cons message further ih =>
    have moves := handshake.moves_onStartup message
    cases before with
    | nil =>
      have asked : (handshake.onStartup message).2.action = .ask credential :=
        (List.cons.inj split).1
      rw [asked] at moves
      exact absurd (moves.2.2.2 required) (by simp [inClear])
    | cons first before =>
      obtain ⟨head, tail⟩ := List.cons.inj split
      by_cases accepted : first = .acceptTls
      · exact mem_cons.mpr (.inl accepted.symm)
      · apply mem_cons_of_mem
        apply ih _ _ tail
        · rw [config_onStartup]
          exact required
        · rw [tls_of_not_acceptTls fun accepting => accepted (head ▸ accepting)]
          exact inClear

theorem guarded_replies {config : HandshakeConfig} (required : config.tls = .required)
    (messages : List Startup) :
    Guarded (((new config).replies messages).map Reply.action) where
  tlsFirst := by
    intro before later credential split
    exact acceptTls_before_ask required rfl split
  once := length_asks_le_one (pairwise_map.mpr ((new config).pairwise_replies messages))
  final := pairwise_map.mpr ((new config).pairwise_replies messages)

end Handshake

end Pgprox.Session
