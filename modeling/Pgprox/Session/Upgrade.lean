/-
The startup phase on the wire: frames are read off a stream, the machine answers them, and
an accepted request for TLS hands the stream over.

A stream is the reads it will give, each some bytes or a failure.  What is read past a
frame stays in the wire's buffer, and a wire with bytes left over at the upgrade is given
up.
-/

import Pgprox.Session.Handshake

namespace Pgprox.Session

open Proto List

def maxHandshakeFrame : Nat := 32 * 1024

inductive ShellError
  | disconnected
  | io
  | frame (error : DecodeError)
  | startup (error : StartupError)
  | refused (error : ClientError)
  deriving DecidableEq

/-- What reading and writing will give.  No bytes are the end of the stream. -/
structure Io where
  reads : List (Except ShellError (List UInt8))
  flushes : List (Option ShellError)

namespace Io

def bytesOf (reads : List (Except ShellError (List UInt8))) : List UInt8 :=
  reads.flatMap fun read => read.toOption.getD []

def bytes (io : Io) : List UInt8 :=
  bytesOf io.reads

end Io

structure Wire where
  io : Io
  buffered : List UInt8

structure Taken where
  frame : List UInt8
  body : List UInt8
  buffered : List UInt8
  reads : List (Except ShellError (List UInt8))

namespace Wire

def new (io : Io) : Wire where
  io := io
  buffered := []

def intoParts (wire : Wire) : Io × List UInt8 :=
  (wire.io, wire.buffered)

def decoded (maxFrame : Nat) (buffered : List UInt8)
    (reads : List (Except ShellError (List UInt8))) : Option (Except ShellError Taken) :=
  match decodeUntagged buffered maxFrame with
  | .error error => some (.error (.frame error))
  | .ok (.frame frame consumed) =>
    some (.ok ⟨buffered.take consumed, frame.body, buffered.drop consumed, reads⟩)
  | .ok (.incomplete _) => none

def takeUntagged (maxFrame : Nat) :
    List (Except ShellError (List UInt8)) → List UInt8 → Except ShellError Taken
  | [], buffered => (decoded maxFrame buffered []).getD (.error .disconnected)
  | read :: later, buffered =>
    match decoded maxFrame buffered (read :: later) with
    | some result => result
    | none =>
      match read with
      | .error error => .error error
      | .ok chunk =>
        if chunk = [] then .error .disconnected
        else takeUntagged maxFrame later (buffered ++ chunk)

def readUntagged (wire : Wire) (maxFrame : Nat) : Except ShellError (Taken × Wire) := do
  let taken ← takeUntagged maxFrame wire.io.reads wire.buffered
  return (taken, ⟨{ wire.io with reads := taken.reads }, taken.buffered⟩)

def flush (wire : Wire) : Except ShellError Wire :=
  match wire.io.flushes with
  | [] => .ok wire
  | none :: later => .ok { wire with io := { wire.io with flushes := later } }
  | some error :: _ => .error error

def bytes (wire : Wire) : List UInt8 :=
  wire.buffered ++ wire.io.bytes

end Wire

inductive Handoff
  | upgrade
  | ask (credential : Credential)
  | cancel (processId secret : Int)
  deriving DecidableEq

inductive Stream
  | plain
  | upgraded
  deriving DecidableEq

structure Exchange where
  stream : Stream
  frame : List UInt8
  message : Startup
  reply : Reply
  deriving DecidableEq

structure Negotiated where
  exchanges : List Exchange
  wire : Wire
  handshake : Handshake
  result : Except ShellError Handoff

def Negotiated.ended (exchange : Exchange) (wire : Wire) (handshake : Handshake)
    (handoff : Handoff) : Negotiated :=
  match wire.flush with
  | .error error => ⟨[exchange], wire, handshake, .error error⟩
  | .ok flushed => ⟨[exchange], flushed, handshake, .ok handoff⟩

variable {maxFrame : Nat} {taken : Taken}

theorem Wire.decoded_ok {buffered : List UInt8} {reads : List (Except ShellError (List UInt8))}
    (whole : decoded maxFrame buffered reads = some (.ok taken)) :
    taken.reads = reads ∧ taken.frame ++ taken.buffered = buffered ∧ taken.frame ≠ [] := by
  unfold decoded at whole
  split at whole
  · exact absurd whole nofun
  · next frame consumed decodes =>
      obtain rfl := Except.ok.inj (Option.some.inj whole)
      refine ⟨rfl, take_append_drop consumed buffered, ?_⟩
      have long : lenPrefix ≤ consumed ∧ lenPrefix ≤ buffered.length := by
        unfold decodeUntagged at decodes
        grind
      have positive : 0 < (buffered.take consumed).length := by
        rw [length_take]
        unfold lenPrefix at long
        omega
      exact ne_nil_of_length_pos positive
  · exact absurd whole nofun

theorem Wire.takeUntagged_ok {reads : List (Except ShellError (List UInt8))}
    {buffered : List UInt8} (read : takeUntagged maxFrame reads buffered = .ok taken) :
    taken.frame ≠ [] ∧ ∃ given, reads = given ++ taken.reads ∧
      buffered ++ Io.bytesOf given = taken.frame ++ taken.buffered := by
  induction reads generalizing buffered with
  | nil =>
    rw [takeUntagged] at read
    cases whole : decoded maxFrame buffered [] with
    | none =>
      rw [whole] at read
      exact absurd read nofun
    | some result =>
      rw [whole, Option.getD_some] at read
      obtain ⟨sameReads, sameBytes, nonempty⟩ := decoded_ok (read ▸ whole)
      exact ⟨nonempty, [], sameReads.symm, (append_nil _).trans sameBytes.symm⟩
  | cons first later ih =>
    rw [takeUntagged.eq_def] at read
    dsimp only at read
    split at read
    · next result whole =>
        obtain ⟨sameReads, sameBytes, nonempty⟩ := decoded_ok (read ▸ whole)
        exact ⟨nonempty, [], sameReads.symm, (append_nil _).trans sameBytes.symm⟩
    · split at read
      · exact absurd read nofun
      · next chunk _ =>
          split at read
          · exact absurd read nofun
          · obtain ⟨nonempty, given, sameReads, sameBytes⟩ := ih read
            refine ⟨nonempty, .ok chunk :: given, by rw [sameReads]; rfl, ?_⟩
            rw [← sameBytes, append_assoc]
            rfl

variable {wire : Wire}

theorem Wire.readUntagged_ok {rest : Wire} (read : wire.readUntagged maxFrame = .ok (taken, rest)) :
    taken.frame ≠ [] ∧ ∃ given, wire.io.reads = given ++ rest.io.reads ∧
      wire.buffered ++ Io.bytesOf given = taken.frame ++ rest.buffered := by
  unfold readUntagged at read
  cases took : takeUntagged maxFrame wire.io.reads wire.buffered with
  | error error =>
    rw [took] at read
    exact absurd read nofun
  | ok found =>
    rw [took] at read
    obtain ⟨rfl, rfl⟩ := Prod.mk.inj (Except.ok.inj read)
    exact takeUntagged_ok took

theorem Wire.readUntagged_lt {rest : Wire} (read : wire.readUntagged maxFrame = .ok (taken, rest)) :
    rest.bytes.length < wire.bytes.length := by
  obtain ⟨nonempty, given, sameReads, sameBytes⟩ := readUntagged_ok read
  have whole : wire.bytes = taken.frame ++ rest.bytes := by
    unfold bytes Io.bytes
    rw [sameReads, Io.bytesOf, flatMap_append, ← append_assoc, ← append_assoc]
    exact congrArg (· ++ Io.bytesOf rest.io.reads) sameBytes
  rw [whole, length_append]
  exact Nat.lt_add_of_pos_left (length_pos_of_ne_nil nonempty)

theorem Wire.flush_ok {flushed : Wire} (sent : wire.flush = .ok flushed) :
    flushed.buffered = wire.buffered ∧ flushed.io.reads = wire.io.reads := by
  unfold flush at sent
  split at sent
  · cases sent
    exact ⟨rfl, rfl⟩
  · cases sent
    exact ⟨rfl, rfl⟩
  · exact absurd sent nofun

theorem Wire.flush_bytes {flushed : Wire} (sent : wire.flush = .ok flushed) :
    flushed.bytes = wire.bytes := by
  obtain ⟨sameBuffer, sameReads⟩ := flush_ok sent
  unfold bytes Io.bytes
  rw [sameBuffer, sameReads]

/-- Drives the startup phase on one stream, to the point where a credential is asked for or
the stream is to be upgraded. -/
def negotiate (stream : Stream) (wire : Wire) (handshake : Handshake) : Negotiated :=
  match _read : wire.readUntagged maxHandshakeFrame with
  | .error error => ⟨[], wire, handshake, .error error⟩
  | .ok (taken, rest) =>
    match decodeStartup taken.body with
    | .error error => ⟨[], wire, handshake, .error (.startup error)⟩
    | .ok message =>
      let after := (handshake.onStartup message).1
      let reply := (handshake.onStartup message).2
      let exchange : Exchange := ⟨stream, taken.frame, message, reply⟩
      match reply.action with
      | .acceptTls => .ended exchange rest after .upgrade
      -- Both refusals are one byte, and the client may go on.
      | .refuseTls | .refuseGss =>
        match _sent : rest.flush with
        | .error error => ⟨[exchange], rest, after, .error error⟩
        | .ok flushed =>
          let further := negotiate stream flushed after
          { further with exchanges := exchange :: further.exchanges }
      | .ask credential => .ended exchange rest after (.ask credential)
      | .cancel processId secret => .ended exchange rest after (.cancel processId secret)
      | .fail error => ⟨[exchange], rest, after, .error (.refused error)⟩
termination_by wire.bytes.length
decreasing_by
  all_goals
    rw [Wire.flush_bytes _sent]
    exact Wire.readUntagged_lt _read

/-! ### The session up to the credential -/

/-- What becomes of a client: it is served on a stream once it has been asked for a
credential, its cancellation is carried out, or it is given up. -/
inductive Ending
  | served (stream : Stream) (credential : Credential) (wire : Wire)
  | cancel (processId secret : Int)
  | failed (error : ShellError)

structure Conducted where
  exchanges : List Exchange
  ending : Ending

def secondPhase (io : Io) (handshake : Handshake) : Conducted :=
  let negotiated := negotiate .upgraded (.new io) handshake
  ⟨negotiated.exchanges,
    match negotiated.result with
    | .error error => .failed error
    | .ok (.cancel processId secret) => .cancel processId secret
    | .ok .upgrade => .failed (.refused (.protocolViolation "TLS was already negotiated"))
    | .ok (.ask credential) => .served .upgraded credential negotiated.wire⟩

/-- One client up to the point where its credential is read.  The acceptor makes the
upgraded stream out of what the plain one has not yet given, or fails. -/
def session (config : HandshakeConfig) (acceptor : Option (Io → Option Io)) (io : Io) :
    Conducted :=
  let negotiated := negotiate .plain (.new io) (.new config)
  match negotiated.result with
  | .error error => ⟨negotiated.exchanges, .failed error⟩
  | .ok (.cancel processId secret) => ⟨negotiated.exchanges, .cancel processId secret⟩
  | .ok (.ask credential) => ⟨negotiated.exchanges, .served .plain credential negotiated.wire⟩
  | .ok .upgrade =>
    match acceptor with
    | none =>
      ⟨negotiated.exchanges, .failed (.refused (.protocolViolation "TLS is not available"))⟩
    | some accept =>
      let (rest, pending) := negotiated.wire.intoParts
      if pending ≠ [] then ⟨negotiated.exchanges, .failed .disconnected⟩
      else
        match accept rest with
        | none => ⟨negotiated.exchanges, .failed .disconnected⟩
        | some upgraded =>
          let second := secondPhase upgraded negotiated.handshake
          { second with exchanges := negotiated.exchanges ++ second.exchanges }

/-! ### What a negotiation keeps -/

/-- Some reads turn what one wire has buffered into the bytes and what the other has. -/
def Wire.Gives (wire : Wire) (bytes : List UInt8) (rest : Wire) : Prop :=
  ∃ given, wire.io.reads = given ++ rest.io.reads ∧
    wire.buffered ++ Io.bytesOf given = bytes ++ rest.buffered

namespace Wire.Gives

variable {wire middle rest : Wire} {front back : List UInt8}

theorem refl (wire : Wire) : wire.Gives [] wire :=
  ⟨[], rfl, append_nil _⟩

theorem trans (first : wire.Gives front middle) (second : middle.Gives back rest) :
    wire.Gives (front ++ back) rest := by
  obtain ⟨given, sameReads, sameBytes⟩ := first
  obtain ⟨more, moreReads, moreBytes⟩ := second
  refine ⟨given ++ more, by rw [sameReads, moreReads, append_assoc], ?_⟩
  calc wire.buffered ++ Io.bytesOf (given ++ more)
      = (wire.buffered ++ Io.bytesOf given) ++ Io.bytesOf more := by
        rw [Io.bytesOf, flatMap_append, append_assoc]
        rfl
    _ = front ++ (middle.buffered ++ Io.bytesOf more) := by
        rw [sameBytes, append_assoc]
    _ = (front ++ back) ++ rest.buffered := by
        rw [moreBytes, append_assoc]

theorem of_flush {flushed : Wire} (sent : wire.flush = .ok flushed) : wire.Gives [] flushed := by
  obtain ⟨sameBuffer, sameReads⟩ := Wire.flush_ok sent
  refine ⟨[], sameReads.symm, ?_⟩
  rw [sameBuffer]
  exact append_nil _

theorem bytes (gives : wire.Gives front rest) : wire.bytes = front ++ rest.bytes := by
  obtain ⟨given, sameReads, sameBytes⟩ := gives
  unfold Wire.bytes Io.bytes
  rw [sameReads, Io.bytesOf, flatMap_append, ← append_assoc, ← append_assoc]
  exact congrArg (· ++ Io.bytesOf rest.io.reads) sameBytes

end Wire.Gives

structure Negotiated.Sound (stream : Stream) (wire : Wire) (handshake : Handshake)
    (negotiated : Negotiated) : Prop where
  streams : ∀ exchange ∈ negotiated.exchanges, exchange.stream = stream
  replies : negotiated.exchanges.map Exchange.reply =
    handshake.replies (negotiated.exchanges.map Exchange.message)
  reached : negotiated.handshake =
    handshake.after (negotiated.exchanges.map Exchange.message)
  bytes : wire.Gives (negotiated.exchanges.flatMap Exchange.frame) negotiated.wire
  upgrade : negotiated.result = .ok .upgrade →
    ∃ exchange ∈ negotiated.exchanges, exchange.reply.action = .acceptTls
  ask : ∀ credential, negotiated.result = .ok (.ask credential) →
    ∃ exchange ∈ negotiated.exchanges, exchange.reply.action = .ask credential
  /-- TLS is accepted at the end, and then the stream is to be upgraded or given up. -/
  inClear : handshake.config.tls = .required → handshake.tls = false →
    ∀ exchange ∈ negotiated.exchanges, exchange.reply.action.isAsk = false

namespace Negotiated.Sound

variable {stream : Stream} {wire rest : Wire} {handshake : Handshake}

theorem failed (error : ShellError) :
    Negotiated.Sound stream wire handshake ⟨[], wire, handshake, .error error⟩ where
  streams := nofun
  replies := rfl
  reached := rfl
  bytes := .refl wire
  upgrade := nofun
  ask := nofun
  inClear _ _ := nofun

variable {message : Startup}

theorem not_isAsk (required : handshake.config.tls = .required) (inClear : handshake.tls = false) :
    (handshake.onStartup message).2.action.isAsk = false := by
  have moves := handshake.moves_onStartup message
  cases action : (handshake.onStartup message).2.action with
  | ask credential =>
    rw [action] at moves
    exact absurd (moves.2.2.2 required) (by simp [inClear])
  | acceptTls | refuseTls | refuseGss | cancel | fail => rfl

variable {frame : List UInt8}

theorem last {result : Except ShellError Handoff} (gives : wire.Gives frame rest)
    (upgrade : result = .ok .upgrade → (handshake.onStartup message).2.action = .acceptTls)
    (ask : ∀ credential, result = .ok (.ask credential) →
      (handshake.onStartup message).2.action = .ask credential) :
    Negotiated.Sound stream wire handshake
      ⟨[⟨stream, frame, message, (handshake.onStartup message).2⟩], rest,
        (handshake.onStartup message).1, result⟩ where
  streams := by
    intro exchange listed
    rw [mem_singleton.mp listed]
  replies := rfl
  reached := rfl
  bytes := by
    rw [flatMap_singleton]
    exact gives
  upgrade := fun upgraded => ⟨_, mem_cons_self, upgrade upgraded⟩
  ask := fun credential asked => ⟨_, mem_cons_self, ask credential asked⟩
  inClear := by
    intro required inClear exchange listed
    rw [mem_singleton.mp listed]
    exact not_isAsk required inClear

theorem ended {handoff : Handoff} (gives : wire.Gives frame rest)
    (upgrade : handoff = .upgrade → (handshake.onStartup message).2.action = .acceptTls)
    (ask : ∀ credential, handoff = .ask credential →
      (handshake.onStartup message).2.action = .ask credential) :
    Negotiated.Sound stream wire handshake
      (.ended ⟨stream, frame, message, (handshake.onStartup message).2⟩ rest
        (handshake.onStartup message).1 handoff) := by
  unfold Negotiated.ended
  split
  · exact last gives nofun nofun
  · next flushed sent =>
      have sentGives : wire.Gives frame flushed := by
        have both := gives.trans (.of_flush sent)
        rwa [append_nil] at both
      exact last sentGives (fun same => upgrade (Except.ok.inj same))
        fun credential same => ask credential (Except.ok.inj same)

theorem more {further : Negotiated} (gives : wire.Gives frame rest)
    (refused : (handshake.onStartup message).2.action ≠ .acceptTls)
    (sound : further.Sound stream rest (handshake.onStartup message).1) :
    Negotiated.Sound stream wire handshake
      { further with
        exchanges := ⟨stream, frame, message, (handshake.onStartup message).2⟩ ::
          further.exchanges } where
  streams := by
    intro exchange listed
    rcases mem_cons.mp listed with rfl | later
    · rfl
    · exact sound.streams exchange later
  replies := congrArg ((handshake.onStartup message).2 :: ·) sound.replies
  reached := sound.reached
  bytes := gives.trans sound.bytes
  upgrade := by
    intro upgraded
    obtain ⟨exchange, listed, accepts⟩ := sound.upgrade upgraded
    exact ⟨exchange, mem_cons_of_mem _ listed, accepts⟩
  ask := by
    intro credential asked
    obtain ⟨exchange, listed, asks⟩ := sound.ask credential asked
    exact ⟨exchange, mem_cons_of_mem _ listed, asks⟩
  inClear := by
    intro required inClear exchange listed
    rcases mem_cons.mp listed with rfl | later
    · exact not_isAsk required inClear
    · refine sound.inClear ?_ ?_ exchange later
      · rw [Handshake.config_onStartup]
        exact required
      · rw [Handshake.tls_of_not_acceptTls refused]
        exact inClear

end Negotiated.Sound

theorem negotiate_sound (stream : Stream) (wire : Wire) (handshake : Handshake) :
    (negotiate stream wire handshake).Sound stream wire handshake := by
  fun_induction negotiate stream wire handshake with
  | case1 wire handshake error read => exact .failed error
  | case2 => exact .failed _
  | case3 _ _ _ _ read _ _ _ _ _ action =>
    exact .ended (Wire.readUntagged_ok read).2 (fun _ => action) nofun
  | case4 _ _ _ _ read | case6 _ _ _ _ read | case10 _ _ _ _ read =>
    exact .last (Wire.readUntagged_ok read).2 nofun nofun
  | case5 _ _ _ _ read _ _ _ _ _ action _ sent _ ih
  | case7 _ _ _ _ read _ _ _ _ _ action _ sent _ ih =>
    have gives := Wire.Gives.trans (Wire.readUntagged_ok read).2 (.of_flush sent)
    rw [append_nil] at gives
    exact .more gives (by rw [action]; exact nofun) ih
  | case8 _ _ _ _ read _ _ _ _ _ credential action =>
    refine .ended (Wire.readUntagged_ok read).2 nofun ?_
    intro asked same
    rw [action, Handoff.ask.inj same]
  | case9 _ _ _ _ read => exact .ended (Wire.readUntagged_ok read).2 nofun nofun

/-! ### What a session keeps -/

/-- A session that went over to an upgraded stream.  Everything read off the plain stream
was taken as frames there, and what is taken afterwards comes out of the upgraded one. -/
structure HandedOver (acceptor : Option (Io → Option Io)) (io : Io) (conducted : Conducted)
    (plain upgraded : List Exchange) (rest accepted : Io) : Prop where
  accepts : ∃ accept, acceptor = some accept ∧ accept rest = some accepted
  exchanges : conducted.exchanges = plain ++ upgraded
  onPlain : ∀ exchange ∈ plain, exchange.stream = .plain
  onUpgraded : ∀ exchange ∈ upgraded, exchange.stream = .upgraded
  acceptTls : ∃ exchange ∈ plain, exchange.reply.action = .acceptTls
  before : ∃ given, io.reads = given ++ rest.reads ∧
    Io.bytesOf given = plain.flatMap Exchange.frame
  after : upgraded.flatMap Exchange.frame <+: accepted.bytes
  /-- The credential is read out of what the upgraded stream still has. -/
  served : ∀ stream credential wire, conducted.ending = .served stream credential wire →
    upgraded.flatMap Exchange.frame ++ wire.bytes = accepted.bytes

structure Secured (acceptor : Option (Io → Option Io)) (io : Io) (conducted : Conducted) :
    Prop where
  guarded : Guarded (conducted.exchanges.map fun exchange => exchange.reply.action)
  asked : ∀ exchange ∈ conducted.exchanges, exchange.reply.action.isAsk →
    exchange.stream = .upgraded
  served : ∀ stream credential wire, conducted.ending = .served stream credential wire →
    stream = .upgraded
  apart : (∀ exchange ∈ conducted.exchanges, exchange.stream = .plain) ∨
    ∃ plain upgraded rest accepted,
      HandedOver acceptor io conducted plain upgraded rest accepted

variable {config : HandshakeConfig} {acceptor : Option (Io → Option Io)} {io : Io}

theorem guarded_of_replies (required : config.tls = .required) {exchanges : List Exchange}
    (replies : exchanges.map Exchange.reply =
      (Handshake.new config).replies (exchanges.map Exchange.message)) :
    Guarded (exchanges.map fun exchange => exchange.reply.action) := by
  have guarded := Handshake.guarded_replies required (exchanges.map Exchange.message)
  rw [← replies, map_map] at guarded
  exact guarded

variable {negotiated : Negotiated}

theorem secured_of_plain (required : config.tls = .required)
    (sound : negotiated.Sound .plain (.new io) (.new config)) {ending : Ending}
    (unserved : ∀ stream credential wire, ending ≠ .served stream credential wire) :
    Secured acceptor io ⟨negotiated.exchanges, ending⟩ where
  guarded := guarded_of_replies required sound.replies
  asked := by
    intro exchange listed asks
    rw [sound.inClear required rfl exchange listed] at asks
    exact absurd asks Bool.false_ne_true
  served := fun stream credential wire same => absurd same (unserved stream credential wire)
  apart := .inl sound.streams

theorem secondPhase_served {accepted : Io} {handshake : Handshake} {stream : Stream}
    {credential : Credential}
    (served : (secondPhase accepted handshake).ending = .served stream credential wire) :
    stream = .upgraded ∧ wire = (negotiate .upgraded (.new accepted) handshake).wire := by
  unfold secondPhase at served
  dsimp only at served
  split at served
  · exact absurd served nofun
  · exact absurd served nofun
  · exact absurd served nofun
  · obtain ⟨rfl, _, rfl⟩ := Ending.served.inj served
    exact ⟨rfl, rfl⟩

theorem handedOver {accept : Io → Option Io} {accepted : Io}
    (sound : negotiated.Sound .plain (.new io) (.new config))
    (upgrade : negotiated.result = .ok .upgrade) (drained : negotiated.wire.buffered = [])
    (accepts : accept negotiated.wire.io = some accepted) :
    HandedOver (some accept) io
      { secondPhase accepted negotiated.handshake with
        exchanges := negotiated.exchanges ++
          (secondPhase accepted negotiated.handshake).exchanges }
      negotiated.exchanges (secondPhase accepted negotiated.handshake).exchanges
      negotiated.wire.io accepted := by
  have second := negotiate_sound .upgraded (.new accepted) negotiated.handshake
  have whole := second.bytes.bytes
  constructor
  case accepts => exact ⟨accept, rfl, accepts⟩
  case exchanges => rfl
  case onPlain => exact sound.streams
  case onUpgraded => exact second.streams
  case acceptTls => exact sound.upgrade upgrade
  case before =>
    obtain ⟨given, sameReads, sameBytes⟩ := sound.bytes
    rw [drained, append_nil] at sameBytes
    exact ⟨given, sameReads, sameBytes⟩
  case after => exact ⟨_, whole.symm⟩
  case served =>
    intro stream credential wire served
    rw [(secondPhase_served served).2]
    exact whole.symm

theorem secured_of_upgrade (required : config.tls = .required) {accept : Io → Option Io}
    {accepted : Io} (sound : negotiated.Sound .plain (.new io) (.new config))
    (upgrade : negotiated.result = .ok .upgrade) (drained : negotiated.wire.buffered = [])
    (accepts : accept negotiated.wire.io = some accepted) :
    Secured (some accept) io
      { secondPhase accepted negotiated.handshake with
        exchanges := negotiated.exchanges ++
          (secondPhase accepted negotiated.handshake).exchanges } := by
  have second := negotiate_sound .upgraded (.new accepted) negotiated.handshake
  constructor
  case guarded =>
    apply guarded_of_replies required
    rw [map_append, map_append, Handshake.replies_append, sound.replies]
    exact congrArg _ (sound.reached ▸ second.replies)
  case asked =>
    intro exchange listed asks
    rcases mem_append.mp listed with first | later
    · rw [sound.inClear required rfl exchange first] at asks
      exact absurd asks Bool.false_ne_true
    · exact second.streams exchange later
  case served => exact fun stream credential wire served => (secondPhase_served served).1
  case apart => exact .inr ⟨_, _, _, _, handedOver sound upgrade drained accepts⟩

theorem secured_session (required : config.tls = .required)
    (acceptor : Option (Io → Option Io)) (io : Io) :
    Secured acceptor io (session config acceptor io) := by
  have sound := negotiate_sound .plain (.new io) (.new config)
  unfold session
  dsimp only
  split
  · exact secured_of_plain required sound nofun
  · exact secured_of_plain required sound nofun
  · next credential asked =>
      obtain ⟨exchange, listed, asks⟩ := sound.ask credential asked
      have silent := sound.inClear required rfl exchange listed
      rw [asks] at silent
      exact absurd silent nofun
  · next upgrade =>
      split
      · exact secured_of_plain required sound nofun
      · next accept =>
          split
          · exact secured_of_plain required sound nofun
          · next drained =>
              split
              · exact secured_of_plain required sound nofun
              · next accepted accepts =>
                  exact secured_of_upgrade required sound upgrade (not_not.mp drained) accepts

/-- Where TLS is required, the machine asks for a credential at most once and only after it
accepted TLS, and fails every message after a final answer; and however the client's bytes
are cut, a session asks for one only on the upgraded stream, and takes nothing there that was
read before. -/
theorem no_credential_in_the_clear (config : HandshakeConfig) (required : config.tls = .required)
    (acceptor : Option (Io → Option Io)) (io : Io) (messages : List Startup) :
    Guarded (((Handshake.new config).replies messages).map Reply.action) ∧
      Secured acceptor io (session config acceptor io) :=
  ⟨Handshake.guarded_replies required messages, secured_session required acceptor io⟩

def tlsClient : Io where
  reads := [.ok [0, 0, 0, 8], .ok [0x04, 0xD2, 0x16, 0x2F]]
  flushes := []

def insideTls : Io where
  reads :=
    [.ok [0, 0, 0, 18, 0, 3, 0], .ok [0, 117, 115, 101, 114, 0, 97, 112, 112, 0, 0]]
  flushes := []

def requireTls : HandshakeConfig where
  tls := .required
  staticUsers := []

theorem asked_inside_tls :
    Secured (some fun _ => some insideTls) tlsClient
        (session requireTls (some fun _ => some insideTls) tlsClient) ∧
      (session requireTls (some fun _ => some insideTls) tlsClient).exchanges.map
          (fun exchange => (exchange.stream, exchange.reply.action)) =
        [(.plain, .acceptTls), (.upgraded, .ask .jwt)] :=
  ⟨(no_credential_in_the_clear requireTls rfl _ _ []).2, by decide +kernel⟩

end Pgprox.Session
