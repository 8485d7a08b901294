/-
Authenticating to a server.

The server leads: it asks for a password, for a SCRAM exchange, or for nothing, and says
when it is satisfied.  The driver does what each message asks for.  Beside it stand the
messages it has read and what it has done about them, oldest first.
-/

import Pgprox.Auth.Scram

namespace Pgprox.Session

open Auth List

inductive AuthRequest
  | ok
  | cleartextPassword
  | md5Password
  | sasl
  | saslContinue
  | saslFinal
  | other (subtype : Int)
  deriving DecidableEq

inductive StartupMessage
  | authentication (request : AuthRequest) (payload : Text)
  | parameterStatus (name value : Text)
  | backendKeyData (processId secret : Int)
  | readyForQuery
  | errorResponse (message code : Text)
  | noticeResponse
  | unexpected
  | undecodable
  deriving DecidableEq

inductive Need
  | startup
  | password
  | saslStart
  | saslContinue (serverFirst : Text)
  | saslVerify (serverFinal : Text)
  | read
  | ready
  | fail (reason : Text)
  deriving DecidableEq

inductive Stage
  | opening
  | authenticating
  | settling
  | ready
  | failed
  deriving DecidableEq

/-! ### The handshake -/

structure UpstreamHandshake where
  stage : Stage
  parameters : List (Text × Text)
  backendKey : Option (Int × Int)
  deriving DecidableEq

namespace UpstreamHandshake

def new : UpstreamHandshake where
  stage := .opening
  parameters := []
  backendKey := none

def begin (handshake : UpstreamHandshake) : UpstreamHandshake × Need :=
  ({ handshake with stage := .authenticating }, .startup)

def fail (handshake : UpstreamHandshake) (reason : Text) : UpstreamHandshake × Need :=
  ({ handshake with stage := .failed }, .fail reason)

def onAuth (handshake : UpstreamHandshake) (request : AuthRequest) (payload : Text) :
    UpstreamHandshake × Need :=
  match request with
  | .ok => ({ handshake with stage := .settling }, .read)
  | .cleartextPassword => (handshake, .password)
  | .sasl => (handshake, .saslStart)
  | .saslContinue => (handshake, .saslContinue payload)
  | .saslFinal => (handshake, .saslVerify payload)
  | .md5Password =>
    handshake.fail "the server asked for md5, which this proxy does not implement".toList
  | .other subtype =>
    handshake.fail ("the server asked for authentication method " ++ toString subtype ++
      ", which this proxy does not implement").toList

def onFrame (handshake : UpstreamHandshake) (message : StartupMessage) :
    UpstreamHandshake × Need :=
  if handshake.stage = .ready ∨ handshake.stage = .failed then
    handshake.fail "a message arrived after the handshake had finished".toList
  else
    match message with
    | .undecodable =>
      handshake.fail "the server sent a message this proxy could not decode".toList
    | .authentication request payload => handshake.onAuth request payload
    | .parameterStatus name value =>
      ({ handshake with parameters := handshake.parameters ++ [(name, value)] }, .read)
    | .backendKeyData processId secret =>
      ({ handshake with backendKey := some (processId, secret) }, .read)
    | .readyForQuery =>
      if handshake.stage = .settling then ({ handshake with stage := .ready }, .ready)
      else
        handshake.fail
          "the server was ready before it authenticated the connection".toList
    | .errorResponse message code =>
      handshake.fail ("the server refused the connection: ".toList ++ message ++
        " (".toList ++ code ++ ")".toList)
    | .noticeResponse => (handshake, .read)
    | .unexpected =>
      handshake.fail "the server sent something unexpected during startup".toList

end UpstreamHandshake

/-! ### The driver -/

structure Backend where
  user : Text
  database : Text
  password : Text
  deriving DecidableEq

inductive Deed
  | startup
  | password (secret : Text)
  | saslInitialResponse (first : Text)
  | saslResponse (final : Text)
  | verified (exchange : ClientExchange) (serverFinal : Text)
  | accepted
  deriving DecidableEq

structure Driving where
  handshake : UpstreamHandshake
  exchange : Option ClientExchange
  scram : Option Text
  reads : List StartupMessage
  deeds : List Deed
  deriving DecidableEq

inductive Progress
  | reading (driving : Driving)
  | ready (driving : Driving)
  | failed (driving : Driving) (reason : Text)
  deriving DecidableEq

def Progress.driving : Progress → Driving
  | .reading driving | .ready driving | .failed driving _ => driving

def Progress.isReady : Progress → Bool
  | .ready _ => true
  | _ => false

section Driver

variable (primitives : Primitives) (backend : Backend)

def Driving.did (driving : Driving) (deed : Deed) : Driving :=
  { driving with deeds := driving.deeds ++ [deed] }

def Driving.meet (driving : Driving) : Need → Progress
  | .startup => .reading (driving.did .startup)
  | .password => .reading (driving.did (.password backend.password))
  | .saslStart =>
    match driving.scram with
    | none => .failed driving "the server asked for SASL twice".toList
    | some nonce =>
      let (exchange, first) := ClientExchange.clientFirst backend.user nonce
      .reading ({ driving with exchange := some exchange, scram := none }.did
        (.saslInitialResponse first))
  | .saslContinue serverFirst =>
    match driving.exchange with
    | none => .failed driving "a SASL challenge arrived first".toList
    | some exchange =>
      match exchange.clientFinal primitives backend.password serverFirst with
      | .error error => .failed driving error.text
      | .ok (answered, final) =>
        .reading ({ driving with exchange := some answered }.did (.saslResponse final))
  | .saslVerify serverFinal =>
    match driving.exchange with
    | none => .failed driving "a SASL result arrived first".toList
    | some exchange =>
      match exchange.verify primitives serverFinal with
      | .error error => .failed driving error.text
      | .ok () => .reading (driving.did (.verified exchange serverFinal))
  | .read => .reading driving
  | .ready => .ready driving
  | .fail reason => .failed driving reason

/-- `AuthenticationOk` is all the driver takes on trust. -/
def Driving.accept (driving : Driving) : StartupMessage → Driving
  | .authentication .ok _ => driving.did .accepted
  | _ => driving

def Progress.feed (progress : Progress) (message : StartupMessage) : Progress :=
  match progress with
  | .reading driving =>
    let (handshake, need) := driving.handshake.onFrame message
    let driving := { driving with handshake := handshake, reads := driving.reads ++ [message] }
    (driving.accept message).meet primitives backend need
  | ended => ended

def drive (nonce : Text) (messages : List StartupMessage) : Progress :=
  let (handshake, need) := UpstreamHandshake.new.begin
  let driving : Driving :=
    { handshake := handshake, exchange := none, scram := some nonce, reads := [], deeds := [] }
  messages.foldl (Progress.feed primitives backend) (driving.meet primitives backend need)

end Driver

/-! ### What each message is answered with -/

def Deed.request : Deed → Option AuthRequest
  | .startup => none
  | .password _ => some .cleartextPassword
  | .saslInitialResponse _ => some .sasl
  | .saslResponse _ => some .saslContinue
  | .verified _ _ => some .saslFinal
  | .accepted => some .ok

def StartupMessage.request : StartupMessage → Option AuthRequest
  | .authentication .md5Password _ => none
  | .authentication (.other _) _ => none
  | .authentication request _ => some request
  | _ => none

def requests (reads : List StartupMessage) : List AuthRequest :=
  reads.filterMap StartupMessage.request

namespace Deed

variable {deed : Deed}

theorem eq_accepted (answers : deed.request = some .ok) : deed = .accepted := by
  cases deed <;> first | rfl | cases answers

theorem eq_password (answers : deed.request = some .cleartextPassword) :
    ∃ secret, deed = .password secret := by
  cases deed <;> first | exact ⟨_, rfl⟩ | cases answers

theorem eq_saslInitialResponse (answers : deed.request = some .sasl) :
    ∃ first, deed = .saslInitialResponse first := by
  cases deed <;> first | exact ⟨_, rfl⟩ | cases answers

theorem eq_verified (answers : deed.request = some .saslFinal) :
    ∃ exchange serverFinal, deed = .verified exchange serverFinal := by
  cases deed <;> first | exact ⟨_, _, rfl⟩ | cases answers

theorem pair_of_requests {deeds : List Deed} {one two : AuthRequest}
    (behind : [one, two].Sublist (deeds.filterMap request)) :
    ∃ first second, first.request = some one ∧ second.request = some two ∧
      [first, second].Sublist deeds := by
  obtain ⟨chosen, within, filtered⟩ := sublist_filterMap_iff.1 behind
  obtain ⟨_, first, rest, rfl, -, firstIs, restIs⟩ := filterMap_eq_cons_iff.1 filtered.symm
  obtain ⟨_, second, _, rfl, -, secondIs, -⟩ := filterMap_eq_cons_iff.1 restIs
  refine ⟨first, second, firstIs, secondIs, List.Sublist.trans ?_ within⟩
  simp

end Deed

section Invariant

variable (primitives : Primitives) (backend : Backend) (nonce : Text)

/-- There is one exchange at most, and every first message and check is of it. -/
structure Sound (driving : Driving) : Prop where
  unstarted : ∀ kept, driving.scram = some kept → kept = nonce
  started : ∀ exchange, driving.exchange = some exchange →
    "n,,".toList ++ exchange.clientFirstBare = clientFirst backend.user nonce
  first : ∀ sent, .saslInitialResponse sent ∈ driving.deeds →
    sent = clientFirst backend.user nonce
  verified : ∀ exchange serverFinal, .verified exchange serverFinal ∈ driving.deeds →
    "n,,".toList ++ exchange.clientFirstBare = clientFirst backend.user nonce ∧
      exchange.verify primitives serverFinal = .ok ()

/-- The handshake is under way, and settling just when the server has been satisfied. -/
inductive Driving.Live (driving : Driving) : Prop
  | authenticating (stage : driving.handshake.stage = .authenticating)
      (fresh : .accepted ∉ driving.deeds)
  | settling (stage : driving.handshake.stage = .settling) (accepted : .accepted ∈ driving.deeds)

/-- Every request read has been answered, a failure's own message apart. -/
inductive Answers : Progress → Prop
  | reading {driving : Driving} (sound : Sound primitives backend nonce driving)
      (live : driving.Live) (waiting : driving.reads.getLast? ≠ some .readyForQuery)
      (answered : driving.deeds.filterMap Deed.request =
        requests driving.reads) : Answers (.reading driving)
  | ready {driving : Driving} (sound : Sound primitives backend nonce driving)
      (accepted : .accepted ∈ driving.deeds)
      (last : driving.reads.getLast? = some .readyForQuery)
      (answered : driving.deeds.filterMap Deed.request =
        requests driving.reads) : Answers (.ready driving)
  | failed {driving : Driving} {reason : Text} (sound : Sound primitives backend nonce driving)
      (before : List StartupMessage) (last : StartupMessage)
      (reads : driving.reads = before ++ [last])
      (kept : last.request ≠ some .cleartextPassword)
      (refused : last = .readyForQuery → .accepted ∉ driving.deeds)
      (answered : driving.deeds.filterMap Deed.request =
        requests before) : Answers (.failed driving reason)

end Invariant

section Steps

variable {primitives : Primitives} {backend : Backend} {nonce : Text}

namespace Sound

variable {driving : Driving}

section

variable (sound : Sound primitives backend nonce driving)
include sound

theorem saw (handshake : UpstreamHandshake) (reads : List StartupMessage) :
    Sound primitives backend nonce
      { driving with handshake := handshake, reads := reads } :=
  ⟨sound.unstarted, sound.started, sound.first, sound.verified⟩

theorem did (deed : Deed)
    (first : deed.request ≠ some .sasl) (final : deed.request ≠ some .saslFinal) :
    Sound primitives backend nonce (driving.did deed) where
  unstarted := sound.unstarted
  started := sound.started
  first sent member := by
    rcases mem_append.1 member with earlier | now
    · exact sound.first sent earlier
    · cases mem_singleton.1 now
      exact absurd rfl first
  verified exchange serverFinal member := by
    rcases mem_append.1 member with earlier | now
    · exact sound.verified exchange serverFinal earlier
    · cases mem_singleton.1 now
      exact absurd rfl final

theorem start {kept : Text} (unused : driving.scram = some kept) :
    Sound primitives backend nonce
      ({ driving with
          exchange := some (ClientExchange.clientFirst backend.user kept).1
          scram := none }.did
        (.saslInitialResponse (ClientExchange.clientFirst backend.user kept).2)) := by
  cases sound.unstarted kept unused
  refine ⟨nofun, ?_, ?_, ?_⟩
  · rintro _ ⟨⟩
    rfl
  · intro sent member
    rcases mem_append.1 member with earlier | now
    · exact sound.first sent earlier
    · cases mem_singleton.1 now
      rfl
  · intro exchange serverFinal member
    rcases mem_append.1 member with earlier | now
    · exact sound.verified exchange serverFinal earlier
    · cases mem_singleton.1 now

theorem respond {exchange answered : ClientExchange} {serverFirst final : Text}
    (running : driving.exchange = some exchange)
    (computed : exchange.clientFinal primitives backend.password serverFirst =
      .ok (answered, final)) :
    Sound primitives backend nonce
      ({ driving with exchange := some answered }.did (.saslResponse final)) := by
  have replaced : Sound primitives backend nonce
      { driving with exchange := some answered } := by
    refine ⟨sound.unstarted, ?_, sound.first, sound.verified⟩
    rintro _ ⟨⟩
    rw [ClientExchange.clientFinal_first primitives computed]
    exact sound.started exchange running
  exact replaced.did _ nofun nofun

theorem verify {exchange : ClientExchange} {serverFinal : Text}
    (running : driving.exchange = some exchange)
    (checked : exchange.verify primitives serverFinal = .ok ()) :
    Sound primitives backend nonce (driving.did (.verified exchange serverFinal)) := by
  refine ⟨sound.unstarted, sound.started, ?_, ?_⟩
  · intro sent member
    rcases mem_append.1 member with earlier | now
    · exact sound.first sent earlier
    · cases mem_singleton.1 now
  · intro held final member
    rcases mem_append.1 member with earlier | now
    · exact sound.verified held final earlier
    · cases mem_singleton.1 now
      exact ⟨sound.started exchange running, checked⟩

end

end Sound

namespace Driving.Live

variable {driving after : Driving}

theorem saw (live : driving.Live) {handshake : UpstreamHandshake} {reads : List StartupMessage}
    (stage : handshake.stage = driving.handshake.stage) :
    Live { driving with handshake := handshake, reads := reads } := by
  cases live with
  | authenticating was fresh => exact .authenticating (stage.trans was) fresh
  | settling was accepted => exact .settling (stage.trans was) accepted

theorem did (live : driving.Live) {deed : Deed}
    (stage : after.handshake.stage = driving.handshake.stage)
    (deeds : after.deeds = driving.deeds ++ [deed]) (other : .accepted ≠ deed) : after.Live := by
  cases live with
  | authenticating was fresh =>
    refine .authenticating (stage.trans was) ?_
    rw [deeds, mem_append, mem_singleton]
    exact fun member => member.elim fresh other
  | settling was accepted =>
    exact .settling (stage.trans was) (deeds ▸ mem_append_left _ accepted)

end Driving.Live

namespace Answers

variable {driving : Driving} {handshake : UpstreamHandshake} {message : StartupMessage}

theorem begin : Answers primitives backend nonce (drive primitives backend nonce []) := by
  have fresh : Sound primitives backend nonce
      { handshake := UpstreamHandshake.new.begin.1
        exchange := none
        scram := some nonce
        reads := []
        deeds := [] } := by
    refine ⟨?_, nofun, nofun, nofun⟩
    rintro _ ⟨⟩
    rfl
  have greeted := fresh.did .startup nofun nofun
  exact .reading greeted (.authenticating rfl nofun) nofun rfl

theorem quiet (asks : message.request = none)
    (answered : driving.deeds.filterMap Deed.request =
      requests driving.reads) :
    driving.deeds.filterMap Deed.request =
      requests (driving.reads ++ [message]) := by
  simp [requests, asks, answered]

theorem answer {deed : Deed} (asks : deed.request = message.request)
    (answered : driving.deeds.filterMap Deed.request =
      requests driving.reads) :
    (driving.deeds ++ [deed]).filterMap Deed.request =
      requests (driving.reads ++ [message]) := by
  rw [requests, filterMap_append, filterMap_append, answered, requests]
  simp only [filterMap_cons, asks, filterMap_nil]

theorem request (sound : Sound primitives backend nonce driving)
    (live : driving.Live)
    (answered : driving.deeds.filterMap Deed.request =
      requests driving.reads)
    (asked : AuthRequest) (payload : Text)
    (taken : driving.handshake.onFrame (.authentication asked payload) =
      driving.handshake.onAuth asked payload) :
    Answers primitives backend nonce
      ((Progress.reading driving).feed primitives backend (.authentication asked payload)) := by
  have seen := sound.saw driving.handshake
    (driving.reads ++ [.authentication asked payload])
  have waiting : (driving.reads ++ [StartupMessage.authentication asked payload]).getLast? ≠
      some .readyForQuery := by
    simp
  dsimp only [Progress.feed]
  rw [taken]
  cases asked with
  | ok =>
    have accepted := (sound.saw { driving.handshake with stage := .settling }
      (driving.reads ++ [.authentication .ok payload])).did .accepted nofun nofun
    exact .reading accepted (.settling rfl mem_concat_self) waiting (answer rfl answered)
  | cleartextPassword =>
    have sent := seen.did (.password backend.password) nofun nofun
    exact .reading sent (live.did rfl rfl nofun) waiting (answer rfl answered)
  | md5Password | other =>
    exact .failed (sound.saw _ _) driving.reads _ rfl nofun nofun answered
  | sasl =>
    dsimp only [UpstreamHandshake.onAuth, Driving.meet]
    split
    · exact .failed seen driving.reads _ rfl nofun nofun answered
    · next unused =>
        exact .reading (seen.start unused) (live.did rfl rfl nofun) waiting (answer rfl answered)
  | saslContinue =>
    dsimp only [UpstreamHandshake.onAuth, Driving.meet]
    split
    · exact .failed seen driving.reads _ rfl nofun nofun answered
    · next running =>
        split
        · exact .failed seen driving.reads _ rfl nofun nofun answered
        · next computed =>
            exact .reading (seen.respond running computed) (live.did rfl rfl nofun) waiting
              (answer rfl answered)
  | saslFinal =>
    dsimp only [UpstreamHandshake.onAuth, Driving.meet]
    split
    · exact .failed seen driving.reads _ rfl nofun nofun answered
    · next running =>
        split
        · exact .failed seen driving.reads _ rfl nofun nofun answered
        · next checked =>
            exact .reading (seen.verify running checked) (live.did rfl rfl nofun) waiting
              (answer rfl answered)

theorem feed {progress : Progress} (answers : Answers primitives backend nonce progress)
    (message : StartupMessage) :
    Answers primitives backend nonce (progress.feed primitives backend message) := by
  cases answers with
  | ready sound accepted last answered => exact .ready sound accepted last answered
  | failed sound before last reads kept refused answered =>
    exact .failed sound before last reads kept refused answered
  | @reading driving sound live waiting answered =>
    have running : ¬ (driving.handshake.stage = .ready ∨
        driving.handshake.stage = .failed) := by
      cases live <;> simp_all
    have taken : driving.handshake.onFrame message = _ := if_neg running
    have last : (driving.reads ++ [message]).getLast? = some message := getLast?_concat
    cases message with
    | authentication asked payload =>
      exact request sound live answered asked payload taken
    | parameterStatus | backendKeyData | noticeResponse =>
      dsimp only [Progress.feed]
      rw [taken]
      exact .reading (sound.saw _ _) (live.saw rfl)
        (fun ready => nomatch last.symm.trans ready) (quiet rfl answered)
    | errorResponse | unexpected | undecodable =>
      dsimp only [Progress.feed]
      rw [taken]
      exact .failed (sound.saw _ _) driving.reads _ rfl nofun nofun answered
    | readyForQuery =>
      dsimp only [Progress.feed]
      rw [taken]
      cases live with
      | authenticating stage fresh =>
        simp only [stage]
        exact .failed (sound.saw _ _) driving.reads _ rfl nofun (fun _ => fresh) answered
      | settling stage accepted =>
        simp only [stage]
        exact .ready (sound.saw _ _) accepted last (quiet rfl answered)

theorem drive (messages : List StartupMessage) :
    Answers primitives backend nonce (drive primitives backend nonce messages) := by
  suffices ∀ progress, Answers primitives backend nonce progress →
      Answers primitives backend nonce
        (messages.foldl (Progress.feed primitives backend) progress) from
    this _ begin
  induction messages with
  | nil => exact fun _ answers => answers
  | cons message rest ih => exact fun _ answers => ih _ (answers.feed message)

end Answers

end Steps

/-! ### Mutual authentication -/

section Mutual

variable (primitives : Primitives)

/-- Once an exchange is begun the password stays home, and the server is taken at its word
only after it has proved itself in that exchange. -/
structure Progress.Mutual (progress : Progress) : Prop where
  secret : ∀ first password,
    ¬ [.saslInitialResponse first, .password password].Sublist progress.driving.deeds
  proved : progress.isReady = true → ∀ first,
    .saslInitialResponse first ∈ progress.driving.deeds →
      .accepted ∈ progress.driving.deeds ∧
      ∀ earlier later, progress.driving.deeds = earlier ++ .accepted :: later →
        ∃ exchange serverFinal,
          [.saslInitialResponse first, .verified exchange serverFinal].Sublist earlier ∧
          "n,,".toList ++ exchange.clientFirstBare = first ∧
          exchange.verify primitives serverFinal = .ok ()

/-- What a server has to keep to in the messages that are read. -/
structure Orderly (reads : List StartupMessage) : Prop where
  clear : ¬ [.sasl, .cleartextPassword].Sublist (requests reads)
  order : reads.getLast? = some .readyForQuery → .sasl ∈ requests reads →
    ∀ earlier later, requests reads = earlier ++ .ok :: later →
      [.sasl, .saslFinal].Sublist earlier

end Mutual

section Server

variable {primitives : Primitives} {backend : Backend} {nonce : Text} {progress : Progress}

theorem pair_before_last {one two : AuthRequest} {requests : List AuthRequest}
    {last : Option AuthRequest} (other : last ≠ some two)
    (behind : [one, two].Sublist (requests ++ last.toList)) : [one, two].Sublist requests := by
  cases last with
  | none => simpa using behind
  | some last =>
    obtain ⟨left, right, split, within, rest⟩ := sublist_append_iff.1 behind
    rcases sublist_singleton.1 rest with rfl | rfl
    · rw [append_nil] at split
      exact split ▸ within
    · have ends := congrArg List.getLast? split
      simp only [getLast?_cons_cons, getLast?_singleton, getLast?_append,
        Option.some_or, Option.some.injEq] at ends
      exact absurd (congrArg some ends.symm) other

namespace Answers

section

variable (answers : Answers primitives backend nonce progress)
include answers

theorem sound :
    Sound primitives backend nonce progress.driving := by
  cases answers <;> assumption

theorem of_ready (ready : progress.isReady = true) :
    .accepted ∈ progress.driving.deeds ∧
      progress.driving.reads.getLast? = some .readyForQuery ∧
      progress.driving.deeds.filterMap Deed.request = requests progress.driving.reads := by
  cases answers with
  | ready sound accepted last answered => exact ⟨accepted, last, answered⟩
  | reading | failed => cases ready

theorem ready_of_ok (last : progress.driving.reads.getLast? = some .readyForQuery)
    (satisfied : .ok ∈ requests progress.driving.reads) : progress.isReady = true := by
  cases answers with
  | ready => rfl
  | reading sound live waiting answered => exact absurd last waiting
  | failed sound before final reads kept refused answered =>
    dsimp only [Progress.driving] at last satisfied
    rw [reads, getLast?_concat, Option.some.injEq] at last
    subst last
    rw [reads] at satisfied
    have earlier : .ok ∈ requests before := by
      simpa [StartupMessage.request, requests] using satisfied
    rw [← answered] at earlier
    obtain ⟨deed, done, accepts⟩ := mem_filterMap.1 earlier
    cases Deed.eq_accepted accepts
    exact absurd done (refused rfl)

theorem password_behind :
    [.sasl, .cleartextPassword].Sublist (progress.driving.deeds.filterMap Deed.request) ↔
      [.sasl, .cleartextPassword].Sublist (requests progress.driving.reads) := by
  cases answers with
  | reading sound live waiting answered | ready sound accepted last answered =>
    exact iff_of_eq (congrArg _ answered)
  | failed sound before last reads kept refused answered =>
    have whole : requests (before ++ [last]) = requests before ++ last.request.toList := by
      simp only [requests, filterMap_append, filterMap_cons]
      cases last.request <;> rfl
    rw [Progress.driving, reads, whole, answered]
    exact ⟨fun behind => behind.trans (sublist_append_left _ _), pair_before_last kept⟩

theorem mutual_of_orderly
    (orderly : Orderly progress.driving.reads) : progress.Mutual primitives where
  secret first password behind :=
    orderly.clear (answers.password_behind.1 (behind.filterMap Deed.request))
  proved ready first sent := by
    obtain ⟨accepted, last, answered⟩ := answers.of_ready ready
    refine ⟨accepted, fun earlier later split => ?_⟩
    have asked : .sasl ∈ requests progress.driving.reads := by
      rw [← answered]
      exact mem_filterMap.2 ⟨_, sent, rfl⟩
    have halves : requests progress.driving.reads =
        earlier.filterMap Deed.request ++ .ok :: later.filterMap Deed.request := by
      rw [← answered, split, filterMap_append]
      rfl
    obtain ⟨one, two, begun, checked, behind⟩ :=
      Deed.pair_of_requests (orderly.order last asked _ _ halves)
    obtain ⟨begins, rfl⟩ := Deed.eq_saslInitialResponse begun
    obtain ⟨exchange, serverFinal, rfl⟩ := Deed.eq_verified checked
    -- Whatever first message and whatever check they are, there is one exchange.
    have within : ∀ deed ∈ earlier, deed ∈ progress.driving.deeds := fun deed member =>
      split ▸ mem_append_left _ member
    have same := answers.sound.first begins (within _ (behind.subset (by simp)))
    have checked := answers.sound.verified exchange serverFinal
      (within _ (behind.subset (by simp)))
    have only := answers.sound.first first sent
    refine ⟨exchange, serverFinal, ?_, checked.1.trans only.symm, checked.2⟩
    rw [only, ← same]
    exact behind

theorem orderly_of_mutual
    (proven : progress.Mutual primitives) : Orderly progress.driving.reads where
  clear behind := by
    obtain ⟨one, two, begun, answered, sent⟩ :=
      Deed.pair_of_requests (answers.password_behind.2 behind)
    obtain ⟨first, rfl⟩ := Deed.eq_saslInitialResponse begun
    obtain ⟨password, rfl⟩ := Deed.eq_password answered
    exact proven.secret first password sent
  order last asked earlier later split := by
    have ready : progress.isReady = true :=
      answers.ready_of_ok last (split ▸ mem_append_right _ mem_cons_self)
    obtain ⟨-, -, answered⟩ := answers.of_ready ready
    rw [← answered] at asked split
    obtain ⟨began, sent, begun⟩ := mem_filterMap.1 asked
    obtain ⟨first, rfl⟩ := Deed.eq_saslInitialResponse begun
    -- The deed behind the `AuthenticationOk` that is looked at.
    obtain ⟨before, behind, halves, rfl, tail⟩ := filterMap_eq_append_iff.1 split
    obtain ⟨between, deed, after, rfl, silent, accepts, -⟩ := filterMap_eq_cons_iff.1 tail
    cases Deed.eq_accepted accepts
    obtain ⟨exchange, serverFinal, proof, -, -⟩ :=
      (proven.proved ready first sent).2 (before ++ between) after (by simp [halves])
    have requests := proof.filterMap Deed.request
    rw [filterMap_append, filterMap_eq_nil_iff.2 silent, append_nil] at requests
    exact requests

end

end Answers

/-- Authentication is mutual exactly when the server asks for no password behind a SASL
request, and says it is satisfied only behind the result of the exchange. -/
theorem mutual_iff_server_orderly (primitives : Primitives) (backend : Backend) (nonce : Text)
    (messages : List StartupMessage) :
    (drive primitives backend nonce messages).Mutual primitives ↔
      Orderly (drive primitives backend nonce messages).driving.reads :=
  ⟨(Answers.drive messages).orderly_of_mutual, (Answers.drive messages).mutual_of_orderly⟩

end Server

/-! ### A server that proves nothing -/

def blankPrimitives : Primitives where
  hmacSha256 _ _ := []
  sha256 _ := []
  pbkdf2 _ _ _ := []
  encodeBase64 _ := []
  decodeBase64 _ := some []

def appBackend : Backend where
  user := "app".toList
  database := "shop".toList
  password := "hunter2".toList

/-- A server that starts an exchange and breaks it off is believed without a proof, or is
given the password it asks for. -/
theorem server_breaks_off_exchange :
    (let believed := drive blankPrimitives appBackend "abc".toList
      [.authentication .sasl [], .authentication .ok [], .readyForQuery]
    believed.isReady = true ∧
      believed.driving.deeds =
        [.startup, .saslInitialResponse "n,,n=app,r=abc".toList, .accepted]) ∧
    (let told := drive blankPrimitives appBackend "abc".toList
      [.authentication .sasl [], .authentication .cleartextPassword []]
    told.driving.deeds =
      [.startup, .saslInitialResponse "n,,n=app,r=abc".toList, .password "hunter2".toList]) := by
  decide +kernel

end Pgprox.Session
