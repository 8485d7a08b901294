/-
One `ReadyForQuery` for every frame that asks for one.

The log of a session holds a mark for every frame of the client that asks for a
`ReadyForQuery`, for every transaction status the server reports, and for every
`ReadyForQuery` the client is sent, by the server or by the loop itself.
-/

import Pgprox.Serve.CachedLoop
import Pgprox.Serve.PumpOwed
import Pgprox.Serve.ReleaseRule

namespace Pgprox.Serve

open Proto Pools Route Session Cache Topologies List

/-! ### What the client is sent -/

def Output.ready : Output → Option TxStatus
  | .toClient (.readyForQuery status) => some status
  | _ => none

def readyStatusOf (frame : Frame) : Option TxStatus :=
  if frame.tag = Tag.readyForQuery then
    [TxStatus.idle, .inTransaction, .failed].find? fun status => frame.body = [statusByte status]
  else none

def Deed.readies : Deed → List TxStatus
  | .served _ frames => frames.filterMap readyStatusOf
  | .passed _ outputs | .looped outputs => outputs.filterMap Output.ready
  | .withheld .. | .skipped _ => []

theorem readies_served {frames : List Frame} (ends : EndsReady frames)
    (messages : List FrontendMessage) : (Deed.served messages frames).readies = [.idle] := by
  obtain ⟨body, rfl, none⟩ := ends
  have silent : body.filterMap readyStatusOf = [] := by
    rw [filterMap_eq_nil_iff]
    intro frame listed
    exact if_neg (none frame listed)
  change (body ++ [readyForQuery .idle]).filterMap readyStatusOf = [.idle]
  rw [filterMap_append, silent]
  rfl

theorem ready_toServer {α : Type} (id : Nat) (frame : α → FrontendMessage) (items : List α) :
    (items.map fun item => Output.toServer id (frame item)).filterMap Output.ready = [] := by
  rw [filterMap_eq_nil_iff]
  intro output listed
  obtain ⟨item, -, rfl⟩ := mem_map.mp listed
  rfl

/-! ### The log -/

inductive Mark
  | asked
  | reported (status : TxStatus)
  | ready (status : TxStatus)
  deriving DecidableEq

def Mark.isReady : Mark → Bool
  | .ready _ => true
  | _ => false

def asks (log : List Mark) : Nat :=
  log.countP (· = .asked)

def readies (log : List Mark) : Nat :=
  log.countP Mark.isReady

def reported (log : List Mark) : TxStatus :=
  log.foldl (fun status mark => match mark with
    | .reported new => new
    | _ => status) .idle

/-- Every `ReadyForQuery` comes behind the frame it is for and before the next one that asks,
and carries the status the server last reported. -/
structure Disciplined (log : List Mark) : Prop where
  paired : ∀ before, before <+: log →
    readies before ≤ asks before ∧ asks before ≤ readies before + 1
  status : ∀ before status after, log = before ++ .ready status :: after →
    status = reported before

theorem disciplined_nil : Disciplined [] where
  paired before starts := by
    obtain rfl := prefix_nil.mp starts
    exact ⟨Nat.le_refl 0, Nat.zero_le _⟩
  status before status after shape := by
    cases before <;> cases shape

section Log

variable {log : List Mark}

@[simp] theorem asks_append (one two : List Mark) : asks (one ++ two) = asks one + asks two :=
  countP_append

@[simp] theorem readies_append (one two : List Mark) :
    readies (one ++ two) = readies one + readies two :=
  countP_append

@[simp] theorem reported_append_singleton (log : List Mark) (mark : Mark) :
    reported (log ++ [mark]) = match mark with
      | .reported status => status
      | _ => reported log := by
  unfold reported
  rw [foldl_append]
  cases mark <;> rfl

section

variable (disciplined : Disciplined log)
include disciplined

theorem Disciplined.append {mark : Mark} (counts : readies (log ++ [mark]) ≤ asks (log ++ [mark]) ∧
      asks (log ++ [mark]) ≤ readies (log ++ [mark]) + 1)
    (same : ∀ status, mark = .ready status → status = reported log) :
    Disciplined (log ++ [mark]) where
  paired before starts := by
    rcases prefix_concat_iff.mp starts with rfl | earlier
    · exact counts
    · exact disciplined.paired before earlier
  status before status after shape := by
    rcases eq_nil_or_concat after with rfl | ⟨middle, last, rfl⟩
    · obtain ⟨rfl, last⟩ := append_inj' shape rfl
      exact same status (List.cons.inj last).1
    · rw [concat_eq_append, ← cons_append, ← append_assoc] at shape
      exact disciplined.status before status middle (append_inj' shape rfl).1

theorem Disciplined.ask (even : asks log = readies log) :
    Disciplined (log ++ [.asked]) := by
  refine disciplined.append ?_ nofun
  rw [asks_append, readies_append, even]
  exact ⟨Nat.le_succ _, Nat.le_refl _⟩

theorem Disciplined.report (status : TxStatus) :
    Disciplined (log ++ [.reported status]) := by
  refine disciplined.append ?_ nofun
  rw [asks_append, readies_append]
  exact disciplined.paired log (prefix_refl log)

theorem Disciplined.ready (due : asks log = readies log + 1)
    {status : TxStatus} (same : status = reported log) :
    Disciplined (log ++ [.ready status]) := by
  refine disciplined.append ?_ ?_
  · rw [asks_append, readies_append, due]
    exact ⟨Nat.le_refl _, Nat.le_succ _⟩
  · rintro other ⟨rfl⟩
    exact same

end

end Log

structure Told where
  caching : Caching
  log : List Mark

def marksOf (caching : Caching) (event : CachedEvent) : List Mark :=
  match event, caching.live.phase with
  | .client incoming .., .reading | .client incoming .., .copying _ =>
    if asksReady incoming.message then [.asked] else []
  | .server (.readyForQuery status) _, .pumping _ => [.reported status]
  | _, _ => []

namespace Told

def start (mode : PoolMode) (statementTimeout : Option Nat) (settings : List (Text × Text)) :
    Told where
  caching := .start mode statementTimeout settings
  log := []

def step (context : CacheContext) (state : Told) (event : CachedEvent) : Told where
  caching := (state.caching.step context event).1
  log := state.log ++ marksOf state.caching event ++
    ((state.caching.step context event).2.flatMap Deed.readies).map .ready

/-- A route is assigned only by a `Query` outside a transaction, a copy is not interrupted by
a frame that asks, and the server answers what it was asked. -/
def Allowed (state : Told) : CachedEvent → Prop
  | .client incoming .. =>
    match state.caching.live.phase with
    | .reading =>
      ∀ sql, incoming.message.sql? = some sql → (parseRouteAssignment sql).isSome = true →
        incoming.message = .query sql ∧ reported state.log = .idle
    | .copying _ => asksReady incoming.message = false
    | _ => True
  | .server (.readyForQuery _) _ => readies state.log < asks state.log
  | _ => True

abbrev Reached (context : CacheContext) (mode : PoolMode) (statementTimeout : Option Nat)
    (settings : List (Text × Text)) (state : Told) : Prop :=
  Run.Reachable (start mode statementTimeout settings) Allowed (step context) state

end Told

/-! ### Frames that are sent on -/

theorem unnamed_of_asksReady {message : FrontendMessage} (asking : asksReady message = true) :
    statementName message = none ∧ awaitsMore message = false ∧ message ≠ .flush := by
  cases message with
  | query _ | functionCall | sync => exact ⟨rfl, rfl, nofun⟩
  | _ => cases asking

section Sending

variable (live : Live) (message onward : FrontendMessage)

inductive Sends (phase : Phase) (message : FrontendMessage) : Phase → Prop
  | closed : Sends phase message .closed
  | asked (asks : asksReady message = true) : Sends phase message (.pumping false)
  | stays (silent : asksReady message = false) : Sends phase message phase
  | waits (silent : asksReady message = false) (flushing : Bool) :
      Sends phase message (.pumping flushing)

theorem sendOn_sends (upstream : Upstreamed) :
    Sends live.phase message (live.sendOn upstream message onward).1.phase ∧
      (live.sendOn upstream message onward).2.filterMap Output.ready = [] ∧
      (awaitsMore message = true →
        (live.sendOn upstream message onward).1.phase = live.phase) := by
  unfold Live.sendOn
  dsimp only
  split
  · refine ⟨?_, ready_toServer upstream.id id _, ?_⟩
    · unfold Live.afterSending
      cases asking : asksReady message with
      | true =>
        obtain ⟨-, ends, other⟩ := unnamed_of_asksReady asking
        rw [if_neg (by rw [ends]; exact nofun), if_neg fun both => other both.1]
        rw [decide_eq_false other]
        exact .asked asking
      | false =>
        split
        · exact .stays asking
        · split
          · exact .stays asking
          · exact .waits asking _
    · intro more
      unfold Live.afterSending
      rw [if_pos more]
  · rename_i kept
    refine ⟨.stays ?_, rfl, fun _ => rfl⟩
    rw [Bool.eq_false_iff]
    intro asking
    obtain ⟨unnamed, -, -⟩ := unnamed_of_asksReady asking
    apply kept
    unfold sendUpstream readyStatement
    rw [unnamed]

theorem act_sends (lent : Option Upstreamed) (target : RouteTarget) (acquire : Bool) :
    Sends live.phase message (live.act message onward lent (.send target acquire)).1.phase ∧
      (live.act message onward lent (.send target acquire)).2.filterMap Output.ready = [] ∧
      (awaitsMore message = true →
        (live.act message onward lent (.send target acquire)).1.phase = live.phase ∨
          (live.act message onward lent (.send target acquire)).1.phase = .closed) := by
  cases acquire with
  | true =>
    cases lent with
    | none => exact ⟨.closed, rfl, fun _ => .inr rfl⟩
    | some taken =>
      obtain ⟨sends, silent, stays⟩ := sendOn_sends
        { live with
          relay := live.relay.acquired target
          serving := target
          upstream := some taken }
        message onward taken
      refine ⟨sends, ?_, fun more => .inl (stays more)⟩
      change (Output.borrowed taken.id :: _ ++ _).filterMap Output.ready = []
      rw [filterMap_append, silent, append_nil]
      exact ready_toServer taken.id FrontendMessage.query _
  | false =>
    cases current : live.upstream with
    | none =>
      simp only [Live.act, current]
      exact ⟨.closed, rfl, fun _ => .inr rfl⟩
    | some upstream =>
      simp only [Live.act, current]
      obtain ⟨sends, silent, stays⟩ := sendOn_sends live message onward upstream
      exact ⟨sends, silent, fun more => .inl (stays more)⟩

theorem act_txStatus (lent : Option Upstreamed) (action : ClientAction) :
    (live.act message onward lent action).1.relay.session.txStatus =
      live.relay.session.txStatus := by
  rcases live.act_relay message onward lent action with same | ⟨target, same⟩
  · rw [same]
  · rw [same]
    rfl

end Sending

/-- What a session keeps when frames are sent on without an answer to the client. -/
structure Silent (live next : Live) (deeds : List Deed) : Prop where
  phase : next.phase = .reading ∨ next.phase = .closed
  txStatus : next.relay.session.txStatus = live.relay.session.txStatus
  quiet : deeds.flatMap Deed.readies = []

theorem replayFrame_silent {live : Live} (reading : live.phase = .reading)
    {message : FrontendMessage} (extended : message.startsExtendedSequence = true)
    (replicas : Replicas) (now : Nat) (lent : Option Upstreamed) :
    Silent live (live.replayFrame message replicas now lent).1
      [(live.replayFrame message replicas now lent).2] := by
  unfold Live.replayFrame
  split
  · exact ⟨.inr rfl, rfl, rfl⟩
  · rename_i statements onward mapped
    dsimp only
    split
    · rename_i target acquire decided
      obtain ⟨-, silent, stays⟩ := act_sends
        { live with
          relay := (live.relay.onClient message replicas now).1
          session := { live.session with statements } } message onward lent target acquire
      refine ⟨?_, ?_, ?_⟩
      · rw [← reading]
        exact stays (awaitsMore_of_extended extended)
      · rw [act_txStatus]
        exact Relay.onClient_txStatus ..
      · exact (append_nil _).trans silent
    · exact ⟨.inl reading, Relay.onClient_txStatus .., rfl⟩

theorem replayHeld_silent {waiting : List FrontendMessage} (replicas : Replicas) (now : Nat)
    (lend : Nat → Option Upstreamed) :
    ∀ {index : Nat} {live : Live}, live.phase = .reading →
      (∀ message ∈ waiting, message.startsExtendedSequence = true) →
      Silent live (Live.replayHeld replicas now lend index live waiting).1
        (Live.replayHeld replicas now lend index live waiting).2 := by
  induction waiting with
  | nil => exact fun reading _ => ⟨.inl reading, rfl, rfl⟩
  | cons message later ih =>
    intro index live reading extended
    obtain ⟨here, behind⟩ := forall_mem_cons.mp extended
    have first := replayFrame_silent reading here replicas now (lend index)
    unfold Live.replayHeld
    dsimp only
    split
    · exact first
    · rename_i opened
      have rest := @ih (index + 1) _ (first.phase.resolve_right opened) behind
      refine ⟨rest.phase, rest.txStatus.trans first.txStatus, ?_⟩
      rw [flatMap_cons, rest.quiet, append_nil]
      exact (append_nil _).symm.trans first.quiet

theorem passOn_cases (live : Live) (message onward : FrontendMessage) (replicas : Replicas)
    (now : Nat) (lent : Option Upstreamed) :
    (live.passOn message onward replicas now lent).1.relay.session.txStatus =
        live.relay.session.txStatus ∧
      ((live.passOn message onward replicas now lent).2.filterMap Output.ready = [.idle] ∧
          (live.passOn message onward replicas now lent).1.phase = live.phase ∧
          (∃ sql, message.sql? = some sql ∧ (parseRouteAssignment sql).isSome = true) ∨
        (live.passOn message onward replicas now lent).2.filterMap Output.ready = [] ∧
          Sends live.phase message (live.passOn message onward replicas now lent).1.phase) := by
  unfold Live.passOn
  dsimp only
  refine ⟨?_, ?_⟩
  · rw [act_txStatus]
    exact Relay.onClient_txStatus ..
  · cases decided : (live.relay.onClient message replicas now).2.action with
    | close => exact .inr ⟨rfl, .closed⟩
    | answer routed =>
      refine .inl ⟨?_, rfl, onClient_answer decided⟩
      cases routed <;> rfl
    | send target acquire =>
      obtain ⟨sends, silent, -⟩ := act_sends
        { live with relay := (live.relay.onClient message replicas now).1 }
        message onward lent target acquire
      exact .inr ⟨silent, sends⟩

namespace Told

/-! ### Along a run -/

def Balance (phase : Phase) (log : List Mark) : Prop :=
  phase = .closed ∨ asks log = readies log ∨
    (phase = .pumping false ∨ phase = .copying false) ∧ asks log = readies log + 1

variable {log : List Mark}

theorem Balance.even {phase : Phase} (balance : Balance phase log) (reading : phase = .reading) :
    asks log = readies log := by
  subst reading
  rcases balance with closed | even | ⟨pumping | copying, -⟩
  · cases closed
  · exact even
  · cases pumping
  · cases copying

structure Sound (state : Told) : Prop where
  disciplined : Disciplined state.log
  balance : Balance state.caching.live.phase state.log
  txStatus : state.caching.live.relay.session.txStatus = reported state.log
  /-- Frames are held only outside a transaction and while no answer is read. -/
  idle : state.caching.held.isEmpty = false → reported state.log = .idle ∧
    (state.caching.live.phase = .reading ∨ state.caching.live.phase = .closed)
  extended : ∀ message ∈ state.caching.waiting, message.startsExtendedSequence = true

theorem sound_start (mode : PoolMode) (statementTimeout : Option Nat)
    (settings : List (Text × Text)) : (start mode statementTimeout settings).Sound where
  disciplined := disciplined_nil
  balance := .inr (.inl rfl)
  txStatus := by
    change (Relay.new.onStartupSettings settings).session.txStatus = .idle
    rw [(Relay.onStartupSettings_eq .new settings).2]
    rfl
  idle := nofun
  extended := nofun

def heard (log : List Mark) (message : FrontendMessage) (deeds : List Deed) : List Mark :=
  log ++ (if asksReady message then [.asked] else []) ++
    (deeds.flatMap Deed.readies).map .ready

variable {message : FrontendMessage}

theorem heard_quiet {deeds : List Deed} (silent : asksReady message = false)
    (quiet : deeds.flatMap Deed.readies = []) : heard log message deeds = log := by
  unfold heard
  rw [if_neg (by rw [silent]; exact nofun), quiet, map_nil, append_nil, append_nil]

theorem heard_asked {deeds : List Deed} (asking : asksReady message = true)
    (quiet : deeds.flatMap Deed.readies = []) : heard log message deeds = log ++ [.asked] := by
  unfold heard
  rw [if_pos asking, quiet, map_nil, append_nil]

theorem heard_answered {deeds : List Deed} (asking : asksReady message = true)
    (answered : deeds.flatMap Deed.readies = [.idle]) :
    heard log message deeds = log ++ [.asked] ++ [.ready .idle] := by
  unfold heard
  rw [if_pos asking, answered]
  rfl

section Took

variable {context : CacheContext} {state : Told} {incoming : Incoming} {replicas : Replicas}
  {now : Nat} {lend : Nat → Option Upstreamed} {stored : CacheKey → Option (List UInt8)}

section

variable (sound : state.Sound) (reading : state.caching.live.phase = .reading)
include sound reading

theorem Sound.answered
    {next : Caching} {deeds : List Deed} (asking : asksReady incoming.message = true)
    (answered : deeds.flatMap Deed.readies = [.idle]) (idle : reported state.log = .idle)
    (phase : next.live.phase = .reading)
    (txStatus : next.live.relay.session.txStatus = state.caching.live.relay.session.txStatus)
    (extended : ∀ message ∈ next.waiting, message.startsExtendedSequence = true) :
    Sound ⟨next, heard state.log incoming.message deeds⟩ := by
  have even := sound.balance.even reading
  rw [heard_answered asking answered]
  have asked := sound.disciplined.ask even
  have same : reported (state.log ++ [.asked]) = reported state.log :=
    reported_append_singleton _ _
  constructor
  · refine asked.ready ?_ (by rw [same, idle])
    rw [asks_append, readies_append, even]
    rfl
  · refine .inr (.inl ?_)
    rw [asks_append, asks_append, readies_append, readies_append, even]
    rfl
  · rw [txStatus, sound.txStatus, reported_append_singleton]
    exact same.symm
  · intro _
    rw [reported_append_singleton]
    exact ⟨same.trans idle, .inl phase⟩
  · exact extended

theorem Sound.unanswered
    {next : Caching} {deeds : List Deed} (quiet : deeds.flatMap Deed.readies = [])
    (sends : Sends .reading incoming.message next.live.phase)
    (txStatus : next.live.relay.session.txStatus = state.caching.live.relay.session.txStatus)
    (idle : next.held.isEmpty = false →
      state.caching.held.isEmpty = false ∧ next.live.phase = .closed)
    (extended : ∀ message ∈ next.waiting, message.startsExtendedSequence = true) :
    Sound ⟨next, heard state.log incoming.message deeds⟩ := by
  have even := sound.balance.even reading
  cases asking : asksReady incoming.message with
  | false =>
    rw [heard_quiet asking quiet]
    refine ⟨sound.disciplined, .inr (.inl even), txStatus.trans sound.txStatus, ?_, extended⟩
    intro filled
    exact ⟨(sound.idle (idle filled).1).1, .inr (idle filled).2⟩
  | true =>
    rw [heard_asked asking quiet]
    have same : reported (state.log ++ [.asked]) = reported state.log :=
      reported_append_singleton _ _
    refine ⟨sound.disciplined.ask even, ?_, ?_, ?_, extended⟩
    · have odd : asks (state.log ++ [.asked]) = readies (state.log ++ [.asked]) + 1 := by
        rw [asks_append, readies_append, even]
        rfl
      generalize next.live.phase = phase at sends
      cases sends with
      | closed => exact .inl rfl
      | asked _ => exact .inr (.inr ⟨.inl rfl, odd⟩)
      | stays silent | waits silent _ =>
        rw [asking] at silent
        cases silent
    · rw [same]
      exact txStatus.trans sound.txStatus
    · intro filled
      rw [same]
      exact ⟨(sound.idle (idle filled).1).1, .inr (idle filled).2⟩

theorem Sound.forward (allowed : ∀ sql, incoming.message.sql? = some sql →
      (parseRouteAssignment sql).isSome = true →
        incoming.message = .query sql ∧ reported state.log = .idle)
    (memory : SessionMemory) (onward : FrontendMessage) :
    Sound ⟨({ state.caching with live := { state.caching.live with session := memory } }.forward
        incoming.message onward replicas now lend).1,
      heard state.log incoming.message
        ({ state.caching with live := { state.caching.live with session := memory } }.forward
          incoming.message onward replicas now lend).2⟩ := by
  have replayed := @replayHeld_silent state.caching.waiting replicas now lend 0
    { state.caching.live with session := memory } reading sound.extended
  have cleared : (if state.caching.held.isEmpty then state.caching.held
      else state.caching.held.clear).isEmpty = true := by
    split
    · assumption
    · rfl
  unfold Caching.forward
  dsimp only
  generalize Live.replayHeld replicas now lend 0 { state.caching.live with session := memory }
    state.caching.waiting = result at replayed
  split
  · rename_i closed
    refine sound.unanswered reading replayed.quiet ?_ replayed.txStatus ?_ nofun
    · rw [closed]
      exact .closed
    · intro filled
      rw [cleared] at filled
      cases filled
  · rename_i opened
    have read := replayed.phase.resolve_right opened
    obtain ⟨txStatus, outcome⟩ := passOn_cases result.1 incoming.message onward replicas now
      (lend state.caching.waiting.length)
    have readies (outputs : List Output) :
        (result.2 ++ [Deed.passed incoming.message outputs]).flatMap
          Deed.readies = outputs.filterMap Output.ready := by
      rw [flatMap_append, replayed.quiet]
      exact append_nil _
    rcases outcome with ⟨answered, phase, sql, carried, assigns⟩ | ⟨quiet, sends⟩
    · obtain ⟨query, idle⟩ := allowed sql carried assigns
      exact sound.answered reading (by rw [query]; rfl) ((readies _).trans answered) idle
        (phase.trans read) (txStatus.trans replayed.txStatus) nofun
    · rw [read] at sends
      refine sound.unanswered reading ((readies _).trans quiet) sends
        (txStatus.trans replayed.txStatus) ?_ nofun
      intro filled
      rw [cleared] at filled
      cases filled

theorem Sound.took (allowed : ∀ sql, incoming.message.sql? = some sql →
      (parseRouteAssignment sql).isSome = true →
        incoming.message = .query sql ∧ reported state.log = .idle)
    {result : Caching × List Deed}
    (took : Caching.Took context state.caching incoming replicas now lend stored result) :
    Sound ⟨result.1, heard state.log incoming.message result.2⟩ := by
  cases took with
  | refused unknown =>
    exact sound.unanswered reading rfl .closed rfl (fun filled => ⟨filled, rfl⟩) sound.extended
  | hit observed query cacheable assembled found =>
    have idle := idle_of_cacheableNow cacheable
    rw [sound.txStatus] at idle
    refine sound.answered reading (by rw [query]; rfl) ?_ idle reading rfl sound.extended
    exact (append_nil _).trans (readies_served (assembleSimple_ends assembled) _)
  | withheld observed fed =>
    obtain ⟨fits, shape⟩ := HeldSequence.feed_withheld fed
    have kind := HeldSequence.extended_of_mayHold fits
    rw [heard_quiet (asksReady_of_extended kind) rfl]
    refine ⟨sound.disciplined, sound.balance, sound.txStatus, fun _ => ⟨?_, .inl reading⟩, ?_⟩
    · cases empty : state.caching.held.isEmpty with
      | false => exact (sound.idle empty).1
      | true =>
        obtain ⟨-, sql, -, cacheable⟩ :=
          cacheable_of_mayBegin (HeldSequence.feed_begins fed empty)
        rw [← sound.txStatus]
        exact idle_of_cacheableNow cacheable
    · exact forall_mem_append.mpr ⟨sound.extended, forall_mem_singleton.mpr kind⟩
  | completed observed fed assembled =>
    obtain ⟨rfl, -, sync, filled⟩ := HeldSequence.feed_complete fed
    refine sound.answered reading (by rw [sync]; rfl) ?_ (sound.idle filled).1 reading rfl nofun
    exact (append_nil _).trans (readies_served (HeldSequence.assemble_ends assembled) _)
  | forwarded observed given => exact sound.forward reading allowed _ _

end

end Took

section Answers

variable {context : CacheContext} {state : Told}

theorem takeAnswer_session (live : Live) (flushing : Bool) (message : BackendMessage)
    (position : Option Nat) :
    (live.takeAnswer flushing message position).1.relay.session =
      live.relay.session.onBackend message := by
  rw [← Relay.onServer_session]
  rcases live.takeAnswer_cases flushing message position with
    ⟨pumping, phase, outputs, took, -⟩ | ⟨status, pumping, -, -, took⟩
  · rw [took]
  · rw [took]
    exact (Live.release_relay _ position).2

theorem takeAnswer_readies (live : Live) (flushing : Bool) (message : BackendMessage)
    (position : Option Nat) :
    (live.takeAnswer flushing message position).2.filterMap Output.ready =
      (Output.ready (.toClient message)).toList := by
  cases message with
  | readyForQuery status =>
    simp only [Live.takeAnswer, Pumping.swallowOne, Live.forwardAnswer]
    split
    · cases live.upstream with
      | none | some => rfl
    · rfl
  | _ =>
    unfold Live.takeAnswer
    split
    · rfl
    · rfl

variable {flushing : Bool}

theorem Sound.answering (sound : state.Sound)
    (phase : state.caching.live.phase = .pumping flushing ∨
      state.caching.live.phase = .copying flushing) : state.caching.held.isEmpty = true := by
  by_contra filled
  obtain ⟨-, reading | closed⟩ := sound.idle (Bool.eq_false_iff.mpr filled)
  · rw [reading] at phase
    rcases phase with other | other <;> cases other
  · rw [closed] at phase
    rcases phase with other | other <;> cases other

theorem Sound.copyFrame (sound : state.Sound)
    (copying : state.caching.live.phase = .copying flushing) (message : FrontendMessage) :
    Sound ⟨{ state.caching with live := (state.caching.live.takeCopyFrame flushing message).1 },
      state.log⟩ := by
  have empty := sound.answering (.inr copying)
  refine ⟨sound.disciplined, ?_, ?_, ?_, sound.extended⟩
  · unfold Live.takeCopyFrame
    split
    · exact .inl rfl
    · rcases sound.balance with closed | even | ⟨open_, odd⟩
      · rw [copying] at closed
        cases closed
      · exact .inr (.inl even)
      · rw [copying] at open_
        obtain rfl : flushing = false := by simpa using open_
        refine .inr (.inr ⟨?_, odd⟩)
        split
        · exact .inr rfl
        · exact .inl rfl
  · rw [← sound.txStatus]
    unfold Live.takeCopyFrame
    split
    · rfl
    · rfl
  · intro filled
    rw [empty] at filled
    cases filled

theorem Sound.ready (sound : state.Sound) (pumping : state.caching.live.phase = .pumping flushing)
    (status : TxStatus) (position : Option Nat) (due : readies state.log < asks state.log) :
    Sound ⟨{ state.caching with
        live := (state.caching.live.takeAnswer flushing (.readyForQuery status) position).1 },
      state.log ++ [.reported status] ++ [.ready status]⟩ := by
  have empty := sound.answering (.inl pumping)
  have odd : asks (state.log ++ [.reported status]) =
      readies (state.log ++ [.reported status]) + 1 := by
    rw [asks_append, readies_append]
    rcases sound.balance with closed | even | ⟨-, odd⟩
    · rw [pumping] at closed
      cases closed
    · omega
    · exact odd
  have same : reported (state.log ++ [.reported status]) = status :=
    reported_append_singleton _ _
  refine ⟨(sound.disciplined.report status).ready odd same.symm, .inr (.inl ?_), ?_, ?_,
    sound.extended⟩
  · rw [asks_append, odd]
    exact (readies_append _ [.ready status]).symm
  · rw [reported_append_singleton, takeAnswer_session]
    exact same.symm
  · intro filled
    rw [empty] at filled
    cases filled

theorem Sound.plainAnswer (sound : state.Sound)
    (pumping : state.caching.live.phase = .pumping flushing) {message : BackendMessage}
    (plain : ∀ status, message ≠ .readyForQuery status) (position : Option Nat) :
    Sound ⟨{ state.caching with
        live := (state.caching.live.takeAnswer flushing message position).1 }, state.log⟩ := by
  have empty := sound.answering (.inl pumping)
  refine ⟨sound.disciplined, ?_, ?_, ?_, sound.extended⟩
  · have balance := sound.balance
    rw [pumping] at balance
    rcases takeAnswer_phase state.caching.live flushing message position with
      closed | stays | copying | ⟨reading, why⟩
    · exact .inl closed
    · rw [stays, pumping]
      exact balance
    · rw [copying]
      rcases balance with closed | even | ⟨open_, odd⟩
      · cases closed
      · exact .inr (.inl even)
      · obtain rfl : flushing = false := by simpa using open_
        exact .inr (.inr ⟨.inr rfl, odd⟩)
    · obtain rfl := why.resolve_right fun ⟨status, ready⟩ => plain status ready
      rcases balance with closed | even | ⟨open_, -⟩
      · cases closed
      · exact .inr (.inl even)
      · simp at open_
  · rw [← sound.txStatus, takeAnswer_session]
    cases message with
    | readyForQuery status => exact absurd rfl (plain status)
    | _ => rfl
  · intro filled
    rw [empty] at filled
    cases filled

end Answers

variable {context : CacheContext} {state : Told}

theorem Sound.client (sound : state.Sound) (incoming : Incoming) (replicas : Replicas) (now : Nat)
    (lend : Nat → Option Upstreamed) (stored : CacheKey → Option (List UInt8))
    (allowed : state.Allowed (.client incoming replicas now lend stored)) :
    (state.step context (.client incoming replicas now lend stored)).Sound := by
  unfold Allowed at allowed
  unfold step marksOf Caching.step
  cases phase : state.caching.live.phase with
  | reading =>
    rw [phase] at allowed
    exact sound.took phase allowed
      (Caching.takeFrame_took context state.caching incoming replicas now lend stored)
  | copying flushing =>
    rw [phase] at allowed
    dsimp only at allowed ⊢
    unfold Caching.inLoop Live.step
    rw [phase, if_neg (by rw [allowed]; exact nofun), append_nil]
    have quiet : ([Deed.looped (state.caching.live.takeCopyFrame flushing
        incoming.message).2].flatMap Deed.readies) = [] := by
      unfold Live.takeCopyFrame
      split
      · rfl
      · rfl
    rw [quiet, map_nil, append_nil]
    exact sound.copyFrame phase incoming.message
  | pumping | closed =>
    unfold Caching.inLoop Live.step
    rw [phase, append_nil]
    exact append_nil _ ▸ sound

theorem Sound.server (sound : state.Sound) (message : BackendMessage) (position : Option Nat)
    (allowed : state.Allowed (.server message position)) :
    (state.step context (.server message position)).Sound := by
  unfold step Caching.step Caching.inLoop
  by_cases pumped : ∃ flushing, state.caching.live.phase = .pumping flushing
  · obtain ⟨flushing, phase⟩ := pumped
    dsimp only
    rw [Live.step_server phase, flatMap_singleton, Deed.readies, takeAnswer_readies]
    cases message with
    | readyForQuery status =>
      have marked : marksOf state.caching (.server (.readyForQuery status) position) =
          [.reported status] := by
        unfold marksOf
        rw [phase]
      rw [marked]
      exact sound.ready phase status position allowed
    | _ =>
      change Sound ⟨_, state.log ++ [] ++ []⟩
      rw [append_nil, append_nil]
      exact sound.plainAnswer phase (fun status ready => by cases ready) position
  · have elsewhere (flushing : Bool) : state.caching.live.phase ≠ .pumping flushing :=
      fun phase => pumped ⟨flushing, phase⟩
    have silent : marksOf state.caching (.server message position) = [] := by
      cases message with
      | readyForQuery status =>
        unfold marksOf
        cases phase : state.caching.live.phase with
        | pumping flushing => exact absurd phase (elsewhere flushing)
        | _ => rfl
      | _ => rfl
    dsimp only
    rw [Live.step_server_elsewhere elsewhere, silent, append_nil]
    exact append_nil _ ▸ sound

theorem Sound.lost (sound : state.Sound) : (state.step context .lost).Sound := by
  change Sound ⟨{ state.caching with live := { state.caching.live with phase := .closed } },
    state.log ++ [] ++ []⟩
  rw [append_nil, append_nil]
  exact ⟨sound.disciplined, .inl rfl, sound.txStatus,
    fun filled => ⟨(sound.idle filled).1, .inr rfl⟩, sound.extended⟩

theorem Reached.sound {mode : PoolMode} {statementTimeout : Option Nat}
    {settings : List (Text × Text)}
    (reached : Reached context mode statementTimeout settings state) : state.Sound := by
  apply reached.invariant
  · exact sound_start mode statementTimeout settings
  · intro before event sound allowed
    cases event with
    | client incoming replicas now lend stored =>
      exact sound.client incoming replicas now lend stored allowed
    | server message position => exact sound.server message position allowed
    | lost => exact sound.lost

/-- Every frame that asks gets one `ReadyForQuery`, in order and with the status the server
last reported, and between two answers none is open. -/
theorem ready_for_every_question (context : CacheContext) (mode : PoolMode)
    (statementTimeout : Option Nat) (settings : List (Text × Text)) (state : Told)
    (reached : Reached context mode statementTimeout settings state) :
    Disciplined state.log ∧
      (state.caching.live.phase = .reading → asks state.log = readies state.log) :=
  ⟨reached.sound.disciplined, reached.sound.balance.even⟩

/-! ### A route assigned outside a transaction, inside one, and in a `Parse` -/

def query (sql : String) : CachedEvent :=
  clientSends (.query sql.toList) Tag.query []

def answer (status : TxStatus) : CachedEvent :=
  .server (.readyForQuery status) none

def fresh : Told :=
  start .transaction none []

def along (events : List CachedEvent) : Told :=
  events.foldl (step acme) fresh

theorem allowed_query {sql : String}
    (idle : (parseRouteAssignment sql.toList).isSome = true → reported state.log = .idle)
    (reading : state.caching.live.phase = .reading) : state.Allowed (query sql) := by
  unfold Allowed query
  rw [reading]
  rintro _ ⟨rfl⟩ assigns
  exact ⟨rfl, idle assigns⟩

theorem route_assigned_between_transactions :
    Disciplined (along [query "BEGIN", answer .inTransaction, query "END", answer .idle,
      query "SET pgprox.route = primary"]).log ∧
      (along [query "BEGIN", answer .inTransaction, query "END", answer .idle,
        query "SET pgprox.route = primary"]).log =
        [.asked, .reported .inTransaction, .ready .inTransaction, .asked, .reported .idle,
          .ready .idle, .asked, .ready .idle] := by
  refine ⟨(ready_for_every_question acme .transaction none [] _ ?_).1, by decide +kernel⟩
  apply Run.Reachable.foldl .start
  refine ⟨allowed_query (by decide +kernel) (by decide +kernel), ?_,
    allowed_query (by decide +kernel) (by decide +kernel), ?_,
    allowed_query (by decide +kernel) (by decide +kernel), trivial⟩
  · change readies _ < asks _
    decide +kernel
  · change readies _ < asks _
    decide +kernel

/-- Inside a transaction the client is told that none is open; a `Parse` is answered with a
`ReadyForQuery` it did not ask for. -/
theorem route_assigned_elsewhere :
    ¬ Disciplined (along [query "BEGIN", answer .inTransaction,
        query "SET pgprox.route = primary"]).log ∧
      ¬ Disciplined (along [clientSends (.parse [] "SET pgprox.route = primary".toList)
        Tag.parse []]).log := by
  have inside : (along [query "BEGIN", answer .inTransaction,
      query "SET pgprox.route = primary"]).log =
        [.asked, .reported .inTransaction, .ready .inTransaction, .asked] ++
          .ready .idle :: [] := by
    decide +kernel
  constructor
  · intro disciplined
    have status := disciplined.status _ _ _ inside
    cases status
  · intro disciplined
    have early := (disciplined.paired _ (prefix_refl _)).1
    revert early
    decide

end Told

end Pgprox.Serve
