/-
Whether the loop ever reads from a server that has nothing to send.

The loop is stuck when it reads for an answer and none waits, since it takes no client frame
until it has one.
-/

import Pgprox.Serve.Conforming

namespace Pgprox.Serve

open Proto Pools Route Session List

/-! ### One frame of an answer -/

theorem takeAnswer_plain (live : Live) (flushing : Bool) {frame : BackendMessage}
    (plain : isPlain frame = true) (position : Option Nat) :
    (live.takeAnswer flushing frame position).1.pumping.owed =
        live.pumping.owed.received frame ∧
      (live.takeAnswer flushing frame position).1.phase =
        if flushing ∧ (live.pumping.owed.received frame).settled then .reading
        else live.phase := by
  unfold Live.takeAnswer
  dsimp only
  split
  · rename_i pumping swallowed
    have same : pumping.owed = live.pumping.owed := by
      unfold Pumping.swallowOne at swallowed
      split at swallowed
      · split at swallowed
        · cases swallowed
          rfl
        · cases swallowed
      · split at swallowed
        · cases swallowed
          rfl
        · cases swallowed
      · cases swallowed
    rw [same]
    split
    · exact ⟨rfl, rfl⟩
    · exact ⟨rfl, rfl⟩
  · unfold Live.forwardAnswer
    split
    · cases plain
    · cases plain
    · cases plain
    · dsimp only
      split
      · exact ⟨rfl, rfl⟩
      · exact ⟨rfl, rfl⟩

theorem takeAnswer_copyIn (live : Live) (flushing : Bool) (position : Option Nat) :
    (live.takeAnswer flushing .copyInResponse position).1.pumping = live.pumping ∧
      (live.takeAnswer flushing .copyInResponse position).1.phase = .copying flushing :=
  ⟨rfl, rfl⟩

theorem takeAnswer_ready (live : Live) (flushing : Bool) (status : TxStatus)
    (position : Option Nat) :
    (live.takeAnswer flushing (.readyForQuery status) position).1.phase = .closed ∨
      (live.takeAnswer flushing (.readyForQuery status) position).1.pumping.owed = .new ∧
        (live.takeAnswer flushing (.readyForQuery status) position).1.phase = .reading := by
  simp only [Live.takeAnswer, Pumping.swallowOne, Live.forwardAnswer]
  split
  · cases live.upstream with
    | none => exact .inl rfl
    | some upstream => exact .inr ⟨rfl, rfl⟩
  · exact .inr ⟨rfl, rfl⟩

/-! ### The loop and the server together -/

structure Exchange where
  live : Live
  mode : ServerMode
  pending : List BackendMessage

inductive ExchangeEvent
  | client (message : FrontendMessage) (replicas : Replicas) (now : Nat)
      (lent : Option Upstreamed) (answers : List BackendMessage) (mode : ServerMode)
  | delivered (position : Option Nat)
  | asynchronous (message : BackendMessage)
  | lost

def isAsynchronous : BackendMessage → Bool
  | .noticeResponse _ | .notificationResponse _ | .parameterStatus _ _ => true
  | _ => false

namespace Exchange

def start (mode : PoolMode) (statementTimeout : Option Nat) (settings : List (Text × Text)) :
    Exchange where
  live := .start mode statementTimeout settings
  mode := .ready
  pending := []

def facing (state : Exchange) (event : LoopEvent) : ServerMode × List BackendMessage :=
  if (state.live.step event).2.any isBorrowed then (.ready, []) else (state.mode, state.pending)

def step (state : Exchange) : ExchangeEvent → Exchange
  | .client message replicas now lent answers mode =>
    { live := (state.live.step (.client message replicas now lent)).1
      mode := mode
      pending := (state.facing (.client message replicas now lent)).2 ++ answers }
  | .delivered position =>
    match state.live.phase, state.pending with
    | .pumping _, frame :: later =>
      { state with live := (state.live.step (.server frame position)).1, pending := later }
    | _, _ => state
  | .asynchronous message => { state with live := (state.live.step (.server message none)).1 }
  | .lost => { state with live := (state.live.step .lost).1 }

def Conforms (state : Exchange) : ExchangeEvent → Prop
  | .client message replicas now lent answers mode =>
    Serves (state.facing (.client message replicas now lent)).1
      (framesSent (state.live.told message)
        (state.live.step (.client message replicas now lent)).2)
      answers mode
  | .asynchronous message => isAsynchronous message = true
  | _ => True

/-- What a client frame comes to, given what faces it and how the server answers: the session
ends, the loop does not read it, the server takes it as part of a copy, or the loop takes it. -/
inductive ClientStep (state : Exchange) (message : FrontendMessage) (frames : List FrontendMessage)
    (answers : List BackendMessage) (mode : ServerMode)
    (facing : ServerMode × List BackendMessage) (next : Live) : Prop
  | ended (closed : next.phase = .closed)
  | unread {flushing : Bool} (phase : state.live.phase = .pumping flushing)
      (same : next = state.live) (keeps : facing = (state.mode, state.pending))
      (silent : answers = []) (stays : mode = state.mode)
  | copied {flushing : Bool} (phase : state.live.phase = .copying flushing)
      (goes : next = { state.live with
        phase := if message = .copyData then .copying flushing else .pumping flushing })
      (keeps : facing = (state.mode, state.pending))
      (answered : Answers state.mode message answers mode)
  | taken (phase : state.live.phase = .reading) (stays : message ≠ .terminate)
      (takes : Taken .reading state.live.pumping message next frames)
      (counts : next.pumping.swallow = state.live.pumping.swallow + (frames.length - 1))
      (served : Serves facing.1 frames answers mode)

theorem Conforms.clientStep {state : Exchange} {message : FrontendMessage} {replicas : Replicas}
    {now : Nat} {lent : Option Upstreamed} {answers : List BackendMessage} {mode : ServerMode}
    (conforms : state.Conforms (.client message replicas now lent answers mode)) :
    ClientStep state message
      (framesSent (state.live.told message)
        (state.live.step (.client message replicas now lent)).2)
      answers mode (state.facing (.client message replicas now lent))
      (state.live.step (.client message replicas now lent)).1 := by
  unfold Conforms at conforms
  dsimp only at conforms
  cases phase : state.live.phase with
  | closed =>
    refine .ended ?_
    simp only [Live.step, phase]
  | pumping flushing =>
    have stays : state.live.step (.client message replicas now lent) = (state.live, []) := by
      simp only [Live.step, phase]
    have keeps : state.facing (.client message replicas now lent) =
        (state.mode, state.pending) := by
      unfold facing
      rw [stays]
      rfl
    rw [stays, keeps] at conforms ⊢
    cases conforms
    exact .unread phase rfl rfl rfl rfl
  | copying flushing =>
    cases current : state.live.upstream with
    | none =>
      refine .ended ?_
      simp only [Live.step, phase, Live.takeCopyFrame, current]
      rfl
    | some upstream =>
      have goes : state.live.step (.client message replicas now lent) =
          ({ state.live with
              phase := if message = .copyData then .copying flushing
                else .pumping flushing },
            [.toServer upstream.id message]) := by
        simp only [Live.step, phase, Live.takeCopyFrame, current]
      have keeps : state.facing (.client message replicas now lent) =
          (state.mode, state.pending) := by
        unfold facing
        rw [goes]
        rfl
      rw [goes, keeps] at conforms ⊢
      exact .copied phase rfl rfl conforms.singleton
  | reading =>
    have goes : state.live.step (.client message replicas now lent) =
        state.live.takeFrame message replicas now lent := by
      simp only [Live.step, phase]
    rw [goes] at conforms ⊢
    by_cases ends : message = .terminate
    · subst ends
      exact .ended rfl
    · rcases takeFrame_taken state.live message replicas now lent with closed | takes
      · exact .ended closed
      · rcases takeFrame_swallow state.live message replicas now lent with closed | counts
        · exact .ended closed
        · rw [phase] at takes
          exact .taken phase ends takes counts conforms

/-- The frame is one the server in that state answers, with these answers unread. -/
def Answerable (owed : Outstanding) (pending : List BackendMessage) (message : FrontendMessage) :
    ServerMode → Prop
  | .ready =>
    message.startsExtendedSequence = true ∨ asksReady message = true ∨ message = .flush ∨
      message = .terminate
  | .skipping =>
    message.startsExtendedSequence = true ∨ message = .sync ∨ message = .terminate ∨
      message = .flush ∧ (pending ≠ [] ∨ owed.settled = true)
  | .copyIn _ => message = .flush ∨ message = .terminate

/-- The client waits for answers where the server gives them: between answers it sends what
the server answers, on another connection only when nothing is owed on this one, and inside
a copy it sends what belongs to the copy. -/
def Orderly (state : Exchange) : ExchangeEvent → Prop
  | .client message replicas now lent _ _ =>
    match state.live.phase with
    | .reading =>
      ((state.live.step (.client message replicas now lent)).2.any isBorrowed = true →
        state.live.pumping.owed.settled = true) ∧
      Answerable state.live.pumping.owed (state.facing (.client message replicas now lent)).2
        message (state.facing (.client message replicas now lent)).1
    | .copying _ => message = .copyData ∨ message = .copyDone ∨ message = .copyFail
    | _ => True
  | _ => True

abbrev Reached (mode : PoolMode) (statementTimeout : Option Nat)
    (settings : List (Text × Text)) (state : Exchange) : Prop :=
  Run.Reachable (start mode statementTimeout settings)
    (fun state event => state.Conforms event ∧ state.Orderly event) step state

end Exchange

/-! ### What waits while the loop reads -/

/-- The loop's phase, the server's mode, what the loop is owed and what waits for it. -/
inductive Fits : Phase → ServerMode → List Owed → List BackendMessage → Prop
  | reading {owed : List Owed} {pending : List BackendMessage} (aligned : Aligned owed pending) :
      Fits .reading .ready owed pending
  | skipped {owed : List Owed} : Fits .reading .skipping owed []
  | failed {owed : List Owed} {before : List BackendMessage} {reason : Text}
      (plain : ∀ frame ∈ before, isPlain frame = true) :
      Fits .reading .skipping owed (before ++ [.errorResponse reason])
  | copyStarted {owed : List Owed} {before : List BackendMessage} (aligned : Aligned owed before) :
      Fits .reading (.copyIn false) (owed ++ [.execute]) (before ++ [.copyInResponse])
  | flushing {owed : List Owed} {pending : List BackendMessage} (aligned : Aligned owed pending)
      (due : owed ≠ []) : Fits (.pumping true) .ready owed pending
  | flushingFailed {owed : List Owed} {before : List BackendMessage} {reason : Text}
      (plain : ∀ frame ∈ before, isPlain frame = true) (due : owed ≠ []) :
      Fits (.pumping true) .skipping owed (before ++ [.errorResponse reason])
  | flushingCopy {owed : List Owed} {before : List BackendMessage}
      (aligned : Aligned owed before) :
      Fits (.pumping true) (.copyIn false) (owed ++ [.execute]) (before ++ [.copyInResponse])
  | copyFlushed : Fits (.copying true) (.copyIn false) [.execute] []
  | copyFlushedFailed {owed : List Owed} {before : List BackendMessage} {reason : Text}
      (plain : ∀ frame ∈ before, isPlain frame = true) (due : owed ≠ []) :
      Fits (.copying true) .skipping owed (before ++ [.errorResponse reason])
  | asking {owed : List Owed} {before : List BackendMessage} {status : TxStatus}
      (plain : ∀ frame ∈ before, isPlain frame = true) :
      Fits (.pumping false) .ready owed (before ++ [.readyForQuery status])
  | askingCopy {owed : List Owed} {before : List BackendMessage}
      (plain : ∀ frame ∈ before, isPlain frame = true) :
      Fits (.pumping false) (.copyIn true) owed (before ++ [.copyInResponse])
  | copying {owed : List Owed} : Fits (.copying false) (.copyIn true) owed []
  | copyFailed {owed : List Owed} {before : List BackendMessage} {status : TxStatus}
      (plain : ∀ frame ∈ before, isPlain frame = true) :
      Fits (.copying false) .ready owed (before ++ [.readyForQuery status])
  | closed {mode : ServerMode} {owed : List Owed} {pending : List BackendMessage} :
      Fits .closed mode owed pending

variable {pending : List BackendMessage}

theorem Fits.waits {flushing : Bool} {mode : ServerMode} {owed : List Owed}
    (fits : Fits (.pumping flushing) mode owed pending) : pending ≠ [] := by
  cases fits with
  | flushing aligned due =>
    rintro rfl
    cases aligned
    exact due rfl
  | flushingFailed | flushingCopy | asking | askingCopy => simp

theorem Fits.plain_of_skipping {owed : List Owed} (fits : Fits .reading .skipping owed pending) :
    ∀ frame ∈ pending, isPlain frame = true := by
  cases fits with
  | skipped => exact nofun
  | failed plain =>
    intro frame listed
    rcases mem_append.mp listed with inside | final
    · exact plain frame inside
    · rw [mem_singleton.mp final]
      rfl

theorem phaseAfter_of_extended {message : FrontendMessage}
    (extended : message.startsExtendedSequence = true) (phase : Phase) (owed : Outstanding) :
    phaseAfter phase message owed = phase := by
  cases message with
  | parse | bind | execute | describe | close => rfl
  | _ => cases extended

theorem phaseAfter_of_asks {message : FrontendMessage} (asks : asksReady message = true)
    (phase : Phase) (owed : Outstanding) : phaseAfter phase message owed = .pumping false := by
  cases message with
  | query | functionCall | sync => rfl
  | _ => cases asks

section Sending

variable {mode next : ServerMode} {owed : List Owed} {pending answers : List BackendMessage}
  {message onward : FrontendMessage} {injected : List FrontendMessage}

theorem Injected.unsynced {kind : Owed} (own : Injected message injected)
    (renames : Renames message onward) (sends : Owed.of message = some kind) :
    .sync ∉ injected ++ [onward] := by
  intro synced
  rcases mem_append.mp synced with among | final
  · cases own.extended _ among
  · have onwardKind := renames.owed.trans sends
    rw [← mem_singleton.mp final] at onwardKind
    cases onwardKind

theorem sent_of_owed (owed : Outstanding) {kind : Owed} (sends : Owed.of message = some kind) :
    (owed.sent message).owed = owed.owed ++ [kind] := by
  unfold Outstanding.sent
  rw [sends]
  rfl

theorem owed_of_asks (asks : asksReady message = true) : Owed.of message = none := by
  cases message with
  | query | functionCall | sync => rfl
  | _ => cases asks

theorem Answers.of_silent (answered : Answers mode message answers next)
    (simple : Owed.of message = none) (silent : asksReady message = false)
    (listens : ∀ copies, mode ≠ .copyIn copies) : answers = [] ∧ next = mode := by
  cases answered with
  | completed kind _ _ => cases simple.symm.trans kind
  | failed _ kind _ => cases simple.symm.trans kind
  | copyStarted => cases simple
  | asked _ asks _ => cases silent.symm.trans asks
  | copyAsked _ => cases silent
  | unanswered _ _ => exact ⟨rfl, rfl⟩
  | resynced _ => cases silent
  | skipped _ => exact ⟨rfl, rfl⟩
  | _ => exact absurd rfl (listens _)

section

variable (fits : Fits .reading mode owed pending)
include fits

theorem Fits.sendExtended {kind : Owed}
    (sends : Owed.of message = some kind) (own : Injected message injected)
    (renames : Renames message onward) (listens : ∀ simple, mode ≠ .copyIn simple)
    (served : Serves mode (injected ++ [onward]) answers next) :
    Fits .reading next (owed ++ [kind]) (pending ++ answers) := by
  cases mode with
  | copyIn simple => exact absurd rfl (listens simple)
  | skipping =>
    obtain ⟨rfl, rfl⟩ := served.skipping (own.unsynced renames sends)
    rw [append_nil]
    cases fits with
    | skipped => exact .skipped
    | failed plain => exact .failed plain
  | ready =>
    cases fits with
    | reading aligned =>
      cases served.fulfils sends renames own with
      | completed behind => exact .reading (aligned.append behind)
      | failed breaks =>
        obtain ⟨before, reason, rfl, plain⟩ := breaks.plain
        rw [← append_assoc]
        exact .failed (forall_mem_append.mpr ⟨aligned.plain, plain⟩)
      | copyStarted runs =>
        rw [runs]
        exact .copyStarted aligned

theorem Fits.sendAsking (asks : asksReady message = true)
    (listens : mode = .ready ∨ mode = .skipping ∧ message = .sync)
    (answered : Answers mode message answers next) :
    Fits (.pumping false) next owed (pending ++ answers) := by
  have simple := owed_of_asks asks
  rcases listens with rfl | ⟨rfl, rfl⟩
  · cases fits with
    | reading aligned =>
      cases answered with
      | completed kind _ _ => cases simple.symm.trans kind
      | failed _ kind _ => cases simple.symm.trans kind
      | copyStarted => cases simple
      | asked status _ body =>
        rw [← append_assoc]
        exact .asking (forall_mem_append.mpr ⟨aligned.plain, body⟩)
      | copyAsked body =>
        rw [← append_assoc]
        exact .askingCopy (forall_mem_append.mpr ⟨aligned.plain, body⟩)
      | unanswered _ silent => cases silent.symm.trans asks
  · cases answered with
    | resynced status => exact .asking fits.plain_of_skipping
    | skipped other => exact absurd rfl other

theorem Fits.sendFlush (waits : mode = .skipping → pending ≠ [] ∨ owed = [])
    (answered : Answers mode .flush answers next) :
    Fits (if owed.isEmpty then .reading else .pumping true) next owed (pending ++ answers) := by
  cases fits with
  | reading aligned =>
    cases answered with
    | completed kind _ _ => cases kind
    | failed _ kind _ => cases kind
    | asked _ asks _ => cases asks
    | unanswered _ _ =>
      rw [append_nil]
      split
      · exact .reading aligned
      · rename_i due
        exact .flushing aligned (by simpa using due)
  | skipped =>
    cases answered with
    | skipped _ =>
      rw [(waits rfl).resolve_left (by simp)]
      exact .skipped
  | failed plain =>
    cases answered with
    | skipped _ =>
      rw [append_nil]
      split
      · exact .failed plain
      · rename_i due
        exact .flushingFailed plain (by simpa using due)
  | copyStarted aligned =>
    cases answered with
    | copyIgnored _ =>
      rw [append_nil, if_neg (by simp)]
      exact .flushingCopy aligned
    | copyFailed _ _ second => exact absurd rfl second

end

theorem Fits.taken {pumping : Pumping} {live : Live} {frames : List FrontendMessage}
    (fits : Fits .reading mode pumping.owed.owed pending)
    (taken : Taken .reading pumping message live frames) (served : Serves mode frames answers next)
    (answerable : Exchange.Answerable pumping.owed pending message mode)
    (stays : message ≠ .terminate) :
    Fits live.phase next live.pumping.owed.owed (pending ++ answers) := by
  cases taken with
  | answered phase same =>
    cases served
    rw [append_nil, phase, same]
    exact fits
  | forwarded own renames owed goes =>
    rename_i injected onward
    rw [goes, owed]
    by_cases extended : message.startsExtendedSequence = true
    · obtain ⟨kind, sends⟩ := extended_iff_owed.mp extended
      rw [phaseAfter_of_extended extended]
      have listens : ∀ simple, mode ≠ .copyIn simple := by
        rintro simple rfl
        rcases answerable with rfl | rfl
        · cases extended
        · cases extended
      rw [sent_of_owed _ sends]
      exact fits.sendExtended sends own renames listens served
    · obtain ⟨rfl, rfl, alone⟩ := own.alone renames (Bool.eq_false_iff.mpr extended)
      have same := alone pumping.owed
      rw [same]
      have answered := served.singleton
      by_cases asks : asksReady onward = true
      · rw [phaseAfter_of_asks asks]
        refine fits.sendAsking asks ?_ answered
        cases mode with
        | ready => exact .inl rfl
        | skipping =>
          rcases answerable with wide | synced | ends | ⟨rfl, -⟩
          · exact absurd wide extended
          · exact .inr ⟨rfl, synced⟩
          · exact absurd ends stays
          · cases asks
        | copyIn simple =>
          rcases answerable with rfl | ends
          · cases asks
          · exact absurd ends stays
      · have flush : onward = .flush := by
          cases mode with
          | ready =>
            rcases answerable with wide | asking | same | ends
            · exact absurd wide extended
            · exact absurd asking asks
            · exact same
            · exact absurd ends stays
          | skipping =>
            rcases answerable with wide | rfl | ends | ⟨same, -⟩
            · exact absurd wide extended
            · exact absurd rfl asks
            · exact absurd ends stays
            · exact same
          | copyIn simple => exact answerable.resolve_right stays
        subst flush
        have goes : phaseAfter .reading .flush (pumping.owed.sent .flush) =
            if pumping.owed.owed.isEmpty then .reading else .pumping true := by
          unfold phaseAfter Outstanding.settled
          rw [same]
          simp [awaitsMore]
        rw [goes]
        refine fits.sendFlush ?_ answered
        rintro rfl
        rcases answerable with wide | synced | ends | ⟨-, waits⟩
        · cases wide
        · cases synced
        · cases ends
        · exact waits.imp_right fun settled => List.isEmpty_iff.mp settled

theorem Fits.copy {flushing : Bool} (fits : Fits (.copying flushing) mode owed pending)
    (belongs : message = .copyData ∨ message = .copyDone ∨ message = .copyFail)
    (answered : Answers mode message answers next) :
    Fits (if message = .copyData then .copying flushing else .pumping flushing) next owed
      (pending ++ answers) := by
  have simple : Owed.of message = none := by
    rcases belongs with rfl | rfl | rfl <;> rfl
  have silent : asksReady message = false := by
    rcases belongs with rfl | rfl | rfl <;> rfl
  cases fits with
  | copyFlushed =>
    cases answered with
    | copied => exact .copyFlushed
    | copyIgnored waits => rcases waits with rfl | rfl <;> simp at belongs
    | copyFailed reason _ _ =>
      split
      · exact Fits.copyFlushedFailed (forall_mem_nil _) (by simp)
      · exact Fits.flushingFailed (forall_mem_nil _) (by simp)
    | copyDone tag => exact .flushing (.discharged rfl .done) (by simp)
  | copyFlushedFailed plain due =>
    cases answered with
    | resynced _ => simp at belongs
    | skipped _ =>
      rw [append_nil]
      split
      · exact .copyFlushedFailed plain due
      · exact .flushingFailed plain due
  | copying =>
    cases answered with
    | copied => exact .copying
    | copyIgnored waits => rcases waits with rfl | rfl <;> simp at belongs
    | copyFailedSimple reason status _ _ =>
      have plain : ∀ frame ∈ [BackendMessage.errorResponse reason],
          isPlain frame = true := by simp [isPlain]
      split
      · exact .copyFailed plain
      · exact .asking plain
    | copyDoneSimple status body => exact .asking body
    | copyNext body => exact .askingCopy body
  | copyFailed plain =>
    obtain ⟨rfl, rfl⟩ := answered.of_silent simple silent nofun
    rw [append_nil]
    split
    · exact .copyFailed plain
    · exact .asking plain

end Sending

/-! ### Reading an answer -/

theorem Fits.delivered {live : Live} {flushing : Bool} (answering : live.phase = .pumping flushing)
    {mode : ServerMode} {frame : BackendMessage} {later : List BackendMessage}
    (fits : Fits (.pumping flushing) mode live.pumping.owed.owed (frame :: later))
    (position : Option Nat) :
    Fits (live.takeAnswer flushing frame position).1.phase mode
      (live.takeAnswer flushing frame position).1.pumping.owed.owed later := by
  have plainly (plain : isPlain frame = true) := takeAnswer_plain live flushing plain position
  generalize shape : frame :: later = pending at fits
  generalize current : live.pumping.owed.owed = owed at fits
  cases fits with
  | flushing aligned due =>
    subst shape
    obtain ⟨owes, goes⟩ := plainly (aligned.plain frame mem_cons_self)
    obtain ⟨left, rest, received⟩ := aligned.received
    have now : (live.pumping.owed.received frame).owed = left := by
      have := received []
      rwa [append_nil, append_nil, ← current] at this
    rw [goes, owes, answering]
    unfold Outstanding.settled
    rw [now]
    cases left with
    | nil => exact .reading rest
    | cons head behind => exact .flushing rest (by simp)
  | flushingFailed plain due =>
    rename_i before reason
    cases before with
    | nil =>
      cases shape
      obtain ⟨owes, goes⟩ := plainly rfl
      exact .skipped
    | cons first before =>
      cases shape
      obtain ⟨owes, goes⟩ := plainly (plain frame mem_cons_self)
      have behind : ∀ frame' ∈ before, isPlain frame' = true :=
        fun frame' among => plain frame' (mem_cons_of_mem _ among)
      rw [goes, owes, answering]
      unfold Outstanding.settled
      cases (live.pumping.owed.received frame).owed with
      | nil => exact .failed behind
      | cons head rest => exact .flushingFailed behind (by simp)
  | flushingCopy aligned =>
    rename_i front before
    cases before with
    | nil =>
      cases shape
      cases aligned
      obtain ⟨same, goes⟩ := takeAnswer_copyIn live true position
      rw [same, current]
      exact .copyFlushed
    | cons first before =>
      cases shape
      obtain ⟨owes, goes⟩ := plainly (aligned.plain frame mem_cons_self)
      obtain ⟨left, rest, received⟩ := aligned.received
      have now : (live.pumping.owed.received frame).owed = left ++ [.execute] := by
        have := received [.execute]
        rwa [← current] at this
      rw [goes, owes, answering]
      unfold Outstanding.settled
      rw [now, if_neg (by simp)]
      exact .flushingCopy rest
  | asking plain =>
    rename_i before status
    cases before with
    | nil =>
      cases shape
      rcases takeAnswer_ready live false status position with closed | ⟨owes, goes⟩
      · rw [closed]
        exact .closed
      · rw [goes, owes]
        exact .reading .done
    | cons first before =>
      cases shape
      obtain ⟨-, goes⟩ := plainly (plain frame mem_cons_self)
      rw [goes, answering]
      exact .asking fun frame' among => plain frame' (mem_cons_of_mem _ among)
  | askingCopy plain =>
    rename_i before
    cases before with
    | nil =>
      cases shape
      exact .copying
    | cons first before =>
      cases shape
      obtain ⟨-, goes⟩ := plainly (plain frame mem_cons_self)
      rw [goes, answering]
      exact .askingCopy fun frame' among => plain frame' (mem_cons_of_mem _ among)

theorem Fits.asynchronous {live : Live} {flushing : Bool}
    (answering : live.phase = .pumping flushing) {mode : ServerMode}
    (fits : Fits (.pumping flushing) mode live.pumping.owed.owed pending)
    {message : BackendMessage} (own : isAsynchronous message = true) :
    Fits (live.takeAnswer flushing message none).1.phase mode
      (live.takeAnswer flushing message none).1.pumping.owed.owed pending := by
  have plain : isPlain message = true := by
    cases message <;> first | rfl | cases own
  have same : live.pumping.owed.received message = live.pumping.owed := by
    have idle : ∀ owed : Owed, owed.dischargedBy message = false := by
      intro owed
      cases message <;> first | (cases owed <;> rfl) | cases own
    have heard : live.pumping.owed.received message = live.pumping.owed.discharge message := by
      cases message <;> first | rfl | cases own
    rw [heard]
    unfold Outstanding.discharge
    split
    · rfl
    · rw [idle]
      rfl
  obtain ⟨owes, goes⟩ := takeAnswer_plain live flushing plain none
  have unsettled : ¬ (flushing = true ∧ live.pumping.owed.settled = true) := by
    rintro ⟨rfl, settled⟩
    have none_ : live.pumping.owed.owed = [] := List.isEmpty_iff.mp settled
    rw [none_] at fits
    generalize owed : ([] : List Owed) = front at fits
    cases fits with
    | flushing _ due => exact due owed.symm
    | flushingFailed _ due => exact due owed.symm
    | flushingCopy _ => simp at owed
  rw [goes, owes, same, if_neg unsettled, answering]
  exact fits

/-! ### Along a run -/

namespace Exchange

def Steady (state : Exchange) : Prop :=
  Fits state.live.phase state.mode state.live.pumping.owed.owed state.pending

theorem Steady.client {state : Exchange} (steady : state.Steady) {message : FrontendMessage}
    {replicas : Replicas} {now : Nat} {lent : Option Upstreamed} {answers : List BackendMessage}
    {mode : ServerMode}
    (conforms : state.Conforms (.client message replicas now lent answers mode))
    (orderly : state.Orderly (.client message replicas now lent answers mode)) :
    (state.step (.client message replicas now lent answers mode)).Steady := by
  unfold Steady at steady
  unfold Orderly at orderly
  unfold Steady step
  dsimp only at orderly ⊢
  cases conforms.clientStep with
  | ended closed =>
    rw [closed]
    exact .closed
  | unread phase same keeps silent stays =>
    rw [same, keeps, silent, stays, append_nil]
    exact steady
  | copied phase goes keeps answered =>
    rw [phase] at orderly steady
    rw [goes, keeps]
    exact steady.copy orderly answered
  | taken phase stays takes _ served =>
    rw [phase] at orderly steady
    obtain ⟨free, answerable⟩ := orderly
    have facing : Fits .reading (state.facing (.client message replicas now lent)).1
        state.live.pumping.owed.owed (state.facing (.client message replicas now lent)).2 := by
      unfold Exchange.facing
      split
      · rename_i borrowed
        have settled : state.live.pumping.owed.owed = [] := List.isEmpty_iff.mp (free borrowed)
        rw [settled]
        exact .reading .done
      · exact steady
    exact facing.taken takes served answerable stays

theorem Steady.step {state : Exchange} (steady : state.Steady) {event : ExchangeEvent}
    (conforms : state.Conforms event) (orderly : state.Orderly event) :
    (state.step event).Steady := by
  cases event with
  | client message replicas now lent answers mode => exact steady.client conforms orderly
  | delivered position =>
    unfold Exchange.step
    dsimp only
    split
    · rename_i flushing frame later phase pending
      unfold Steady at steady
      rw [phase, pending] at steady
      simp only [Live.step, phase]
      exact steady.delivered phase position
    · exact steady
  | asynchronous message =>
    unfold Steady at steady
    unfold Exchange.step
    dsimp only
    cases phase : state.live.phase with
    | pumping flushing =>
      rw [phase] at steady
      simp only [Live.step, phase]
      exact steady.asynchronous phase conforms
    | reading | copying | closed =>
      rw [Live.step_server_elsewhere (by simp [phase])]
      exact steady
  | lost => exact .closed

end Exchange

/-- While the loop reads from a conforming server, something waits to be read, as long as the
client waits for answers where the server gives them. -/
theorem pump_reads_what_is_owed (mode : PoolMode) (statementTimeout : Option Nat)
    (settings : List (Text × Text)) (state : Exchange)
    (reached : Exchange.Reached mode statementTimeout settings state) (flushing : Bool)
    (reading : state.live.phase = .pumping flushing) : state.pending ≠ [] := by
  have steady : state.Steady := by
    apply reached.invariant
    · exact .reading .done
    · intro before event steady allowed
      exact steady.step allowed.1 allowed.2
  unfold Exchange.Steady at steady
  rw [reading] at steady
  exact steady.waits

/-! ### A flush, and a copy run by `Execute` -/

namespace Exchange

def along (state : Exchange) (events : List ExchangeEvent) : Exchange :=
  events.foldl step state

def send (message : FrontendMessage) (answers : List BackendMessage) (mode : ServerMode) :
    ExchangeEvent :=
  .client message ⟨0, []⟩ 0 (some ⟨1, .new 128⟩) answers mode

theorem conforms_send {state : Exchange} {message : FrontendMessage}
    {answers : List BackendMessage} (mode : ServerMode) {next : ServerMode}
    (faces : (state.facing (.client message ⟨0, []⟩ 0 (some ⟨1, .new 128⟩))).1 = mode)
    (frames : framesSent (state.live.told message)
      (state.live.step (.client message ⟨0, []⟩ 0 (some ⟨1, .new 128⟩))).2 = [message])
    (answered : Answers mode message answers next) :
    state.Conforms (send message answers next) := by
  change Serves _ _ answers next
  rw [faces, frames, ← append_nil answers]
  exact .cons answered .nil

def opened : Exchange :=
  start .transaction none []

def parseThenFlush : List ExchangeEvent :=
  [send (.parse [] "BEGIN".toList) [.parseComplete] .ready, send .flush [] .ready]

theorem parseThenFlush_reached : Reached .transaction none [] (opened.along parseThenFlush) := by
  refine Run.Reachable.start.foldl ⟨⟨?_, ?_⟩, ⟨?_, ?_⟩, trivial⟩
  · exact conforms_send .ready (by decide +kernel) (by decide +kernel)
      (Answers.completed rfl (forall_mem_nil _) rfl)
  · exact ⟨fun _ => rfl, .inl rfl⟩
  · exact conforms_send .ready (by decide +kernel) (by decide +kernel)
      (.unanswered rfl rfl)
  · exact ⟨fun borrowed => absurd borrowed (by decide +kernel), .inr (.inr (.inl rfl))⟩

theorem flush_finds_parse_complete :
    (opened.along parseThenFlush).live.phase = .pumping true ∧
      (opened.along parseThenFlush).pending ≠ [] := by
  have reads : (opened.along parseThenFlush).live.phase = .pumping true := by decide +kernel
  exact ⟨reads, pump_reads_what_is_owed _ _ _ _ parseThenFlush_reached _ reads⟩

def executedCopy : List ExchangeEvent :=
  [send (.parse [] "COPY t FROM STDIN".toList) [.parseComplete] .ready,
    send (.bind [] [] []) [.bindComplete] .ready,
    send (.execute [] 0) [.copyInResponse] (.copyIn false),
    send .sync [] (.copyIn false),
    .delivered none, .delivered none, .delivered none,
    send .copyDone [.commandComplete "COPY 0".toList] .ready,
    .delivered none]

theorem executedCopy_conforms :
    Run.Permitted Conforms step opened executedCopy := by
  refine ⟨?_, ?_, ?_, ?_, trivial, trivial, trivial, ?_, trivial, trivial⟩
  · exact conforms_send .ready (by decide +kernel) (by decide +kernel)
      (Answers.completed rfl (forall_mem_nil _) rfl)
  · exact conforms_send .ready (by decide +kernel) (by decide +kernel)
      (Answers.completed rfl (forall_mem_nil _) rfl)
  · exact conforms_send .ready (by decide +kernel) (by decide +kernel) .copyStarted
  · exact conforms_send (.copyIn false) (by decide +kernel) (by decide +kernel)
      (.copyIgnored (.inl rfl))
  · exact conforms_send (.copyIn false) (by decide +kernel) (by decide +kernel)
      (.copyDone _)

end Exchange

/-- The server ignored the `Sync`, which stood in the copy's way.  Once the copy is done the
loop reads on for its `ReadyForQuery`, and nothing comes. -/
theorem pump_waits_after_executed_copy :
    ¬ ∀ (mode : PoolMode) (statementTimeout : Option Nat) (settings : List (Text × Text))
        (state : Exchange),
      Run.Reachable (Exchange.start mode statementTimeout settings) Exchange.Conforms
        Exchange.step state →
      ∀ flushing, state.live.phase = .pumping flushing → state.pending ≠ [] := by
  intro always
  refine always _ _ _ _ (Run.Reachable.start.foldl Exchange.executedCopy_conforms) false ?_ ?_
  · decide +kernel
  · decide +kernel

end Pgprox.Serve
