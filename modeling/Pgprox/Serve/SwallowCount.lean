/-
Whether the count of completions to hide is spent when an answer ends.

Only a hidden completion lowers the count: a frame of the loop's own that the server
rejects or skips, or whose answer stays behind on another connection, leaves it raised.
-/

import Pgprox.Serve.Pump
import Pgprox.Serve.PumpOwed

namespace Pgprox.Serve

open Proto Pools Route Session List

/-! ### How the count moves -/

def completions (frames : List BackendMessage) : Nat :=
  frames.countP isCompletion

theorem completions_append (frames later : List BackendMessage) :
    completions (frames ++ later) = completions frames + completions later :=
  countP_append

theorem forwardAnswer_swallow (live : Live) (flushing : Bool) (message : BackendMessage)
    (outcome : ServerOutcome) (position : Option Nat) :
    (live.forwardAnswer flushing message outcome position).1.pumping.swallow =
      live.pumping.swallow := by
  unfold Live.forwardAnswer
  split
  · rfl
  · rfl
  · split
    · rw [(Live.release_pumping _ position).1]
    · rfl
  · dsimp only
    split
    · rfl
    · rfl

theorem takeAnswer_swallow (live : Live) (flushing : Bool) (message : BackendMessage)
    (position : Option Nat) :
    (live.takeAnswer flushing message position).1.pumping.swallow =
      if isCompletion message then live.pumping.swallow - 1 else live.pumping.swallow := by
  unfold Live.takeAnswer
  rw [Pumping.swallowOne_eq]
  by_cases hidden : isCompletion message = true ∧ 0 < live.pumping.swallow
  · rw [if_pos hidden, if_pos hidden.1]
    dsimp only
    split
    · rfl
    · rfl
  · rw [if_neg hidden]
    rw [forwardAnswer_swallow]
    split
    · rename_i completes
      have spent : ¬ 0 < live.pumping.swallow := fun counted => hidden ⟨completes, counted⟩
      dsimp only
      omega
    · rfl

/-! ### Where a `ReadyForQuery` waits -/

theorem isReady_of_isPlain {frame : BackendMessage} (plain : isPlain frame = true) :
    isReady frame = false := by
  cases frame with
  | readyForQuery status => cases plain
  | _ => rfl

/-- A `ReadyForQuery` waits only while the loop reads for one, and then nothing waits
behind it. -/
inductive Awaited : Phase → ServerMode → List BackendMessage → Prop
  | unready {phase : Phase} {mode : ServerMode} {pending : List BackendMessage}
      (inside : ∀ frame ∈ pending, isReady frame = false)
      (simple : mode = .copyIn true → phase = .pumping false ∨ phase = .copying false) :
      Awaited phase mode pending
  | last {phase : Phase} {before : List BackendMessage} {status : TxStatus}
      (asked : phase = .pumping false ∨ phase = .copying false)
      (inside : ∀ frame ∈ before, isReady frame = false) :
      Awaited phase .ready (before ++ [.readyForQuery status])
  | closed {mode : ServerMode} {pending : List BackendMessage} : Awaited .closed mode pending

section Answering

variable {mode next : ServerMode} {message : FrontendMessage} {answers : List BackendMessage}

theorem Answers.unready (answered : Answers mode message answers next)
    (silent : asksReady message = false) (listens : mode ≠ .copyIn true) :
    (∀ frame ∈ answers, isReady frame = false) ∧ next ≠ .copyIn true := by
  cases answered with
  | completed kind body ends =>
    refine ⟨forall_mem_append.mpr ⟨?_, ?_⟩, nofun⟩
    · exact fun row among => isReady_of_isPlain (dischargedBy_row .parse (body row among)).2.1
    · intro frame final
      rw [mem_singleton.mp final]
      exact isReady_of_isPlain (isPlain_of_dischargedBy ends).1
  | failed reason kind body =>
    refine ⟨forall_mem_append.mpr ⟨?_, by simp [isReady]⟩, nofun⟩
    exact fun row among => isReady_of_isPlain (dischargedBy_row .parse (body row among)).2.1
  | copyStarted => exact ⟨by simp [isReady], by simp⟩
  | asked status asks body => cases silent.symm.trans asks
  | copyAsked body => cases silent
  | unanswered _ _ => exact ⟨nofun, nofun⟩
  | resynced status => cases silent
  | skipped _ => exact ⟨nofun, nofun⟩
  | copied | copyIgnored => exact ⟨nofun, listens⟩
  | copyFailed reason _ _ => exact ⟨by simp [isReady], nofun⟩
  | copyFailedSimple reason status _ _ => exact absurd rfl listens
  | copyDone tag => exact ⟨by simp [isReady], nofun⟩
  | copyDoneSimple | copyNext => exact absurd rfl listens

theorem Serves.unready {frames : List FrontendMessage} (served : Serves mode frames answers next)
    (silent : ∀ frame ∈ frames, asksReady frame = false) (listens : mode ≠ .copyIn true) :
    (∀ frame ∈ answers, isReady frame = false) ∧ next ≠ .copyIn true := by
  induction served with
  | nil => exact ⟨nofun, listens⟩
  | cons first rest ih =>
    obtain ⟨here, still⟩ := first.unready (silent _ mem_cons_self) listens
    obtain ⟨behind, last⟩ :=
      ih (fun frame among => silent frame (mem_cons_of_mem _ among)) still
    exact ⟨forall_mem_append.mpr ⟨here, behind⟩, last⟩

theorem Answers.awaited (answered : Answers mode message answers next)
    (asks : asksReady message = true) (listens : mode ≠ .copyIn true)
    {pending : List BackendMessage} (inside : ∀ frame ∈ pending, isReady frame = false) :
    Awaited (.pumping false) next (pending ++ answers) := by
  cases answered with
  | completed kind _ _ =>
    cases (asksReady_of_extended (extended_iff_owed.mpr ⟨_, kind⟩)).symm.trans asks
  | failed _ kind _ =>
    cases (asksReady_of_extended (extended_iff_owed.mpr ⟨_, kind⟩)).symm.trans asks
  | copyStarted => cases asks
  | asked status _ body =>
    rw [← append_assoc]
    exact .last (.inl rfl)
      (forall_mem_append.mpr ⟨inside, fun frame among => isReady_of_isPlain (body frame among)⟩)
  | copyAsked body =>
    refine .unready (forall_mem_append.mpr ⟨inside, forall_mem_append.mpr ⟨?_, by simp [isReady]⟩⟩)
      fun _ => .inl rfl
    exact fun frame among => isReady_of_isPlain (body frame among)
  | unanswered _ silent => cases silent.symm.trans asks
  | resynced status => exact .last (.inl rfl) inside
  | skipped _ => exact .unready (forall_mem_append.mpr ⟨inside, nofun⟩) fun _ => .inl rfl
  | copied => cases asks
  | copyIgnored _ => exact .unready (forall_mem_append.mpr ⟨inside, nofun⟩) fun _ => .inl rfl
  | copyFailed reason _ _ =>
    exact .unready (forall_mem_append.mpr ⟨inside, by simp [isReady]⟩) fun _ => .inl rfl
  | copyFailedSimple _ _ _ _ => exact absurd rfl listens
  | copyDone _ => cases asks
  | copyDoneSimple | copyNext => exact absurd rfl listens

/-- A copy's own frames.  Once the server has ended the copy it answers none of them. -/
theorem Answers.awaited_copy (answered : Answers mode message answers next)
    (belongs : message = .copyData ∨ message = .copyDone ∨ message = .copyFail)
    {flushing : Bool} {pending : List BackendMessage}
    (awaited : Awaited (.copying flushing) mode pending) :
    Awaited (if message = .copyData then .copying flushing else .pumping flushing) next
      (pending ++ answers) := by
  have simple : Owed.of message = none := by
    rcases belongs with rfl | rfl | rfl <;> rfl
  have silent : asksReady message = false := by
    rcases belongs with rfl | rfl | rfl <;> rfl
  have goes (known : flushing = false) :
      (if message = .copyData then Phase.copying flushing else .pumping flushing) =
          .pumping false ∨
        (if message = .copyData then Phase.copying flushing else .pumping flushing) =
          .copying false := by
    rw [known]
    split
    · exact .inr rfl
    · exact .inl rfl
  cases awaited with
  | unready inside asked =>
    by_cases listens : mode = .copyIn true
    · have known : flushing = false := by
        simpa using asked listens
      subst listens
      cases answered with
      | copied => exact .unready (forall_mem_append.mpr ⟨inside, nofun⟩) fun _ => goes known
      | copyIgnored waits => rcases waits with rfl | rfl <;> simp at belongs
      | copyFailedSimple reason status _ _ =>
        rw [append_cons]
        exact .last (goes known) (forall_mem_append.mpr ⟨inside, by simp [isReady]⟩)
      | copyDoneSimple status body =>
        rw [← append_assoc]
        exact .last (goes known)
          (forall_mem_append.mpr ⟨inside, fun frame among => isReady_of_isPlain (body frame among)⟩)
      | copyNext body =>
        refine .unready
          (forall_mem_append.mpr ⟨inside, forall_mem_append.mpr ⟨?_, by simp [isReady]⟩⟩)
          fun _ => goes known
        exact fun frame among => isReady_of_isPlain (body frame among)
    · obtain ⟨here, still⟩ := answered.unready silent listens
      exact .unready (forall_mem_append.mpr ⟨inside, here⟩) fun again => absurd again still
  | last asked inside =>
    have known : flushing = false := by
      simpa using asked
    obtain ⟨rfl, rfl⟩ := answered.of_silent simple silent nofun
    rw [append_nil]
    exact .last (goes known) inside

end Answering

theorem Awaited.taken {mode next : ServerMode} {pumping : Pumping} {live : Live}
    {message : FrontendMessage} {frames : List FrontendMessage}
    {pending answers : List BackendMessage} (awaited : Awaited .reading mode pending)
    (takes : Taken .reading pumping message live frames)
    (served : Serves mode frames answers next) :
    Awaited live.phase next (pending ++ answers) := by
  cases awaited with
  | last asked _ => simp at asked
  | unready inside simple =>
    have listens : mode ≠ .copyIn true := fun copies => by simpa using simple copies
    cases takes with
    | answered phase _ =>
      cases served
      rw [phase, append_nil]
      exact .unready inside simple
    | forwarded own renames owed goes =>
      rename_i injected onward
      rw [goes]
      by_cases asks : asksReady message = true
      · have unnamed : statementName message = none := by
          cases message with
          | parse | bind => cases asks
          | _ => rfl
        obtain rfl := own.named unnamed
        rw [phaseAfter_of_asks asks]
        exact served.singleton.awaited (renames.asksReady.trans asks) listens inside
      · have silent : ∀ frame ∈ injected ++ [onward], asksReady frame = false := by
          intro frame listed
          rcases mem_append.mp listed with among | final
          · exact asksReady_of_extended (own.extended frame among)
          · rw [mem_singleton.mp final, renames.asksReady]
            exact Bool.eq_false_iff.mpr asks
        obtain ⟨here, still⟩ := served.unready silent listens
        exact .unready (forall_mem_append.mpr ⟨inside, here⟩) fun again => absurd again still

theorem Awaited.behind {flushing : Bool} {mode : ServerMode} {frame : BackendMessage}
    {later : List BackendMessage} (awaited : Awaited (.pumping flushing) mode (frame :: later)) :
    (later = [] ∧ mode = .ready) ∨
      isReady frame = false ∧ Awaited (.pumping flushing) mode later ∧
        Awaited (.copying flushing) mode later := by
  generalize shape : frame :: later = waiting at awaited
  cases awaited with
  | unready inside simple =>
    subst shape
    have rest : ∀ frame ∈ later, isReady frame = false :=
      fun frame among => inside frame (mem_cons_of_mem _ among)
    refine .inr ⟨inside frame mem_cons_self, .unready rest simple, .unready rest ?_⟩
    intro copies
    have known : flushing = false := by simpa using simple copies
    exact .inr (congrArg Phase.copying known)
  | last asked inside =>
    rename_i before status
    have known : flushing = false := by simpa using asked
    cases before with
    | nil =>
      obtain ⟨-, rfl⟩ := List.cons.inj shape
      exact .inl ⟨rfl, rfl⟩
    | cons first before =>
      cases shape
      have rest : ∀ frame ∈ before, isReady frame = false :=
        fun frame among => inside frame (mem_cons_of_mem _ among)
      exact .inr ⟨inside frame mem_cons_self,
        .last (.inl (congrArg Phase.pumping known)) rest,
        .last (.inr (congrArg Phase.copying known)) rest⟩

theorem Awaited.flushed {mode : ServerMode} {pending : List BackendMessage}
    (awaited : Awaited (.pumping true) mode pending) : Awaited .reading mode pending := by
  cases awaited with
  | unready inside simple => exact .unready inside fun copies => by simpa using simple copies
  | last asked _ => simp at asked

theorem Awaited.of_quiet (phase : Phase) : Awaited phase .ready [] :=
  .unready nofun nofun

/-! ### Along a run -/

namespace Exchange

/-- The server completes what the loop sends of its own, another connection is taken only
when no completion is left to hide, and inside a copy the client sends what belongs to it. -/
def Undisturbed (state : Exchange) : ExchangeEvent → Prop
  | .client message replicas now lent answers _ =>
    match state.live.phase with
    | .reading =>
      ((state.live.step (.client message replicas now lent)).2.any isBorrowed = true →
        state.live.pumping.swallow = 0) ∧
      (framesSent (state.live.told message)
        (state.live.step (.client message replicas now lent)).2).length - 1 ≤
          completions answers
    | .copying _ => message = .copyData ∨ message = .copyDone ∨ message = .copyFail
    | _ => True
  | _ => True

structure Counted (state : Exchange) : Prop where
  covered : state.live.phase ≠ .closed → state.live.pumping.swallow ≤ completions state.pending
  awaited : Awaited state.live.phase state.mode state.pending

variable {state : Exchange}

theorem Counted.of_closed (closed : state.live.phase = .closed) :
    state.Counted where
  covered := fun opened => absurd closed opened
  awaited := by
    rw [closed]
    exact .closed

theorem Counted.client (counted : state.Counted) {message : FrontendMessage} {replicas : Replicas}
    {now : Nat} {lent : Option Upstreamed} {answers : List BackendMessage} {mode : ServerMode}
    (conforms : state.Conforms (.client message replicas now lent answers mode))
    (undisturbed : state.Undisturbed (.client message replicas now lent answers mode)) :
    (state.step (.client message replicas now lent answers mode)).Counted := by
  unfold Undisturbed at undisturbed
  cases conforms.clientStep with
  | ended closed => exact .of_closed closed
  | unread phase same keeps silent stays =>
    constructor
    · intro opened
      unfold step at opened ⊢
      dsimp only at opened ⊢
      rw [same] at opened
      rw [same, keeps, silent, append_nil]
      exact counted.covered opened
    · unfold step
      dsimp only
      rw [same, keeps, silent, stays, append_nil]
      exact counted.awaited
  | copied phase goes keeps answered =>
    rw [phase] at undisturbed
    constructor
    · intro _
      unfold step
      dsimp only
      rw [goes, keeps, completions_append]
      exact (counted.covered (by simp [phase])).trans (Nat.le_add_right _ _)
    · unfold step
      dsimp only
      rw [goes, keeps]
      have awaited := counted.awaited
      rw [phase] at awaited
      exact answered.awaited_copy undisturbed awaited
  | taken phase _ takes counts served =>
    rw [phase] at undisturbed
    obtain ⟨free, completed⟩ := undisturbed
    have awaited := counted.awaited
    rw [phase] at awaited
    have facing : Awaited .reading (state.facing (.client message replicas now lent)).1
          (state.facing (.client message replicas now lent)).2 ∧
        state.live.pumping.swallow ≤
          completions (state.facing (.client message replicas now lent)).2 := by
      unfold Exchange.facing
      split
      · rename_i borrowed
        rw [free borrowed]
        exact ⟨.unready nofun nofun, Nat.zero_le _⟩
      · exact ⟨awaited, counted.covered (by simp [phase])⟩
    constructor
    · intro _
      unfold step
      rw [counts, completions_append]
      exact Nat.add_le_add facing.2 completed
    · exact facing.1.taken takes served

theorem Counted.delivered (counted : state.Counted) {flushing : Bool}
    (phase : state.live.phase = .pumping flushing) {frame : BackendMessage}
    {later : List BackendMessage} (pending : state.pending = frame :: later)
    (position : Option Nat) :
    Counted { state with
      live := (state.live.takeAnswer flushing frame position).1
      pending := later } := by
  have covered := counted.covered (by simp [phase])
  have awaited := counted.awaited
  rw [pending] at covered awaited
  rw [phase] at awaited
  constructor
  · intro _
    dsimp only
    rw [takeAnswer_swallow]
    unfold completions at covered ⊢
    rw [countP_cons] at covered
    split
    · rename_i completes
      rw [if_pos completes] at covered
      omega
    · rename_i other
      rwa [if_neg other] at covered
  · rcases awaited.behind with ⟨rfl, ready⟩ | ⟨unready, pumping, copying⟩
    · rw [ready]
      exact .of_quiet _
    · rcases takeAnswer_phase state.live flushing frame position with
        closed | same | copies | ⟨reading, rfl | ⟨status, rfl⟩⟩
      · rw [closed]
        exact .closed
      · rw [same, phase]
        exact pumping
      · rw [copies]
        exact copying
      · rw [reading]
        exact pumping.flushed
      · cases unready

theorem Counted.asynchronous (counted : state.Counted) {flushing : Bool}
    (phase : state.live.phase = .pumping flushing) {message : BackendMessage}
    (own : isAsynchronous message = true) :
    Counted { state with live := (state.live.takeAnswer flushing message none).1 } := by
  have kinds : isPlain message = true ∧ isCompletion message = false := by
    cases message <;> first | exact ⟨rfl, rfl⟩ | cases own
  constructor
  · intro _
    rw [takeAnswer_swallow, kinds.2]
    exact counted.covered (by simp [phase])
  · have awaited := counted.awaited
    rw [phase] at awaited
    rw [(takeAnswer_plain state.live flushing kinds.1 none).2]
    split
    · rename_i settled
      obtain ⟨rfl, -⟩ := settled
      exact awaited.flushed
    · rw [phase]
      exact awaited

theorem Counted.step (counted : state.Counted) {event : ExchangeEvent}
    (conforms : state.Conforms event) (undisturbed : state.Undisturbed event) :
    (state.step event).Counted := by
  cases event with
  | client message replicas now lent answers mode => exact counted.client conforms undisturbed
  | delivered position =>
    unfold Exchange.step
    dsimp only
    split
    · rename_i flushing frame later phase pending
      simp only [Live.step, phase]
      exact counted.delivered phase pending position
    · exact counted
  | asynchronous message =>
    unfold Exchange.step
    dsimp only
    cases phase : state.live.phase with
    | pumping flushing =>
      simp only [Live.step, phase]
      exact counted.asynchronous phase conforms
    | reading | copying | closed =>
      rw [Live.step_server_elsewhere (by simp [phase])]
      exact counted
  | lost => exact .of_closed rfl

end Exchange

/-- After a `ReadyForQuery` no completion is left to hide, as long as the server completes
what the loop sends of its own and no connection is exchanged before that. -/
theorem swallow_count_settles (mode : PoolMode) (statementTimeout : Option Nat)
    (settings : List (Text × Text)) (state : Exchange)
    (reached : Run.Reachable (Exchange.start mode statementTimeout settings)
      (fun state event => state.Conforms event ∧ state.Undisturbed event) Exchange.step state)
    (flushing : Bool) (reading : state.live.phase = .pumping flushing) (status : TxStatus)
    (later : List BackendMessage) (next : state.pending = .readyForQuery status :: later)
    (position : Option Nat) : (state.step (.delivered position)).live.pumping.swallow = 0 := by
  have counted : state.Counted := by
    apply reached.invariant
    · exact ⟨fun _ => Nat.zero_le _, .of_quiet _⟩
    · intro before event counted allowed
      exact counted.step allowed.1 allowed.2
  have awaited := counted.awaited
  rw [reading, next] at awaited
  rcases awaited.behind with ⟨rfl, -⟩ | ⟨unready, -⟩
  · have covered := counted.covered (by simp [reading])
    rw [next] at covered
    have goes : (state.step (.delivered position)).live =
        (state.live.takeAnswer flushing (.readyForQuery status) position).1 := by
      simp only [Exchange.step, reading, next, Live.step]
    rw [goes, takeAnswer_swallow]
    exact Nat.le_zero.mp covered
  · cases unready

/-! ### A statement parsed again on another connection -/

namespace Exchange

def parsedAndReturned : Exchange :=
  opened.along
    [send (.parse [] "BEGIN".toList) [.parseComplete] .ready,
      send .sync [.readyForQuery .idle] .ready, .delivered none, .delivered none]

theorem parsedAndReturned_reached :
    Run.Reachable opened (fun state event => state.Conforms event ∧ state.Undisturbed event) step
      parsedAndReturned := by
  refine Run.Reachable.start.foldl
    ⟨⟨?_, ?_⟩, ⟨?_, ?_⟩, ⟨trivial, trivial⟩, ⟨trivial, trivial⟩, trivial⟩
  · exact conforms_send .ready (by decide +kernel) (by decide +kernel)
      (Answers.completed rfl (forall_mem_nil _) rfl)
  · exact ⟨fun _ => rfl, by decide +kernel⟩
  · exact conforms_send .ready (by decide +kernel) (by decide +kernel)
      (Answers.asked _ rfl (forall_mem_nil _))
  · exact ⟨fun _ => rfl, by decide +kernel⟩

def boundElsewhere (answers : List BackendMessage) (mode : ServerMode) : ExchangeEvent :=
  .client (.bind [] [] []) ⟨0, []⟩ 0 (some ⟨2, .new 128⟩) answers mode

theorem boundElsewhere_conforms {answers : List BackendMessage} {mode : ServerMode}
    (served : Serves .ready [.parse [] "BEGIN".toList, .bind [] [] []] answers mode) :
    parsedAndReturned.Conforms (boundElsewhere answers mode) := by
  exact served

def preparedElsewhere : List ExchangeEvent :=
  [boundElsewhere [.parseComplete, .bindComplete] .ready,
    send .sync [.readyForQuery .idle] .ready, .delivered none, .delivered none]

theorem preparedElsewhere_reached :
    Run.Reachable opened (fun state event => state.Conforms event ∧ state.Undisturbed event) step
      (parsedAndReturned.along preparedElsewhere) := by
  refine parsedAndReturned_reached.foldl
    ⟨⟨boundElsewhere_conforms ?_, ?_⟩, ⟨?_, ?_⟩, ⟨trivial, trivial⟩, ⟨trivial, trivial⟩, trivial⟩
  · exact .cons (Answers.completed rfl (forall_mem_nil _) rfl)
      (.cons (Answers.completed rfl (forall_mem_nil _) rfl) .nil)
  · exact ⟨fun _ => by decide +kernel, by decide +kernel⟩
  · exact conforms_send .ready (by decide +kernel) (by decide +kernel)
      (Answers.asked _ rfl (forall_mem_nil _))
  · exact ⟨fun borrowed => absurd borrowed (by decide +kernel), by decide +kernel⟩

theorem swallow_count_settles_elsewhere :
    ((parsedAndReturned.along preparedElsewhere).step
      (.delivered none)).live.pumping.swallow = 0 :=
  swallow_count_settles _ _ _ _ preparedElsewhere_reached false (by decide +kernel) .idle []
    (by decide +kernel) none

def rejectedElsewhere : List ExchangeEvent :=
  [boundElsewhere [.errorResponse "permission denied".toList] .skipping,
    send .sync [.readyForQuery .idle] .ready, .delivered none]

theorem rejectedElsewhere_reached :
    Run.Reachable opened Conforms step (parsedAndReturned.along rejectedElsewhere) := by
  refine (parsedAndReturned_reached.mono fun _ _ => And.left).foldl
    ⟨boundElsewhere_conforms ?_, ?_, trivial, trivial⟩
  · exact .cons (Answers.failed _ rfl (forall_mem_nil _)) (.cons (.skipped (by simp)) .nil)
  · exact conforms_send .skipping (by decide +kernel) (by decide +kernel) (.resynced _)

end Exchange

/-- The loop's own `Parse` is rejected, so no completion comes for it, and after the
`ReadyForQuery` the next completion of the client's own would be hidden in its place. -/
theorem swallow_count_left_over :
    ¬ ∀ (mode : PoolMode) (statementTimeout : Option Nat) (settings : List (Text × Text))
        (state : Exchange),
      Run.Reachable (Exchange.start mode statementTimeout settings) Exchange.Conforms
        Exchange.step state →
      ∀ flushing status later position, state.live.phase = .pumping flushing →
        state.pending = .readyForQuery status :: later →
        (state.step (.delivered position)).live.pumping.swallow = 0 := by
  intro always
  have spent := always _ _ _ _ Exchange.rejectedElsewhere_reached false .idle [] none
    (by decide +kernel) (by decide +kernel)
  exact absurd spent (by decide +kernel)

/-- Whatever came before, an answer of the server reaches the client whole but for as many
completions as the loop has to hide. -/
theorem client_hears_answer {live : Live} (phase : live.phase = .pumping false)
    {answers : List BackendMessage} (plain : ∀ answer ∈ answers, isPlain answer = true)
    (status : TxStatus) (position : BackendMessage → Option Nat) :
    clientFrames (live.outputs ((answers ++ [BackendMessage.readyForQuery status]).map fun answer =>
        .server answer (position answer))) =
      answers.suppress isCompletion live.pumping.swallow ++ [.readyForQuery status] := by
  rw [← live.pumping.pump_forwarded status fun answer among =>
    isReady_of_isPlain (plain answer among)]
  induction answers generalizing live with
  | nil =>
    rw [nil_append, map_singleton, Live.outputs, Live.step_server phase, clientFrames_append]
    exact (append_nil _).trans
      (live.takeAnswer_eq_pump false (.readyForQuery status) _ nofun nofun).2
  | cons answer later ih =>
    obtain ⟨here, behind⟩ := forall_mem_cons.mp plain
    have still := (takeAnswer_plain live false here (position answer)).2
    rw [if_neg (by simp), phase] at still
    obtain ⟨same, frames⟩ := live.takeAnswer_eq_pump false answer (position answer)
      (by rintro rfl; cases here) (by rintro rfl; cases here)
    rw [cons_append, map_cons, Live.outputs, Live.step_server phase, clientFrames_append,
      ih still behind, frames, same, ← Pumping.pump_cons _ (isReady_of_isPlain here)]

theorem client_hears_answer_elsewhere :
    clientFrames ((Exchange.parsedAndReturned.along
        (Exchange.preparedElsewhere.take 2)).live.outputs
          [.server .parseComplete none, .server .bindComplete none,
            .server (.readyForQuery .idle) none]) = [.bindComplete, .readyForQuery .idle] :=
  (@client_hears_answer _ (by decide +kernel) [.parseComplete, .bindComplete]
    (by decide +kernel) .idle fun _ => none).trans (by decide +kernel)

end Pgprox.Serve
