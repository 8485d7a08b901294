/-
A server that keeps to the protocol, as far as the proxy waits on it.

After an error it discards everything until a `Sync`; while it takes copy data it ignores
`Sync` and `Flush`; and it sends a `ReadyForQuery` only for a frame that asks for one.
-/

import Pgprox.Serve.Traffic

namespace Pgprox.Serve

open Proto Pools Route Session List

inductive ServerMode
  | ready
  | skipping
  | copyIn (simple : Bool)
  deriving DecidableEq

def isPlain : BackendMessage → Bool
  | .readyForQuery _ | .copyInResponse | .copyBothResponse => false
  | _ => true

def isRow : BackendMessage → Bool
  | .dataRow _ | .parameterDescription _ | .copyOutResponse | .copyDone | .other => true
  | .noticeResponse _ | .notificationResponse _ | .parameterStatus _ _ => true
  | _ => false

inductive Answers : ServerMode → FrontendMessage → List BackendMessage → ServerMode → Prop
  | completed {frame : FrontendMessage} {owed : Owed} {rows : List BackendMessage}
      {last : BackendMessage} (kind : Owed.of frame = some owed)
      (body : ∀ row ∈ rows, isRow row = true) (ends : owed.dischargedBy last = true) :
      Answers .ready frame (rows ++ [last]) .ready
  | failed {frame : FrontendMessage} {owed : Owed} {rows : List BackendMessage} (reason : Text)
      (kind : Owed.of frame = some owed) (body : ∀ row ∈ rows, isRow row = true) :
      Answers .ready frame (rows ++ [.errorResponse reason]) .skipping
  | copyStarted {portal : Text} {maxRows : Nat} :
      Answers .ready (.execute portal maxRows) [.copyInResponse] (.copyIn false)
  | asked {frame : FrontendMessage} {results : List BackendMessage} (status : TxStatus)
      (asks : asksReady frame = true) (body : ∀ result ∈ results, isPlain result = true) :
      Answers .ready frame (results ++ [.readyForQuery status]) .ready
  | copyAsked {sql : Text} {results : List BackendMessage}
      (body : ∀ result ∈ results, isPlain result = true) :
      Answers .ready (.query sql) (results ++ [.copyInResponse]) (.copyIn true)
  | unanswered {frame : FrontendMessage} (simple : Owed.of frame = none)
      (silent : asksReady frame = false) : Answers .ready frame [] .ready
  | resynced (status : TxStatus) : Answers .skipping .sync [.readyForQuery status] .ready
  | skipped {frame : FrontendMessage} (other : frame ≠ .sync) :
      Answers .skipping frame [] .skipping
  | copied {simple : Bool} : Answers (.copyIn simple) .copyData [] (.copyIn simple)
  | copyIgnored {simple : Bool} {frame : FrontendMessage}
      (waits : frame = .sync ∨ frame = .flush) :
      Answers (.copyIn simple) frame [] (.copyIn simple)
  | copyFailed {frame : FrontendMessage} (reason : Text) (first : frame ≠ .sync)
      (second : frame ≠ .flush) :
      Answers (.copyIn false) frame [.errorResponse reason] .skipping
  | copyFailedSimple {frame : FrontendMessage} (reason : Text) (status : TxStatus)
      (first : frame ≠ .sync) (second : frame ≠ .flush) :
      Answers (.copyIn true) frame [.errorResponse reason, .readyForQuery status] .ready
  | copyDone (tag : Text) : Answers (.copyIn false) .copyDone [.commandComplete tag] .ready
  | copyDoneSimple {results : List BackendMessage} (status : TxStatus)
      (body : ∀ result ∈ results, isPlain result = true) :
      Answers (.copyIn true) .copyDone (results ++ [.readyForQuery status]) .ready
  | copyNext {results : List BackendMessage} (body : ∀ result ∈ results, isPlain result = true) :
      Answers (.copyIn true) .copyDone (results ++ [.copyInResponse]) (.copyIn true)

inductive Serves : ServerMode → List FrontendMessage → List BackendMessage → ServerMode → Prop
  | nil {mode : ServerMode} : Serves mode [] [] mode
  | cons {mode next last : ServerMode} {frame : FrontendMessage} {frames : List FrontendMessage}
      {answers later : List BackendMessage} (first : Answers mode frame answers next)
      (rest : Serves next frames later last) :
      Serves mode (frame :: frames) (answers ++ later) last

variable {next : ServerMode} {answers : List BackendMessage}

theorem Serves.singleton {mode : ServerMode} {frame : FrontendMessage}
    (served : Serves mode [frame] answers next) : Answers mode frame answers next := by
  cases served with
  | cons first rest =>
    cases rest
    rw [append_nil]
    exact first

theorem Serves.skipping {frames : List FrontendMessage}
    (served : Serves .skipping frames answers next) (inside : .sync ∉ frames) :
    answers = [] ∧ next = .skipping := by
  induction frames generalizing answers with
  | nil =>
    cases served
    exact ⟨rfl, rfl⟩
  | cons frame later ih =>
    cases served with
    | cons first rest =>
      cases first with
      | resynced status => exact absurd mem_cons_self inside
      | skipped other =>
        exact ih rest fun synced => inside (mem_cons_of_mem _ synced)

/-! ### Answers that discharge what is owed -/

/-- The frames discharge what is owed, in order, and nothing is left of either. -/
inductive Aligned : List Owed → List BackendMessage → Prop
  | done : Aligned [] []
  | passed {head : Owed} {owed : List Owed} {frame : BackendMessage}
      {pending : List BackendMessage} (plain : isPlain frame = true)
      (fine : ∀ reason, frame ≠ .errorResponse reason) (other : head.dischargedBy frame = false)
      (rest : Aligned (head :: owed) pending) : Aligned (head :: owed) (frame :: pending)
  | discharged {head : Owed} {owed : List Owed} {frame : BackendMessage}
      {pending : List BackendMessage} (ends : head.dischargedBy frame = true)
      (rest : Aligned owed pending) : Aligned (head :: owed) (frame :: pending)

variable {frame : BackendMessage}

theorem isPlain_of_dischargedBy {owed : Owed} (ends : owed.dischargedBy frame = true) :
    isPlain frame = true ∧ ∀ reason, frame ≠ .errorResponse reason := by
  cases frame with
  | readyForQuery | copyInResponse | copyBothResponse | errorResponse => cases owed <;> cases ends
  | _ => exact ⟨rfl, nofun⟩

theorem dischargedBy_unique {one two : Owed} (first : one.dischargedBy frame = true)
    (second : two.dischargedBy frame = true) : one = two := by
  cases two <;> cases frame <;> cases second <;> cases one <;> first | rfl | cases first

theorem dischargedBy_row (owed : Owed) {row : BackendMessage} (body : isRow row = true) :
    owed.dischargedBy row = false ∧ isPlain row = true ∧
      ∀ reason, row ≠ .errorResponse reason := by
  cases row with
  | dataRow | parameterDescription | copyOutResponse | copyDone | other | noticeResponse
  | notificationResponse | parameterStatus => exact ⟨by cases owed <;> rfl, rfl, nofun⟩
  | _ => cases body

variable {owed : List Owed} {pending : List BackendMessage}

theorem Aligned.plain (aligned : Aligned owed pending) :
    ∀ frame ∈ pending, isPlain frame = true := by
  induction aligned with
  | done => exact nofun
  | passed plain _ _ _ ih =>
    intro frame listed
    rcases mem_cons.mp listed with rfl | later
    · exact plain
    · exact ih frame later
  | discharged ends _ ih =>
    intro frame listed
    rcases mem_cons.mp listed with rfl | later
    · exact (isPlain_of_dischargedBy ends).1
    · exact ih frame later

theorem Aligned.append {more : List Owed} {later : List BackendMessage}
    (aligned : Aligned owed pending) (behind : Aligned more later) :
    Aligned (owed ++ more) (pending ++ later) := by
  induction aligned with
  | done => exact behind
  | passed plain fine other _ ih => exact .passed plain fine other ih
  | discharged ends _ ih => exact .discharged ends ih

theorem Aligned.nil_of_settled (aligned : Aligned [] pending) : pending = [] := by
  cases aligned
  rfl

theorem received_of_plain (plain : isPlain frame = true)
    (fine : ∀ reason, frame ≠ .errorResponse reason) (outstanding : Outstanding) :
    outstanding.received frame = outstanding.discharge frame := by
  unfold Outstanding.received
  split
  · exact absurd rfl (fine _)
  · cases plain
  · rfl

theorem Aligned.received_eq (aligned : Aligned owed (frame :: pending))
    (outstanding : Outstanding) : outstanding.received frame = outstanding.discharge frame := by
  cases aligned with
  | passed plain fine _ _ => exact received_of_plain plain fine outstanding
  | discharged ends _ =>
    obtain ⟨plain, fine⟩ := isPlain_of_dischargedBy ends
    exact received_of_plain plain fine outstanding

theorem Aligned.received (aligned : Aligned owed (frame :: pending)) :
    ∃ left, Aligned left pending ∧
      ∀ more, ((Outstanding.mk (owed ++ more)).received frame).owed = left ++ more := by
  cases aligned with
  | passed plain fine other rest =>
    refine ⟨_, rest, fun more => ?_⟩
    rw [(Aligned.passed plain fine other rest).received_eq]
    simp [Outstanding.discharge, other]
  | discharged ends rest =>
    refine ⟨_, rest, fun more => ?_⟩
    rw [(Aligned.discharged ends rest).received_eq]
    simp [Outstanding.discharge, ends]

variable {rows : List BackendMessage} {last : BackendMessage}

section

variable {owed : Owed} {goes : List BackendMessage → Prop}
  (passes : ∀ {frame pending}, isPlain frame = true → (∀ reason, frame ≠ .errorResponse reason) →
    owed.dischargedBy frame = false → goes pending → goes (frame :: pending))
  (body : ∀ row ∈ rows, isRow row = true)
include passes body

theorem goes_rows (holds : goes pending) : goes (rows ++ pending) := by
  induction rows with
  | nil => exact holds
  | cons row later ih =>
    obtain ⟨other, plain, fine⟩ := dischargedBy_row owed (body row mem_cons_self)
    exact passes plain fine other (ih fun row' among => body row' (mem_cons_of_mem _ among))

theorem goes_prepend {before : Owed} (ends : before.dischargedBy last = true)
    (apart : before ≠ owed) (holds : goes pending) : goes (rows ++ [last] ++ pending) := by
  obtain ⟨plain, fine⟩ := isPlain_of_dischargedBy ends
  rw [append_assoc]
  refine goes_rows passes body (passes plain fine ?_ holds)
  exact Bool.eq_false_iff.mpr fun also => apart (dischargedBy_unique ends also)

end

theorem aligned_of_rows {owed : Owed} (body : ∀ row ∈ rows, isRow row = true)
    (ends : owed.dischargedBy last = true) : Aligned [owed] (rows ++ [last]) :=
  goes_rows .passed body (.discharged ends .done)

theorem Aligned.prepend {owed before : Owed} (aligned : Aligned [owed] pending)
    (body : ∀ row ∈ rows, isRow row = true) (ends : before.dischargedBy last = true)
    (apart : before ≠ owed) : Aligned [owed] (rows ++ [last] ++ pending) :=
  goes_prepend .passed body ends apart aligned

/-- The frames discharge what is owed, in order, until an error, and something is still owed
then. -/
inductive Breaks : List Owed → List BackendMessage → Prop
  | failed {head : Owed} {owed : List Owed} (reason : Text) :
      Breaks (head :: owed) [.errorResponse reason]
  | passed {head : Owed} {owed : List Owed} {frame : BackendMessage}
      {pending : List BackendMessage} (plain : isPlain frame = true)
      (fine : ∀ reason, frame ≠ .errorResponse reason) (other : head.dischargedBy frame = false)
      (rest : Breaks (head :: owed) pending) : Breaks (head :: owed) (frame :: pending)
  | discharged {head : Owed} {owed : List Owed} {frame : BackendMessage}
      {pending : List BackendMessage} (ends : head.dischargedBy frame = true)
      (rest : Breaks owed pending) : Breaks (head :: owed) (frame :: pending)

theorem Breaks.append (breaks : Breaks owed pending) (more : List Owed) :
    Breaks (owed ++ more) pending := by
  induction breaks with
  | failed reason => exact .failed reason
  | passed plain fine other _ ih => exact .passed plain fine other ih
  | discharged ends _ ih => exact .discharged ends ih

theorem Aligned.breaks {more : List Owed} {later : List BackendMessage}
    (aligned : Aligned owed pending) (behind : Breaks more later) :
    Breaks (owed ++ more) (pending ++ later) := by
  induction aligned with
  | done => exact behind
  | passed plain fine other _ ih => exact .passed plain fine other ih
  | discharged ends _ ih => exact .discharged ends ih

theorem Breaks.plain (breaks : Breaks owed pending) :
    ∃ before reason, pending = before ++ [.errorResponse reason] ∧
      ∀ frame ∈ before, isPlain frame = true := by
  induction breaks with
  | failed reason => exact ⟨[], reason, rfl, forall_mem_nil _⟩
  | passed plain _ _ _ ih =>
    obtain ⟨before, reason, rfl, rest⟩ := ih
    exact ⟨_ :: before, reason, rfl, forall_mem_cons.mpr ⟨plain, rest⟩⟩
  | discharged ends _ ih =>
    obtain ⟨before, reason, rfl, rest⟩ := ih
    exact ⟨_ :: before, reason, rfl,
      forall_mem_cons.mpr ⟨(isPlain_of_dischargedBy ends).1, rest⟩⟩

theorem breaks_of_rows (owed : Owed) (reason : Text) (body : ∀ row ∈ rows, isRow row = true) :
    Breaks [owed] (rows ++ [.errorResponse reason]) :=
  goes_rows .passed body (.failed reason)

theorem Breaks.prepend {owed before : Owed} (breaks : Breaks [owed] pending)
    (body : ∀ row ∈ rows, isRow row = true) (ends : before.dischargedBy last = true)
    (apart : before ≠ owed) : Breaks [owed] (rows ++ [last] ++ pending) :=
  goes_prepend .passed body ends apart breaks

/-- What a ready server answers to a frame of an extended-query sequence and the frames the
proxy sends before it, with what the answers discharge. -/
inductive Fulfils (owed : Owed) : List BackendMessage → ServerMode → Prop
  | completed {answers : List BackendMessage} (aligned : Aligned [owed] answers) :
      Fulfils owed answers .ready
  | failed {answers : List BackendMessage} (breaks : Breaks [owed] answers) :
      Fulfils owed answers .skipping
  | copyStarted (runs : owed = .execute) : Fulfils owed [.copyInResponse] (.copyIn false)

theorem Answers.fulfils {frame : FrontendMessage} {owed : Owed}
    (answered : Answers .ready frame answers next) (kind : Owed.of frame = some owed) :
    Fulfils owed answers next := by
  have silent : asksReady frame = false :=
    asksReady_of_extended (extended_iff_owed.mpr ⟨owed, kind⟩)
  cases answered with
  | completed same body ends =>
    obtain rfl := Option.some.inj (same.symm.trans kind)
    exact .completed (aligned_of_rows body ends)
  | failed reason same body => exact .failed (breaks_of_rows owed reason body)
  | copyStarted => exact .copyStarted (Option.some.inj kind).symm
  | asked status asks body => exact absurd (silent.symm.trans asks) Bool.false_ne_true
  | copyAsked body => cases kind
  | unanswered simple _ => cases simple.symm.trans kind

theorem Serves.fulfils {message onward : FrontendMessage} {owed : Owed}
    (kind : Owed.of message = some owed) (renames : Renames message onward)
    {injected : List FrontendMessage} (own : Injected message injected)
    (served : Serves .ready (injected ++ [onward]) answers next) : Fulfils owed answers next := by
  have onwardKind : Owed.of onward = some owed := renames.owed.trans kind
  have extended : onward.startsExtendedSequence = true :=
    extended_iff_owed.mpr ⟨owed, onwardKind⟩
  induction injected generalizing answers with
  | nil => exact served.singleton.fulfils onwardKind
  | cons frame later ih =>
    have rest : Injected message later :=
      ⟨fun frame' among => own.prepares frame' (mem_cons_of_mem _ among),
        fun frame' among => own.apart frame' (mem_cons_of_mem _ among),
        fun unnamed => by cases own.named unnamed⟩
    have named : statementName message ≠ none := fun unnamed => by cases own.named unnamed
    obtain ⟨before, frameKind⟩ := extended_iff_owed.mp (own.extended frame mem_cons_self)
    have apart : before ≠ owed := by
      rintro rfl
      exact own.apart frame mem_cons_self (frameKind.trans kind.symm)
    cases served with
    | cons first behind =>
      cases first with
      | completed same body ends =>
        obtain rfl := Option.some.inj (same.symm.trans frameKind)
        cases ih rest behind with
        | completed aligned => exact .completed (aligned.prepend body ends apart)
        | failed breaks => exact .failed (breaks.prepend body ends apart)
        | copyStarted runs =>
          refine absurd ?_ named
          rw [runs] at kind
          cases message with
          | execute portal maxRows => rfl
          | _ => cases kind
      | failed reason same body =>
        have unsynced : FrontendMessage.sync ∉ later ++ [onward] := by
          intro synced
          rcases mem_append.mp synced with among | final
          · cases rest.extended _ among
          · rw [← mem_singleton.mp final] at extended
            cases extended
        obtain ⟨rfl, rfl⟩ := behind.skipping unsynced
        rw [append_nil]
        exact .failed (breaks_of_rows owed reason body)
      | copyStarted => exact absurd rfl (own.idle _ mem_cons_self)
      | asked status asks body =>
        rw [asksReady_of_extended (own.extended _ mem_cons_self)] at asks
        cases asks
      | copyAsked body => cases frameKind
      | unanswered simple _ => cases simple.symm.trans frameKind

end Pgprox.Serve
