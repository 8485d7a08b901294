/-
The class of a message against the classes of its statements.

The two differ where a stretch between separators has no word and no quoted text: the pass
takes it for nothing if a separator ends it and for a statement it cannot read if the
message does.
-/

import Pgprox.Route.Classify
import Pgprox.Sql.Segments

namespace Pgprox.Route

open Sql
open List hiding lex

def classifyParts (sql : List Char) : StmtClass :=
  match statements sql with
  | [] => .unknown
  | first :: later => later.foldl (fun worst part => combine worst (classify part)) (classify first)

/-! ### The most restrictive class -/

def worstOf (classes : List StmtClass) : StmtClass :=
  classes.foldr combine .readOnly

theorem combine_assoc (one two three : StmtClass) :
    combine (combine one two) three = combine one (combine two three) := by
  cases one <;> cases two <;> cases three <;> rfl

variable (cls : StmtClass)

theorem combine_readOnly_left : combine .readOnly cls = cls := by
  cases cls <;> rfl

theorem combine_readOnly_right : combine cls .readOnly = cls := by
  cases cls <;> rfl

theorem combine_eq_readOnly_iff (one two : StmtClass) :
    combine one two = .readOnly ↔ one = .readOnly ∧ two = .readOnly := by
  cases one <;> cases two <;> decide

variable (classes : List StmtClass)

theorem foldl_combine (first : StmtClass) :
    classes.foldl combine first = worstOf (first :: classes) := by
  induction classes generalizing first with
  | nil => exact (combine_readOnly_right first).symm
  | cons cls later ih =>
    rw [foldl_cons, ih]
    exact combine_assoc first cls _

theorem worstOf_eq_write_iff : worstOf classes = .write ↔ .write ∈ classes := by
  induction classes with
  | nil => decide
  | cons cls later ih =>
    change combine cls (worstOf later) = .write ↔ _
    rw [combine_eq_write, ih, mem_cons, eq_comm]

theorem worstOf_eq_readOnly_iff :
    worstOf classes = .readOnly ↔ ∀ cls ∈ classes, cls = .readOnly := by
  induction classes with
  | nil => simp [worstOf]
  | cons cls later ih =>
    change combine cls (worstOf later) = .readOnly ↔ _
    rw [combine_eq_readOnly_iff, ih, forall_mem_cons]

theorem StmtClass.eq_iff (one two : StmtClass) :
    one = two ↔ (one = .write ↔ two = .write) ∧ (one = .readOnly ↔ two = .readOnly) := by
  cases one <;> cases two <;> decide

/-! ### One stretch between separators -/

def scan (state : Bool × StmtClass) : Token → Bool × StmtClass
  | .word word => (false, classifyWord state.1 state.2 word)
  | .quoted => (false, state.2)
  | .punct _ | .semicolon => state

def scanned (tokens : List Token) : Bool × StmtClass :=
  tokens.foldl scan (true, .unknown)

def closedClass (tokens : List Token) : StmtClass :=
  if (scanned tokens).1 then .readOnly else (scanned tokens).2

def openClass (tokens : List Token) : StmtClass :=
  if (scanned tokens).1 then .unknown else (scanned tokens).2

theorem classifyOne_cons {lexeme : Lexeme} (other : lexeme.token ≠ .semicolon) (first : Bool)
    (cls : StmtClass) (later : List Lexeme) :
    classifyOne first cls (lexeme :: later) =
      classifyOne (scan (first, cls) lexeme.token).1 (scan (first, cls) lexeme.token).2 later := by
  cases kind : lexeme.token with
  | semicolon => exact absurd kind other
  | quoted | punct | word => simp only [classifyOne, kind, scan]

variable {front : List Lexeme}

theorem classifyOne_closed {mark : Lexeme} {later : List Lexeme}
    (plain : .semicolon ∉ front.map Lexeme.token) (ends : mark.token = .semicolon)
    (state : Bool × StmtClass) :
    classifyOne state.1 state.2 (front ++ mark :: later) =
      (if ((front.map Lexeme.token).foldl scan state).1 then .readOnly
        else ((front.map Lexeme.token).foldl scan state).2, decide (mark.after ≠ []), later) := by
  induction front generalizing state with
  | nil => simp only [nil_append, classifyOne, ends, map_nil, foldl_nil]
  | cons lexeme front ih =>
    rw [map_cons, mem_cons, not_or] at plain
    rw [cons_append, classifyOne_cons (Ne.symm plain.1)]
    exact ih plain.2 _

theorem classifyOne_open (plain : .semicolon ∉ front.map Lexeme.token) (state : Bool × StmtClass) :
    classifyOne state.1 state.2 front =
      (if ((front.map Lexeme.token).foldl scan state).1 then .unknown
        else ((front.map Lexeme.token).foldl scan state).2, false, []) := by
  induction front generalizing state with
  | nil => rfl
  | cons lexeme front ih =>
    rw [map_cons, mem_cons, not_or] at plain
    rw [classifyOne_cons (Ne.symm plain.1)]
    exact ih plain.2 _

/-! ### The whole message -/

def stretches (sql : List Char) : List (List Token) :=
  (tokensOf sql).splitOn .semicolon

def endsAtSeparator (lexemes : List Lexeme) : Bool :=
  lexemes.getLast?.any fun last => last.token = .semicolon && last.after.isEmpty

def classesOf (ended : Bool) : List (List Token) → List StmtClass
  | [] => []
  | [last] => if ended then [] else [openClass last]
  | tokens :: later => closedClass tokens :: classesOf ended later

theorem exists_separator {lexemes : List Lexeme}
    (listed : .semicolon ∈ lexemes.map Lexeme.token) :
    ∃ front mark later, lexemes = front ++ mark :: later ∧ mark.token = .semicolon ∧
      .semicolon ∉ front.map Lexeme.token := by
  induction lexemes with
  | nil => exact absurd listed not_mem_nil
  | cons lexeme rest ih =>
    by_cases separates : lexeme.token = .semicolon
    · exact ⟨[], lexeme, rest, rfl, separates, not_mem_nil⟩
    · rw [map_cons, mem_cons] at listed
      obtain ⟨front, mark, later, rfl, ends, plain⟩ :=
        ih (listed.resolve_left (Ne.symm separates))
      refine ⟨lexeme :: front, mark, later, rfl, ends, ?_⟩
      rw [map_cons, mem_cons, not_or]
      exact ⟨Ne.symm separates, plain⟩

theorem lex_behind {input : List Char} {mark : Lexeme} {later : List Lexeme}
    (shape : lex input = front ++ mark :: later) : later = lex mark.after := by
  induction front generalizing input with
  | nil => exact (lex_eq_cons shape).2.2
  | cons lexeme front ih => exact ih (lex_eq_cons shape).2.2.symm

def withClass (worst : Option StmtClass) (cls : StmtClass) : StmtClass :=
  match worst with
  | none => cls
  | some previous => combine previous cls

theorem withClass_eq (worst : Option StmtClass) (cls : StmtClass) :
    withClass worst cls = combine (worst.getD .readOnly) cls := by
  cases worst with
  | none => exact (combine_readOnly_left cls).symm
  | some previous => rfl

theorem classifyWithin_succ (fuel : Nat) (worst : Option StmtClass) (lexemes : List Lexeme) :
    classifyWithin (fuel + 1) worst lexemes =
      if (classifyOne true .unknown lexemes).2.1 then
        classifyWithin fuel (some (withClass worst (classifyOne true .unknown lexemes).1))
          (classifyOne true .unknown lexemes).2.2
      else some (withClass worst (classifyOne true .unknown lexemes).1) :=
  rfl

theorem classesOf_cons (ended : Bool) (tokens : List Token) {later : List (List Token)}
    (follows : later ≠ []) :
    classesOf ended (tokens :: later) = closedClass tokens :: classesOf ended later := by
  cases later with
  | nil => exact absurd rfl follows
  | cons next rest => rfl

theorem endsAtSeparator_append {mark : Lexeme} {later : List Lexeme} (more : mark.after ≠ []) :
    endsAtSeparator (front ++ mark :: later) = endsAtSeparator later := by
  unfold endsAtSeparator
  rw [getLast?_append_cons]
  cases later with
  | nil => simp [more]
  | cons next rest => rw [getLast?_cons_cons]

theorem endsAtSeparator_eq_false {lexemes : List Lexeme}
    (plain : .semicolon ∉ lexemes.map Lexeme.token) : endsAtSeparator lexemes = false := by
  unfold endsAtSeparator
  cases last : lexemes.getLast? with
  | none => rfl
  | some lexeme =>
    have other : lexeme.token ≠ .semicolon := by
      intro separates
      exact plain (separates ▸ mem_map_of_mem (mem_of_getLast? last))
    simp [other]

theorem classifyWithin_eq {fuel : Nat} :
    ∀ {lexemes : List Lexeme} {input : List Char} (worst : Option StmtClass),
      lex input = lexemes → lexemes.length < fuel →
        classifyWithin fuel worst lexemes =
          some (combine (worst.getD .readOnly)
            (worstOf (classesOf (endsAtSeparator lexemes)
              ((lexemes.map Lexeme.token).splitOn .semicolon)))) := by
  induction fuel with
  | zero => exact fun _ _ short => absurd short (Nat.not_lt_zero _)
  | succ fuel ih =>
    intro lexemes input worst shape enough
    rw [classifyWithin_succ]
    by_cases separated : .semicolon ∈ lexemes.map Lexeme.token
    · obtain ⟨front, mark, later, rfl, ends, plain⟩ := exists_separator separated
      have behind := lex_behind shape
      rw [classifyOne_closed plain ends (true, .unknown), map_append, map_cons, ends,
        splitOn_append_cons_self_of_not_mem plain,
        classesOf_cons _ _ (splitOn_ne_nil _ _)]
      by_cases more : mark.after = []
      · obtain rfl : later = [] := by
          rw [behind, more]
          rfl
        have ended : endsAtSeparator (front ++ [mark]) = true := by
          unfold endsAtSeparator
          simp [ends, more]
        have alone : worstOf (closedClass (front.map Lexeme.token) ::
            classesOf true (([] : List Token).splitOn .semicolon)) =
              closedClass (front.map Lexeme.token) :=
          combine_readOnly_right _
        rw [if_neg (by simp [more]), ended, withClass_eq, map_nil, alone]
        rfl
      · have shorter : later.length < fuel := by
          rw [length_append, length_cons] at enough
          omega
        rw [if_pos (decide_eq_true more), ih _ behind.symm shorter,
          endsAtSeparator_append more, withClass_eq, Option.getD_some, combine_assoc]
        rfl
    · rw [classifyOne_open separated (true, .unknown), splitOn_eq_singleton separated,
        endsAtSeparator_eq_false separated]
      have alone : worstOf (classesOf false [lexemes.map Lexeme.token]) =
          openClass (lexemes.map Lexeme.token) :=
        combine_readOnly_right _
      rw [alone, ← withClass_eq]
      rfl

variable (sql : List Char)

/-- The class of a message is the most restrictive of what its stretches count as. -/
theorem classify_eq :
    classify sql = worstOf (classesOf (endsAtSeparator (lex sql)) (stretches sql)) := by
  unfold classify
  rw [classifyWithin_eq none rfl (Nat.lt_succ_self _)]
  exact combine_readOnly_left _

/-! ### The statements taken one by one -/

theorem classify_part {sql part : List Char} (listed : part ∈ statements sql) :
    classify part = openClass (tokensOf part) := by
  have plain := semicolon_notMem_statement listed
  rw [classify_eq, stretches, splitOn_eq_singleton plain, endsAtSeparator_eq_false plain]
  exact combine_readOnly_right _

theorem classifyParts_eq :
    classifyParts sql =
      if (stretches sql).filter (· ≠ []) = [] then .unknown
      else worstOf (((stretches sql).filter (· ≠ [])).map openClass) := by
  have classes : (statements sql).map classify =
      ((stretches sql).filter (· ≠ [])).map openClass := by
    rw [stretches, ← tokens_statements, map_map]
    exact map_congr_left fun part listed => classify_part listed
  rw [← classes, stretches, ← tokens_statements]
  unfold classifyParts
  cases statements sql with
  | nil => rfl
  | cons first later =>
    rw [if_neg nofun, map_cons, ← foldl_combine, foldl_map]

/-! ### What the class of a stretch says -/

def isOpening : Token → Bool
  | .word _ | .quoted => true
  | .punct _ | .semicolon => false

def Started (tokens : List Token) : Prop :=
  ∃ token ∈ tokens, isOpening token = true

def Writes (tokens : List Token) : Prop :=
  ∃ word, .word word ∈ tokens ∧ matchesAny word writeWords = true

def Quiet (tokens : List Token) : Prop :=
  ∀ word, .word word ∈ tokens →
    matchesAny word writeWords = false ∧ matchesAny word writingFunctions = false

structure Reads (tokens : List Token) : Prop where
  opener : ∃ word, tokens.find? isOpening = some (.word word) ∧
    matchesAny word readFirstWords = true
  quiet : Quiet tokens

theorem Reads.started {tokens : List Token} (reads : Reads tokens) : Started tokens := by
  obtain ⟨word, found, -⟩ := reads.opener
  exact ⟨_, mem_of_find?_eq_some found, rfl⟩

theorem Writes.started {tokens : List Token} (writes : Writes tokens) : Started tokens := by
  obtain ⟨word, listed, -⟩ := writes
  exact ⟨_, listed, rfl⟩

theorem not_started_nil : ¬ Started [] := by
  rintro ⟨token, listed, -⟩
  exact absurd listed not_mem_nil

theorem started_cons (token : Token) (later : List Token) :
    Started (token :: later) ↔ isOpening token = true ∨ Started later := by
  unfold Started
  simp

variable (word : List Char) (later : List Token)

theorem writes_cons_word :
    Writes (.word word :: later) ↔ matchesAny word writeWords = true ∨ Writes later := by
  unfold Writes
  simp [or_and_right, exists_or]

theorem writes_cons_other {token : Token} (other : ∀ word, token ≠ .word word)
    (later : List Token) : Writes (token :: later) ↔ Writes later := by
  unfold Writes
  simp [(other _).symm]

theorem quiet_cons_word :
    Quiet (.word word :: later) ↔
      (matchesAny word writeWords = false ∧ matchesAny word writingFunctions = false) ∧
        Quiet later := by
  constructor
  · intro quiet
    exact ⟨quiet word mem_cons_self, fun other listed => quiet other (mem_cons_of_mem _ listed)⟩
  · rintro ⟨first, rest⟩ other listed
    rcases mem_cons.mp listed with same | deeper
    · rw [Token.word.inj same]
      exact first
    · exact rest other deeper

theorem quiet_cons_other {token : Token} (other : ∀ word, token ≠ .word word)
    (later : List Token) : Quiet (token :: later) ↔ Quiet later := by
  unfold Quiet
  simp [(other _).symm]

variable (tokens : List Token)

theorem scan_started (cls : StmtClass) :
    (tokens.foldl scan (false, cls)).1 = false ∧
      ((tokens.foldl scan (false, cls)).2 = .write ↔ cls = .write ∨ Writes tokens) ∧
      ((tokens.foldl scan (false, cls)).2 = .readOnly ↔ cls = .readOnly ∧ Quiet tokens) := by
  induction tokens generalizing cls with
  | nil => simp [Writes, Quiet]
  | cons token later ih =>
    cases token with
    | semicolon | punct | quoted =>
      rw [writes_cons_other (by simp), quiet_cons_other (by simp)]
      exact ih cls
    | word word =>
      obtain ⟨stays, writes, reads⟩ := ih (classifyWord false cls word)
      refine ⟨stays, ?_, ?_⟩
      · have word_writes : classifyWord false cls word = .write ↔
            cls = .write ∨ matchesAny word writeWords = true :=
          classifyWord_eq_write (by simp)
        rw [writes_cons_word, ← or_assoc, ← word_writes]
        exact writes
      · rw [quiet_cons_word, ← and_assoc]
        refine reads.trans (and_congr_left fun _ => ?_)
        unfold classifyWord
        cases matchesAny word writeWords <;> cases matchesAny word writingFunctions <;>
          cases cls <;> simp

theorem classifyWord_first_readOnly :
    classifyWord true .unknown word = .readOnly ↔
      matchesAny word readFirstWords = true ∧ matchesAny word writeWords = false ∧
        matchesAny word writingFunctions = false := by
  unfold classifyWord
  cases matchesAny word readFirstWords <;> cases matchesAny word writeWords <;>
    cases matchesAny word writingFunctions <;> simp

theorem reads_cons_skip {token : Token} (skips : isOpening token = false)
    (other : ∀ word, token ≠ .word word) : Reads (token :: later) ↔ Reads later := by
  have found : (token :: later).find? isOpening = later.find? isOpening :=
    find?_cons_of_neg (by rw [skips]; exact Bool.false_ne_true)
  constructor
  · rintro ⟨opener, quiet⟩
    exact ⟨found ▸ opener, (quiet_cons_other other later).mp quiet⟩
  · rintro ⟨opener, quiet⟩
    exact ⟨found.symm ▸ opener, (quiet_cons_other other later).mpr quiet⟩

theorem reads_cons_word :
    Reads (.word word :: later) ↔
      matchesAny word readFirstWords = true ∧ Quiet (.word word :: later) := by
  constructor
  · rintro ⟨⟨opener, found, reads⟩, quiet⟩
    obtain rfl := Token.word.inj (Option.some.inj found)
    exact ⟨reads, quiet⟩
  · rintro ⟨reads, quiet⟩
    exact ⟨⟨word, rfl, reads⟩, quiet⟩

theorem scanned_spec :
    ((scanned tokens).1 = true ↔ ¬ Started tokens) ∧
      ((scanned tokens).2 = .write ↔ Writes tokens) ∧
      ((scanned tokens).2 = .readOnly ↔ Reads tokens) := by
  induction tokens with
  | nil =>
    refine ⟨iff_of_true rfl not_started_nil, iff_of_false nofun ?_, iff_of_false nofun ?_⟩
    · exact fun writes => not_started_nil writes.started
    · exact fun reads => not_started_nil reads.started
  | cons token later ih =>
    cases token with
    | semicolon | punct =>
      rw [started_cons, or_iff_right (by simp [isOpening]), writes_cons_other (by simp),
        reads_cons_skip later rfl (by simp)]
      exact ih
    | quoted =>
      obtain ⟨started, writes, reads⟩ := scan_started later .unknown
      refine ⟨?_, ?_, ?_⟩
      · refine iff_of_false (fun same => absurd (started.symm.trans same) nofun) ?_
        exact not_not.mpr ((started_cons _ _).mpr (.inl rfl))
      · rw [writes_cons_other (by simp)]
        exact writes.trans (or_iff_right nofun)
      · refine iff_of_false (fun same => absurd (reads.mp same).1 nofun) ?_
        rintro ⟨⟨word, found, -⟩, -⟩
        exact absurd (Option.some.inj found) nofun
    | word word =>
      obtain ⟨started, writes, reads⟩ :=
        scan_started later (classifyWord true .unknown word)
      refine ⟨?_, ?_, ?_⟩
      · refine iff_of_false (fun same => absurd (started.symm.trans same) nofun) ?_
        exact not_not.mpr ((started_cons _ _).mpr (.inl rfl))
      · rw [writes_cons_word]
        have word_writes : classifyWord true .unknown word = .write ↔
            StmtClass.unknown = .write ∨ matchesAny word writeWords = true :=
          classifyWord_eq_write (by simp)
        rw [or_iff_right (by decide)] at word_writes
        rw [← word_writes]
        exact writes
      · rw [reads_cons_word, quiet_cons_word]
        refine reads.trans ?_
        rw [classifyWord_first_readOnly]
        exact and_assoc

theorem closedClass_eq_write_iff : closedClass tokens = .write ↔ Writes tokens := by
  obtain ⟨started, writes, -⟩ := scanned_spec tokens
  unfold closedClass
  split
  · rename_i fresh
    exact iff_of_false nofun fun written => started.mp fresh written.started
  · exact writes

theorem openClass_eq_write_iff : openClass tokens = .write ↔ Writes tokens := by
  obtain ⟨started, writes, -⟩ := scanned_spec tokens
  unfold openClass
  split
  · rename_i fresh
    exact iff_of_false nofun fun written => started.mp fresh written.started
  · exact writes

theorem closedClass_eq_readOnly_iff :
    closedClass tokens = .readOnly ↔ (Started tokens → Reads tokens) := by
  obtain ⟨started, -, reads⟩ := scanned_spec tokens
  unfold closedClass
  split
  · rename_i fresh
    exact iff_of_true rfl fun opened => absurd opened (started.mp fresh)
  · rename_i opened
    have begun : Started tokens := by
      by_contra fresh
      exact opened (started.mpr fresh)
    rw [reads]
    exact ⟨fun read _ => read, fun read => read begun⟩

theorem openClass_eq_readOnly_iff : openClass tokens = .readOnly ↔ Reads tokens := by
  obtain ⟨started, -, reads⟩ := scanned_spec tokens
  unfold openClass
  split
  · rename_i fresh
    exact iff_of_false nofun fun read => started.mp fresh read.started
  · exact reads

/-! ### Where the two agree -/

def lastStretch (sql : List Char) : List Token :=
  (stretches sql).getLastD []

theorem forall_classesOf (ended : Bool) {stretches : List (List Token)} (filled : stretches ≠ [])
    (P : StmtClass → Prop) :
    (∀ cls ∈ classesOf ended stretches, P cls) ↔
      (∀ tokens ∈ stretches.dropLast, P (closedClass tokens)) ∧
        (ended = false → P (openClass (stretches.getLastD []))) := by
  induction stretches with
  | nil => exact absurd rfl filled
  | cons tokens later ih =>
    cases later with
    | nil => cases ended <;> simp [classesOf]
    | cons next rest =>
      have step := ih (cons_ne_nil _ _)
      rw [classesOf_cons _ _ (cons_ne_nil _ _), forall_mem_cons, step,
        dropLast_cons_of_ne_nil (cons_ne_nil _ _), forall_mem_cons, and_assoc]
      rfl

theorem lastStretch_eq_nil {sql : List Char} (ended : endsAtSeparator (lex sql) = true) :
    lastStretch sql = [] := by
  unfold endsAtSeparator at ended
  cases last : (lex sql).getLast? with
  | none =>
    rw [last] at ended
    exact absurd ended nofun
  | some mark =>
    rw [last, Option.any_some, Bool.and_eq_true, decide_eq_true_eq] at ended
    obtain ⟨front, shape⟩ := getLast?_eq_some_iff.mp last
    unfold lastStretch stretches tokensOf
    rw [shape, map_append, map_singleton, ended.1, splitOn_append_cons_self]
    exact getLastD_concat ..

theorem mem_stretches_iff :
    tokens ∈ stretches sql ↔ tokens ∈ (stretches sql).dropLast ∨ tokens = lastStretch sql := by
  unfold lastStretch
  have filled : stretches sql ≠ [] := splitOn_ne_nil _ _
  conv_lhs => rw [← dropLast_append_getLast filled]
  rw [mem_append, mem_singleton, getLastD_eq_getLast?,
    getLast?_eq_some_getLast filled, Option.getD_some]

theorem classify_eq_write : classify sql = .write ↔ ∃ tokens ∈ stretches sql, Writes tokens := by
  have none_writes := forall_classesOf (endsAtSeparator (lex sql))
    (splitOn_ne_nil Token.semicolon (tokensOf sql)) (· ≠ .write)
  rw [classify_eq, worstOf_eq_write_iff, ← not_iff_not]
  have absent : (.write ∉ classesOf (endsAtSeparator (lex sql)) (stretches sql)) ↔
      ∀ cls ∈ classesOf (endsAtSeparator (lex sql)) (stretches sql), cls ≠ .write :=
    forall_mem_ne'.symm
  refine absent.trans (none_writes.trans ?_)
  push Not
  constructor
  · rintro ⟨closed, last⟩ tokens listed writes
    rcases (mem_stretches_iff sql tokens).mp listed with front | rfl
    · exact closed tokens front ((closedClass_eq_write_iff tokens).mpr writes)
    · cases ended : endsAtSeparator (lex sql) with
      | true =>
        rw [lastStretch_eq_nil ended] at writes
        exact not_started_nil writes.started
      | false => exact last ended ((openClass_eq_write_iff _).mpr writes)
  · intro silent
    refine ⟨fun tokens front same => ?_, fun _ same => ?_⟩
    · exact silent tokens ((mem_stretches_iff sql tokens).mpr (.inl front))
        ((closedClass_eq_write_iff tokens).mp same)
    · exact silent _ ((mem_stretches_iff sql _).mpr (.inr rfl))
        ((openClass_eq_write_iff _).mp same)

theorem classify_eq_readOnly :
    classify sql = .readOnly ↔
      (∀ tokens ∈ stretches sql, Started tokens → Reads tokens) ∧
        (endsAtSeparator (lex sql) = true ∨ Started (lastStretch sql)) := by
  have all_read := forall_classesOf (endsAtSeparator (lex sql))
    (splitOn_ne_nil Token.semicolon (tokensOf sql)) (· = .readOnly)
  rw [classify_eq, worstOf_eq_readOnly_iff]
  refine all_read.trans ?_
  constructor
  · rintro ⟨closed, last⟩
    refine ⟨fun tokens listed started => ?_, ?_⟩
    · rcases (mem_stretches_iff sql tokens).mp listed with front | rfl
      · exact (closedClass_eq_readOnly_iff tokens).mp (closed tokens front) started
      · cases ended : endsAtSeparator (lex sql) with
        | true =>
          rw [lastStretch_eq_nil ended] at started
          exact absurd started not_started_nil
        | false => exact (openClass_eq_readOnly_iff _).mp (last ended)
    · cases ended : endsAtSeparator (lex sql) with
      | true => exact .inl rfl
      | false => exact .inr ((openClass_eq_readOnly_iff _).mp (last ended)).started
  · rintro ⟨reads, closes⟩
    refine ⟨fun tokens front => ?_, fun ended => ?_⟩
    · exact (closedClass_eq_readOnly_iff tokens).mpr
        (reads tokens ((mem_stretches_iff sql tokens).mpr (.inl front)))
    · have started : Started (lastStretch sql) := closes.resolve_left (by simp [ended])
      exact (openClass_eq_readOnly_iff _).mpr
        (reads _ ((mem_stretches_iff sql _).mpr (.inr rfl)) started)

theorem classifyParts_eq_write :
    classifyParts sql = .write ↔ ∃ tokens ∈ stretches sql, Writes tokens := by
  rw [classifyParts_eq]
  constructor
  · intro same
    split at same
    · exact absurd same nofun
    · obtain ⟨tokens, listed, writes⟩ := mem_map.mp ((worstOf_eq_write_iff _).mp same)
      exact ⟨tokens, (mem_filter.mp listed).1, (openClass_eq_write_iff tokens).mp writes⟩
  · rintro ⟨tokens, listed, writes⟩
    have filled : tokens ≠ [] := by
      rintro rfl
      exact not_started_nil writes.started
    have kept : tokens ∈ (stretches sql).filter (· ≠ []) :=
      mem_filter.mpr ⟨listed, decide_eq_true filled⟩
    rw [if_neg (ne_nil_of_mem kept), worstOf_eq_write_iff]
    exact mem_map.mpr ⟨tokens, kept, (openClass_eq_write_iff tokens).mpr writes⟩

theorem classifyParts_eq_readOnly :
    classifyParts sql = .readOnly ↔
      (∃ tokens ∈ stretches sql, tokens ≠ []) ∧
        ∀ tokens ∈ stretches sql, tokens ≠ [] → Reads tokens := by
  have kept (tokens : List Token) :
      tokens ∈ (stretches sql).filter (· ≠ []) ↔ tokens ∈ stretches sql ∧ tokens ≠ [] := by
    rw [mem_filter, decide_eq_true_eq]
  rw [classifyParts_eq]
  by_cases none : (stretches sql).filter (· ≠ []) = []
  · rw [if_pos none]
    refine iff_of_false nofun ?_
    rintro ⟨⟨tokens, listed⟩, -⟩
    exact absurd ((kept tokens).mpr listed) (by rw [none]; exact not_mem_nil)
  · obtain ⟨some, present⟩ := exists_mem_of_ne_nil _ none
    rw [if_neg none, worstOf_eq_readOnly_iff]
    constructor
    · intro all
      refine ⟨⟨some, (kept some).mp present⟩, fun tokens listed filled => ?_⟩
      exact (openClass_eq_readOnly_iff tokens).mp
        (all _ (mem_map_of_mem ((kept tokens).mpr ⟨listed, filled⟩)))
    · rintro ⟨-, reads⟩ cls listed
      obtain ⟨tokens, among, rfl⟩ := mem_map.mp listed
      obtain ⟨member, filled⟩ := (kept tokens).mp among
      exact (openClass_eq_readOnly_iff tokens).mpr (reads tokens member filled)

/-- Some stretch that has started does not read; or else the message ends at a separator or
in a stretch that has started, exactly if it has a statement and all its statements have
started. -/
def ReadAlike (sql : List Char) : Prop :=
  (∃ tokens ∈ stretches sql, Started tokens ∧ ¬ Reads tokens) ∨
    ((endsAtSeparator (lex sql) = true ∨ Started (lastStretch sql)) ↔
      (∃ tokens ∈ stretches sql, tokens ≠ []) ∧
        ∀ tokens ∈ stretches sql, tokens ≠ [] → Started tokens)

/-- The class of a message is the most restrictive class of its statements exactly if they
read alike. -/
theorem classify_per_statement_iff (sql : List Char) :
    classify sql = classifyParts sql ↔ ReadAlike sql := by
  rw [StmtClass.eq_iff, classify_eq_write, classifyParts_eq_write, and_iff_right Iff.rfl,
    classify_eq_readOnly, classifyParts_eq_readOnly]
  by_cases doubtful : ∃ tokens ∈ stretches sql, Started tokens ∧ ¬ Reads tokens
  · refine iff_of_true (iff_of_false ?_ ?_) (.inl doubtful)
    · obtain ⟨tokens, listed, started, other⟩ := doubtful
      exact fun both => other (both.1 tokens listed started)
    · obtain ⟨tokens, listed, started, other⟩ := doubtful
      refine fun both => other (both.2 tokens listed ?_)
      rintro rfl
      exact not_started_nil started
  · have reads : ∀ tokens ∈ stretches sql, Started tokens → Reads tokens := by
      intro tokens listed started
      by_contra other
      exact doubtful ⟨tokens, listed, started, other⟩
    have same : (∀ tokens ∈ stretches sql, tokens ≠ [] → Reads tokens) ↔
        ∀ tokens ∈ stretches sql, tokens ≠ [] → Started tokens :=
      ⟨fun all tokens listed filled => (all tokens listed filled).started,
        fun all tokens listed filled => reads tokens listed (all tokens listed filled)⟩
    unfold ReadAlike
    rw [and_iff_right reads, same, or_iff_right doubtful]

/-- A blank behind the separator makes a read unknown, a separator alone is a read, and so is
a parenthesis in front of one. -/
theorem blank_changes_class :
    classify "SELECT 1; ".toList = .unknown ∧ classifyParts "SELECT 1; ".toList = .readOnly ∧
      classify ";".toList = .readOnly ∧ classifyParts ";".toList = .unknown ∧
      classify "(; SELECT 1".toList = .readOnly ∧
      classifyParts "(; SELECT 1".toList = .unknown := by
  decide +kernel

end Pgprox.Route
