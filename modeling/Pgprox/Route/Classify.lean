/-
What a statement does, from its text.

A statement is a read when it starts with one of a few words and contains none of
the words that write, lock or have side effects.  Several statements in one message
count as the most restrictive of them.
-/

import Pgprox.Sql.Lexer

namespace Pgprox.Route

open Sql

inductive StmtClass
  | readOnly
  | write
  | unknown
  deriving DecidableEq

def StmtClass.replicaEligible (cls : StmtClass) : Bool :=
  cls = .readOnly

def readFirstWords : List String :=
  ["select", "with", "table", "values", "explain"]

def writeWords : List String :=
  ["insert", "update", "delete", "merge", "truncate", "create", "refresh", "execute", "declare",
    "share", "into", "analyze", "analyse"]

def writingFunctions : List String :=
  ["nextval", "setval", "pg_advisory_lock", "pg_advisory_lock_shared", "pg_advisory_unlock",
    "pg_advisory_unlock_all", "pg_advisory_unlock_shared", "pg_advisory_xact_lock",
    "pg_advisory_xact_lock_shared", "pg_try_advisory_lock", "pg_try_advisory_lock_shared",
    "pg_try_advisory_xact_lock", "pg_try_advisory_xact_lock_shared", "txid_current",
    "pg_current_xact_id", "pg_logical_emit_message", "pg_create_restore_point", "pg_switch_wal",
    "pg_create_physical_replication_slot", "pg_create_logical_replication_slot",
    "pg_drop_replication_slot", "pg_replication_slot_advance", "lo_create", "lo_creat",
    "lo_import", "lo_unlink", "lo_from_bytea", "lo_put"]

def matchesAny (word : List Char) (words : List String) : Bool :=
  words.any fun candidate => eqIgnoreAsciiCase word candidate

def combine : StmtClass → StmtClass → StmtClass
  | .write, _ => .write
  | _, .write => .write
  | .readOnly, .readOnly => .readOnly
  | _, _ => .unknown

def classifyWord (first : Bool) (cls : StmtClass) (word : List Char) : StmtClass :=
  let started :=
    if first then if matchesAny word readFirstWords then .readOnly else .unknown else cls
  if matchesAny word writeWords then .write
  else if started = .readOnly ∧ matchesAny word writingFunctions then .unknown
  else started

/-- Classifies up to the next separator.  Returns the class, whether text follows, and
what is still to be read. -/
def classifyOne (first : Bool) (cls : StmtClass) :
    List Lexeme → StmtClass × Bool × List Lexeme
  | [] => (if first then .unknown else cls, false, [])
  | lexeme :: later =>
    match lexeme.token with
    -- an empty statement contributes nothing
    | .semicolon => (if first then .readOnly else cls, lexeme.after ≠ [], later)
    | .quoted => classifyOne false cls later
    | .punct _ => classifyOne first cls later
    | .word word => classifyOne false (classifyWord first cls word) later

def classifyWithin : Nat → Option StmtClass → List Lexeme → Option StmtClass
  | 0, worst, _ => worst
  | fuel + 1, worst, lexemes =>
    let (cls, more, later) := classifyOne true .unknown lexemes
    let combined := match worst with
      | none => cls
      | some previous => combine previous cls
    if more then classifyWithin fuel (some combined) later else some combined

def classify (sql : List Char) : StmtClass :=
  (classifyWithin ((lex sql).length + 1) none (lex sql)).getD .unknown

def openerOf : List Lexeme → Option (List Char × List Lexeme)
  | [] => none
  | lexeme :: later =>
    match lexeme.token with
    | .word word => some (word, later)
    | .punct _ => openerOf later
    | _ => none

def saysReadOnly (sets : Bool) (previous : Option (List Char)) (atSecondWord readOnly : Bool) :
    List Lexeme → Bool
  | [] => readOnly
  | lexeme :: later =>
    match lexeme.token with
    | .semicolon => readOnly
    | .quoted => false
    | .punct _ => saysReadOnly sets previous atSecondWord readOnly later
    | .word word =>
      if atSecondWord ∧ sets ∧ !eqIgnoreAsciiCase word "transaction" then false
      else
        let pair := (previous.any fun before => eqIgnoreAsciiCase before "read") &&
          eqIgnoreAsciiCase word "only"
        saysReadOnly sets (some word) false (readOnly || pair) later

def beginsReadOnlyTransaction (sql : List Char) : Bool :=
  match openerOf (lex sql) with
  | none => false
  | some (opener, later) =>
    let sets := eqIgnoreAsciiCase opener "set"
    if sets || eqIgnoreAsciiCase opener "begin" || eqIgnoreAsciiCase opener "start" then
      saysReadOnly sets none true false later
    else false

def beginsTransaction (sql : List Char) : Bool :=
  match next sql with
  | some (.word word, _) => eqIgnoreAsciiCase word "begin" || eqIgnoreAsciiCase word "start"
  | _ => false

/-! ### What makes a message a write -/

def WritesIn (lexemes : List Lexeme) : Prop :=
  ∃ word, .word word ∈ lexemes.map Lexeme.token ∧ matchesAny word writeWords = true

theorem not_writesIn_nil : ¬ WritesIn [] := by
  rintro ⟨word, listed, -⟩
  cases listed

theorem writesIn_cons_word {lexeme : Lexeme} {later : List Lexeme} {word : List Char}
    (read : lexeme.token = .word word) :
    WritesIn (lexeme :: later) ↔ matchesAny word writeWords = true ∨ WritesIn later := by
  constructor
  · rintro ⟨other, listed, writes⟩
    rw [List.map_cons, List.mem_cons, read] at listed
    rcases listed with same | deeper
    · exact .inl (Token.word.inj same ▸ writes)
    · exact .inr ⟨other, deeper, writes⟩
  · rintro (writes | ⟨other, listed, writes⟩)
    · exact ⟨word, by rw [List.map_cons, read]; exact List.mem_cons_self, writes⟩
    · exact ⟨other, List.mem_cons_of_mem _ listed, writes⟩

theorem writesIn_cons_other {lexeme : Lexeme} {later : List Lexeme}
    (read : ∀ word, lexeme.token ≠ .word word) : WritesIn (lexeme :: later) ↔ WritesIn later := by
  constructor
  · rintro ⟨other, listed, writes⟩
    rw [List.map_cons, List.mem_cons] at listed
    exact ⟨other, listed.resolve_left fun same => read other same.symm, writes⟩
  · rintro ⟨other, listed, writes⟩
    exact ⟨other, List.mem_cons_of_mem _ listed, writes⟩

theorem combine_eq_write (one two : StmtClass) :
    combine one two = .write ↔ one = .write ∨ two = .write := by
  cases one <;> cases two <;> decide

theorem classifyWord_eq_write {first : Bool} {cls : StmtClass} {word : List Char}
    (fresh : first = true → cls ≠ .write) :
    classifyWord first cls word = .write ↔
      cls = .write ∨ matchesAny word writeWords = true := by
  unfold classifyWord
  cases matchesAny word writeWords with
  | true => simp
  | false =>
    cases first with
    | true =>
      rw [or_iff_left Bool.false_ne_true, iff_false_right (fresh rfl)]
      cases matchesAny word readFirstWords <;> cases matchesAny word writingFunctions <;> simp
    | false => cases cls <;> cases matchesAny word writingFunctions <;> simp

theorem classifyOne_spec {lexemes : List Lexeme} :
    ∀ {input : List Char} (first : Bool) (cls : StmtClass), lex input = lexemes →
      (first = true → cls ≠ .write) →
      ((classifyOne first cls lexemes).1 = .write ∨ WritesIn (classifyOne first cls lexemes).2.2 ↔
        cls = .write ∨ WritesIn lexemes) ∧
      (if (classifyOne first cls lexemes).2.1 then
        (classifyOne first cls lexemes).2.2.length < lexemes.length
       else (classifyOne first cls lexemes).2.2 = []) ∧
      ∃ rest, lex rest = (classifyOne first cls lexemes).2.2 := by
  induction lexemes with
  | nil =>
    intro input first cls _ fresh
    refine ⟨?_, rfl, [], rfl⟩
    cases first with
    | true => simp [classifyOne, not_writesIn_nil, fresh rfl]
    | false => simp [classifyOne, not_writesIn_nil]
  | cons lexeme later ih =>
    intro input first cls shape fresh
    obtain ⟨-, -, rest⟩ := lex_eq_cons shape
    -- A statement that goes on into the tail leaves what the tail leaves.
    have onward {first' : Bool} {cls' : StmtClass} (fresh' : first' = true → cls' ≠ .write) :
        (if (classifyOne first' cls' later).2.1 then
          (classifyOne first' cls' later).2.2.length < (lexeme :: later).length
         else (classifyOne first' cls' later).2.2 = []) ∧
        ∃ rest, lex rest = (classifyOne first' cls' later).2.2 := by
      obtain ⟨-, left, again⟩ := ih _ _ rest.symm fresh'
      refine ⟨?_, again⟩
      split
      · rename_i more
        rw [if_pos more] at left
        exact Nat.lt_succ_of_lt left
      · rename_i last
        rwa [if_neg last] at left
    have read (cls' : StmtClass) : false = true → cls' ≠ .write := nofun
    cases kind : lexeme.token with
    | semicolon =>
      have ended : classifyOne first cls (lexeme :: later) =
          (if first then .readOnly else cls, decide (lexeme.after ≠ []), later) := by
        simp only [classifyOne, kind]
      rw [ended, writesIn_cons_other (by simp [kind])]
      refine ⟨?_, ?_, lexeme.after, rest.symm⟩
      · cases first with
        | true => simp [fresh rfl]
        | false => simp
      · by_cases empty : lexeme.after = []
        · have ended : later = [] := by
            rw [rest, empty]
            rfl
          simpa [empty] using ended
        · simp [empty]
    | quoted =>
      have onto : classifyOne first cls (lexeme :: later) = classifyOne false cls later := by
        simp only [classifyOne, kind]
      rw [onto, writesIn_cons_other (by simp [kind])]
      exact ⟨(ih _ _ rest.symm (read cls)).1, onward (read cls)⟩
    | punct c =>
      have onto : classifyOne first cls (lexeme :: later) = classifyOne first cls later := by
        simp only [classifyOne, kind]
      rw [onto, writesIn_cons_other (by simp [kind])]
      exact ⟨(ih _ _ rest.symm fresh).1, onward fresh⟩
    | word word =>
      have onto : classifyOne first cls (lexeme :: later) =
          classifyOne false (classifyWord first cls word) later := by
        simp only [classifyOne, kind]
      rw [onto, writesIn_cons_word kind]
      refine ⟨?_, onward (read _)⟩
      rw [(ih _ _ rest.symm (read _)).1, classifyWord_eq_write fresh]
      exact or_assoc

theorem classifyWithin_eq_write {fuel : Nat} :
    ∀ (worst : Option StmtClass) {lexemes : List Lexeme} {input : List Char},
      lex input = lexemes → lexemes.length < fuel →
        (classifyWithin fuel worst lexemes = some .write ↔
          worst = some .write ∨ WritesIn lexemes) := by
  induction fuel with
  | zero => exact fun _ _ _ _ short => absurd short (Nat.not_lt_zero _)
  | succ fuel ih =>
    intro worst lexemes input shape enough
    obtain ⟨writes, left, rest, again⟩ :=
      classifyOne_spec true .unknown shape (fun _ => nofun)
    rw [or_iff_right (show StmtClass.unknown ≠ .write by decide)] at writes
    unfold classifyWithin
    dsimp only
    split at left
    · rename_i more
      rw [if_pos more, ih _ again (by omega), Option.some.injEq]
      cases worst with
      | none => rw [writes, or_iff_right (by simp)]
      | some previous => rw [combine_eq_write, or_assoc, writes, Option.some.injEq]
    · rename_i last
      rw [left, or_iff_left not_writesIn_nil] at writes
      rw [if_neg last, Option.some.injEq]
      cases worst with
      | none => rw [writes, or_iff_right (by simp)]
      | some previous => rw [combine_eq_write, writes, Option.some.injEq]

/-- A message is a write when one of its words writes, whichever statement it is in. -/
theorem classify_eq_write_iff (sql : List Char) : classify sql = .write ↔ WritesIn (lex sql) := by
  have written := classifyWithin_eq_write none (rfl : lex sql = lex sql) (Nat.lt_succ_self _)
  rw [or_iff_right (by simp)] at written
  rw [← written]
  unfold classify
  cases classifyWithin ((lex sql).length + 1) none (lex sql) with
  | none | some => simp

/-! ### What a message that only reads starts with -/

theorem combine_eq_readOnly {one two : StmtClass} (reads : combine one two = .readOnly) :
    one = .readOnly := by
  cases one with
  | readOnly => rfl
  | unknown => cases two <;> cases reads
  | write => cases reads

/-- Behind its first word a statement does not become one that only reads. -/
theorem classifyOne_not_readOnly {lexemes : List Lexeme} :
    ∀ {cls : StmtClass}, cls ≠ .readOnly → (classifyOne false cls lexemes).1 ≠ .readOnly := by
  induction lexemes with
  | nil => exact fun other => other
  | cons lexeme later ih =>
    intro cls other
    unfold classifyOne
    split
    · exact other
    · exact ih other
    · exact ih other
    · refine ih ?_
      unfold classifyWord
      dsimp only
      rw [if_neg (show ¬ (false = true) by decide)]
      split
      · exact nofun
      · split
        · exact nofun
        · exact other

theorem classifyWithin_not_readOnly {fuel : Nat} :
    ∀ {worst : StmtClass} {lexemes : List Lexeme}, worst ≠ .readOnly →
      classifyWithin fuel (some worst) lexemes ≠ some .readOnly := by
  induction fuel with
  | zero =>
    intro worst lexemes other same
    exact other (Option.some.inj same)
  | succ fuel ih =>
    intro worst lexemes other
    unfold classifyWithin
    dsimp only
    have combined (cls : StmtClass) : combine worst cls ≠ .readOnly :=
      fun reads => other (combine_eq_readOnly reads)
    split
    · exact ih (combined _)
    · intro same
      exact combined _ (Option.some.inj same)

theorem opener_of_readOnly {sql word after : List Char} (reads : classify sql = .readOnly)
    (opens : next sql = some (.word word, after)) : matchesAny word readFirstWords = true := by
  by_contra other
  have opener : classifyWord true .unknown word ≠ .readOnly := by
    unfold classifyWord
    dsimp only
    split
    · exact nofun
    · split
      · exact nofun
      · exact nofun
  have shape : lex sql = ⟨sql, .word word, after⟩ :: lex after := by
    rw [lex_eq, opens]
  have first := @classifyOne_not_readOnly (lex after) _ opener
  unfold classify at reads
  rw [shape] at reads
  unfold classifyWithin classifyOne at reads
  dsimp only at reads
  split at reads
  · cases result : classifyWithin ((⟨sql, .word word, after⟩ : Lexeme) :: lex after).length
        (some (classifyOne false (classifyWord true .unknown word) (lex after)).1)
        (classifyOne false (classifyWord true .unknown word) (lex after)).2.2 with
    | none =>
      rw [result] at reads
      cases reads
    | some cls =>
      rw [result] at reads
      refine classifyWithin_not_readOnly first (result.trans ?_)
      exact congrArg some reads
  · exact first reads

end Pgprox.Route
