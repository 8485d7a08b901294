/-
Which statement of a text the record of a parameter comes from.

A statement is recorded when the lexer finds `SET`, the name and the sign at its front;
what stands behind the sign is the value.  Of several statements the last one that speaks
of the name decides.
-/

import Pgprox.Pool.Params
import Pgprox.Sql.Cuts

namespace Pgprox.Pools

open Sql

/-! ### White space around a text -/

theorem isWhitespace_of_isAlphanum {c : Char} (letter : c.isAlphanum = true) :
    isWhitespace c = false := by
  rw [Bool.eq_false_iff]
  intro space
  simp only [Char.isAlphanum, Char.isAlpha, Char.isUpper, Char.isLower, Char.isDigit,
    Bool.or_eq_true, Bool.and_eq_true, decide_eq_true_eq, UInt32.le_iff_toNat_le,
    ge_iff_le] at letter
  simp only [isWhitespace, Bool.or_eq_true, Bool.and_eq_true, decide_eq_true_eq,
    UInt32.le_iff_toNat_le, ← UInt32.toNat_inj] at space
  simp at letter space
  omega

theorem isWhitespace_of_isWordChar {c : Char} (letter : isWordChar c = true)
    (kept : isAscii c = true ∨ isWhitespace c = false) : isWhitespace c = false := by
  rcases kept with ascii | visible
  · rw [isWordChar, if_pos ascii, Bool.or_eq_true, decide_eq_true_eq] at letter
    rcases letter with letter | rfl
    · exact isWhitespace_of_isAlphanum letter
    · rfl
  · exact visible

theorem isWhitespace_toLower (c : Char) : isWhitespace c.toLower = isWhitespace c := by
  rcases toLower_cases c with same | ⟨upper, lower⟩
  · rw [same]
  · rw [isWhitespace_of_isAlphanum (by simp [Char.isAlphanum, Char.isAlpha, lower]),
      isWhitespace_of_isAlphanum (by simp [Char.isAlphanum, Char.isAlpha, upper])]

theorem trim_eq (text : List Char) : trim text = (trimStart text).rdropWhile isWhitespace :=
  rfl

theorem trimStart_isPrefix {text kept : List Char} (front : kept <+: trimStart text) :
    trimStart kept = kept := by
  cases kept with
  | nil => rfl
  | cons first rest =>
    obtain ⟨more, whole⟩ := front
    have shape : text.dropWhile isWhitespace = first :: (rest ++ more) := whole.symm
    have visible : isWhitespace first = false := by
      have head := List.head?_dropWhile_not isWhitespace text
      rw [shape] at head
      exact head
    exact List.dropWhile_cons_of_neg (by simp [visible])

theorem trim_trim (text : List Char) : trim (trim text) = trim text := by
  have front : trim text <+: trimStart text := List.rdropWhile_prefix isWhitespace _
  rw [trim_eq (trim text), trimStart_isPrefix front, trim_eq]
  exact List.rdropWhile_idempotent isWhitespace _

theorem trim_toAsciiLowercase (text : List Char) :
    trim (toAsciiLowercase text) = toAsciiLowercase (trim text) := by
  have same : isWhitespace ∘ Char.toLower = isWhitespace := funext isWhitespace_toLower
  unfold trim trimStart toAsciiLowercase
  rw [List.dropWhile_map, same, ← List.map_reverse, List.dropWhile_map, same,
    ← List.map_reverse]

variable (name : Text)

theorem normalise_normalise : normalise (normalise name) = normalise name := by
  unfold normalise
  rw [trim_toAsciiLowercase, trim_trim, toAsciiLowercase_idem]

/-! ### Names -/

/-- A name that the parser reads as it is written: one word, in lower case. -/
structure OneWord (name : Text) : Prop where
  filled : name ≠ []
  word : name.all isWordChar = true
  normal : normalise name = name

theorem OneWord.visible {first : Char} {rest : Text} (one : OneWord (first :: rest)) :
    isWhitespace first = false := by
  rw [Bool.eq_false_iff]
  intro space
  have shorter := congrArg List.length one.normal
  have dropped : (trimStart (first :: rest)).length ≤ rest.length := by
    rw [trimStart, List.dropWhile_cons_of_pos space]
    exact (List.dropWhile_sublist _).length_le
  have front := (List.rdropWhile_prefix isWhitespace (trimStart (first :: rest))).length_le
  rw [normalise, toAsciiLowercase, List.length_map, trim_eq, List.length_cons] at shorter
  omega

section

variable {input after : List Char} {word : Text} (read : next input = some (.word word, after))
include read

theorem next_word :
    ∃ first rest, word = first :: rest ∧ word.all isWordChar = true ∧
      isWhitespace first = false := by
  unfold next at read
  split at read
  · cases read
  · rename_i first rest shape
    have solid := solid_skipTrivia input
    rw [shape] at solid
    have taken := tokenAt_taken first rest
    rw [Option.some.inj read] at taken
    cases taken with
    | word letter plain =>
      refine ⟨first, rest.takeWhile isWordChar, rfl, ?_,
        isWhitespace_of_isWordChar letter solid.visible.2⟩
      rw [List.all_cons, letter, Bool.true_and]
      exact List.all_takeWhile

theorem oneWord_normalise : OneWord (normalise word) := by
  obtain ⟨first, rest, rfl, letters, visible⟩ := next_word read
  have start : trimStart (first :: rest) = first :: rest :=
    List.dropWhile_cons_of_neg (by simp [visible])
  have within : trim (first :: rest) <+: first :: rest := by
    rw [trim_eq, start]
    exact List.rdropWhile_prefix isWhitespace _
  refine ⟨?_, ?_, normalise_normalise _⟩
  · intro empty
    have nothing : (first :: rest).rdropWhile isWhitespace = [] := by
      rw [← start, ← trim_eq]
      exact List.map_eq_nil_iff.mp empty
    have space := List.rdropWhile_eq_nil_iff.mp nothing first List.mem_cons_self
    rw [visible] at space
    cases space
  · rw [normalise, toAsciiLowercase, List.all_map, List.all_eq_true]
    intro c among
    rw [Function.comp_apply, isWordChar_toLower]
    exact List.all_eq_true.mp letters c (within.subset among)

end

/-! ### The front of a `SET` -/

inductive NameStart (input : Text) : Text → Prop
  | session {scope after : Text} (read : next input = some (.word scope, after))
      (isSession : eqIgnoreAsciiCase scope "session" = true) : NameStart input after
  | atOnce (plain : ∀ scope after, next input = some (.word scope, after) →
      eqIgnoreAsciiCase scope "local" = false ∧ eqIgnoreAsciiCase scope "session" = false) :
      NameStart input input

structure Assigns (statement name rest : Text) : Prop where
  front : ∃ verb input start afterName, next statement = some (.word verb, input) ∧
    eqIgnoreAsciiCase verb "set" = true ∧ NameStart input start ∧
    next start = some (.word name, afterName) ∧
    (next afterName = some (.punct '=', rest) ∨
      ∃ word, next afterName = some (.word word, rest) ∧ eqIgnoreAsciiCase word "to" = true)
  named : eqIgnoreAsciiCase name "transaction" = false ∧
    eqIgnoreAsciiCase name "constraints" = false

theorem valueText_eq_some_iff (input value : Text) :
    ParsedSet.valueText input = some value ↔
      ∃ rest, value = skipTrivia rest ∧ (next input = some (.punct '=', rest) ∨
        ∃ word, next input = some (.word word, rest) ∧ eqIgnoreAsciiCase word "to" = true) := by
  unfold ParsedSet.valueText
  constructor
  · intro found
    split at found
    · rename_i c after read
      split at found
      · rename_i equals
        subst equals
        exact ⟨after, (Option.some.inj found).symm, .inl read⟩
      · cases found
    · rename_i word after read
      split at found
      · rename_i isTo
        exact ⟨after, (Option.some.inj found).symm, .inr ⟨word, read, isTo⟩⟩
      · cases found
    · cases found
  · rintro ⟨rest, rfl, read | ⟨word, read, isTo⟩⟩
    · rw [read]
      exact if_pos rfl
    · rw [read]
      exact if_pos isTo

theorem assignment_eq_set_iff (input name value : Text) :
    ParsedSet.assignment input = some (.set name value) ↔
      ∃ afterName kept, next input = some (.word name, afterName) ∧
        (eqIgnoreAsciiCase name "transaction" = false ∧
          eqIgnoreAsciiCase name "constraints" = false) ∧
        ParsedSet.valueText afterName = some kept ∧ value = unquote (trim kept) := by
  unfold ParsedSet.assignment
  constructor
  · intro found
    split at found
    · rename_i word afterName read
      split at found
      · cases found
      · rename_i named
        obtain ⟨kept, shown, same⟩ := Option.map_eq_some_iff.mp found
        cases same
        rw [Bool.not_eq_true, Bool.or_eq_false_iff] at named
        exact ⟨afterName, kept, read, named, shown, rfl⟩
    · cases found
  · rintro ⟨afterName, kept, read, ⟨notTransaction, notConstraints⟩, shown, rfl⟩
    rw [read]
    dsimp only
    rw [notTransaction, notConstraints, shown]
    rfl

theorem afterSet_eq_set_iff (input name value : Text) :
    ParsedSet.afterSet input = some (.set name value) ↔
      ∃ start, NameStart input start ∧ ParsedSet.assignment start = some (.set name value) := by
  unfold ParsedSet.afterSet
  constructor
  · intro found
    split at found
    · rename_i scope after read
      split at found
      · cases found
      · rename_i notLocal
        split at found
        · rename_i isSession
          exact ⟨after, .session read isSession, found⟩
        · rename_i notSession
          refine ⟨input, .atOnce fun word left same => ?_, found⟩
          rw [read] at same
          cases same
          exact ⟨Bool.eq_false_of_not_eq_true notLocal, Bool.eq_false_of_not_eq_true notSession⟩
    · rename_i other
      exact ⟨input, .atOnce fun word left read => absurd read (other word left), found⟩
  · rintro ⟨start, starts, found⟩
    cases starts with
    | @session scope _ read isSession =>
      have notLocal : eqIgnoreAsciiCase scope "local" = false := by
        rw [Bool.eq_false_iff]
        intro isLocal
        have same := (of_decide_eq_true isLocal).symm.trans (of_decide_eq_true isSession)
        exact absurd same (by decide)
      rw [read]
      dsimp only
      rw [notLocal, isSession]
      exact found
    | atOnce plain =>
      split
      · rename_i scope after read
        obtain ⟨notLocal, notSession⟩ := plain scope after read
        rw [notLocal, notSession]
        exact found
      · exact found

theorem parse_eq_set_iff (statement name value : Text) :
    ParsedSet.parse statement = some (.set name value) ↔
      ∃ rest, Assigns statement name rest ∧ value = unquote (trim (skipTrivia rest)) := by
  have apart (verb : Text) (isSet : eqIgnoreAsciiCase verb "set" = true) (other : String)
      (differs : toAsciiLowercase other.toList ≠ toAsciiLowercase "set".toList) :
      eqIgnoreAsciiCase verb other = false := by
    rw [Bool.eq_false_iff]
    intro isOther
    exact differs ((of_decide_eq_true isOther).symm.trans (of_decide_eq_true isSet))
  constructor
  · intro parsed
    unfold ParsedSet.parse at parsed
    split at parsed
    · rename_i verb input read
      split at parsed
      · split at parsed
        · split at parsed <;> cases parsed
        · cases parsed
      · split at parsed
        · split at parsed
          · split at parsed <;> cases parsed
          · cases parsed
        · split at parsed
          · rename_i isSet
            obtain ⟨start, starts, assigned⟩ := (afterSet_eq_set_iff _ _ _).mp parsed
            obtain ⟨afterName, kept, readName, named, shown, rfl⟩ :=
              (assignment_eq_set_iff _ _ _).mp assigned
            obtain ⟨rest, rfl, sign⟩ := (valueText_eq_some_iff _ _).mp shown
            exact ⟨rest, ⟨⟨verb, input, start, afterName, read, isSet, starts, readName, sign⟩,
              named⟩, rfl⟩
          · cases parsed
    · cases parsed
  · rintro ⟨rest, ⟨⟨verb, input, start, afterName, read, isSet, starts, readName, sign⟩, named⟩,
      rfl⟩
    have shown := (valueText_eq_some_iff afterName _).mpr ⟨rest, rfl, sign⟩
    have assigned := (assignment_eq_set_iff start name _).mpr
      ⟨afterName, _, readName, named, shown, rfl⟩
    unfold ParsedSet.parse
    rw [read]
    dsimp only
    rw [apart verb isSet "discard" (by decide), apart verb isSet "reset" (by decide), isSet]
    exact (afterSet_eq_set_iff _ _ _).mpr ⟨start, starts, assigned⟩

/-! ### The last statement that speaks of a name -/

def effectOn (allowlist : Replayable) (name statement : Text) : Option (Option Text) :=
  match ParsedSet.parse statement with
  | some .resetAll => some none
  | some (.reset written) =>
    if allowlist.contains (normalise written) ∧ normalise (normalise written) = name then
      some none
    else none
  | some (.set written value) =>
    if allowlist.contains (normalise written) ∧ normalise (normalise written) = name then
      some (some value)
    else none
  | _ => none

variable (allowlist : Replayable)

theorem lookup_observeOne (params : SessionParams) (statement name : Text) :
    (params.observeOne statement allowlist).1.values.lookup name =
      (effectOn allowlist name statement).getD (params.values.lookup name) := by
  unfold SessionParams.observeOne effectOn
  split
  · simp [*]
  · simp [*]
  · simp only [*]
    rfl
  · rename_i written parsed
    simp only [parsed]
    split
    · rename_i listed
      simp only [listed, true_and, SessionParams.clear, AList.lookup_erase_if, eq_comm]
      split
      · rfl
      · rfl
    · simp [*]
  · rename_i written value parsed
    simp only [parsed]
    split
    · rename_i listed
      simp only [listed, true_and, SessionParams.record, AList.lookup_insert_if, eq_comm]
      split
      · rfl
      · rfl
    · simp [*]

theorem lookup_observeStatement (params : SessionParams) (sql name : Text) :
    (params.observeStatement sql allowlist).values.lookup name =
      (statements sql).foldl (fun held statement => (effectOn allowlist name statement).getD held)
        (params.values.lookup name) := by
  unfold SessionParams.observeStatement
  induction statements sql generalizing params with
  | nil => rfl
  | cons statement later ih => rw [List.foldl_cons, List.foldl_cons, ih, lookup_observeOne]

theorem foldl_getD_eq_some_iff {α β : Type} (effect : α → Option (Option β)) (value : β)
    (items : List α) :
    items.foldl (fun held item => (effect item).getD held) none = some value ↔
      ∃ front item back, items = front ++ item :: back ∧ effect item = some (some value) ∧
        ∀ later ∈ back, effect later = none := by
  constructor
  · intro held
    induction items using List.reverseRecOn with
    | nil => cases held
    | append_singleton front last ih =>
      rw [List.foldl_concat] at held
      cases shown : effect last with
      | none =>
        rw [shown, Option.getD_none] at held
        obtain ⟨early, item, back, rfl, speaks, silent⟩ := ih held
        refine ⟨early, item, back ++ [last], by simp, speaks, ?_⟩
        exact List.forall_mem_append.mpr ⟨silent, List.forall_mem_singleton.mpr shown⟩
      | some outcome =>
        rw [shown, Option.getD_some] at held
        exact ⟨front, last, [], rfl, held ▸ shown, List.forall_mem_nil _⟩
  · rintro ⟨front, item, back, rfl, speaks, silent⟩
    rw [List.foldl_append, List.foldl_cons, speaks, Option.getD_some]
    induction back with
    | nil => rfl
    | cons later more ih =>
      obtain ⟨here, behind⟩ := List.forall_mem_cons.mp silent
      rw [List.foldl_cons, here, Option.getD_none]
      exact ih behind

theorem effectOn_eq_set_iff (name statement value : Text) :
    effectOn allowlist name statement = some (some value) ↔
      ∃ written, ParsedSet.parse statement = some (.set written value) ∧
        allowlist.contains (normalise written) = true ∧ normalise written = name := by
  unfold effectOn
  constructor
  · intro speaks
    split at speaks
    · cases speaks
    · split at speaks <;> cases speaks
    · rename_i written value parsed
      split at speaks
      · rename_i both
        rw [normalise_normalise] at both
        cases speaks
        exact ⟨written, parsed, both⟩
      · cases speaks
    · cases speaks
  · rintro ⟨written, parsed, both⟩
    rw [parsed]
    dsimp only
    rw [normalise_normalise, if_pos both]

theorem observeOne_recorded {allowlist : Replayable} {params : SessionParams}
    {statement name value : Text}
    (after : (params.observeOne statement allowlist).1.values.lookup name = some value) :
    params.values.lookup name = some value ∨ OneWord name := by
  rw [lookup_observeOne] at after
  cases speaks : effectOn allowlist name statement with
  | none =>
    rw [speaks] at after
    exact .inl after
  | some outcome =>
    rw [speaks, Option.getD_some] at after
    subst after
    obtain ⟨written, parsed, -, rfl⟩ := (effectOn_eq_set_iff _ _ _ _).mp speaks
    obtain ⟨_, assigns, -⟩ := (parse_eq_set_iff _ _ _).mp parsed
    obtain ⟨_, _, _, _, -, -, -, read, -⟩ := assigns.front
    exact .inr (oneWord_normalise read)

theorem observeStatement_recorded {allowlist : Replayable} {params : SessionParams}
    {sql name value : Text}
    (after : (params.observeStatement sql allowlist).values.lookup name = some value) :
    params.values.lookup name = some value ∨ OneWord name := by
  unfold SessionParams.observeStatement at after
  generalize statements sql = parts at after
  induction parts generalizing params with
  | nil => exact .inl after
  | cons statement later ih =>
    rcases ih after with before | word
    · exact observeOne_recorded before
    · exact .inr word

/-- The lexer finds a `SET` of the name in the text with `rest` behind its sign, and no
later statement that speaks of the name. -/
def LastAssigned (allowlist : Replayable) (sql name rest : Text) : Prop :=
  ∃ front statement back written, statements sql = front ++ statement :: back ∧
    Assigns statement written rest ∧ normalise written = name ∧
    ∀ later ∈ back, effectOn allowlist name later = none

theorem lookup_observe_new_iff {allowlist : Replayable} {name : Text}
    (listed : allowlist.contains name = true) (sql value : Text) :
    (SessionParams.new.observeStatement sql allowlist).values.lookup name = some value ↔
      ∃ rest, LastAssigned allowlist sql name rest ∧ value = unquote (trim (skipTrivia rest)) := by
  rw [lookup_observeStatement]
  change (statements sql).foldl _ none = some value ↔ _
  rw [foldl_getD_eq_some_iff]
  constructor
  · rintro ⟨front, statement, back, whole, speaks, silent⟩
    obtain ⟨written, parsed, -, named⟩ := (effectOn_eq_set_iff _ _ _ _).mp speaks
    obtain ⟨rest, assigns, shown⟩ := (parse_eq_set_iff _ _ _).mp parsed
    exact ⟨rest, ⟨front, statement, back, written, whole, assigns, named, silent⟩, shown⟩
  · rintro ⟨rest, ⟨front, statement, back, written, whole, assigns, named, silent⟩, shown⟩
    refine ⟨front, statement, back, whole, (effectOn_eq_set_iff _ _ _ _).mpr ?_, silent⟩
    exact ⟨written, (parse_eq_set_iff _ _ _).mpr ⟨rest, assigns, shown⟩, named ▸ listed, named⟩

end Pgprox.Pools
