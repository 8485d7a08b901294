/-
The session settings a cached answer depends on, written into one string.

Each setting is written with the length of its value, so two sessions with the same string
have set the same settings to the same values.
-/

import Pgprox.Sql.Lexer

namespace Pgprox.Cache

open List

def answerShaping : List (List Char) :=
  ["search_path".toList, "timezone".toList, "datestyle".toList, "intervalstyle".toList,
    "extra_float_digits".toList, "bytea_output".toList, "client_encoding".toList,
    "standard_conforming_strings".toList]

def byteLength (text : List Char) : Nat :=
  (text.map Char.utf8Size).sum

def settingEntry (name value : List Char) : List Char :=
  name ++ '=' :: (Nat.toDigits 10 (byteLength value) ++ ':' :: value)

def fingerprintOver (names : List (List Char)) (lookup : List Char → Option (List Char)) :
    List Char :=
  names.flatMap fun name =>
    match lookup name with
    | none => []
    | some value => settingEntry name value

def fingerprint (lookup : List Char → Option (List Char)) : List Char :=
  fingerprintOver answerShaping lookup

/-! ### Reading the string back -/

theorem append_eq_of_byteLength {one two rest other : List Char}
    (same : one ++ rest = two ++ other) (length : byteLength one = byteLength two) :
    one = two ∧ rest = other := by
  have nothing {more : List Char} (none : byteLength more = 0) : more = [] := by
    cases more with
    | nil => rfl
    | cons c _ =>
      have positive := Char.utf8Size_pos c
      simp only [byteLength, map_cons, sum_cons] at none
      omega
  have split (front back : List Char) :
      byteLength (front ++ back) = byteLength front + byteLength back := by
    simp [byteLength]
  rcases append_eq_append_iff.mp same with ⟨more, rfl, left⟩ | ⟨more, rfl, left⟩
  · rw [split] at length
    obtain rfl := nothing (by omega : byteLength more = 0)
    exact ⟨(append_nil one).symm, left⟩
  · rw [split] at length
    obtain rfl := nothing (by omega : byteLength more = 0)
    exact ⟨append_nil two, left.symm⟩

theorem append_separator_inj {separator : Char} {one two rest other : List Char}
    (clean : separator ∉ one) (cleanToo : separator ∉ two)
    (same : one ++ separator :: rest = two ++ separator :: other) : one = two ∧ rest = other := by
  rcases append_eq_append_iff.mp same with ⟨more, rfl, left⟩ | ⟨more, rfl, left⟩
  · cases more with
    | nil => exact ⟨(append_nil one).symm, (List.cons.inj left).2⟩
    | cons c _ =>
      obtain ⟨rfl, -⟩ := List.cons.inj left
      exact absurd (mem_append_right one mem_cons_self) cleanToo
  · cases more with
    | nil => exact ⟨append_nil two, (List.cons.inj left).2.symm⟩
    | cons c _ =>
      obtain ⟨rfl, -⟩ := List.cons.inj left
      exact absurd (mem_append_right two mem_cons_self) clean

theorem colon_notMem_toDigits (number : Nat) : ':' ∉ Nat.toDigits 10 number := by
  intro member
  have digit := Nat.isDigit_of_mem_toDigits (by omega) (by omega) member
  cases digit

theorem settingEntry_append_inj {name one two rest other : List Char}
    (same : settingEntry name one ++ rest = settingEntry name two ++ other) :
    one = two ∧ rest = other := by
  unfold settingEntry at same
  rw [append_assoc, append_assoc] at same
  have values := append_cancel_left same
  simp only [cons_append, append_assoc] at values
  obtain ⟨digits, left⟩ := append_separator_inj (colon_notMem_toDigits _)
    (colon_notMem_toDigits _) (List.cons.inj values).2
  have lengths := congrArg (fun digits => Nat.ofDigitChars 10 digits 0) digits
  simp only [Nat.ofDigitChars_toDigits (show 1 < 10 by omega) (Nat.le_refl 10)] at lengths
  exact append_eq_of_byteLength left lengths

theorem fingerprintOver_head (names : List (List Char)) (lookup : List Char → Option (List Char)) :
    fingerprintOver names lookup = [] ∨
      ∃ name ∈ names, ∃ rest, fingerprintOver names lookup = name ++ '=' :: rest := by
  induction names with
  | nil => exact .inl rfl
  | cons name later ih =>
    unfold fingerprintOver at ⊢
    rw [flatMap_cons]
    cases lookup name with
    | none =>
      rcases ih with empty | ⟨other, member, rest, shape⟩
      · exact .inl empty
      · exact .inr ⟨other, mem_cons_of_mem _ member, rest, shape⟩
    | some value =>
      dsimp only
      rw [settingEntry, append_assoc]
      exact .inr ⟨name, mem_cons_self, _, rfl⟩

/-- A setting that one string names cannot be left out of the other. -/
theorem fingerprintOver_ne_entry {name value rest : List Char} {names : List (List Char)}
    (fresh : name ∉ names) (plain : ∀ other ∈ name :: names, '=' ∉ other)
    (lookup : List Char → Option (List Char)) :
    fingerprintOver names lookup ≠ settingEntry name value ++ rest := by
  intro same
  have entry : settingEntry name value ++ rest =
      name ++ '=' :: (Nat.toDigits 10 (byteLength value) ++ ':' :: value ++ rest) := by
    simp [settingEntry]
  rw [entry] at same
  rcases fingerprintOver_head names lookup with empty | ⟨other, member, later, shape⟩
  · rw [empty] at same
    simp at same
  · rw [shape] at same
    obtain ⟨rfl, -⟩ := append_separator_inj (plain other (mem_cons_of_mem _ member))
      (plain name mem_cons_self) same
    exact fresh member

theorem fingerprintOver_inj {names : List (List Char)}
    {lookup other : List Char → Option (List Char)} (distinct : names.Nodup)
    (plain : ∀ name ∈ names, '=' ∉ name)
    (same : fingerprintOver names lookup = fingerprintOver names other) :
    ∀ name ∈ names, lookup name = other name := by
  induction names with
  | nil => exact fun _ => nofun
  | cons name later ih =>
    obtain ⟨fresh, distinct⟩ := nodup_cons.mp distinct
    have tail := ih distinct fun entry member => plain entry (mem_cons_of_mem _ member)
    have left (lookup : List Char → Option (List Char)) :
        fingerprintOver (name :: later) lookup =
          (match lookup name with
            | none => []
            | some value => settingEntry name value) ++ fingerprintOver later lookup := rfl
    rw [left, left] at same
    rw [forall_mem_cons]
    cases one : lookup name with
    | none =>
      cases two : other name with
      | none =>
        rw [one, two] at same
        exact ⟨rfl, tail same⟩
      | some value =>
        rw [one, two] at same
        exact absurd same (fingerprintOver_ne_entry fresh plain lookup)
    | some value =>
      cases two : other name with
      | none =>
        rw [one, two] at same
        exact absurd same.symm (fingerprintOver_ne_entry fresh plain other)
      | some value' =>
        rw [one, two] at same
        obtain ⟨rfl, rest⟩ := settingEntry_append_inj same
        exact ⟨rfl, tail rest⟩

theorem fingerprint_inj {lookup other : List Char → Option (List Char)}
    (same : fingerprint lookup = fingerprint other) :
    ∀ name ∈ answerShaping, lookup name = other name :=
  fingerprintOver_inj (by decide) (by decide) same

end Pgprox.Cache
