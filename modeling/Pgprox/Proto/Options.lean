/-
Settings written into `options`, and what the parser reads of them.

An item is read under the name it is written with, dashes included, and its value loses
the blanks it ends in, escaped or not.
-/

import Pgprox.Proto.Startup

namespace Pgprox.Proto

open List Sql

/-- The ways to write a setting: `-c name=value`, `-cname=value` and `--name=value`. -/
inductive OptionForm
  | separate
  | joined
  | long
  deriving DecidableEq

def OptionForm.opening : OptionForm → Text
  | .separate => "-c ".toList
  | .joined => "-c".toList
  | .long => []

def OptionForm.held : OptionForm → Text
  | .separate | .long => []
  | .joined => "-c".toList

def OptionForm.dashes : OptionForm → Text
  | .separate | .joined => []
  | .long => "--".toList

structure OptionItem where
  form : OptionForm
  name : Text
  value : Text
  filled : name ≠ []
  plain : ∀ c ∈ name, c ≠ '=' ∧ c ≠ '-' ∧ c ≠ '\\' ∧ isWhitespace c = false

def escape (text : Text) : Text :=
  text.flatMap fun c => if c = '\\' ∨ isWhitespace c then ['\\', c] else [c]

namespace OptionItem

variable (item : OptionItem)

def pair : Text × Text :=
  (item.name, item.value)

def label : Text :=
  item.form.dashes ++ item.name

def written : Text :=
  item.form.opening ++ (item.label ++ '=' :: escape item.value)

def token : Text :=
  item.form.held ++ (item.label ++ '=' :: item.value)

end OptionItem

def writtenOptions (items : List OptionItem) : Text :=
  [' '].intercalate (items.map OptionItem.written)

def trimEnd (text : Text) : Text :=
  (text.reverse.dropWhile isWhitespace).reverse

/-! ### One setting -/

theorem trim_setting {label : Text} (filled : label ≠ [])
    (visible : ∀ c ∈ label, isWhitespace c = false) (value : Text) :
    trim (label ++ '=' :: value) = label ++ '=' :: trimEnd value := by
  have start : trimStart (label ++ '=' :: value) = label ++ '=' :: value := by
    cases label with
    | nil => exact absurd rfl filled
    | cons c rest => exact dropWhile_cons_of_neg (by simp [visible c mem_cons_self])
  have sign : ('=' :: label.reverse).dropWhile isWhitespace = '=' :: label.reverse := rfl
  unfold trim trimEnd
  rw [start, reverse_append, reverse_cons, append_assoc, singleton_append, dropWhile_append]
  split
  · rename_i nothing
    rw [List.isEmpty_iff.mp nothing, sign]
    simp
  · simp

theorem settingOf_stripped {token label value : Text} (filled : label ≠ [])
    (plain : ∀ c ∈ label, c ≠ '=' ∧ isWhitespace c = false)
    (stripped : (if "-c".toList <+: token then token.drop 2 else token) = label ++ '=' :: value) :
    settingOf token = some (label, trimEnd value) := by
  have visible : ∀ c ∈ label, isWhitespace c = false := fun c listed => (plain c listed).2
  have before : ∀ c ∈ label, decide (c ≠ '=') = true := fun c listed =>
    decide_eq_true (plain c listed).1
  have marked : ¬ (label ++ '=' :: trimEnd value = [] ∨
      label ++ '=' :: trimEnd value = "-c".toList) := by
    rintro (same | same)
    · simp at same
    · exact absurd (same ▸ mem_append_right label mem_cons_self) (by decide)
  unfold settingOf
  dsimp only
  rw [stripped, trim_setting filled visible, if_neg marked, splitOnce,
    span_eq_takeWhile_dropWhile, takeWhile_append_of_pos before, dropWhile_append_of_pos before]
  simp [trim_of_visible visible]

/-! ### The scan -/

theorem escape_append (one two : Text) : escape (one ++ two) = escape one ++ escape two :=
  flatMap_append

theorem foldl_push_char (c : Char) (token : Text) (found : List (Text × Text)) :
    (escape [c]).foldl OptionScan.push ⟨token, false, found⟩ = ⟨token ++ [c], false, found⟩ := by
  by_cases marked : c = '\\' ∨ isWhitespace c
  · simp [escape, marked, OptionScan.push]
  · have blank : c ≠ ' ' := by
      rintro rfl
      exact marked (.inr rfl)
    rw [not_or] at marked
    simp [escape, marked, blank, OptionScan.push]

theorem foldl_push_escape (text token : Text) (found : List (Text × Text)) :
    (escape text).foldl OptionScan.push ⟨token, false, found⟩ = ⟨token ++ text, false, found⟩ := by
  induction text generalizing token with
  | nil => exact congrArg (OptionScan.mk · _ _) (append_nil token).symm
  | cons c later ih =>
    have first : escape (c :: later) = escape [c] ++ escape later := escape_append [c] later
    rw [first, foldl_append, foldl_push_char, ih, append_assoc, singleton_append]

namespace OptionItem

variable (item : OptionItem)

theorem label_plain {c : Char} (listed : c ∈ item.label) :
    c ≠ '\\' ∧ c ≠ '=' ∧ isWhitespace c = false := by
  rcases mem_append.mp listed with dashed | named
  · have dash : c = '-' := by
      revert dashed
      cases item.form <;> simp [OptionForm.dashes]
    rw [dash]
    decide
  · obtain ⟨sign, -, mark, visible⟩ := item.plain c named
    exact ⟨mark, sign, visible⟩

theorem label_ne_nil : item.label ≠ [] :=
  append_ne_nil_of_right_ne_nil _ item.filled

theorem foldl_push_setting (token : Text) (found : List (Text × Text)) :
    (item.label ++ '=' :: escape item.value).foldl OptionScan.push ⟨token, false, found⟩ =
      ⟨token ++ (item.label ++ '=' :: item.value), false, found⟩ := by
  have kept : escape item.label = item.label := by
    unfold escape
    rw [flatMap_congr fun c listed => if_neg ?_, flatMap_singleton']
    have plain := item.label_plain listed
    simp [plain.1, plain.2.2]
  have whole : item.label ++ '=' :: escape item.value =
      escape (item.label ++ '=' :: item.value) := by
    rw [escape_append, kept]
    rfl
  rw [whole, foldl_push_escape]

theorem foldl_push_written (found : List (Text × Text)) :
    item.written.foldl OptionScan.push ⟨[], false, found⟩ = ⟨item.token, false, found⟩ := by
  have opening : item.form.opening.foldl OptionScan.push ⟨[], false, found⟩ =
      ⟨item.form.held, false, found⟩ := by
    cases item.form with
    | separate => exact congrArg (OptionScan.mk _ _) (append_nil found)
    | joined | long => rfl
  rw [written, foldl_append, opening, item.foldl_push_setting, token]

theorem settingOf_token : settingOf item.token = some (item.label, trimEnd item.value) := by
  refine settingOf_stripped item.label_ne_nil
    (fun c listed => (item.label_plain listed).2) ?_
  obtain ⟨first, later, shape⟩ := exists_cons_of_ne_nil item.filled
  have dash := (item.plain first (by rw [shape]; exact mem_cons_self)).2.1
  unfold token label
  rw [shape]
  cases item.form with
  | separate => exact if_neg (by simp [OptionForm.held, OptionForm.dashes, dash.symm])
  | joined => exact if_pos (List.prefix_append _ _)
  | long => exact if_neg (by simp [OptionForm.held, OptionForm.dashes])

theorem label_eq_name_iff : item.label = item.name ↔ item.form ≠ .long := by
  rw [label, append_left_eq_self]
  cases item.form <;> simp [OptionForm.dashes]

theorem boundary_token (found : List (Text × Text)) :
    OptionScan.boundary ⟨item.token, false, found⟩ =
      ⟨[], false, found ++ [(item.label, trimEnd item.value)]⟩ := by
  unfold OptionScan.boundary
  rw [if_neg (by simp [token]), item.settingOf_token]
  rfl

end OptionItem

/-! ### All items -/

theorem foldl_push_writtenOptions (items : List OptionItem) (found : List (Text × Text)) :
    ((writtenOptions items).foldl OptionScan.push ⟨[], false, found⟩).boundary.found =
      found ++ items.map fun item => (item.label, trimEnd item.value) := by
  induction items generalizing found with
  | nil => exact (append_nil found).symm
  | cons item later ih =>
    cases later with
    | nil =>
      unfold writtenOptions
      rw [map_singleton, intercalate_singleton, item.foldl_push_written, item.boundary_token]
      rfl
    | cons other others =>
      have blank : OptionScan.push ⟨item.token, false, found⟩ ' ' =
          OptionScan.boundary ⟨item.token, false, found⟩ := rfl
      unfold writtenOptions at ih ⊢
      rw [map_cons, map_cons, intercalate_cons_cons, ← map_cons, append_assoc, foldl_append,
        item.foldl_push_written, singleton_append, foldl_cons, blank, item.boundary_token, ih,
        append_assoc]
      rfl

/-- What was written is read back exactly when no item has the long form and no value ends
in a blank. -/
theorem options_read_back {startup : Startup} {items : List OptionItem}
    (asked : startup.param "options" = some (writtenOptions items)) :
    startup.options = items.map OptionItem.pair ↔
      ∀ item ∈ items, item.form ≠ .long ∧ trimEnd item.value = item.value := by
  have read : startup.options = items.map fun item => (item.label, trimEnd item.value) := by
    unfold Startup.options
    rw [asked]
    exact foldl_push_writtenOptions items []
  rw [read, map_inj_left]
  refine forall₂_congr fun item _ => ?_
  rw [OptionItem.pair, Prod.mk.injEq, item.label_eq_name_iff]

def longItem : OptionItem :=
  ⟨.long, "geqo".toList, "off".toList, by decide, by simp [isWhitespace]⟩

def paddedItem : OptionItem :=
  ⟨.separate, "search_path".toList, "a ".toList, by decide, by simp [isWhitespace]⟩

def asking (items : List OptionItem) : Startup :=
  .startupMessage 196608 [("options".toList, writtenOptions items)]

def spacedItem : OptionItem :=
  ⟨.separate, "search_path".toList, "a, b".toList, by decide, by simp [isWhitespace]⟩

theorem options_read_back_asking :
    (asking [spacedItem, spacedItem]).options = [spacedItem, spacedItem].map OptionItem.pair ∧
      (asking [spacedItem, longItem]).options ≠ [spacedItem, longItem].map OptionItem.pair := by
  constructor
  · exact (options_read_back (by decide +kernel)).mpr (by decide +kernel)
  · intro read
    have plain := (options_read_back (by decide +kernel)).mp read longItem (by simp)
    exact plain.1 rfl

theorem options_misread :
    (asking [longItem]).options = [("--geqo".toList, "off".toList)] ∧
      (asking [paddedItem]).options = [("search_path".toList, "a".toList)] := by decide +kernel

end Pgprox.Proto
