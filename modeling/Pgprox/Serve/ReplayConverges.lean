/-
What the proxy records of its own replay.

The replayed statements go through the parser that records a client's, so the record of the
connection is to become the session's.  A name is read back when it is one word, and a value
when quoting leaves it as it is.
-/

import Pgprox.Pool.Recorded
import Pgprox.Serve.ReplayText

namespace Pgprox.Serve

open Pools Sql Reference

/-! ### White space around a text -/

theorem isWhitespace_of_isBareChar {c : Char} (bare : isBareChar c = true) :
    isWhitespace c = false := by
  simp only [isBareChar, Bool.or_eq_true, Bool.and_eq_true, decide_eq_true_eq, or_assoc] at bare
  rcases bare with ⟨-, letter⟩ | rfl | rfl | rfl
  · exact isWhitespace_of_isAlphanum letter
  · rfl
  · rfl
  · rfl

/-! ### Names -/

theorem next_letters {first : Char} {more rest : Text}
    (letters : (first :: more).all isWordChar = true) (visible : isWhitespace first = false)
    (ends : ∀ c ∈ rest.head?, c = ' ') :
    next (first :: more ++ rest) = some (.word (first :: more), rest) := by
  obtain ⟨letter, others⟩ := Bool.and_eq_true_iff.mp letters
  have solid : skipTrivia (first :: (more ++ rest)) = first :: (more ++ rest) :=
    solid_of_isWordChar letter (.inr visible) _
  have stops : ∀ c ∈ rest.head?, isWordChar c = false := by
    rintro c head
    rw [ends c head]
    rfl
  have opens (c : Char) (start : String) (head : start.toList.head? = some c) (other : c ≠ ' ') :
      startsWith rest start ≠ true := by
    intro starts
    obtain ⟨later, rfl⟩ := exists_of_startsWith starts
    rw [List.head?_append, head] at ends
    exact other (ends c rfl)
  have plain : wordToken (first :: more) rest = (.word (first :: more), rest) :=
    wordToken_plain fun _ =>
      ⟨opens '\'' "'" rfl (by decide), fun _ => opens '&' "&'" rfl (by decide)⟩
  unfold next
  rw [List.cons_append, solid]
  dsimp only
  rw [tokenAt_word letter, takeWhile_append_of_ends others stops,
    dropWhile_append_of_ends others stops, plain]

variable {name : Text}

theorem next_oneWord {rest : Text} (one : OneWord name) (ends : ∀ c ∈ rest.head?, c = ' ') :
    next (name ++ rest) = some (.word name, rest) := by
  cases name with
  | nil => exact absurd rfl one.filled
  | cons first more => exact next_letters one.word one.visible ends

theorem next_oneWord_end (one : OneWord name) : next name = some (.word name, []) := by
  have whole : next (name ++ []) = some (.word name, []) := next_oneWord one (by simp)
  rwa [List.append_nil] at whole

theorem next_set (rest : Text) :
    next ("SET ".toList ++ rest) = some (.word "SET".toList, ' ' :: rest) :=
  @next_letters 'S' "ET".toList (' ' :: rest) rfl rfl (by simp)

/-! ### Values -/

def readBack (value : Text) : Text :=
  unquote (trim (skipTrivia (' ' :: quote value)))

/-- A value without quotes in it, that is not written as a comment. -/
structure Unaltered (value : Text) : Prop where
  quotes : '\'' ∉ value
  comment : Bare value → ¬ "--".toList <+: value

variable (value : Text)

theorem length_doubled : (doubled value).length = value.length + value.count '\'' := by
  unfold doubled
  induction value with
  | nil => rfl
  | cons c rest ih =>
    rw [List.flatMap_cons, List.length_append, ih]
    by_cases quote : c = '\''
    · simp [quote]
      omega
    · simp [quote]
      omega

theorem doubled_eq_self_iff : doubled value = value ↔ '\'' ∉ value := by
  constructor
  · intro same
    have lengths := length_doubled value
    rw [same] at lengths
    exact List.count_eq_zero.mp (by omega)
  · intro none
    unfold doubled
    induction value with
    | nil => rfl
    | cons c rest ih =>
      rw [List.mem_cons, not_or] at none
      rw [List.flatMap_cons, if_neg (Ne.symm none.1), ih none.2]
      rfl

theorem unquote_of_bare {value : Text} (bare : Bare value) : unquote value = value := by
  obtain ⟨filled, letters⟩ := bare
  obtain ⟨first, rest, rfl⟩ := List.exists_cons_of_ne_nil filled
  have here := (Bool.and_eq_true_iff.mp letters).1
  have plain (c : Char) (other : isBareChar c = false) : (first :: rest).head? ≠ some c :=
    fun same => isBareChar_ne here other (Option.some.inj same)
  unfold unquote
  rw [if_neg fun both => plain '\'' rfl both.2.1, if_neg fun both => plain '"' rfl both.2.1]

theorem readBack_of_bare {value : Text} (bare : Bare value) (shown : ¬ "--".toList <+: value) :
    readBack value = value := by
  obtain ⟨filled, letters⟩ := bare
  have visible : ∀ c ∈ value, isWhitespace c = false := fun c among =>
    isWhitespace_of_isBareChar (List.all_eq_true.mp letters c among)
  have solid : skipTrivia value = value := by
    obtain ⟨first, rest, rfl⟩ := List.exists_cons_of_ne_nil filled
    have here := (Bool.and_eq_true_iff.mp letters).1
    refine solid_cons ?_ (.inr (visible first List.mem_cons_self)) ?_ ?_
    · rw [Bool.eq_false_iff]
      intro space
      have blank := isSpace_of_isAsciiWhitespace space
      rw [isSpace_of_isBareChar here] at blank
      cases blank
    · rintro ⟨rfl, dash⟩
      obtain ⟨more, rfl⟩ := exists_of_startsWith dash
      exact shown ⟨more, rfl⟩
    · rintro ⟨rfl, -⟩
      exact absurd here (by decide)
  unfold readBack
  rw [quote_of_bare ⟨filled, letters⟩, skipTrivia_space rfl, solid, trim_of_visible visible,
    unquote_of_bare ⟨filled, letters⟩]

theorem afterLineComment_of_bare {text : Text} (bare : text.all isBareChar = true) :
    afterLineComment text = [] := by
  refine List.dropWhile_eq_nil_iff.mpr fun c among => ?_
  have here := List.all_eq_true.mp bare c among
  have newline : c ≠ '\n' := isBareChar_ne here (by decide)
  have carriage : c ≠ '\r' := isBareChar_ne here (by decide)
  simp [isNewline, newline, carriage]

/-- Two dashes hide the rest of the line, and a bare value has only one. -/
theorem readBack_of_comment {value : Text} (bare : Bare value) (hidden : "--".toList <+: value) :
    readBack value = [] := by
  obtain ⟨more, rfl⟩ := hidden
  have none : afterLineComment ('-' :: more) = [] :=
    afterLineComment_of_bare (Bool.and_eq_true_iff.mp bare.2).2
  have skipped : skipTrivia ("--".toList ++ more) = [] := by
    rw [show "--".toList ++ more = '-' :: '-' :: more from rfl,
      skipTrivia_lineComment rfl (by rw [none]; rfl), none]
    rfl
  unfold readBack
  rw [quote_of_bare bare, skipTrivia_space rfl, skipped]
  rfl

theorem readBack_of_not_bare {value : Text} (quoted : ¬ Bare value) :
    readBack value = doubled value := by
  have solid : skipTrivia (quotedText value) = quotedText value :=
    solid_symbol rfl rfl (by decide) (by decide) _
  have ends : (quotedText value).getLast? = some '\'' := by
    unfold quotedText
    rw [← List.cons_append]
    exact List.getLast?_concat
  have trimmed : trim (quotedText value) = quotedText value := trim_of_ends rfl ends rfl rfl
  have long : 2 ≤ (quotedText value).length := by
    unfold quotedText
    rw [List.length_cons, List.length_append, List.length_singleton]
    omega
  unfold readBack
  rw [quote_of_not_bare quoted, skipTrivia_space rfl, solid, trimmed, unquote,
    if_pos ⟨long, rfl, ends⟩]
  unfold quotedText
  rw [List.drop_one, List.tail_cons, List.dropLast_concat]

theorem readBack_eq_iff : readBack value = value ↔ Unaltered value := by
  by_cases bare : Bare value
  · have quotes : '\'' ∉ value := fun among =>
      isBareChar_ne (List.all_eq_true.mp bare.2 _ among) (by decide) rfl
    by_cases hidden : "--".toList <+: value
    · rw [readBack_of_comment bare hidden]
      exact iff_of_false (Ne.symm bare.1) fun unaltered => unaltered.comment bare hidden
    · exact iff_of_true (readBack_of_bare bare hidden) ⟨quotes, fun _ => hidden⟩
  · rw [readBack_of_not_bare bare, doubled_eq_self_iff]
    exact ⟨fun none => ⟨none, fun other => absurd other bare⟩, Unaltered.quotes⟩

/-! ### One statement -/

theorem semicolon_of_token {text : Text} (separates : .semicolon ∈ tokensOf text) :
    ';' ∈ text := by
  induction size : text.length using Nat.strong_induction_on generalizing text with
  | _ size ih =>
    subst size
    cases read : next text with
    | none =>
      rw [(next_eq_none_iff text).mp read] at separates
      cases separates
    | some taken =>
      obtain ⟨token, after⟩ := taken
      rw [tokensOf_of_next read, List.mem_cons] at separates
      rcases separates with here | later
      · subst here
        unfold next at read
        split at read
        · cases read
        · rename_i first rest shape
          have taken := tokenAt_taken first rest
          rw [Option.some.inj read] at taken
          cases taken with
          | semicolon =>
            have member : ';' ∈ skipTrivia text := by
              rw [shape, ‹first = ';'›]
              exact List.mem_cons_self
            exact (skipTriviaWithin_suffix _ _).subset member
      · exact (next_suffix read).subset (ih _ (next_length_lt read) later rfl)

theorem statementsFrom_of_plain {lexemes : List Lexeme} {start : Text}
    (plain : .semicolon ∉ lexemes.map Lexeme.token) :
    statementsFrom start lexemes = pushStatement start := by
  induction lexemes with
  | nil => rfl
  | cons lexeme later ih =>
    rw [List.map_cons, List.mem_cons, not_or] at plain
    rw [statementsFrom, if_neg (Ne.symm plain.1), ih plain.2]

theorem statements_of_plain {sql : Text} (plain : .semicolon ∉ tokensOf sql)
    (filled : tokensOf sql ≠ []) : statements sql = [sql] := by
  unfold statements
  rw [statementsFrom_of_plain plain, pushStatement, if_neg]
  exact fun trivia => filled ((tokensOf_eq_nil_iff sql).mpr trivia)

theorem observeStatement_of_plain {sql : Text} (plain : .semicolon ∉ tokensOf sql)
    (filled : tokensOf sql ≠ []) (params : SessionParams) (allowlist : Replayable) :
    params.observeStatement sql allowlist = (params.observeOne sql allowlist).1 := by
  unfold SessionParams.observeStatement
  rw [statements_of_plain plain filled]
  rfl

theorem tokensOf_quote {value : Text} : .semicolon ∉ tokensOf (quote value) := by
  by_cases bare : Bare value
  · rw [quote_of_bare bare]
    intro separates
    exact absurd (List.all_eq_true.mp bare.2 _ (semicolon_of_token separates)) (by decide)
  · have solid : skipTrivia (quotedText value) = quotedText value :=
      solid_symbol rfl rfl (by decide) (by decide) _
    have closed : afterString false (doubled value ++ ['\'']) = [] :=
      afterString_doubled (.inl rfl) (by simp)
    have read : next (quotedText value) = some (.quoted, []) := by
      unfold next
      rw [solid]
      unfold quotedText
      dsimp only
      rw [tokenAt_string, closed]
    rw [quote_of_not_bare bare, tokensOf_of_next read]
    decide

/-! ### What is recorded of a `SET` -/

def isScopeWord (name : Text) : Bool :=
  eqIgnoreAsciiCase name "local" || eqIgnoreAsciiCase name "session" ||
    eqIgnoreAsciiCase name "transaction" || eqIgnoreAsciiCase name "constraints"

theorem next_equals : next (" = ".toList ++ value) = some (.punct '=', ' ' :: value) := by
  have solid : skipTrivia ('=' :: ' ' :: value) = '=' :: ' ' :: value :=
    solid_symbol rfl rfl (by decide) (by decide) _
  change next (' ' :: '=' :: ' ' :: value) = _
  rw [next_space rfl]
  unfold next
  rw [solid]
  dsimp only
  rw [tokenAt_symbol (by decide) (by decide)]

theorem next_name (one : OneWord name) (value : Text) :
    next (' ' :: (name ++ " = ".toList ++ value)) = some (.word name, " = ".toList ++ value) := by
  rw [next_space rfl, List.append_assoc, next_oneWord one (by simp)]

theorem setText_eq (name value : Text) :
    setText name value = "SET ".toList ++ (name ++ " = ".toList ++ value) := by
  simp [setText]

theorem semicolon_notMem_setText (one : OneWord name) (value : Text) :
    .semicolon ∉ tokensOf (setText name (quote value)) := by
  rw [setText_eq, tokensOf_of_next (next_set _), tokensOf_of_next (next_name one _),
    tokensOf_of_next (next_equals _)]
  simp [tokensOf_space, tokensOf_quote, isAsciiWhitespace]

theorem parse_setText (one : OneWord name) (value : Text) :
    ParsedSet.parse (setText name (quote value)) =
      if eqIgnoreAsciiCase name "local" then some .scopedToTransaction
      else if eqIgnoreAsciiCase name "session" then none
      else if eqIgnoreAsciiCase name "transaction" || eqIgnoreAsciiCase name "constraints" then
        some .scopedToTransaction
      else some (.set name (readBack value)) := by
  have nameless : ParsedSet.assignment (" = ".toList ++ quote value) = none := by
    unfold ParsedSet.assignment
    rw [next_equals]
  have assigned : ParsedSet.assignment (' ' :: (name ++ " = ".toList ++ quote value)) =
      if eqIgnoreAsciiCase name "transaction" || eqIgnoreAsciiCase name "constraints" then
        some .scopedToTransaction
      else some (.set name (readBack value)) := by
    unfold ParsedSet.assignment
    rw [next_name one]
    dsimp only
    unfold ParsedSet.valueText
    rw [next_equals]
    rfl
  unfold ParsedSet.parse
  rw [setText_eq, next_set]
  change ParsedSet.afterSet _ = _
  unfold ParsedSet.afterSet
  rw [next_name one]
  dsimp only
  rw [nameless, assigned]

theorem parse_setText_of_scope (one : OneWord name) (value : Text)
    (scope : isScopeWord name = true) :
    ParsedSet.parse (setText name (quote value)) = none ∨
      ParsedSet.parse (setText name (quote value)) = some .scopedToTransaction := by
  rw [parse_setText one]
  simp only [isScopeWord] at scope
  split
  · exact .inr rfl
  · split
    · exact .inl rfl
    · rename_i notLocal notSession
      simp only [notLocal, notSession] at scope
      rw [if_pos (by simpa using scope)]
      exact .inr rfl

variable {allowlist : Replayable}

theorem lookup_observe_setText (one : OneWord name) (listed : allowlist.contains name = true)
    (params : SessionParams) (value other : Text) :
    (params.observeStatement (setText name (quote value)) allowlist).values.lookup other =
      if other = name ∧ isScopeWord name = false then some (readBack value)
      else params.values.lookup other := by
  have filled : tokensOf (setText name (quote value)) ≠ [] := by
    rw [setText_eq, tokensOf_of_next (next_set _)]
    exact List.cons_ne_nil _ _
  rw [observeStatement_of_plain (semicolon_notMem_setText one value) filled]
  unfold SessionParams.observeOne
  cases scope : isScopeWord name with
  | true =>
    rw [if_neg (by simp)]
    rcases parse_setText_of_scope one value scope with unread | ignored
    · rw [unread]
    · rw [ignored]
  | false =>
    simp only [isScopeWord, Bool.or_eq_false_iff] at scope
    obtain ⟨⟨⟨isLocal, isSession⟩, isTransaction⟩, isConstraints⟩ := scope
    rw [parse_setText one]
    simp only [isLocal, isSession, isTransaction, isConstraints, one.normal, listed, and_true,
      Bool.or_false, Bool.false_eq_true, if_false, if_true]
    unfold SessionParams.record
    rw [one.normal, AList.lookup_insert_if]

/-! ### What is recorded of a `RESET` -/

def resetText (name : Text) : Text :=
  "RESET ".toList ++ name

theorem next_resetText (name : Text) :
    next (resetText name) = some (.word "RESET".toList, ' ' :: name) :=
  @next_letters 'R' "ESET".toList (' ' :: name) rfl rfl (by simp)

structure Resettable (name : Text) : Prop where
  single : ';' ∉ name
  notAll : ∀ word after, next name = some (.word word, after) →
    eqIgnoreAsciiCase word "all" = false

theorem semicolon_notMem_resetText (single : ';' ∉ name) :
    .semicolon ∉ tokensOf (resetText name) := by
  intro separates
  have among := semicolon_of_token separates
  unfold resetText at among
  rw [List.mem_append] at among
  rcases among with here | here
  · exact absurd here (by decide)
  · exact single here

theorem observe_resetText (single : ';' ∉ name) (params : SessionParams) (allowlist : Replayable) :
    params.observeStatement (resetText name) allowlist =
      match next name with
      | some (.word word, _) =>
        if eqIgnoreAsciiCase word "all" then .new
        else if allowlist.contains (normalise word) then params.clear (normalise word)
        else params
      | _ => params := by
  have filled : tokensOf (resetText name) ≠ [] := by
    rw [tokensOf_of_next (next_resetText name)]
    exact List.cons_ne_nil _ _
  have parsed : ParsedSet.parse (resetText name) =
      match next name with
      | some (.word word, _) =>
        if eqIgnoreAsciiCase word "all" then some .resetAll else some (.reset word)
      | _ => none := by
    have other : eqIgnoreAsciiCase "RESET".toList "discard" = false := by decide
    have verb : eqIgnoreAsciiCase "RESET".toList "reset" = true := by decide
    have rest : next (' ' :: name) = next name := next_space rfl name
    unfold ParsedSet.parse
    cases read : next name with
    | none =>
      simp only [next_resetText, other, verb, rest, read, Bool.false_eq_true, if_false, if_true]
    | some taken =>
      obtain ⟨token, after⟩ := taken
      cases token <;>
        simp only [next_resetText, other, verb, rest, read, Bool.false_eq_true, if_false,
          if_true]
  rw [observeStatement_of_plain (semicolon_notMem_resetText single) filled]
  unfold SessionParams.observeOne
  simp only [parsed]
  cases next name with
  | none => rfl
  | some taken =>
    obtain ⟨token, after⟩ := taken
    cases token with
    | word word =>
      by_cases all : eqIgnoreAsciiCase word "all" = true
      · simp only [all]
        rfl
      · simp only [all, Bool.false_eq_true, if_false]
        split
        · unfold SessionParams.clear
          rw [normalise_normalise]
        · rfl
    | quoted | semicolon | punct => rfl

theorem lookup_observe_resetText (resets : Resettable name) (params : SessionParams)
    (other : Text) :
    (params.observeStatement (resetText name) allowlist).values.lookup other =
        params.values.lookup other ∨
      ((params.observeStatement (resetText name) allowlist).values.lookup other = none ∧
        OneWord other) := by
  rw [observe_resetText resets.single]
  split
  · rename_i word after read
    rw [if_neg (by simp [resets.notAll word after read])]
    split
    · unfold SessionParams.clear
      rw [normalise_normalise, AList.lookup_erase_if]
      split
      · rename_i same
        exact .inr ⟨rfl, same ▸ oneWord_normalise read⟩
      · exact .inl rfl
    · exact .inl rfl
  · exact .inl rfl

theorem lookup_observe_resetText_oneWord (one : OneWord name)
    (listed : allowlist.contains name = true) (resets : Resettable name) (params : SessionParams)
    (other : Text) :
    (params.observeStatement (resetText name) allowlist).values.lookup other =
      if other = name then none else params.values.lookup other := by
  have read := next_oneWord_end one
  rw [observe_resetText resets.single, read]
  dsimp only
  rw [if_neg (by simp [resets.notAll name [] read]), one.normal, if_pos listed]
  unfold SessionParams.clear
  rw [one.normal, AList.lookup_erase_if]

/-! ### The whole replay -/

def observeEach (allowlist : Replayable) (params : SessionParams) (texts : List Text) :
    SessionParams :=
  texts.foldl (fun params sql => params.observeStatement sql allowlist) params

def toSet (params current : SessionParams) : List (Text × Text) :=
  params.sorted.filter fun entry => current.values.lookup entry.1 ≠ some entry.2

def toReset (params current : SessionParams) : List Text :=
  (current.sorted.filter fun entry => (params.values.lookup entry.1).isNone).map Prod.fst

variable (params current : SessionParams)

theorem replayOnto_eq :
    params.replayOnto current =
      ((toSet params current).map fun entry => setText entry.1 (quote entry.2)) ++
        (toReset params current).map resetText := by
  unfold toReset
  rw [List.map_map]
  rfl

theorem mem_toSet_iff (name value : Text) :
    (name, value) ∈ toSet params current ↔
      params.values.lookup name = some value ∧ current.values.lookup name ≠ some value := by
  unfold toSet
  rw [List.mem_filter, SessionParams.mem_sorted_iff, decide_eq_true_eq]

theorem mem_toReset_iff (name : Text) :
    name ∈ toReset params current ↔
      params.values.lookup name = none ∧ current.values.lookup name ≠ none := by
  unfold toReset
  rw [List.mem_map]
  constructor
  · rintro ⟨⟨_, value⟩, kept, rfl⟩
    obtain ⟨present, absent⟩ := List.mem_filter.mp kept
    refine ⟨Option.isNone_iff_eq_none.mp absent, ?_⟩
    rw [SessionParams.mem_sorted_iff.mp present]
    exact nofun
  · rintro ⟨absent, present⟩
    obtain ⟨value, held⟩ := Option.ne_none_iff_exists'.mp present
    exact ⟨(name, value), List.mem_filter.mpr
      ⟨SessionParams.mem_sorted_iff.mpr held, Option.isNone_iff_eq_none.mpr absent⟩, rfl⟩

theorem observeEach_recorded {value : Text} (texts : List Text) :
    ∀ {params : SessionParams},
      (observeEach allowlist params texts).values.lookup name = some value →
        params.values.lookup name = some value ∨ OneWord name := by
  induction texts with
  | nil => exact .inl
  | cons sql later ih =>
    intro params after
    rcases ih after with before | word
    · exact observeStatement_recorded before
    · exact .inr word

theorem lookup_observeEach_set {session : SessionParams} (name : Text)
    {entries : List (Text × Text)} :
    ∀ (params : SessionParams), (∀ entry ∈ entries, OneWord entry.1 ∧
        allowlist.contains entry.1 = true ∧ session.values.lookup entry.1 = some entry.2) →
      (observeEach allowlist params
          (entries.map fun entry => setText entry.1 (quote entry.2))).values.lookup name =
        if name ∈ entries.map Prod.fst ∧ isScopeWord name = false then
          (session.values.lookup name).map readBack
        else params.values.lookup name := by
  induction entries with
  | nil => simp [observeEach]
  | cons entry later ih =>
    intro params all
    obtain ⟨one, listed, present⟩ := all entry List.mem_cons_self
    have rest := ih (params.observeStatement (setText entry.1 (quote entry.2)) allowlist)
      fun other among => all other (List.mem_cons_of_mem _ among)
    rw [List.map_cons, observeEach, List.foldl_cons, ← observeEach, rest,
      lookup_observe_setText one listed, List.map_cons]
    by_cases same : name = entry.1
    · subst same
      rw [present]
      cases isScopeWord entry.1 <;> simp
    · simp only [List.mem_cons, same, false_or, false_and, if_false]

theorem lookup_observeEach_reset (name : Text) {names : List Text} :
    ∀ (params : SessionParams), (∀ listed ∈ names, OneWord listed ∧
        allowlist.contains listed = true ∧ Resettable listed) →
      (observeEach allowlist params (names.map resetText)).values.lookup name =
        if name ∈ names then none else params.values.lookup name := by
  induction names with
  | nil => simp [observeEach]
  | cons first later ih =>
    intro params all
    obtain ⟨one, listed, resets⟩ := all first List.mem_cons_self
    have rest := ih (params.observeStatement (resetText first) allowlist)
      fun other among => all other (List.mem_cons_of_mem _ among)
    rw [List.map_cons, observeEach, List.foldl_cons, ← observeEach, rest,
      lookup_observe_resetText_oneWord one listed resets]
    by_cases same : name = first
    · simp [same]
    · simp [same]

theorem observeEach_reset_kept (name : Text) {names : List Text} :
    ∀ (params : SessionParams), (∀ listed ∈ names, Resettable listed) →
      (observeEach allowlist params (names.map resetText)).values.lookup name =
          params.values.lookup name ∨
        ((observeEach allowlist params (names.map resetText)).values.lookup name = none ∧
          OneWord name) := by
  induction names with
  | nil => exact fun _ _ => .inl rfl
  | cons first later ih =>
    intro params all
    rw [List.map_cons, observeEach, List.foldl_cons, ← observeEach]
    rcases ih (params.observeStatement (resetText first) allowlist)
      (fun other among => all other (List.mem_cons_of_mem _ among)) with same | gone
    · rw [same]
      exact lookup_observe_resetText (all first List.mem_cons_self) params name
    · exact .inr gone

theorem observeEach_append (allowlist : Replayable) (params : SessionParams)
    (texts later : List Text) :
    observeEach allowlist params (texts ++ later) =
      observeEach allowlist (observeEach allowlist params texts) later :=
  List.foldl_append

/-! ### Convergence -/

def RecordsOnly (allowlist : Replayable) (params : SessionParams) : Prop :=
  ∀ name, params.values.lookup name ≠ none → allowlist.contains name = true

def SameParams (params other : SessionParams) : Prop :=
  ∀ name, params.values.lookup name = other.values.lookup name

def ReadsBack (session current : SessionParams) : Prop :=
  ∀ name, session.values.lookup name ≠ current.values.lookup name →
    OneWord name ∧ ∀ value, session.values.lookup name = some value →
      isScopeWord name = false ∧ Unaltered value

theorem replayOnto_eq_nil {session current : SessionParams} (alike : SameParams current session) :
    session.replayOnto current = [] := by
  have none : toSet session current = [] := by
    refine List.eq_nil_iff_forall_not_mem.mpr fun entry among => ?_
    obtain ⟨present, differs⟩ := (mem_toSet_iff _ _ entry.1 entry.2).mp among
    exact differs ((alike entry.1).trans present)
  have still : toReset session current = [] := by
    refine List.eq_nil_iff_forall_not_mem.mpr fun name among => ?_
    obtain ⟨absent, present⟩ := (mem_toReset_iff _ _ name).mp among
    exact present ((alike name).trans absent)
  rw [replayOnto_eq, none, still]
  rfl

section Convergence

variable {allowlist : Replayable} {session current : SessionParams}

theorem settable (recorded : RecordsOnly allowlist session)
    (words : ∀ name value, session.values.lookup name = some value →
      current.values.lookup name ≠ some value → OneWord name) :
    ∀ entry ∈ toSet session current, OneWord entry.1 ∧ allowlist.contains entry.1 = true ∧
      session.values.lookup entry.1 = some entry.2 := by
  rintro ⟨name, value⟩ among
  obtain ⟨present, differs⟩ := (mem_toSet_iff _ _ _ _).mp among
  exact ⟨words name value present differs, recorded name (by simp [present]), present⟩

theorem mem_names_toSet_iff (name : Text) :
    name ∈ (toSet session current).map Prod.fst ↔
      session.values.lookup name ≠ none ∧
        session.values.lookup name ≠ current.values.lookup name := by
  rw [List.mem_map]
  constructor
  · rintro ⟨⟨_, value⟩, among, rfl⟩
    obtain ⟨present, differs⟩ := (mem_toSet_iff _ _ _ _).mp among
    rw [present]
    exact ⟨nofun, Ne.symm differs⟩
  · rintro ⟨present, differs⟩
    obtain ⟨value, held⟩ := Option.ne_none_iff_exists'.mp present
    rw [held] at differs
    exact ⟨(name, value), (mem_toSet_iff _ _ _ _).mpr ⟨held, Ne.symm differs⟩, rfl⟩

theorem lookup_replayed (recorded : RecordsOnly allowlist session)
    (held : RecordsOnly allowlist current)
    (named : ∀ name, current.values.lookup name ≠ none → Resettable name)
    (words : ∀ name, session.values.lookup name ≠ current.values.lookup name → OneWord name)
    (name : Text) :
    (observeEach allowlist current (session.replayOnto current)).values.lookup name =
      if session.values.lookup name = current.values.lookup name ∨
          (isScopeWord name = true ∧ session.values.lookup name ≠ none) then
        current.values.lookup name
      else (session.values.lookup name).map readBack := by
  have sets := settable recorded fun name value present differs => words name (by
    rw [present]
    exact Ne.symm differs)
  have resets : ∀ listed ∈ toReset session current, OneWord listed ∧
      allowlist.contains listed = true ∧ Resettable listed := by
    intro listed among
    obtain ⟨absent, present⟩ := (mem_toReset_iff _ _ _).mp among
    exact ⟨words listed (absent ▸ Ne.symm present), held listed present, named listed present⟩
  rw [replayOnto_eq, observeEach_append, lookup_observeEach_reset name _ resets,
    lookup_observeEach_set name _ sets]
  simp only [mem_names_toSet_iff, mem_toReset_iff]
  cases session.values.lookup name with
  | none =>
    cases current.values.lookup name with
    | none | some => simp
  | some value =>
    by_cases same : some value = current.values.lookup name
    · simp [same]
    · cases isScopeWord name <;> simp [same]

theorem oneWord_of_alike (recorded : RecordsOnly allowlist session)
    (named : ∀ name, current.values.lookup name ≠ none → Resettable name)
    (alike : SameParams (observeEach allowlist current (session.replayOnto current)) session)
    (name : Text) (differs : session.values.lookup name ≠ current.values.lookup name) :
    OneWord name := by
  have words (name value : Text) (present : session.values.lookup name = some value)
      (differs : current.values.lookup name ≠ some value) : OneWord name := by
    rcases observeEach_recorded _ ((alike name).trans present) with before | word
    · exact absurd before differs
    · exact word
  cases present : session.values.lookup name with
  | some value =>
    rw [present] at differs
    exact words name value present differs.symm
  | none =>
    -- The statements that set leave the name alone, so that one that resets took it away.
    have last := (alike name).trans present
    rw [replayOnto_eq, observeEach_append] at last
    rcases observeEach_reset_kept name
      (observeEach allowlist current
        ((toSet session current).map fun entry => setText entry.1 (quote entry.2)))
      (fun listed among => named listed ((mem_toReset_iff _ _ _).mp among).2)
      with same | ⟨-, word⟩
    · rw [last, lookup_observeEach_set name _ (settable recorded words), if_neg] at same
      · rw [present] at differs
        exact absurd same differs
      · rw [mem_names_toSet_iff, present]
        exact fun both => both.1.1 rfl
    · exact word

end Convergence

/-- A replay turns the record of the connection into the session's, and a second one has
nothing to say, exactly when what differs is read back as it was. -/
theorem replay_converges_iff (allowlist : Replayable) (session current : SessionParams)
    (recorded : RecordsOnly allowlist session) (held : RecordsOnly allowlist current)
    (named : ∀ name, current.values.lookup name ≠ none → Resettable name) :
    let after := observeEach allowlist current (session.replayOnto current)
    (SameParams after session ∧ session.replayOnto after = []) ↔ ReadsBack session current := by
  intro after
  constructor
  · rintro ⟨alike, -⟩ name differs
    have words := oneWord_of_alike recorded named alike
    refine ⟨words name differs, fun value present => ?_⟩
    have last := alike name
    rw [lookup_replayed recorded held named words] at last
    split at last
    · exact absurd last.symm differs
    · rename_i kept
      rw [present] at last kept differs
      refine ⟨?_, (readBack_eq_iff value).mp (Option.some.inj last)⟩
      rw [Bool.eq_false_iff]
      exact fun scope => kept (.inr ⟨scope, nofun⟩)
  · intro reads
    have alike : SameParams after session := by
      intro name
      rw [lookup_replayed recorded held named fun name differs => (reads name differs).1]
      split
      · rename_i kept
        rcases kept with same | ⟨scope, present⟩
        · exact same.symm
        · by_contra differs
          obtain ⟨value, shown⟩ := Option.ne_none_iff_exists'.mp present
          have plain := ((reads name (Ne.symm differs)).2 value shown).1
          rw [plain] at scope
          cases scope
      · rename_i kept
        rw [not_or] at kept
        cases shown : session.values.lookup name with
        | none => rfl
        | some value =>
          have unaltered := ((reads name kept.1).2 value shown).2
          exact congrArg some ((readBack_eq_iff value).mpr unaltered)
    exact ⟨alike, replayOnto_eq_nil alike⟩

theorem shipped_names (listed : Replayable.default.contains name = true) :
    OneWord name ∧ isScopeWord name = false ∧ Resettable name := by
  obtain ⟨known, among, same⟩ := List.any_eq_true.mp listed
  obtain rfl := of_decide_eq_true same
  have all : ∀ known ∈ Replayable.default.names, known.toList ≠ [] ∧
      known.toList.all isWordChar = true ∧ normalise known.toList = known.toList ∧
      isScopeWord known.toList = false ∧ ';' ∉ known.toList ∧
      eqIgnoreAsciiCase known.toList "all" = false := by
    decide +kernel
  obtain ⟨filled, letters, normal, plain, single, other⟩ := all known among
  have one : OneWord known.toList := ⟨filled, letters, normal⟩
  refine ⟨one, plain, single, fun word after read => ?_⟩
  rw [next_oneWord_end one] at read
  cases read
  exact other

theorem lookup_record_new (name value other : Text) :
    (SessionParams.new.record name value).values.lookup other =
      if other = normalise name then some value else none := by
  unfold SessionParams.record
  rw [AList.lookup_insert_if]
  rfl

theorem within_record_new (listed : allowlist.contains (normalise name) = true) :
    RecordsOnly allowlist (SessionParams.new.record name value) := by
  intro other present
  rw [lookup_record_new] at present
  split at present
  · rename_i same
    rw [same]
    exact listed
  · exact absurd rfl present

/-- A value with a quote in it is recorded with two. -/
theorem quote_is_doubled :
    let session := SessionParams.new.record "application_name".toList "it's".toList
    let after := observeEach .default .new (session.replayOnto .new)
    RecordsOnly .default session ∧ RecordsOnly .default .new ∧ ¬ SameParams after session := by
  intro session after
  refine ⟨within_record_new _ (by decide +kernel), fun _ present => absurd rfl present, ?_⟩
  intro alike
  exact absurd (alike "application_name".toList) (by decide +kernel)

theorem plain_values_converge :
    let session := SessionParams.new.record "search_path".toList "app, public".toList
    let current := SessionParams.new.record "timezone".toList "UTC".toList
    let after := observeEach .default current (session.replayOnto current)
    SameParams after session ∧ session.replayOnto after = [] := by
  intro session current after
  have recorded : RecordsOnly .default session := within_record_new _ (by decide +kernel)
  have held : RecordsOnly .default current := within_record_new _ (by decide +kernel)
  refine (replay_converges_iff .default session current recorded held
    fun name present => (shipped_names (held name present)).2.2).mpr ?_
  intro name differs
  have listed : Replayable.default.contains name = true := by
    by_cases present : session.values.lookup name = none
    · exact held name (present ▸ Ne.symm differs)
    · exact recorded name present
  refine ⟨(shipped_names listed).1, fun value present => ⟨(shipped_names listed).2.1, ?_⟩⟩
  rw [lookup_record_new] at present
  split at present
  · cases present
    exact ⟨by decide, fun bare => absurd bare (by decide)⟩
  · cases present

end Pgprox.Serve
