/-
The lexer looks no further than the token it reads.

A token that ends inside a text is read the same whatever follows the text.  So the
statements of a message, lexed one by one, give the tokens of the message.
-/

import Pgprox.Sql.Lexer

namespace Pgprox.Sql

open List

/-! ### Where quoted text and comments end, with text behind them -/

variable {text more : List Char}

theorem dropWhile_append_of_lt {p : Char → Bool}
    (longer : more.length < ((text ++ more).dropWhile p).length) :
    (text ++ more).dropWhile p = text.dropWhile p ++ more := by
  induction text with
  | nil =>
    have shorter := (dropWhile_sublist p (l := more)).length_le
    rw [nil_append] at longer
    omega
  | cons c rest ih =>
    rw [cons_append] at longer ⊢
    by_cases dropped : p c
    · rw [dropWhile_cons_of_pos dropped] at longer ⊢
      rw [dropWhile_cons_of_pos dropped]
      exact ih longer
    · rw [dropWhile_cons_of_neg dropped, dropWhile_cons_of_neg dropped]
      rfl

theorem takeWhile_append_of_le {p : Char → Bool} (text : List Char)
    (inside : ((text ++ more).takeWhile p).length ≤ text.length) :
    (text ++ more).takeWhile p = text.takeWhile p := by
  induction text with
  | nil => exact length_eq_zero_iff.mp (Nat.le_zero.mp inside)
  | cons c rest ih =>
    rw [cons_append] at inside ⊢
    by_cases taken : p c
    · rw [takeWhile_cons_of_pos taken] at inside ⊢
      rw [takeWhile_cons_of_pos taken, ih (Nat.le_of_succ_le_succ inside)]
    · rw [takeWhile_cons_of_neg taken, takeWhile_cons_of_neg taken]

theorem findIdx_append_of_lt {p : Char → Bool} {index : Nat}
    (found : (text ++ more).findIdx? p = some index) (inside : index < text.length) :
    text.findIdx? p = some index := by
  rw [findIdx?_append] at found
  cases here : text.findIdx? p with
  | some first =>
    rw [here] at found
    exact found
  | none =>
    rw [here] at found
    obtain ⟨later, -, same⟩ := Option.map_eq_some_iff.mp found
    omega

theorem blockCommentFrom_pair (depth : Nat) (c d : Char) (rest : List Char) :
    blockCommentFrom depth (c :: d :: rest) =
      if c = '/' ∧ d = '*' then 2 + blockCommentFrom (depth + 1) rest
      else if c = '*' ∧ d = '/' then
        if depth = 1 then 2 else 2 + blockCommentFrom (depth - 1) rest
      else 1 + blockCommentFrom depth (d :: rest) := by
  by_cases opens : c = '/' ∧ d = '*'
  · obtain ⟨rfl, rfl⟩ := opens
    rfl
  · rw [if_neg opens]
    by_cases closes : c = '*' ∧ d = '/'
    · obtain ⟨rfl, rfl⟩ := closes
      rfl
    · rw [if_neg closes]
      rw [blockCommentFrom]
      · rintro later rfl same
        obtain ⟨rfl, -⟩ := List.cons.inj same
        exact opens ⟨rfl, rfl⟩
      · rintro later rfl same
        obtain ⟨rfl, -⟩ := List.cons.inj same
        exact closes ⟨rfl, rfl⟩

theorem blockCommentFrom_single (depth : Nat) (c : Char) : blockCommentFrom depth [c] = 1 := by
  rw [blockCommentFrom]
  · rfl
  · exact fun _ _ => nofun
  · exact fun _ _ => nofun

/-- A scan that looks at two characters at a time: it ends there, or it goes on behind the
first of them or behind both. -/
structure Scans {σ : Type} (scan : σ → List Char → Nat) : Prop where
  nil : ∀ state, scan state [] = 0
  single : ∀ state c, scan state [c] = 1
  pair : ∀ state c d, (∃ count, 1 ≤ count ∧ ∀ rest, scan state (c :: d :: rest) = count) ∨
    (∃ next, ∀ rest, scan state (c :: d :: rest) = 1 + scan next (d :: rest)) ∨
    ∃ next, ∀ rest, scan state (c :: d :: rest) = 2 + scan next rest

section

variable {σ : Type} {scan : σ → List Char → Nat} (scans : Scans scan)
include scans

theorem Scans.pos (state : σ) (c : Char) (rest : List Char) : 1 ≤ scan state (c :: rest) := by
  cases rest with
  | nil => exact Nat.le_of_eq (scans.single state c).symm
  | cons d later =>
    rcases scans.pair state c d with ⟨count, some, ends⟩ | ⟨next, goes⟩ | ⟨next, goes⟩
    · rw [ends]
      exact some
    · rw [goes]
      omega
    · rw [goes]
      omega

theorem Scans.append (more : List Char) : ∀ (state : σ) (text : List Char),
    scan state (text ++ more) ≤ text.length → scan state text = scan state (text ++ more)
  | state, [], inside => by
      rw [Nat.le_zero.mp inside, scans.nil]
  | state, [c], inside => by
      rw [scans.single]
      exact Nat.le_antisymm (scans.pos state c more) inside
  | state, c :: d :: rest, inside => by
      rw [cons_append, cons_append, length_cons, length_cons] at inside
      rw [cons_append, cons_append]
      rcases scans.pair state c d with ⟨count, -, ends⟩ | ⟨next, goes⟩ | ⟨next, goes⟩
      · rw [ends, ends]
      · rw [goes] at inside
        rw [goes, goes, ← cons_append, Scans.append more next (d :: rest) (by
          rw [cons_append, length_cons]
          omega)]
      · rw [goes] at inside
        rw [goes, goes, Scans.append more next rest (by omega)]

end

theorem scans_blockComment : Scans blockCommentFrom where
  nil := fun _ => rfl
  single := blockCommentFrom_single
  pair := fun depth c d => by
    simp only [blockCommentFrom_pair]
    by_cases opens : c = '/' ∧ d = '*'
    · exact .inr (.inr ⟨depth + 1, fun rest => if_pos opens⟩)
    · simp only [if_neg opens]
      by_cases closes : c = '*' ∧ d = '/'
      · simp only [if_pos closes]
        by_cases last : depth = 1
        · exact .inl ⟨2, by decide, fun rest => if_pos last⟩
        · exact .inr (.inr ⟨depth - 1, fun rest => if_neg last⟩)
      · exact .inr (.inl ⟨depth, fun rest => if_neg closes⟩)

/-- Where a quote closes, the same quote doubled and what a backslash escapes apart. -/
def quotedFrom (quote : Char) (escapes : Bool) : List Char → Nat
  | [] => 0
  | [_] => 1
  | c :: d :: rest =>
    if c = '\\' ∧ escapes ∨ c = quote ∧ d = quote then 2 + quotedFrom quote escapes rest
    else if c = quote then 1
    else 1 + quotedFrom quote escapes (d :: rest)

theorem scans_quoted (quote : Char) : Scans (quotedFrom quote) where
  nil := fun _ => rfl
  single := fun _ _ => rfl
  pair := fun escapes c d => by
    simp only [quotedFrom]
    by_cases both : c = '\\' ∧ escapes ∨ c = quote ∧ d = quote
    · exact .inr (.inr ⟨escapes, fun rest => if_pos both⟩)
    · simp only [if_neg both]
      by_cases closes : c = quote
      · exact .inl ⟨1, Nat.le_refl 1, fun rest => if_pos closes⟩
      · exact .inr (.inl ⟨escapes, fun rest => if_neg closes⟩)

variable (escapes : Bool) (c : Char)

theorem singleQuotedFrom_single : singleQuotedFrom escapes [c] = 1 := by
  delta singleQuotedFrom
  change (if c = '\\' ∧ escapes then 1 else if c = '\'' then 1 else 1) = 1
  rw [ite_self, ite_self]

theorem singleQuotedFrom_pair (d : Char) (rest : List Char) :
    singleQuotedFrom escapes (c :: d :: rest) =
      if c = '\\' ∧ escapes ∨ c = '\'' ∧ d = '\'' then 2 + singleQuotedFrom escapes rest
      else if c = '\'' then 1
      else 1 + singleQuotedFrom escapes (d :: rest) := by
  delta singleQuotedFrom
  by_cases escaped : c = '\\' ∧ escapes
  · rw [if_pos (.inl escaped)]
    exact if_pos escaped
  · refine (if_neg escaped).trans ?_
    by_cases quote : c = '\''
    · by_cases doubled : d = '\''
      · subst doubled
        rw [if_pos quote, if_pos (.inr ⟨quote, rfl⟩)]
        rfl
      · rw [if_neg (not_or.mpr ⟨escaped, fun both => doubled both.2⟩), if_pos quote, if_pos quote]
        simp [doubled]
    · rw [if_neg (not_or.mpr ⟨escaped, fun both => quote both.1⟩), if_neg quote, if_neg quote]

theorem singleQuotedFrom_eq :
    ∀ text : List Char, singleQuotedFrom escapes text = quotedFrom '\'' escapes text
  | [] => rfl
  | [c] => singleQuotedFrom_single escapes c
  | c :: d :: rest => by
      rw [singleQuotedFrom_pair, quotedFrom, singleQuotedFrom_eq rest,
        singleQuotedFrom_eq (d :: rest)]

theorem doubleQuotedFrom_single : doubleQuotedFrom [c] = 1 := by
  by_cases quote : c = '"'
  · rw [quote]
    rfl
  · rw [doubleQuotedFrom]
    · rfl
    · exact fun _ => nofun
    · exact fun same => absurd same quote

theorem doubleQuotedFrom_pair (d : Char) (rest : List Char) :
    doubleQuotedFrom (c :: d :: rest) =
      if c = '"' ∧ d = '"' then 2 + doubleQuotedFrom rest
      else if c = '"' then 1
      else 1 + doubleQuotedFrom (d :: rest) := by
  by_cases quote : c = '"'
  · subst quote
    by_cases doubled : d = '"'
    · subst doubled
      rfl
    · rw [if_neg fun both => doubled both.2, if_pos rfl, doubleQuotedFrom]
      intro later same
      exact doubled (List.cons.inj same).1
  · rw [if_neg fun both => quote both.1, if_neg quote, doubleQuotedFrom]
    · exact fun _ same => absurd same quote
    · exact fun same => absurd same quote

theorem doubleQuotedFrom_eq :
    ∀ text : List Char, doubleQuotedFrom text = quotedFrom '"' false text
  | [] => rfl
  | [c] => doubleQuotedFrom_single c
  | c :: d :: rest => by
      rw [doubleQuotedFrom_pair, quotedFrom, doubleQuotedFrom_eq rest,
        doubleQuotedFrom_eq (d :: rest)]
      simp

theorem isPrefixOf_append_of_le {needle : List Char} (more : List Char)
    (inside : needle.length ≤ text.length) :
    needle.isPrefixOf (text ++ more) = needle.isPrefixOf text := by
  rw [Bool.eq_iff_iff, isPrefixOf_iff_prefix, isPrefixOf_iff_prefix]
  constructor
  · intro starts
    exact prefix_of_prefix_length_le starts (prefix_append text more) inside
  · intro starts
    exact starts.trans (prefix_append text more)

theorem findText_append_of_le {needle : List Char} {index : Nat}
    (found : findText needle (text ++ more) = some index)
    (inside : index + needle.length ≤ text.length) : findText needle text = some index := by
  induction text generalizing index with
  | nil =>
    obtain rfl : needle = [] := length_eq_zero_iff.mp (by
      rw [length_nil] at inside
      omega)
    obtain rfl : index = 0 := by
      omega
    rfl
  | cons c rest ih =>
    rw [length_cons] at inside
    unfold findText
    rw [cons_append, findText] at found
    split at found
    · rename_i starts
      cases found
      rw [← cons_append, isPrefixOf_append_of_le more (by
        rw [length_cons]
        omega)] at starts
      rw [if_pos starts]
    · rename_i starts
      obtain ⟨later, first, rfl⟩ := Option.map_eq_some_iff.mp found
      rw [ih first (by omega), if_neg]
      · rfl
      · intro here
        apply starts
        exact isPrefixOf_iff_prefix.mpr
          ((List.isPrefixOf_iff_prefix.mp here).trans (prefix_append (c :: rest) more))

theorem dollarQuotedEnd_append_some {c : Char} {rest : List Char} {stop : Nat}
    (found : dollarQuotedEnd (c :: (rest ++ more)) = some stop) (follows : more ≠ [])
    (inside : stop ≤ rest.length + 1) : dollarQuotedEnd (c :: rest) = some stop := by
  have behind : 0 < more.length := length_pos_iff.mpr follows
  unfold dollarQuotedEnd at found ⊢
  rw [drop_one, tail_cons] at found ⊢
  split at found
  · cases found
  · rename_i offset closes
    have early : offset < (rest ++ more).length :=
      (findIdx?_eq_some_iff_getElem.mp closes).1
    have tagLength : ((c :: (rest ++ more)).take (offset + 2)).length = offset + 2 := by
      rw [length_take, length_cons]
      omega
    split at found
    · rename_i tag
      dsimp only at found
      rw [tagLength] at found
      split at found
      · have whole := Option.some.inj found
        rw [length_cons, length_append] at whole
        omega
      · rename_i index ends
        have whole := Option.some.inj found
        have opened : offset < rest.length := by omega
        rw [findIdx_append_of_lt closes opened]
        dsimp only
        rw [take_append_of_le_length (Nat.le_of_lt opened)] at tag
        rw [if_pos tag]
        have sameTag : (c :: (rest ++ more)).take (offset + 2) = (c :: rest).take (offset + 2) := by
          rw [← cons_append, take_append_of_le_length (by
            rw [length_cons]
            omega)]
        have sameRest : (c :: (rest ++ more)).drop (offset + 2) =
            (c :: rest).drop (offset + 2) ++ more := by
          rw [← cons_append, drop_append_of_le_length (by
            rw [length_cons]
            omega)]
        rw [sameRest, sameTag] at ends
        rw [sameTag] at tagLength
        have here := findText_append_of_le ends (by
          rw [length_drop, length_cons]
          omega)
        rw [tagLength, here, ← whole]
    · cases found

theorem dollarQuotedEnd_append_none {c : Char} {rest : List Char}
    (absent : dollarQuotedEnd (c :: (rest ++ more)) = none) :
    dollarQuotedEnd (c :: rest) = none := by
  unfold dollarQuotedEnd at absent ⊢
  rw [drop_one, tail_cons] at absent ⊢
  split
  · rfl
  · rename_i offset closes
    have opened : offset < rest.length := (findIdx?_eq_some_iff_getElem.mp closes).1
    have whole : (rest ++ more).findIdx? (fun c => c = '$') = some offset := by
      rw [findIdx?_append, closes]
      rfl
    rw [whole] at absent
    dsimp only at absent
    rw [take_append_of_le_length (Nat.le_of_lt opened)] at absent
    split at absent
    · split at absent
      · cases absent
      · cases absent
    · rename_i notTag
      rw [if_neg notTag]

/-! ### Trivia with text behind it -/

theorem trimLeadingSpace_append_of_lt
    (longer : more.length < (trimLeadingSpace (text ++ more)).length) :
    trimLeadingSpace (text ++ more) = trimLeadingSpace text ++ more := by
  have dropped : more.length < ((text ++ more).dropWhile isAsciiWhitespace).length := by
    refine Nat.lt_of_lt_of_le longer ?_
    unfold trimLeadingSpace
    split
    · exact Nat.zero_le _
    · rename_i shape
      rw [shape]
      split
      · exact Nat.le_refl _
      · exact (dropWhile_sublist isWhitespace).length_le
  unfold trimLeadingSpace at longer ⊢
  have kept := dropWhile_append_of_lt dropped
  rw [kept] at longer dropped ⊢
  cases left : text.dropWhile isAsciiWhitespace with
  | nil =>
    rw [left] at dropped
    exact absurd dropped (Nat.lt_irrefl _)
  | cons c rest =>
    rw [left] at longer
    rw [cons_append] at longer ⊢
    dsimp only at longer ⊢
    split
    · rfl
    · rename_i wide
      rw [if_neg wide] at longer
      rw [← cons_append] at longer ⊢
      exact dropWhile_append_of_lt longer

theorem lineCommentEnd_append_of_lt (inside : lineCommentEnd (text ++ more) < text.length) :
    lineCommentEnd text = lineCommentEnd (text ++ more) := by
  unfold lineCommentEnd at inside ⊢
  split at inside
  · rename_i index found
    rw [findIdx_append_of_lt found (by omega)]
  · rw [length_append] at inside
    omega

theorem blockCommentEnd_two_le (opens : startsWith text "/*" = true) :
    2 ≤ blockCommentEnd text := by
  obtain ⟨rest, rfl⟩ := isPrefixOf_iff_prefix.mp opens
  change 2 ≤ 2 + blockCommentFrom 1 rest
  omega

theorem lineCommentEnd_two_le (opens : startsWith text "--" = true) : 2 ≤ lineCommentEnd text := by
  obtain ⟨rest, rfl⟩ := isPrefixOf_iff_prefix.mp opens
  unfold lineCommentEnd
  split
  · rename_i index found
    match index with
    | 0 => simp [findIdx?_cons] at found
    | index + 1 => omega
  · simp

theorem startsWith_append_of_le {start : String} (long : start.toList.length ≤ text.length) :
    startsWith (text ++ more) start = startsWith text start :=
  isPrefixOf_append_of_le more long

theorem startsWith_of_append {start : String} (opens : startsWith text start = true) :
    startsWith (text ++ more) start = true := by
  obtain ⟨rest, rfl⟩ := isPrefixOf_iff_prefix.mp opens
  exact isPrefixOf_iff_prefix.mpr ⟨rest ++ more, by rw [append_assoc]⟩

variable (fuel : Nat)

theorem skipTriviaWithin_succ (text : List Char) :
    skipTriviaWithin (fuel + 1) text =
      if (trimLeadingSpace text).length ≠ text.length then
        skipTriviaWithin fuel (trimLeadingSpace text)
      else if startsWith text "--" then
        skipTriviaWithin fuel (text.drop (lineCommentEnd text))
      else if startsWith text "/*" then
        skipTriviaWithin fuel (text.drop (blockCommentEnd text))
      else text :=
  rfl

/-- One more round of fuel changes nothing once there is a round for every character. -/
theorem skipTriviaWithin_stable (text : List Char) (enough : text.length ≤ fuel) :
    skipTriviaWithin (fuel + 1) text = skipTriviaWithin fuel text := by
  induction fuel generalizing text with
  | zero =>
    obtain rfl := length_eq_zero_iff.mp (Nat.le_zero.mp enough)
    rfl
  | succ fuel ih =>
    have dropped (count : Nat) (some : 0 < count) (filled : text ≠ []) :
        (text.drop count).length ≤ fuel := by
      rw [length_drop]
      omega
    rw [skipTriviaWithin_succ (fuel + 1) text, skipTriviaWithin_succ fuel text]
    split
    · have := trimLeadingSpace_length_le text
      exact ih _ (by omega)
    · split
      · rename_i opens
        have atLeast := lineCommentEnd_two_le opens
        refine ih _ (dropped _ (by omega) ?_)
        rintro rfl
        cases opens
      · split
        · rename_i opens
          have atLeast := blockCommentEnd_two_le opens
          refine ih _ (dropped _ (by omega) ?_)
          rintro rfl
          cases opens
        · rfl

theorem skipTriviaWithin_eq (text : List Char) (enough : text.length ≤ fuel) :
    skipTriviaWithin fuel text = skipTrivia text := by
  induction enough with
  | refl => rfl
  | step enough ih => rw [skipTriviaWithin_stable _ text enough, ih]

theorem skipTriviaWithin_append
    (longer : more.length < (skipTriviaWithin fuel (text ++ more)).length) :
    skipTriviaWithin fuel (text ++ more) = skipTriviaWithin fuel text ++ more := by
  induction fuel generalizing text with
  | zero => rfl
  | succ fuel ih =>
    have whole := Nat.lt_of_lt_of_le longer (skipTriviaWithin_length_le _ _)
    -- A comment that ends inside `text` opens inside it too.
    have commented {stop : List Char → Nat} {start : String}
        (opens : startsWith (text ++ more) start = true)
        (after : more.length <
          (skipTriviaWithin fuel ((text ++ more).drop (stop (text ++ more)))).length)
        (atLeast : start.toList.length ≤ stop (text ++ more)) :
        stop (text ++ more) < text.length ∧ startsWith text start = true := by
      have left := Nat.lt_of_lt_of_le after (skipTriviaWithin_length_le _ _)
      rw [length_drop, length_append] at left
      have inside : stop (text ++ more) < text.length := by omega
      refine ⟨inside, ?_⟩
      rwa [startsWith_append_of_le (by omega)] at opens
    rw [skipTriviaWithin_succ] at longer
    rw [skipTriviaWithin_succ, skipTriviaWithin_succ fuel text]
    split at longer
    · rename_i trimmed
      have kept := trimLeadingSpace_append_of_lt
        (Nat.lt_of_lt_of_le longer (skipTriviaWithin_length_le _ _))
      have shorter : (trimLeadingSpace text).length ≠ text.length := by
        intro same
        rw [kept, length_append, length_append, same] at trimmed
        exact trimmed rfl
      rw [if_pos trimmed, if_pos shorter, kept]
      exact ih (by rwa [kept] at longer)
    · rename_i untrimmed
      have same := Decidable.of_not_not untrimmed
      have kept : trimLeadingSpace (text ++ more) = trimLeadingSpace text ++ more :=
        trimLeadingSpace_append_of_lt (by rw [same]; exact whole)
      have sameText : ¬ (trimLeadingSpace text).length ≠ text.length := by
        rw [kept, length_append, length_append] at same
        omega
      rw [if_neg untrimmed, if_neg sameText]
      split at longer
      · rename_i opens
        obtain ⟨inside, opensText⟩ := commented opens longer (lineCommentEnd_two_le opens)
        have stop := lineCommentEnd_append_of_lt inside
        rw [if_pos opens, if_pos opensText, stop,
          drop_append_of_le_length (Nat.le_of_lt inside)]
        rw [drop_append_of_le_length (Nat.le_of_lt inside)] at longer
        exact ih longer
      · rename_i notLine
        have notLineText : ¬ startsWith text "--" = true :=
          fun opens => notLine (startsWith_of_append opens)
        rw [if_neg notLine, if_neg notLineText]
        split at longer
        · rename_i opens
          obtain ⟨inside, opensText⟩ := commented opens longer (blockCommentEnd_two_le opens)
          have stop : blockCommentEnd text = blockCommentEnd (text ++ more) :=
            scans_blockComment.append more 0 text (Nat.le_of_lt inside)
          rw [if_pos opens, if_pos opensText, stop,
            drop_append_of_le_length (Nat.le_of_lt inside)]
          rw [drop_append_of_le_length (Nat.le_of_lt inside)] at longer
          exact ih longer
        · rename_i notBlock
          have notBlockText : ¬ startsWith text "/*" = true :=
            fun opens => notBlock (startsWith_of_append opens)
          rw [if_neg notBlock, if_neg notBlockText]

theorem skipTrivia_append (longer : more.length < (skipTrivia (text ++ more)).length) :
    skipTrivia (text ++ more) = skipTrivia text ++ more := by
  have kept := skipTriviaWithin_append (text ++ more).length longer
  rwa [skipTriviaWithin_eq _ text (by rw [length_append]; omega)] at kept

/-! ### Tokens with text behind them -/

theorem singleQuotedEnd_append {first : Char} {rest : List Char} {escapes : Bool}
    (inside : singleQuotedEnd (first :: (rest ++ more)) escapes ≤ rest.length + 1) :
    singleQuotedEnd (first :: rest) escapes =
      singleQuotedEnd (first :: (rest ++ more)) escapes := by
  unfold singleQuotedEnd at inside ⊢
  rw [drop_one, tail_cons, singleQuotedFrom_eq] at inside ⊢
  rw [drop_one, tail_cons, singleQuotedFrom_eq,
    (scans_quoted _).append more escapes rest (by omega)]

theorem doubleQuotedEnd_append {first : Char} {rest : List Char}
    (inside : doubleQuotedEnd (first :: (rest ++ more)) ≤ rest.length + 1) :
    doubleQuotedEnd (first :: rest) = doubleQuotedEnd (first :: (rest ++ more)) := by
  unfold doubleQuotedEnd at inside ⊢
  rw [drop_one, tail_cons, doubleQuotedFrom_eq] at inside ⊢
  rw [drop_one, tail_cons, doubleQuotedFrom_eq,
    (scans_quoted _).append more false rest (by omega)]

theorem drop_append_of_kept (text : List Char) {stop : Nat}
    (kept : more.length ≤ ((text ++ more).drop stop).length) (follows : more ≠ []) :
    stop ≤ text.length ∧ (text ++ more).drop stop = text.drop stop ++ more := by
  have behind : 0 < more.length := length_pos_iff.mpr follows
  rw [length_drop, length_append] at kept
  have inside : stop ≤ text.length := by omega
  exact ⟨inside, drop_append_of_le_length inside⟩

theorem quotedAfter_append {quote : List Char} {escapes : Bool} (follows : more ≠ [])
    (opens : startsWith (quote ++ more) "'" = true) (kept : more.length ≤
      ((quote ++ more).drop (singleQuotedEnd (quote ++ more) escapes)).length) :
    startsWith quote "'" = true ∧
      (quote ++ more).drop (singleQuotedEnd (quote ++ more) escapes) =
        quote.drop (singleQuotedEnd quote escapes) ++ more := by
  obtain ⟨inside, same⟩ := drop_append_of_kept _ kept follows
  cases quote with
  | nil => exact absurd inside (by unfold singleQuotedEnd; simp)
  | cons first rest =>
    constructor
    · rwa [startsWith_append_of_le (by simp)] at opens
    · rw [same]
      rw [cons_append] at inside ⊢
      rw [singleQuotedEnd_append inside]

theorem wordToken_append {word rest : List Char} (follows : more ≠ [])
    (kept : more.length ≤ (wordToken word (rest ++ more)).2.length) :
    wordToken word (rest ++ more) =
      ((wordToken word rest).1, (wordToken word rest).2 ++ more) := by
  -- An introducer's ampersand and quote both stand before `more`, or the token ends in `more`.
  have introduced : isStringIntroducer word = true →
      afterIntroducer word (rest ++ more) = afterIntroducer word rest ++ more := by
    intro introducer
    unfold wordToken at kept
    rw [if_pos introducer] at kept
    dsimp only at kept
    unfold afterIntroducer at kept ⊢
    by_cases ampersand : (eqIgnoreAsciiCase word "u" && startsWith (rest ++ more) "&'") = true
    · rw [if_pos ampersand] at kept ⊢
      obtain ⟨unicode, opens⟩ := (Bool.and_eq_true _ _).mp ampersand
      match rest with
      | [] =>
        have shorter : more.length ≤ (more.drop 1).length := by
          refine Nat.le_trans kept ?_
          split
          · exact (drop_sublist _ _).length_le
          · exact Nat.le_refl _
        have behind : 0 < more.length := length_pos_iff.mpr follows
        rw [length_drop] at shorter
        omega
      | [c] =>
        have quoted : startsWith more "'" = true := by
          obtain ⟨later, shape⟩ := isPrefixOf_iff_prefix.mp opens
          exact isPrefixOf_iff_prefix.mpr ⟨later, (List.cons.inj shape).2⟩
        rw [cons_append, drop_one, tail_cons, nil_append, if_pos quoted]
          at kept
        have behind : 0 < more.length := length_pos_iff.mpr follows
        rw [length_drop] at kept
        unfold singleQuotedEnd at kept
        omega
      | c :: d :: later =>
        rw [startsWith_append_of_le (by simp)] at opens
        rw [if_pos (by rw [unicode, opens]; rfl)]
        rfl
    · have still : ¬ (eqIgnoreAsciiCase word "u" && startsWith rest "&'") = true := by
        intro both
        obtain ⟨unicode, opens⟩ := (Bool.and_eq_true _ _).mp both
        exact ampersand (by rw [unicode, startsWith_of_append opens]; rfl)
      rw [if_neg ampersand, if_neg still]
  unfold wordToken at kept ⊢
  by_cases introducer : isStringIntroducer word = true
  · rw [if_pos introducer, introduced introducer] at kept
    rw [if_pos introducer, if_pos introducer, introduced introducer]
    by_cases opens : startsWith (afterIntroducer word rest ++ more) "'" = true
    · rw [if_pos opens] at kept ⊢
      obtain ⟨opensText, same⟩ := quotedAfter_append follows opens kept
      rw [if_pos opensText, same]
    · rw [if_neg opens, if_neg fun opensText => opens (startsWith_of_append opensText)]
  · rw [if_neg introducer, if_neg introducer]

theorem tokenAt_append (first : Char) (after : List Char) (follows : more ≠ [])
    (kept : more.length ≤ (tokenAt first (after ++ more)).2.length) :
    tokenAt first (after ++ more) =
      ((tokenAt first after).1, (tokenAt first after).2 ++ more) := by
  unfold tokenAt at kept ⊢
  dsimp only at kept ⊢
  split
  · rfl
  · rename_i notSemicolon
    rw [if_neg notSemicolon] at kept
    split
    · rename_i quote
      rw [if_pos quote] at kept
      obtain ⟨inside, same⟩ := drop_append_of_kept (first :: after) kept follows
      rw [singleQuotedEnd_append inside]
      exact congrArg (Prod.mk _) same
    · rename_i notQuote
      rw [if_neg notQuote] at kept
      split
      · rename_i quote
        rw [if_pos quote] at kept
        obtain ⟨inside, same⟩ := drop_append_of_kept (first :: after) kept follows
        rw [doubleQuotedEnd_append inside]
        exact congrArg (Prod.mk _) same
      · rename_i notDouble
        rw [if_neg notDouble] at kept
        split
        · rename_i dollar
          rw [if_pos dollar] at kept
          cases found : dollarQuotedEnd (first :: (after ++ more)) with
          | none => rw [dollarQuotedEnd_append_none found]
          | some stop =>
            rw [found] at kept
            obtain ⟨inside, same⟩ := drop_append_of_kept (first :: after) kept follows
            rw [dollarQuotedEnd_append_some found follows inside]
            exact congrArg (Prod.mk _) same
        · rename_i notDollar
          rw [if_neg notDollar] at kept
          split
          · rename_i starts
            rw [if_pos starts] at kept
            have rest := Nat.le_trans kept (wordToken_length_le _ _)
            obtain ⟨inside, same⟩ := drop_append_of_kept (first :: after) rest follows
            have stop : wordEnd (first :: (after ++ more)) = wordEnd (first :: after) :=
              congrArg List.length (takeWhile_append_of_le (first :: after) inside)
            have word : (first :: (after ++ more)).take (wordEnd (first :: after)) =
                (first :: after).take (wordEnd (first :: after)) :=
              take_append_of_le_length (stop ▸ inside)
            rw [stop, word] at kept ⊢
            rw [stop] at same
            have left : (first :: (after ++ more)).drop (wordEnd (first :: after)) =
                (first :: after).drop (wordEnd (first :: after)) ++ more := same
            rw [left] at kept ⊢
            exact wordToken_append follows kept
          · rfl

variable {token : Token}

/-- A token read from `text` with `more` behind it, without reaching into `more`, is the
token read from `text`. -/
theorem next_append {left : List Char} (read : next (text ++ more) = some (token, left))
    (follows : more ≠ []) (kept : more.length ≤ left.length) :
    ∃ rest, left = rest ++ more ∧ next text = some (token, rest) := by
  unfold next at read ⊢
  split at read
  · cases read
  · rename_i first after shape
    have found := Option.some.inj read
    have long : more.length ≤ after.length := by
      have taken := tokenAt_length_le first after
      rw [found] at taken
      exact Nat.le_trans kept taken
    have same : skipTrivia text ++ more = first :: after := by
      rw [← shape]
      refine (skipTrivia_append ?_).symm
      rw [shape]
      exact Nat.lt_succ_of_le long
    cases skipped : skipTrivia text with
    | nil =>
      rw [skipped, nil_append] at same
      rw [same] at long
      exact absurd long (Nat.not_succ_le_self _)
    | cons c rest =>
      rw [skipped, cons_append] at same
      obtain ⟨rfl, rfl⟩ := List.cons.inj same
      have parts := tokenAt_append c rest follows
        (by rw [found]; exact kept)
      rw [found] at parts
      obtain ⟨named, rest'⟩ := Prod.mk.inj parts
      exact ⟨_, rest', by rw [named]⟩

/-! ### The text of a statement and the text it stands in -/

theorem trimLeadingSpace_suffix (text : List Char) : trimLeadingSpace text <:+ text := by
  have dropped := dropWhile_suffix isAsciiWhitespace (l := text)
  unfold trimLeadingSpace
  split
  · exact nil_suffix
  · rename_i shape
    rw [shape] at dropped
    split
    · exact dropped
    · exact (dropWhile_suffix isWhitespace).trans dropped

theorem skipTriviaWithin_suffix (text : List Char) : skipTriviaWithin fuel text <:+ text := by
  induction fuel generalizing text with
  | zero => exact suffix_refl _
  | succ fuel ih =>
    rw [skipTriviaWithin_succ]
    split
    · exact (ih _).trans (trimLeadingSpace_suffix text)
    · split
      · exact (ih _).trans (drop_suffix _ _)
      · split
        · exact (ih _).trans (drop_suffix _ _)
        · exact suffix_refl _

theorem wordToken_suffix (word rest : List Char) : (wordToken word rest).2 <:+ rest := by
  have quote : afterIntroducer word rest <:+ rest := by
    unfold afterIntroducer
    split
    · exact drop_suffix _ _
    · exact suffix_refl _
  unfold wordToken
  split
  · dsimp only
    split
    · exact (drop_suffix _ _).trans quote
    · exact quote
  · exact suffix_refl _

theorem tokenAt_suffix (first : Char) (after : List Char) :
    (tokenAt first after).2 <:+ first :: after := by
  unfold tokenAt
  dsimp only
  split
  · exact suffix_cons _ _
  · split
    · exact drop_suffix _ _
    · split
      · exact drop_suffix _ _
      · split
        · split
          · exact drop_suffix _ _
          · exact suffix_cons _ _
        · split
          · exact (wordToken_suffix _ _).trans (drop_suffix _ _)
          · exact suffix_cons _ _

theorem next_suffix {input after : List Char} (read : next input = some (token, after)) :
    after <:+ input := by
  unfold next at read
  split at read
  · cases read
  · rename_i first rest shape
    have taken := tokenAt_suffix first rest
    rw [Option.some.inj read, ← shape] at taken
    exact taken.trans (skipTriviaWithin_suffix _ _)

variable {lexemes : List Lexeme}

theorem before_length_le :
    ∀ {input : List Char}, lex input = lexemes →
      ∀ lexeme ∈ lexemes, lexeme.before.length ≤ input.length := by
  induction lexemes with
  | nil => exact fun _ _ listed => absurd listed not_mem_nil
  | cons first later ih =>
    intro input shape lexeme listed
    obtain ⟨before, read, rest⟩ := lex_eq_cons shape
    cases mem_cons.mp listed with
    | inl same => exact Nat.le_of_eq (by rw [same, before])
    | inr deeper =>
      exact Nat.le_trans (ih rest.symm lexeme deeper) (Nat.le_of_lt (next_length_lt read))

/-- Text cut off where a lexeme begins has the lexemes read before it. -/
theorem lex_append (follows : lex more ≠ []) {read : List Lexeme} :
    ∀ {text : List Char}, lex (text ++ more) = read ++ lex more →
      (lex text).map Lexeme.token = read.map Lexeme.token := by
  obtain ⟨next, rest, started⟩ := exists_cons_of_ne_nil follows
  have behind : more ≠ [] := by
    rintro rfl
    exact follows rfl
  induction read with
  | nil =>
    intro text shape
    have first := (lex_eq_cons (shape.trans started)).1
    have firstMore := (lex_eq_cons started).1
    have empty : text = [] := append_left_eq_self.mp (first.symm.trans firstMore)
    rw [empty]
    rfl
  | cons lexeme read ih =>
    intro text shape
    obtain ⟨-, taken, later⟩ := lex_eq_cons shape
    have kept : more.length ≤ lexeme.after.length := by
      have listed : next ∈ lex lexeme.after := by
        rw [← later, started]
        exact mem_append_right _ mem_cons_self
      have within := before_length_le rfl next listed
      rwa [(lex_eq_cons started).1] at within
    obtain ⟨rest', left, alone⟩ := next_append taken behind kept
    rw [lex_eq, alone]
    rw [left] at later
    exact congrArg (lexeme.token :: ·) (ih later.symm)

/-! ### The tokens of every statement -/

def tokensOf (text : List Char) : List Token :=
  (lex text).map Lexeme.token

theorem tokensOf_eq_nil_iff (text : List Char) : tokensOf text = [] ↔ skipTrivia text = [] := by
  unfold tokensOf
  rw [lex_eq]
  unfold next
  cases skipTrivia text with
  | nil => exact ⟨fun _ => rfl, fun _ => rfl⟩
  | cons first after => exact ⟨nofun, nofun⟩

theorem tokensOf_of_next {input after : List Char} (read : next input = some (token, after)) :
    tokensOf input = token :: tokensOf after := by
  unfold tokensOf
  rw [lex_eq, read]
  rfl

theorem next_eq_none_iff (input : List Char) : next input = none ↔ tokensOf input = [] := by
  unfold tokensOf
  rw [lex_eq]
  cases next input with
  | none => exact ⟨fun _ => rfl, fun _ => rfl⟩
  | some read => exact ⟨nofun, nofun⟩

theorem next_of_tokensOf {input : List Char} {later : List Token}
    (tokens : tokensOf input = token :: later) :
    ∃ after, next input = some (token, after) ∧ tokensOf after = later := by
  cases read : next input with
  | none =>
    rw [(next_eq_none_iff input).mp read] at tokens
    exact absurd tokens nofun
  | some taken =>
    obtain ⟨first, after⟩ := taken
    rw [tokensOf_of_next read] at tokens
    cases tokens
    exact ⟨after, rfl, rfl⟩

theorem tokens_pushStatement (text : List Char) :
    (pushStatement text).map tokensOf = [tokensOf text].filter (· ≠ []) := by
  unfold pushStatement
  split
  · rename_i trivia
    rw [(tokensOf_eq_nil_iff text).mpr trivia]
    rfl
  · rename_i solid
    have filled : tokensOf text ≠ [] := fun empty => solid ((tokensOf_eq_nil_iff text).mp empty)
    rw [filter_singleton, decide_eq_true filled]
    rfl

theorem tokens_statementsFrom :
    ∀ {start input : List Char} {read : List Lexeme}, lex input = lexemes → input <:+ start →
      lex start = read ++ lexemes → .semicolon ∉ read.map Lexeme.token →
        (statementsFrom start lexemes).map tokensOf =
          ((tokensOf start).splitOn .semicolon).filter (· ≠ []) := by
  induction lexemes with
  | nil =>
    intro start input read _ _ whole plain
    have tokens : tokensOf start = read.map Lexeme.token := by
      unfold tokensOf
      rw [whole, append_nil]
    rw [statementsFrom, tokens_pushStatement, splitOn_eq_singleton (tokens ▸ plain)]
  | cons lexeme later ih =>
    intro start input read shape behind whole plain
    obtain ⟨before, taken, rest⟩ := lex_eq_cons shape
    unfold statementsFrom
    split
    · rename_i separates
      obtain ⟨text, rfl⟩ := behind
      have cut : (text ++ input).take ((text ++ input).length - lexeme.before.length) = text := by
        rw [before, length_append, Nat.add_sub_cancel, take_left]
      have front : tokensOf text = read.map Lexeme.token :=
        lex_append (by rw [shape]; exact cons_ne_nil _ _) (whole.trans (by rw [shape]))
      have tokens : tokensOf (text ++ input) =
          read.map Lexeme.token ++ .semicolon :: tokensOf lexeme.after := by
        unfold tokensOf
        rw [whole, map_append, map_cons, separates, rest]
      rw [map_append, cut, tokens_pushStatement, front, tokens,
        splitOn_append_cons_self_of_not_mem plain,
        ih rest.symm (suffix_refl _) (rest.symm.trans (nil_append _).symm)
          not_mem_nil,
        ← filter_append]
      rfl
    · rename_i other
      refine ih rest.symm ((next_suffix taken).trans behind)
        (whole.trans (append_cons read lexeme later)) ?_
      rw [map_append, mem_append]
      rintro (listed | last)
      · exact plain listed
      · exact other (mem_singleton.mp last).symm

/-- The statements of a text, lexed one by one, are the tokens between its separators. -/
theorem tokens_statements (sql : List Char) :
    (statements sql).map tokensOf =
      ((tokensOf sql).splitOn .semicolon).filter (· ≠ []) :=
  tokens_statementsFrom rfl (suffix_refl _) (nil_append _).symm not_mem_nil

theorem statements_eq_singleton {sql : List Char} {tokens : List Token}
    (plain : .semicolon ∉ tokens) (filled : tokens ≠ [])
    (shape : tokensOf sql = tokens ∨ tokensOf sql = tokens ++ [.semicolon]) :
    ∃ part, statements sql = [part] ∧ tokensOf part = tokens := by
  have split : ((tokensOf sql).splitOn .semicolon).filter (· ≠ []) = [tokens] := by
    rcases shape with same | same
    · rw [same, splitOn_eq_singleton plain, filter_singleton, decide_eq_true filled]
      rfl
    · rw [same, splitOn_append_cons_self_of_not_mem plain]
      simp [filled]
  rw [← tokens_statements] at split
  obtain ⟨part, same, rfl⟩ := map_eq_singleton_iff.mp split
  exact ⟨part, same, rfl⟩

theorem flatten_splitOn (tokens : List Token) :
    (tokens.splitOn .semicolon).flatten = tokens.filter (· ≠ .semicolon) := by
  induction tokens with
  | nil => rfl
  | cons token later ih =>
    rw [splitOn_cons_eq_if_modifyHead]
    obtain ⟨head, rest, shape⟩ := exists_cons_of_ne_nil (splitOn_ne_nil .semicolon later)
    rw [shape] at ih ⊢
    split
    · rename_i separates
      rw [filter_cons_of_neg (by simpa using separates), ← ih]
      rfl
    · rename_i other
      rw [filter_cons_of_pos (by simpa using other), ← ih]
      rfl

theorem flatten_filter_filled (segments : List (List Token)) :
    (segments.filter (· ≠ [])).flatten = segments.flatten := by
  induction segments with
  | nil => rfl
  | cons segment later ih => cases segment <;> simp_all

theorem flatMap_tokens_statements (sql : List Char) :
    (statements sql).flatMap tokensOf = (tokensOf sql).filter (· ≠ .semicolon) := by
  rw [flatMap_def, tokens_statements, flatten_filter_filled, flatten_splitOn]

theorem tokens_of_statements {sql statement : List Char} (listed : statement ∈ statements sql)
    (present : token ∈ tokensOf statement) : token ∈ tokensOf sql ∧ token ≠ .semicolon := by
  have among : token ∈ (statements sql).flatMap tokensOf :=
    mem_flatMap.mpr ⟨statement, listed, present⟩
  rw [flatMap_tokens_statements] at among
  obtain ⟨read, other⟩ := mem_filter.mp among
  exact ⟨read, of_decide_eq_true other⟩

theorem semicolon_notMem_statement {sql statement : List Char}
    (listed : statement ∈ statements sql) : .semicolon ∉ tokensOf statement :=
  fun present => (tokens_of_statements listed present).2 rfl

/-! ### Where a text is cut -/

def cutsFrom (length start : Nat) : List Lexeme → List (Nat × Nat)
  | [] => [(start, length)]
  | lexeme :: later =>
    if lexeme.token = .semicolon then
      (start, length - lexeme.before.length) ::
        cutsFrom length (length - lexeme.after.length) later
    else cutsFrom length start later

def slice (sql : List Char) (cut : Nat × Nat) : List Char :=
  (sql.take cut.2).drop cut.1

def slices (sql : List Char) : List (Nat × Nat) :=
  (cutsFrom sql.length 0 (lex sql)).filter fun cut => skipTrivia (slice sql cut) ≠ []

theorem pushStatement_eq (text : List Char) :
    pushStatement text = [text].filter (skipTrivia · ≠ []) := by
  unfold pushStatement
  split <;> simp_all

theorem statementsFrom_eq {sql : List Char} :
    ∀ {input : List Char} (start : Nat), lex input = lexemes → input <:+ sql →
      statementsFrom (sql.drop start) lexemes =
        ((cutsFrom sql.length start lexemes).map (slice sql)).filter (skipTrivia · ≠ []) := by
  induction lexemes with
  | nil =>
    intro input start _ _
    rw [statementsFrom, pushStatement_eq, cutsFrom, map_singleton, slice, take_length]
  | cons lexeme later ih =>
    intro input start shape behind
    obtain ⟨_, taken, rest⟩ := lex_eq_cons shape
    have left := (next_suffix taken).trans behind
    unfold statementsFrom cutsFrom
    split
    · have cut : (sql.drop start).take ((sql.drop start).length - lexeme.before.length) =
          slice sql (start, sql.length - lexeme.before.length) := by
        rw [slice, drop_take, length_drop, Nat.sub_right_comm]
      have stands := ih (sql.length - lexeme.after.length) rest.symm left
      rw [← suffix_iff_eq_drop.mp left] at stands
      rw [stands, cut, pushStatement_eq, ← filter_append]
      rfl
    · exact ih start rest.symm left

theorem cutsFrom_ordered {length : Nat} :
    ∀ {input : List Char} {start : Nat}, lex input = lexemes → start + input.length ≤ length →
      (∀ cut ∈ cutsFrom length start lexemes, start ≤ cut.1 ∧ cut.1 ≤ cut.2 ∧ cut.2 ≤ length) ∧
        (cutsFrom length start lexemes).Pairwise (fun one two => one.2 < two.1) := by
  induction lexemes with
  | nil =>
    intro input start _ within
    refine ⟨fun cut listed => ?_, pairwise_singleton _ _⟩
    rw [mem_singleton.mp listed]
    omega
  | cons lexeme later ih =>
    intro input start shape within
    obtain ⟨before, taken, rest⟩ := lex_eq_cons shape
    have less := next_length_lt taken
    rw [← before] at less within
    unfold cutsFrom
    split
    · obtain ⟨bounds, apart⟩ :=
        @ih _ (length - lexeme.after.length) rest.symm (by omega)
      refine ⟨fun cut listed => ?_, pairwise_cons.mpr ⟨fun cut listed => ?_, apart⟩⟩
      · rcases mem_cons.mp listed with rfl | deeper
        · omega
        · have := bounds cut deeper
          omega
      · have := bounds cut listed
        omega
    · exact ih rest.symm (by omega)

/-! ### The words of every statement -/

def wordsOf (keepDots : Bool) (tokens : List Token) : List (List (List Char)) :=
  (tokens.foldl (Words.read keepDots) ⟨[], [], false⟩).close.found

def Words.after (early : List (List (List Char))) (state : Words) : Words :=
  { state with found := early ++ state.found }

theorem Words.close_after (early : List (List (List Char))) (state : Words) :
    (state.after early).close = state.close.after early := by
  unfold Words.after Words.close
  split
  · rfl
  · rw [append_assoc]

/-- Reading on does not look at the statements that were closed before. -/
theorem Words.read_after (keepDots : Bool) (early : List (List (List Char))) (state : Words)
    (token : Token) : (state.after early).read keepDots token =
      (state.read keepDots token).after early := by
  cases token with
  | semicolon => exact close_after early state
  | word | quoted => rfl
  | punct c =>
    unfold Words.read
    dsimp only [Words.after]
    split
    · split <;> simp_all
    · rfl

theorem foldl_read_after (keepDots : Bool) (early : List (List (List Char))) (state : Words)
    (tokens : List Token) : tokens.foldl (Words.read keepDots) (state.after early) =
      (tokens.foldl (Words.read keepDots) state).after early := by
  induction tokens generalizing state with
  | nil => rfl
  | cons token later ih => rw [foldl_cons, Words.read_after, ih, foldl_cons]

theorem wordsOf_separated (keepDots : Bool) (front later : List Token) :
    wordsOf keepDots (front ++ .semicolon :: later) =
      wordsOf keepDots front ++ wordsOf keepDots later := by
  have start : (front.foldl (Words.read keepDots) ⟨[], [], false⟩).close =
      Words.after (wordsOf keepDots front) ⟨[], [], false⟩ := by
    unfold Words.after
    rw [append_nil]
    rfl
  rw [wordsOf, foldl_append, foldl_cons, Words.read, start, foldl_read_after, Words.close_after]
  rfl

theorem wordsOf_intercalate (keepDots : Bool) (segments : List (List Token)) :
    wordsOf keepDots ([.semicolon].intercalate segments) =
      segments.flatMap (wordsOf keepDots) := by
  induction segments with
  | nil => rfl
  | cons segment later ih =>
    cases later with
    | nil => simp
    | cons =>
      rw [intercalate_cons_cons, append_assoc, singleton_append, wordsOf_separated, ih]
      rfl

theorem statementWords_eq_flatMap (sql : List Char) (keepDots : Bool) :
    statementWords sql keepDots = (statements sql).flatMap (statementWords · keepDots) := by
  have filled : ∀ segments : List (List Token), (segments.filter (· ≠ [])).flatMap
      (wordsOf keepDots) = segments.flatMap (wordsOf keepDots) := by
    intro segments
    induction segments with
    | nil => rfl
    | cons segment later ih => cases segment <;> simp_all [wordsOf, Words.close]
  calc
    statementWords sql keepDots = wordsOf keepDots (tokensOf sql) := rfl
    _ = ((tokensOf sql).splitOn .semicolon).flatMap (wordsOf keepDots) := by
      rw [← wordsOf_intercalate, intercalate_splitOn]
    _ = ((statements sql).map tokensOf).flatMap (wordsOf keepDots) := by
      rw [tokens_statements, filled]
    _ = (statements sql).flatMap (statementWords · keepDots) := flatMap_map ..

/-- The slices hold the tokens of the text but its separators, in order, and the words of
the text are those of its slices. -/
theorem splitting_loses_nothing (sql : List Char) :
    (statements sql).flatMap tokensOf = (tokensOf sql).filter (· ≠ .semicolon) ∧
      statements sql = (slices sql).map (slice sql) ∧
      (∀ cut ∈ slices sql, cut.1 ≤ cut.2 ∧ cut.2 ≤ sql.length) ∧
      (slices sql).Pairwise (fun one two => one.2 < two.1) ∧
      (∀ statement ∈ statements sql, tokensOf statement ≠ []) ∧
      ∀ keepDots, statementWords sql keepDots =
        (statements sql).flatMap (statementWords · keepDots) := by
  obtain ⟨bounds, apart⟩ := @cutsFrom_ordered (lex sql) sql.length sql 0 rfl (by omega)
  refine ⟨flatMap_tokens_statements sql, ?_, ?_, apart.filter _, ?_,
    statementWords_eq_flatMap sql⟩
  · exact (statementsFrom_eq 0 rfl (suffix_refl sql)).trans filter_map
  · intro cut listed
    exact (bounds cut (mem_filter.mp listed).1).2
  · intro statement listed empty
    have among : tokensOf statement ∈ (statements sql).map tokensOf := mem_map_of_mem listed
    rw [tokens_statements, empty] at among
    simp at among

end Pgprox.Sql
