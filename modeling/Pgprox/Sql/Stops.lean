/-
The scanners of the lexer stop where the reference says that a comment or a constant ends.

The lexer counts characters and the reference hands on the text behind them, so each
comparison drops the count from the text.
-/

import Pgprox.Sql.Reference
import Pgprox.Sql.Segments

namespace Pgprox.Sql

open Reference List

/-! ### Comments -/

theorem drop_blockCommentFrom (depth : Nat) (text : List Char) :
    text.drop (blockCommentFrom (depth + 1) text) = afterBlockComment depth text := by
  unfold afterBlockComment
  fun_induction closeComment depth text with
  | case1 depth rest ih =>
    rw [blockCommentFrom_pair, if_pos ⟨rfl, rfl⟩, Nat.add_comm 2]
    exact ih
  | case2 rest =>
    rfl
  | case3 outer rest ih =>
    rw [blockCommentFrom_pair, if_neg (by simp), if_pos ⟨rfl, rfl⟩, if_neg (by omega),
      Nat.add_comm 2]
    exact ih
  | case4 depth c rest notOpens notLast notInner ih =>
    have notCloses : ∀ left, c = '*' → rest = '/' :: left → False := by
      intro left star slash
      cases depth with
      | zero => exact notLast left rfl star slash
      | succ outer => exact notInner outer left rfl star slash
    have shorter : blockCommentFrom (depth + 1) (c :: rest) =
        1 + blockCommentFrom (depth + 1) rest := by
      rw [blockCommentFrom]
      · exact notOpens
      · exact notCloses
    rw [shorter, Nat.add_comm 1]
    exact ih
  | case5 => rfl

theorem drop_blockCommentEnd (rest : List Char) :
    ('/' :: '*' :: rest).drop (blockCommentEnd ('/' :: '*' :: rest)) =
      afterBlockComment 0 rest := by
  rw [← drop_blockCommentFrom 0 rest]
  change ('/' :: '*' :: rest).drop (2 + blockCommentFrom 1 rest) = _
  rw [Nat.add_comm 2]
  rfl

theorem drop_lineCommentEnd (text : List Char) :
    text.drop (lineCommentEnd text) = (text.dropWhile fun c => c ≠ '\n').drop 1 := by
  unfold lineCommentEnd
  induction text with
  | nil => rfl
  | cons c rest ih =>
    rw [findIdx?_cons]
    by_cases newline : c = '\n'
    · rw [if_pos (decide_eq_true newline), dropWhile_cons_of_neg (by simp [newline])]
    · rw [if_neg (by simp [newline]), dropWhile_cons_of_pos (by simp [newline]), ← ih]
      cases rest.findIdx? fun c => decide (c = '\n') with
      | none | some => rfl

/-! ### Constants -/

theorem drop_quotedFrom {quote : Char} (other : quote ≠ '\\') (escapes : Bool) :
    ∀ text : List Char, text.drop (quotedFrom quote escapes text) = afterQuote quote escapes text
  | [] => rfl
  | [c] => (afterQuote_single quote escapes c).symm
  | c :: d :: rest => by
      rw [quotedFrom, afterQuote_pair, ← drop_quotedFrom other escapes rest,
        ← drop_quotedFrom other escapes (d :: rest)]
      by_cases closes : c = quote
      · by_cases doubled : d = quote
        · rw [if_pos (.inr ⟨closes, doubled⟩), if_pos closes, if_pos doubled, Nat.add_comm 2]
          rfl
        · rw [if_neg (by simp [closes, doubled, other]), if_pos closes, if_pos closes,
            if_neg doubled]
          rfl
      · by_cases escaped : c = '\\' ∧ escapes
        · rw [if_pos (.inl escaped), if_neg closes, if_pos escaped, Nat.add_comm 2]
          rfl
        · rw [if_neg (not_or.mpr ⟨escaped, fun both => closes both.1⟩), if_neg closes,
            if_neg closes, if_neg escaped, Nat.add_comm 1]
          rfl

theorem drop_singleQuotedEnd (escapes : Bool) (rest : List Char) :
    ('\'' :: rest).drop (singleQuotedEnd ('\'' :: rest) escapes) = afterString escapes rest := by
  rw [singleQuotedEnd, singleQuotedFrom_eq, Nat.add_comm 1]
  exact drop_quotedFrom (by decide) escapes rest

theorem drop_doubleQuotedEnd (rest : List Char) :
    ('"' :: rest).drop (doubleQuotedEnd ('"' :: rest)) = afterQuotedIdent rest := by
  rw [doubleQuotedEnd, doubleQuotedFrom_eq, Nat.add_comm 1]
  exact drop_quotedFrom (by decide) false rest

theorem afterQuote_of_no_backslash {quote : Char} :
    ∀ {text : List Char},
      '\\' ∉ text.take (text.length - (afterQuote quote true text).length) →
        afterQuote quote true text = afterQuote quote false text
  | [], _ => rfl
  | [c], _ => by rw [afterQuote_single, afterQuote_single]
  | c :: d :: rest, plain => by
      have short := afterQuote_length_le quote true rest
      have inside := afterQuote_length_le quote true (d :: rest)
      rw [afterQuote_pair] at plain ⊢
      rw [afterQuote_pair]
      have two : rest.length + 2 - (afterQuote quote true rest).length =
          rest.length - (afterQuote quote true rest).length + 2 := by omega
      split
      · rename_i opens
        rw [if_pos opens] at plain
        split
        · rename_i doubled
          rw [if_pos doubled, length_cons, length_cons, two] at plain
          exact afterQuote_of_no_backslash fun member =>
            plain (mem_cons_of_mem _ (mem_cons_of_mem _ member))
        · rfl
      · rename_i other
        rw [if_neg other] at plain
        rw [if_neg (by simp : ¬ (c = '\\' ∧ false = true))]
        split
        · rename_i escaped
          rw [if_pos escaped, length_cons, length_cons, two, escaped.1] at plain
          exact absurd mem_cons_self plain
        · rename_i unescaped
          rw [if_neg unescaped, length_cons, Nat.sub_add_comm inside] at plain
          exact afterQuote_of_no_backslash fun member => plain (mem_cons_of_mem _ member)

/-! ### Words -/

theorem isWordChar_eq (c : Char) : isWordChar c = isTagCont c := by
  unfold isWordChar isTagCont isIdentStart
  cases isAscii c with
  | true => simp [Char.isAlphanum, Bool.or_right_comm]
  | false => simp

theorem toLower_cases (c : Char) :
    c.toLower = c ∨ (c.isUpper = true ∧ c.toLower.isLower = true) := by
  unfold Char.toLower
  split
  · rename_i upper
    refine .inr ⟨decide_eq_true upper, ?_⟩
    obtain ⟨least, greatest⟩ := upper
    simp only [Char.isLower, Bool.and_eq_true, decide_eq_true_eq, UInt32.le_iff_toNat_le,
      ge_iff_le] at least greatest ⊢
    simp only [UInt32.toNat_add] at least greatest ⊢
    simp at least greatest ⊢
    omega
  · exact .inl rfl

theorem isIdentStart_toLower (c : Char) :
    isIdentStart c.toLower = isIdentStart c := by
  rcases toLower_cases c with same | ⟨upper, lower⟩
  · rw [same]
  · simp [isIdentStart, Char.isAlpha, upper, lower]

theorem isWordChar_toLower (c : Char) : isWordChar c.toLower = isWordChar c := by
  rw [isWordChar_eq, isWordChar_eq, isTagCont, isTagCont, isIdentStart_toLower]
  rcases toLower_cases c with same | ⟨upper, -⟩
  · rw [same]
  · simp [isIdentStart, Char.isAlpha, upper]

theorem toLower_toLower (c : Char) : c.toLower.toLower = c.toLower := by
  rcases toLower_cases c.toLower with same | ⟨upper, -⟩
  · exact same
  · rcases toLower_cases c with same | ⟨-, lower⟩
    · rw [same, same]
    · exfalso
      simp only [Char.isUpper, Char.isLower, Bool.and_eq_true, decide_eq_true_eq,
        UInt32.le_iff_toNat_le, ge_iff_le] at upper lower
      simp at upper lower
      omega

theorem toAsciiLowercase_idem (word : List Char) :
    toAsciiLowercase (toAsciiLowercase word) = toAsciiLowercase word := by
  unfold toAsciiLowercase
  rw [map_map]
  exact map_congr_left fun c _ => toLower_toLower c

theorem eqIgnoreAsciiCase_lower (word : List Char) (keyword : String) :
    eqIgnoreAsciiCase (toAsciiLowercase word) keyword = eqIgnoreAsciiCase word keyword := by
  unfold eqIgnoreAsciiCase
  rw [toAsciiLowercase_idem]

theorem take_wordEnd (text : List Char) : text.take (wordEnd text) = text.takeWhile isWordChar :=
  (prefix_iff_eq_take.mp (List.takeWhile_prefix isWordChar)).symm

theorem drop_length_takeWhile (p : Char → Bool) (text : List Char) :
    text.drop (text.takeWhile p).length = text.dropWhile p := by
  have left : (text.takeWhile p ++ text.dropWhile p).drop (text.takeWhile p).length =
      text.dropWhile p := drop_left
  rwa [takeWhile_append_dropWhile] at left

theorem take_length_sub_dropWhile (p : Char → Bool) (text : List Char) :
    text.take (text.length - (text.dropWhile p).length) = text.takeWhile p := by
  have inside := (takeWhile_sublist p (l := text)).length_le
  have count : text.length - (text.dropWhile p).length = (text.takeWhile p).length := by
    rw [← drop_length_takeWhile, length_drop]
    omega
  rw [count]
  exact (prefix_iff_eq_take.mp (List.takeWhile_prefix p)).symm

theorem dropWhile_eq_of_takeWhile {p q : Char → Bool} {text : List Char}
    (wider : ∀ c, q c = true → p c = true) (same : ∀ c ∈ text.takeWhile p, q c = true) :
    text.dropWhile p = text.dropWhile q := by
  induction text with
  | nil => rfl
  | cons c rest ih =>
    by_cases taken : p c = true
    · rw [takeWhile_cons_of_pos taken] at same
      rw [dropWhile_cons_of_pos taken,
        dropWhile_cons_of_pos (same c mem_cons_self),
        ih fun d member => same d (mem_cons_of_mem c member)]
    · rw [dropWhile_cons_of_neg taken,
        dropWhile_cons_of_neg fun inner => taken (wider c inner)]

/-! ### Dollar quotes -/

theorem afterDelimiter_eq {delimiter : List Char} (filled : delimiter ≠ []) (text : List Char) :
    afterDelimiter delimiter text =
      match findText delimiter text with
      | none => []
      | some index => text.drop (index + delimiter.length) := by
  fun_induction afterDelimiter delimiter text with
  | case1 =>
    rw [findText, if_neg filled]
  | case2 c rest here =>
    rw [findText, if_pos here]
    dsimp only
    rw [Nat.zero_add]
  | case3 c rest elsewhere ih =>
    rw [ih, findText, if_neg elsewhere]
    cases findText delimiter rest with
    | none => rfl
    | some index =>
      dsimp only [Option.map_some]
      rw [Nat.add_right_comm]
      rfl

theorem isDollarTag_eq (tag : List Char) :
    isDollarTag tag = (tag.head?.all isIdentStart && tag.all isTagCont) := by
  cases tag with
  | nil => rfl
  | cons first rest =>
    have same (c : Char) :
        (c.isAlphanum || c = '_' || !isAscii c) = isTagCont c := by
      unfold isTagCont isIdentStart Char.isAlphanum
      cases c.isAlpha <;> cases c.isDigit <;> simp
    simp only [isDollarTag, same, head?_cons, Option.all_some, all_cons]
    change (isIdentStart first && rest.all isTagCont) =
      (isIdentStart first && (isTagCont first && rest.all isTagCont))
    cases starts : isIdentStart first with
    | false => rfl
    | true => simp [isTagCont, starts]

theorem dollarTag_eq (text : List Char) :
    dollarTag text =
      match text.findIdx? fun c => c = '$' with
      | none => none
      | some offset =>
        if isDollarTag (text.take offset) then some (text.take offset, text.drop (offset + 1))
        else none := by
  by_cases member : '$' ∈ text
  · obtain ⟨tag, body, rfl, outside⟩ := eq_append_cons_of_mem member
    have found : (tag ++ '$' :: body).findIdx? (fun c => c = '$') = some tag.length := by
      have nowhere : tag.findIdx? (fun c => decide (c = '$')) = none :=
        findIdx?_eq_none_iff.mpr fun c listed =>
          decide_eq_false fun same => outside (same ▸ listed)
      rw [findIdx?_append, nowhere, findIdx?_cons]
      simp
    have left : (tag ++ '$' :: body).drop (tag.length + 1) = body := by
      rw [← drop_drop, drop_left]
      rfl
    rw [found]
    dsimp only
    rw [take_left, left, isDollarTag_eq]
    unfold dollarTag
    by_cases whole : tag.all isTagCont = true
    · have every := all_eq_true.mp whole
      rw [dropWhile_append_of_pos every, takeWhile_append_of_pos every, whole,
        Bool.and_true]
      simp [show isTagCont '$' = false from rfl]
    · -- The first character that no tag has stands before the dollar sign.
      have stops : tag.dropWhile isTagCont ≠ [] := fun none =>
        whole (all_eq_true.mpr (dropWhile_eq_nil_iff.mp none))
      obtain ⟨c, rest, shape⟩ := exists_cons_of_ne_nil stops
      have listed : c ∈ tag :=
        (dropWhile_sublist isTagCont).mem (shape ▸ mem_cons_self)
      have other : c ≠ '$' := fun same => outside (same ▸ listed)
      rw [Bool.eq_false_iff.mpr whole, Bool.and_false, if_neg Bool.false_ne_true,
        dropWhile_append, shape]
      split
      · rename_i same
        exact absurd (List.cons.inj same).1 other
      · rfl
  · have nowhere : text.findIdx? (fun c => decide (c = '$')) = none :=
      findIdx?_eq_none_iff.mpr fun c listed =>
        decide_eq_false fun same => member (same ▸ listed)
    rw [nowhere]
    unfold dollarTag
    split
    · rename_i body shape
      have listed : '$' ∈ text.dropWhile isTagCont := shape ▸ mem_cons_self
      exact absurd ((dropWhile_sublist isTagCont).mem listed) member
    · rfl

theorem dollarQuotedEnd_eq_none {after : List Char} (none : dollarTag after = none) :
    dollarQuotedEnd ('$' :: after) = .none := by
  rw [dollarTag_eq] at none
  unfold dollarQuotedEnd
  rw [drop_one, tail_cons]
  split
  · rfl
  · rename_i offset found
    rw [found] at none
    dsimp only at none
    split at none
    · cases none
    · rename_i noTag
      rw [if_neg noTag]

theorem drop_dollarQuotedEnd {after tag body : List Char}
    (found : dollarTag after = some (tag, body)) :
    ∃ stop, dollarQuotedEnd ('$' :: after) = some stop ∧
      ('$' :: after).drop stop = afterDelimiter ('$' :: (tag ++ ['$'])) body := by
  rw [dollarTag_eq] at found
  split at found
  · cases found
  · rename_i offset here
    split at found
    · rename_i isTag
      obtain ⟨rfl, rfl⟩ := Prod.mk.inj (Option.some.inj found)
      obtain ⟨inside, dollar, -⟩ := findIdx?_eq_some_iff_getElem.mp here
      have opening : ('$' :: after).take (offset + 2) = '$' :: (after.take offset ++ ['$']) := by
        rw [take_succ_cons, take_add_one, getElem?_eq_getElem inside,
          of_decide_eq_true dollar]
        rfl
      have length : ('$' :: (after.take offset ++ ['$'])).length = offset + 2 := by
        rw [length_cons, length_append, length_take, Nat.min_eq_left (by omega)]
        rfl
      unfold dollarQuotedEnd
      rw [drop_one, tail_cons]
      rw [here]
      dsimp only
      rw [if_pos isTag, opening, length, afterDelimiter_eq (cons_ne_nil _ _), length,
        drop_succ_cons]
      cases findText ('$' :: (after.take offset ++ ['$'])) (after.drop (offset + 1)) with
      | none => exact ⟨_, rfl, drop_length⟩
      | some index =>
        refine ⟨_, rfl, ?_⟩
        dsimp only
        rw [drop_drop]
        have count : offset + 2 + index + (offset + 2) =
            offset + 1 + (index + (offset + 2)) + 1 := by
          omega
        rw [count]
        rfl
    · cases found

/-! ### Quoted text with other text behind it -/

theorem afterQuote_ne (quote : Char) (escapes : Bool) {text rest : List Char} (c : Char)
    (short : text.length ≤ rest.length) : afterQuote quote escapes text ≠ c :: rest := by
  intro same
  have inside := afterQuote_length_le quote escapes text
  rw [same, length_cons] at inside
  omega

theorem append_ne_self (c : Char) (body rest : List Char) : c :: (body ++ rest) ≠ rest := by
  intro same
  have lengths := congrArg List.length same
  rw [length_cons, length_append] at lengths
  omega

theorem afterQuote_ne_self (quote : Char) (escapes : Bool) (c : Char) (rest : List Char) :
    afterQuote quote escapes (c :: rest) ≠ c :: rest := by
  cases rest with
  | nil => exact fun same => absurd ((afterQuote_single quote escapes c).symm.trans same) nofun
  | cons d later =>
    rw [afterQuote_pair]
    split
    · split
      · exact afterQuote_ne quote escapes c (Nat.le_succ _)
      · exact fun same => absurd (congrArg List.length same) (by simp)
    · split
      · exact afterQuote_ne quote escapes c (Nat.le_succ _)
      · exact afterQuote_ne quote escapes c le_rfl

/-- Quoted text that ends before `rest` ends before other text too, unless that starts with
the quote. -/
theorem afterQuote_append {quote : Char} {escapes : Bool} {rest more : List Char}
    (nothing : rest = [] → more = []) (closed : more.head? ≠ some quote) :
    ∀ {body : List Char}, afterQuote quote escapes (body ++ rest) = rest →
      afterQuote quote escapes (body ++ more) = more
  | [], ends => by
      cases rest with
      | nil =>
        rw [nothing rfl]
        rfl
      | cons d later => exact absurd ends (afterQuote_ne_self quote escapes d later)
  | [c], ends => by
      cases rest with
      | nil =>
        rw [nothing rfl]
        exact afterQuote_single quote escapes c
      | cons d later =>
        rw [singleton_append, afterQuote_pair] at ends
        split at ends
        · rename_i closes
          cases more with
          | nil => exact afterQuote_single quote escapes c
          | cons e more =>
            have other : e ≠ quote := fun same => closed (by rw [same]; rfl)
            rw [singleton_append, afterQuote_pair, if_pos closes, if_neg other]
        · split at ends
          · exact absurd ends (afterQuote_ne quote escapes d le_rfl)
          · exact absurd ends (afterQuote_ne_self quote escapes d later)
  | c :: d :: body, ends => by
      rw [cons_append, cons_append, afterQuote_pair] at ends ⊢
      split
      · rename_i opens
        rw [if_pos opens] at ends
        split
        · rename_i doubled
          rw [if_pos doubled] at ends
          exact afterQuote_append nothing closed ends
        · rename_i single
          rw [if_neg single] at ends
          exact absurd ends (append_ne_self d body rest)
      · rename_i other
        rw [if_neg other] at ends
        split
        · rename_i escaped
          rw [if_pos escaped] at ends
          exact afterQuote_append nothing closed ends
        · rename_i unescaped
          rw [if_neg unescaped, ← cons_append] at ends
          rw [← cons_append]
          exact afterQuote_append nothing closed ends

theorem afterDelimiter_short {delimiter text : List Char}
    (found : afterDelimiter delimiter text ≠ []) :
    delimiter.length + (afterDelimiter delimiter text).length ≤ text.length := by
  fun_induction afterDelimiter delimiter text with
  | case1 => exact absurd rfl found
  | case2 c rest here =>
    have within := (List.isPrefixOf_iff_prefix.mp here).length_le
    rw [length_drop]
    omega
  | case3 c rest _ ih => exact Nat.le_succ_of_le (ih found)

theorem afterDelimiter_append {delimiter rest more : List Char} (filled : delimiter ≠ [])
    (nothing : rest = [] → more = []) {body : List Char}
    (ends : afterDelimiter delimiter (body ++ rest) = rest) :
    afterDelimiter delimiter (body ++ more) = more := by
  have positive := length_pos_iff.mpr filled
  by_cases empty : rest = []
  · rw [nothing empty]
    rwa [empty] at ends
  · induction body with
    | nil =>
      have short := afterDelimiter_short (by rw [ends]; exact empty)
      rw [ends, nil_append] at short
      omega
    | cons c body ih =>
      rw [cons_append, afterDelimiter, ← cons_append] at ends
      rw [cons_append, afterDelimiter, ← cons_append]
      split at ends
      · rename_i here
        have lengths := congrArg List.length ends
        have left := length_pos_iff.mpr empty
        rw [length_drop, length_append] at lengths
        have whole : delimiter.length = (c :: body).length := by omega
        rw [isPrefixOf_append_of_le rest (by omega)] at here
        rw [isPrefixOf_append_of_le more (by omega), if_pos here, drop_left' whole.symm]
      · rename_i elsewhere
        have short := afterDelimiter_short (by rw [ends]; exact empty)
        rw [ends, length_append] at short
        have inside : delimiter.length ≤ (c :: body).length := by
          rw [length_cons]
          omega
        rw [isPrefixOf_append_of_le rest inside] at elsewhere
        rw [isPrefixOf_append_of_le more inside, if_neg elsewhere]
        exact ih ends

theorem head_afterQuote (quote : Char) (escapes : Bool) :
    ∀ text : List Char, (afterQuote quote escapes text).head? ≠ some quote
  | [] => nofun
  | [c] => by
      rw [afterQuote_single]
      exact nofun
  | c :: d :: rest => by
      rw [afterQuote_pair]
      split
      · split
        · exact head_afterQuote quote escapes rest
        · rename_i other
          exact fun same => other (Option.some.inj same)
      · split
        · exact head_afterQuote quote escapes rest
        · exact head_afterQuote quote escapes (d :: rest)

theorem dollarTag_append {tag : List Char} (tagged : tag.all isTagCont = true)
    (starts : tag.head?.all isIdentStart = true) (body : List Char) :
    dollarTag (tag ++ '$' :: body) = some (tag, body) := by
  have every := all_eq_true.mp tagged
  have stops : isTagCont '$' = false := rfl
  unfold dollarTag
  rw [dropWhile_append_of_pos every, takeWhile_append_of_pos every,
    dropWhile_cons_of_neg (by simp [stops]), takeWhile_cons_of_neg (by simp [stops])]
  rw [append_nil]
  exact if_pos starts

theorem dollarTag_inv {text tag body : List Char} (found : dollarTag text = some (tag, body)) :
    text = tag ++ '$' :: body ∧ tag.all isTagCont = true ∧
      tag.head?.all isIdentStart = true := by
  unfold dollarTag at found
  split at found
  · rename_i rest shape
    dsimp only at found
    split at found
    · rename_i starts
      obtain ⟨rfl, rfl⟩ := Prod.mk.inj (Option.some.inj found)
      refine ⟨?_, all_eq_true.mpr fun c member => mem_takeWhile_imp member, starts⟩
      rw [← shape, takeWhile_append_dropWhile]
    · cases found
  · cases found

end Pgprox.Sql
