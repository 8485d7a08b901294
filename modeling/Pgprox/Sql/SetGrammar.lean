/-
The values that a `SET` denotes.

The server's grammar for the right side of a `SET`: a list of words, quoted identifiers,
numbers and strings between commas.  A value is the text that the server makes of it.
-/

import Pgprox.Sql.Reference

namespace Pgprox.Sql.SetGrammar

open Reference List

/-! ### Tokens -/

inductive SetToken
  | word (text : List Char)
  | quotedIdent (text : List Char)
  | string (text : List Char)
  | number (text : List Char)
  | symbol (c : Char)
  deriving DecidableEq

def closeQuote (quote : Char) : List Char → Option (List Char × List Char)
  | [] => none
  | c :: rest =>
    if c = quote then
      match rest with
      | [] => some ([], [])
      | d :: later =>
        if d = quote then (closeQuote quote later).map fun (body, left) => (quote :: body, left)
        else some ([], d :: later)
    else (closeQuote quote rest).map fun (body, left) => (c :: body, left)

def fraction : List Char → List Char × List Char
  | '.' :: rest => ('.' :: rest.takeWhile Char.isDigit, rest.dropWhile Char.isDigit)
  | text => ([], text)

def exponent : List Char → List Char × List Char
  | mark :: sign :: rest =>
    if mark = 'e' ∨ mark = 'E' then
      if sign.isDigit then
        (mark :: sign :: rest.takeWhile Char.isDigit, rest.dropWhile Char.isDigit)
      else if (sign = '+' ∨ sign = '-') ∧ rest.head?.any Char.isDigit then
        (mark :: sign :: rest.takeWhile Char.isDigit, rest.dropWhile Char.isDigit)
      else ([], mark :: sign :: rest)
    else ([], mark :: sign :: rest)
  | text => ([], text)

def startsNumber : List Char → Bool
  | c :: rest => c.isDigit || (c = '.' && rest.head?.any Char.isDigit)
  | [] => false

def unsigned (text : List Char) : Option (List Char × List Char) :=
  let afterWhole := fraction (text.dropWhile Char.isDigit)
  let afterFraction := exponent afterWhole.2
  if afterFraction.2.head?.any isIdentStart then none
  else some (text.takeWhile Char.isDigit ++ afterWhole.1 ++ afterFraction.1, afterFraction.2)

def tokenHere (c : Char) (rest : List Char) : Option (SetToken × List Char) :=
  if isIdentStart c then
    some (.word (c :: rest.takeWhile isIdentCont), rest.dropWhile isIdentCont)
  else if startsNumber (c :: rest) then
    (unsigned (c :: rest)).map fun (text, left) => (.number text, left)
  else if c = '"' then
    (closeQuote '"' rest).bind fun (body, left) =>
      if body = [] then none else some (.quotedIdent body, left)
  else if c = '\'' then (closeQuote '\'' rest).map fun (body, left) => (.string body, left)
  else some (.symbol c, rest)

variable {text left : List Char}

theorem closeQuote_length {quote : Char} {body : List Char}
    (closed : closeQuote quote text = some (body, left)) : left.length < text.length := by
  fun_induction closeQuote quote text generalizing body with
  | case1 => cases closed
  | case2 => cases closed; exact Nat.one_pos
  | case3 later ih =>
    obtain ⟨⟨inner, behind⟩, found, same⟩ := Option.map_eq_some_iff.mp closed
    cases same
    exact Nat.lt_of_lt_of_le (ih found) (length_le_two _ _ _)
  | case4 d later other =>
    cases closed
    exact Nat.lt_succ_self _
  | case5 c rest other ih =>
    obtain ⟨⟨inner, behind⟩, found, same⟩ := Option.map_eq_some_iff.mp closed
    cases same
    exact Nat.lt_of_lt_of_le (ih found) (Nat.le_succ _)

theorem fraction_suffix (text : List Char) : (fraction text).2 <:+ text := by
  unfold fraction
  split
  · exact (dropWhile_suffix _).trans (suffix_cons _ _)
  · exact suffix_refl _

theorem exponent_suffix (text : List Char) : (exponent text).2 <:+ text := by
  have dropped (mark sign : Char) (rest : List Char) :
      rest.dropWhile Char.isDigit <:+ mark :: sign :: rest :=
    (dropWhile_suffix _).trans ((suffix_cons _ _).trans (suffix_cons _ _))
  unfold exponent
  split
  · split
    · split
      · exact dropped _ _ _
      · split
        · exact dropped _ _ _
        · exact suffix_refl _
    · exact suffix_refl _
  · exact suffix_refl _

theorem unsigned_suffix {digits : List Char} (taken : unsigned text = some (digits, left)) :
    left <:+ text := by
  unfold unsigned at taken
  dsimp only at taken
  split at taken
  · cases taken
  · cases taken
    exact (exponent_suffix _).trans ((fraction_suffix _).trans (dropWhile_suffix _))

variable {c : Char} {rest : List Char}

theorem unsigned_length {body : List Char} (starts : c.isDigit = true ∨ c = '.')
    (taken : unsigned (c :: rest) = some (body, left)) : left.length ≤ rest.length := by
  have whole : (fraction ((c :: rest).dropWhile Char.isDigit)).2.length ≤ rest.length := by
    rcases starts with digit | rfl
    · rw [dropWhile_cons_of_pos digit]
      exact Nat.le_trans (fraction_suffix _).length_le (dropWhile_sublist _).length_le
    · exact (dropWhile_sublist _).length_le
  unfold unsigned at taken
  dsimp only at taken
  split at taken
  · cases taken
  · cases taken
    exact Nat.le_trans (exponent_suffix _).length_le whole

theorem tokenHere_length {token : SetToken} (taken : tokenHere c rest = some (token, left)) :
    left.length ≤ rest.length := by
  unfold tokenHere at taken
  split at taken
  · cases taken
    exact (dropWhile_sublist _).length_le
  · split at taken
    · rename_i starts
      obtain ⟨⟨body, behind⟩, found, same⟩ := Option.map_eq_some_iff.mp taken
      cases same
      simp only [startsNumber, Bool.or_eq_true, Bool.and_eq_true, decide_eq_true_eq] at starts
      exact unsigned_length (starts.imp id And.left) found
    · split at taken
      · obtain ⟨⟨body, behind⟩, found, same⟩ := Option.bind_eq_some_iff.mp taken
        dsimp only at same
        split at same
        · cases same
        · cases same
          exact Nat.le_of_lt (closeQuote_length found)
      · split at taken
        · obtain ⟨⟨body, behind⟩, found, same⟩ := Option.map_eq_some_iff.mp taken
          cases same
          exact Nat.le_of_lt (closeQuote_length found)
        · cases taken
          exact Nat.le_refl _

def setTokens (text : List Char) : Option (List SetToken) :=
  match text with
  | [] => some []
  | c :: rest =>
    if isSpace c then setTokens rest
    else if c = '-' ∧ rest.head? = some '-' then setTokens (afterLineComment rest)
    else if c = '/' ∧ rest.head? = some '*' then
      match _closed : closeComment 0 (rest.drop 1) with
      | none => none
      | some left => setTokens left
    else
      match _taken : tokenHere c rest with
      | none => none
      | some (token, left) => (setTokens left).map (token :: ·)
termination_by text.length
decreasing_by
  · exact Nat.lt_succ_self _
  · exact Nat.lt_succ_of_le (dropWhile_sublist _).length_le
  · exact Nat.lt_succ_of_le
      (Nat.le_trans (closeComment_length _closed) (drop_sublist _ _).length_le)
  · exact Nat.lt_succ_of_le (tokenHere_length _taken)

theorem setTokens_nil : setTokens [] = some [] := by
  rw [setTokens]

theorem setTokens_space (space : isSpace c = true) (rest : List Char) :
    setTokens (c :: rest) = setTokens rest := by
  rw [setTokens, if_pos space]

theorem setTokens_lineComment (rest : List Char) :
    setTokens ('-' :: '-' :: rest) = setTokens (afterLineComment ('-' :: rest)) := by
  rw [setTokens, if_neg (by decide), if_pos ⟨rfl, rfl⟩]

theorem setTokens_cons (visible : isSpace c = false) (dash : ¬ (c = '-' ∧ rest.head? = some '-'))
    (slash : c ≠ '/') :
    setTokens (c :: rest) =
      (tokenHere c rest).bind fun (token, left) => (setTokens left).map (token :: ·) := by
  rw [setTokens, if_neg (by simp [visible]), if_neg dash, if_neg fun both => slash both.1]
  cases tokenHere c rest with
  | none => rfl
  | some taken => rfl

theorem tokenHere_word {word : List Char} (taken : tokenHere c rest = some (.word word, left)) :
    isIdentStart c = true ∧ word = c :: rest.takeWhile isIdentCont := by
  unfold tokenHere at taken
  split at taken
  · rename_i starts
    cases taken
    exact ⟨starts, rfl⟩
  · split at taken
    · simp at taken
    · split at taken
      · simp [Option.bind_eq_some_iff] at taken
      · split at taken
        · simp at taken
        · simp at taken

variable {tokens : List SetToken}

theorem head_of_word {word : List Char} (read : setTokens text = some tokens)
    (among : .word word ∈ tokens) : word.head?.any isIdentStart = true := by
  fun_induction setTokens text generalizing tokens with
  | case1 => cases read; cases among
  | case2 c rest space ih => exact ih read among
  | case3 c rest _ comment ih => exact ih read among
  | case4 => cases read
  | case5 c rest _ _ _ left closed ih => exact ih read among
  | case6 => cases read
  | case7 c rest _ _ _ token left taken ih =>
    obtain ⟨more, later, rfl⟩ := Option.map_eq_some_iff.mp read
    rcases mem_cons.mp among with rfl | behind
    · obtain ⟨starts, rfl⟩ := tokenHere_word taken
      exact starts
    · exact ih later behind

/-! ### Values -/

/-- The largest number that the server reads as a whole number. -/
def largestInteger : Nat := 2147483647

def decimal (digits : List Char) : Nat :=
  digits.foldl (fun value digit => 10 * value + (digit.toNat - '0'.toNat)) 0

/-- The text that the server makes of a number. -/
def numberText (negative : Bool) (text : List Char) : List Char :=
  if text.all Char.isDigit ∧ decimal text ≤ largestInteger then
    if negative ∧ decimal text ≠ 0 then '-' :: (Nat.repr (decimal text)).toList
    else (Nat.repr (decimal text)).toList
  else if negative then '-' :: text else text

def element : List SetToken → Option (List Char × List SetToken)
  | .word text :: rest => some (toAsciiLowercase text, rest)
  | .quotedIdent text :: rest => some (text, rest)
  | .string text :: rest => some (text, rest)
  | .number text :: rest => some (numberText false text, rest)
  | .symbol '+' :: .number text :: rest => some (numberText false text, rest)
  | .symbol '-' :: .number text :: rest => some (numberText true text, rest)
  | _ => none

theorem element_length {rest : List SetToken} {value : List Char}
    (read : element tokens = some (value, rest)) : rest.length < tokens.length := by
  unfold element at read
  split at read <;> cases read <;> simp only [length_cons] <;> omega

def valueList (tokens : List SetToken) : Option (List (List Char)) :=
  match _read : element tokens with
  | none => none
  | some (value, []) => some [value]
  | some (value, [.symbol ';']) => some [value]
  | some (value, .symbol ',' :: later) => (valueList later).map (value :: ·)
  | some _ => none
termination_by tokens.length
decreasing_by
  exact Nat.lt_trans (Nat.lt_succ_self _) (element_length _read)

theorem valueList_of_element {more : List SetToken} {value : List Char}
    (read : element tokens = some (value, more))
    (last : ∀ token ∈ more.head?, token ≠ .symbol ';' ∧ token ≠ .symbol ',') :
    valueList tokens = if more = [] then some [value] else none := by
  rw [valueList.eq_def]
  split
  · rename_i unread
    rw [read] at unread
    cases unread
  · rename_i same
    rw [read] at same
    cases same
    rfl
  · rename_i same
    rw [read] at same
    cases same
    exact absurd rfl (last _ rfl).1
  · rename_i same
    rw [read] at same
    cases same
    exact absurd rfl (last _ rfl).2
  · rename_i filled _ _ same
    rw [read] at same
    cases same
    rw [if_neg]
    rintro rfl
    exact filled _ rfl

theorem valueList_of_none (unread : element tokens = none) : valueList tokens = none := by
  rw [valueList.eq_def]
  split <;> simp_all

def nameAt : List SetToken → Option (List Char × List SetToken)
  | .word part :: .symbol '.' :: rest =>
    (nameAt rest).map fun (name, later) => (toAsciiLowercase part ++ '.' :: name, later)
  | .word part :: rest => some (toAsciiLowercase part, rest)
  | _ => none

def isOperator : SetToken → Bool
  | .symbol c => c = '='
  | .word text => toAsciiLowercase text = "to".toList
  | _ => false

theorem nameAt_eq_some {later : List SetToken} {name : List Char}
    (named : nameAt tokens = some (name, later)) :
    ∃ part rest more, tokens = .word part :: rest ∧ name = toAsciiLowercase part ++ more := by
  unfold nameAt at named
  split at named
  · rename_i part rest
    obtain ⟨⟨more, left⟩, -, same⟩ := Option.map_eq_some_iff.mp named
    cases same
    exact ⟨part, _, _, rfl, rfl⟩
  · rename_i part rest _
    cases named
    exact ⟨part, _, [], rfl, (append_nil _).symm⟩
  · cases named

def setStatement (text : List Char) : Option (List Char × List (List Char)) := do
  let tokens ← setTokens text
  match tokens with
  | .word verb :: named =>
    if toAsciiLowercase verb = "set".toList then
      let (name, assigned) ← nameAt named
      match assigned with
      | operator :: values =>
        if isOperator operator then (valueList values).map fun list => (name, list) else none
      | [] => none
    else none
  | _ => none

end Pgprox.Sql.SetGrammar
