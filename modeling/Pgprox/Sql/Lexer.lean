/-
Splitting SQL text into the parts that are SQL and the parts that are not.

Text is a list of characters: the source scans bytes, and every delimiter it looks for is
ASCII, so both scans stop at the same places.  The source's loops take the length of the
remaining text as fuel, and `lex_eq` says that the fuel is never what ends them.
-/

import Mathlib

namespace Pgprox.Sql

open List

/-! ### Characters and words -/

def isAscii (c : Char) : Bool :=
  c.val < 128

def isBareChar (c : Char) : Bool :=
  (isAscii c && c.isAlphanum) || c = '_' || c = '.' || c = '-'

def isAsciiWhitespace (c : Char) : Bool :=
  c.val = 32 || c.val = 9 || c.val = 10 || c.val = 12 || c.val = 13

/-- `char::is_whitespace`: the characters with the property `White_Space`. -/
def isWhitespace (c : Char) : Bool :=
  (9 ≤ c.val && c.val ≤ 13) || c.val = 32 || c.val = 0x85 || c.val = 0xA0 || c.val = 0x1680 ||
    (0x2000 ≤ c.val && c.val ≤ 0x200A) || c.val = 0x2028 || c.val = 0x2029 ||
    c.val = 0x202F || c.val = 0x205F || c.val = 0x3000

def isWordChar (c : Char) : Bool :=
  if isAscii c then c.isAlphanum || c = '_' else true

def toAsciiLowercase (word : List Char) : List Char :=
  word.map Char.toLower

def eqIgnoreAsciiCase (word : List Char) (keyword : String) : Bool :=
  toAsciiLowercase word = toAsciiLowercase keyword.toList

def startsWith (text : List Char) (start : String) : Bool :=
  start.toList.isPrefixOf text

def trimStart (text : List Char) : List Char :=
  text.dropWhile isWhitespace

def trim (text : List Char) : List Char :=
  ((trimStart text).reverse.dropWhile isWhitespace).reverse

theorem trim_of_ends {first last : Char} {text : List Char} (opens : text.head? = some first)
    (closes : text.getLast? = some last) (left : isWhitespace first = false)
    (right : isWhitespace last = false) : trim text = text := by
  have start : trimStart text = text := by
    obtain ⟨rest, rfl⟩ := head?_eq_some_iff.mp opens
    exact dropWhile_cons_of_neg (by simp [left])
  obtain ⟨front, rfl⟩ := getLast?_eq_some_iff.mp closes
  rw [trim, start, reverse_concat, dropWhile_cons_of_neg (by simp [right]),
    reverse_cons, reverse_reverse]

theorem trim_of_visible {text : List Char} (visible : ∀ c ∈ text, isWhitespace c = false) :
    trim text = text := by
  cases text with
  | nil => rfl
  | cons first rest =>
    exact trim_of_ends rfl (getLast?_eq_some_getLast (cons_ne_nil _ _))
      (visible _ mem_cons_self) (visible _ (getLast_mem _))

def unquote (value : List Char) : List Char :=
  if 2 ≤ value.length ∧ value.head? = some '\'' ∧ value.getLast? = some '\'' then
    (value.drop 1).dropLast
  else if 2 ≤ value.length ∧ value.head? = some '"' ∧ value.getLast? = some '"' then
    (value.drop 1).dropLast
  else value

inductive Token
  | word (text : List Char)
  | quoted
  | semicolon
  | punct (c : Char)
  deriving DecidableEq

/-! ### Where quoted text and comments end -/

def isStringIntroducer (word : List Char) : Bool :=
  word.length = 1 &&
    (eqIgnoreAsciiCase word "e" || eqIgnoreAsciiCase word "b" || eqIgnoreAsciiCase word "x" ||
      eqIgnoreAsciiCase word "u")

def wordEnd (input : List Char) : Nat :=
  (input.takeWhile isWordChar).length

def lineCommentEnd (input : List Char) : Nat :=
  match input.findIdx? fun c => c = '\n' with
  | some index => index + 1
  | none => input.length

def blockCommentFrom (depth : Nat) : List Char → Nat
  | '/' :: '*' :: rest => 2 + blockCommentFrom (depth + 1) rest
  | '*' :: '/' :: rest => if depth = 1 then 2 else 2 + blockCommentFrom (depth - 1) rest
  | _ :: rest => 1 + blockCommentFrom depth rest
  | [] => 0

def blockCommentEnd (input : List Char) : Nat :=
  blockCommentFrom 0 input

def singleQuotedFrom (backslashEscapes : Bool) : List Char → Nat
  | [] => 0
  | c :: rest =>
    if c = '\\' ∧ backslashEscapes then
      match rest with
      | [] => 1
      | _ :: later => 2 + singleQuotedFrom backslashEscapes later
    else if c = '\'' then
      match rest with
      | '\'' :: later => 2 + singleQuotedFrom backslashEscapes later
      | _ => 1
    else
      1 + singleQuotedFrom backslashEscapes rest

def singleQuotedEnd (input : List Char) (backslashEscapes : Bool) : Nat :=
  1 + singleQuotedFrom backslashEscapes (input.drop 1)

def doubleQuotedFrom : List Char → Nat
  | '"' :: '"' :: rest => 2 + doubleQuotedFrom rest
  | '"' :: _ => 1
  | _ :: rest => 1 + doubleQuotedFrom rest
  | [] => 0

def doubleQuotedEnd (input : List Char) : Nat :=
  1 + doubleQuotedFrom (input.drop 1)

/-- The text between two dollar signs follows the rules of an unquoted identifier. -/
def isDollarTag : List Char → Bool
  | [] => true
  | first :: rest =>
    (first.isAlpha || first = '_' || !isAscii first) &&
      rest.all fun c => c.isAlphanum || c = '_' || !isAscii c

def findText (needle : List Char) : List Char → Option Nat
  | [] => if needle = [] then some 0 else none
  | c :: rest =>
    if needle.isPrefixOf (c :: rest) then some 0
    else (findText needle rest).map (· + 1)

def dollarQuotedEnd (input : List Char) : Option Nat :=
  match (input.drop 1).findIdx? fun c => c = '$' with
  | none => none
  | some offset =>
    if isDollarTag ((input.drop 1).take offset) then
      let tag := input.take (offset + 2)
      match findText tag (input.drop tag.length) with
      | none => some input.length
      | some index => some (tag.length + index + tag.length)
    else none

/-! ### The lexer -/

def trimLeadingSpace (input : List Char) : List Char :=
  match input.dropWhile isAsciiWhitespace with
  | [] => []
  | c :: rest => if isAscii c then c :: rest else trimStart (c :: rest)

def skipTriviaWithin : Nat → List Char → List Char
  | 0, rest => rest
  | fuel + 1, rest =>
    if (trimLeadingSpace rest).length ≠ rest.length then
      skipTriviaWithin fuel (trimLeadingSpace rest)
    else if startsWith rest "--" then
      skipTriviaWithin fuel (rest.drop (lineCommentEnd rest))
    else if startsWith rest "/*" then
      skipTriviaWithin fuel (rest.drop (blockCommentEnd rest))
    else rest

def skipTrivia (rest : List Char) : List Char :=
  skipTriviaWithin rest.length rest

def afterIntroducer (word rest : List Char) : List Char :=
  if eqIgnoreAsciiCase word "u" && startsWith rest "&'" then rest.drop 1 else rest

def wordToken (word rest : List Char) : Token × List Char :=
  if isStringIntroducer word then
    let quote := afterIntroducer word rest
    if startsWith quote "'" then
      (.quoted, quote.drop (singleQuotedEnd quote (eqIgnoreAsciiCase word "e")))
    else (.word word, quote)
  else (.word word, rest)

def tokenAt (first : Char) (after : List Char) : Token × List Char :=
  let rest := first :: after
  if first = ';' then (.semicolon, after)
  else if first = '\'' then (.quoted, rest.drop (singleQuotedEnd rest false))
  else if first = '"' then (.quoted, rest.drop (doubleQuotedEnd rest))
  else if first = '$' then
    match dollarQuotedEnd rest with
    | some stop => (.quoted, rest.drop stop)
    | none => (.punct first, after)
  else if isWordChar first then wordToken (rest.take (wordEnd rest)) (rest.drop (wordEnd rest))
  else (.punct first, after)

def next (input : List Char) : Option (Token × List Char) :=
  match skipTrivia input with
  | [] => none
  | first :: after => some (tokenAt first after)

structure Lexeme where
  before : List Char
  token : Token
  after : List Char

def lexWithin : Nat → List Char → List Lexeme
  | 0, _ => []
  | fuel + 1, input =>
    match next input with
    | none => []
    | some (token, after) => ⟨input, token, after⟩ :: lexWithin fuel after

def lex (input : List Char) : List Lexeme :=
  lexWithin input.length input

/-! ### Every token takes text -/

theorem trimLeadingSpace_length_le (input : List Char) :
    (trimLeadingSpace input).length ≤ input.length := by
  have dropped := (dropWhile_sublist isAsciiWhitespace (l := input)).length_le
  unfold trimLeadingSpace
  split
  · exact Nat.zero_le _
  · rename_i c rest shape
    rw [shape] at dropped
    split
    · exact dropped
    · exact Nat.le_trans (dropWhile_sublist isWhitespace).length_le dropped

theorem skipTriviaWithin_length_le (fuel : Nat) (input : List Char) :
    (skipTriviaWithin fuel input).length ≤ input.length := by
  induction fuel generalizing input with
  | zero => exact Nat.le_refl _
  | succ fuel ih =>
    unfold skipTriviaWithin
    split
    · exact Nat.le_trans (ih _) (trimLeadingSpace_length_le input)
    · split
      · exact Nat.le_trans (ih _) (drop_sublist _ _).length_le
      · split
        · exact Nat.le_trans (ih _) (drop_sublist _ _).length_le
        · exact Nat.le_refl _

theorem drop_cons_length_le (first : Char) (after : List Char) {count : Nat} (some : 0 < count) :
    ((first :: after).drop count).length ≤ after.length := by
  rw [length_drop, length_cons]
  omega

theorem afterIntroducer_length_le (word rest : List Char) :
    (afterIntroducer word rest).length ≤ rest.length := by
  unfold afterIntroducer
  split
  · exact (drop_sublist _ _).length_le
  · exact Nat.le_refl _

theorem wordToken_length_le (word rest : List Char) :
    (wordToken word rest).2.length ≤ rest.length := by
  have quote := afterIntroducer_length_le word rest
  unfold wordToken
  split
  · dsimp only
    split
    · exact Nat.le_trans (drop_sublist _ _).length_le quote
    · exact quote
  · exact Nat.le_refl _

variable {input : List Char}

theorem dollarQuotedEnd_pos {stop : Nat} (present : input ≠ [])
    (found : dollarQuotedEnd input = some stop) : 0 < stop := by
  have filled : 0 < input.length := length_pos_iff.mpr present
  unfold dollarQuotedEnd at found
  split at found
  · cases found
  · rename_i offset _
    split at found
    · have tag : 0 < (input.take (offset + 2)).length := by
        rw [length_take]
        omega
      dsimp only at found
      split at found
      · have stops := Option.some.inj found
        omega
      · have stops := Option.some.inj found
        omega
    · cases found

theorem tokenAt_length_le (first : Char) (after : List Char) :
    (tokenAt first after).2.length ≤ after.length := by
  unfold tokenAt
  dsimp only
  split
  · exact Nat.le_refl _
  · split
    · exact drop_cons_length_le first after (by unfold singleQuotedEnd; omega)
    · split
      · exact drop_cons_length_le first after (by unfold doubleQuotedEnd; omega)
      · split
        · split
          · rename_i found
            exact drop_cons_length_le first after
              (dollarQuotedEnd_pos (cons_ne_nil _ _) found)
          · exact Nat.le_refl _
        · split
          · rename_i starts
            apply Nat.le_trans (wordToken_length_le _ _)
            apply drop_cons_length_le
            unfold wordEnd
            rw [takeWhile_cons_of_pos starts]
            exact Nat.succ_pos _
          · exact Nat.le_refl _

theorem next_length_lt {after : List Char} {token : Token}
    (read : next input = some (token, after)) : after.length < input.length := by
  have shorter := skipTriviaWithin_length_le input.length input
  unfold next skipTrivia at read
  split at read
  · cases read
  · rename_i first rest shape
    rw [shape, length_cons] at shorter
    have taken := tokenAt_length_le first rest
    rw [Option.some.inj read] at taken
    exact Nat.lt_of_lt_of_le (Nat.lt_succ_of_le taken) shorter

theorem lexWithin_eq {fuel other : Nat} (enough : input.length ≤ fuel)
    (enoughToo : input.length ≤ other) : lexWithin fuel input = lexWithin other input := by
  induction fuel generalizing other input with
  | zero =>
    obtain rfl : input = [] := length_eq_zero_iff.mp (Nat.le_zero.mp enough)
    cases other with
    | zero | succ => rfl
  | succ fuel ih =>
    cases other with
    | zero =>
      obtain rfl : input = [] := length_eq_zero_iff.mp (Nat.le_zero.mp enoughToo)
      rfl
    | succ other =>
      unfold lexWithin
      split
      · rfl
      · rename_i token after read
        have less := next_length_lt read
        have same : lexWithin fuel after = lexWithin other after :=
          ih (by omega) (by omega)
        rw [same]

theorem lex_eq (input : List Char) :
    lex input = match next input with
      | none => []
      | some (token, after) => ⟨input, token, after⟩ :: lex after := by
  unfold lex
  rw [lexWithin_eq (Nat.le_refl _) (Nat.le_succ input.length), lexWithin]
  split
  · rfl
  · rename_i token after read
    rw [lexWithin_eq (Nat.le_of_lt (next_length_lt read)) (Nat.le_refl _)]

theorem lex_eq_cons {lexeme : Lexeme} {later : List Lexeme} (shape : lex input = lexeme :: later) :
    lexeme.before = input ∧ next input = some (lexeme.token, lexeme.after) ∧
      later = lex lexeme.after := by
  rw [lex_eq] at shape
  split at shape
  · cases shape
  · rename_i token after read
    cases shape
    exact ⟨rfl, read, rfl⟩

/-! ### Statements and their words -/

def pushStatement (text : List Char) : List (List Char) :=
  if skipTrivia text = [] then [] else [text]

def statementsFrom (start : List Char) : List Lexeme → List (List Char)
  | [] => pushStatement start
  | lexeme :: later =>
    if lexeme.token = .semicolon then
      pushStatement (start.take (start.length - lexeme.before.length)) ++
        statementsFrom lexeme.after later
    else statementsFrom start later

def statements (sql : List Char) : List (List Char) :=
  statementsFrom sql (lex sql)

structure Words where
  found : List (List (List Char))
  words : List (List Char)
  joining : Bool

namespace Words

/-- `last_mut` followed by `push_str`. -/
def appendLast (words : List (List Char)) (text : List Char) : List (List Char) :=
  match words.getLast? with
  | some last => words.dropLast ++ [last ++ text]
  | none => words

def close (state : Words) : Words where
  found := if state.words = [] then state.found else state.found ++ [state.words]
  words := []
  joining := false

def read (keepDots : Bool) (state : Words) : Token → Words
  | .semicolon => state.close
  | .word text =>
    { state with
      words :=
        if state.joining ∧ state.words ≠ [] then
          appendLast state.words (toAsciiLowercase text)
        else state.words ++ [toAsciiLowercase text]
      joining := false }
  | .punct c =>
    if c = '.' ∧ keepDots then
      if state.words = [] then state
      else { state with words := appendLast state.words ['.'], joining := true }
    else { state with joining := false }
  | .quoted => { state with joining := false }

end Words

def statementWords (sql : List Char) (keepDots : Bool) : List (List (List Char)) :=
  ((((lex sql).map Lexeme.token).foldl (Words.read keepDots) ⟨[], [], false⟩).close).found

end Pgprox.Sql
