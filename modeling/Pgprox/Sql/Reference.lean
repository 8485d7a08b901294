/-
Postgres's lexical rules.

The reference cuts a text into pieces, white space and comments among them.  A constant or
a comment that is never closed runs to the end of the text, and letters right behind a
number belong to the number: the server rejects both.  `standard` is the setting
`standard_conforming_strings`.
-/

import Pgprox.Sql.Lexer

namespace Pgprox.Sql.Reference

open List

def isSpace (c : Char) : Bool :=
  c = ' ' || c = '\t' || c = '\n' || c = '\r' || c = '\x0b' || c = '\x0c'

def isNewline (c : Char) : Bool :=
  c = '\n' || c = '\r'

def isIdentStart (c : Char) : Bool :=
  c.isAlpha || c = '_' || !isAscii c

def isIdentCont (c : Char) : Bool :=
  isIdentStart c || c.isDigit || c = '$'

def isTagCont (c : Char) : Bool :=
  isIdentStart c || c.isDigit

/-! ### Where comments and constants end -/

def afterLineComment (text : List Char) : List Char :=
  text.dropWhile fun c => !isNewline c

/-- What follows a block comment that is closed, from behind its opening on. -/
def closeComment : Nat → List Char → Option (List Char)
  | depth, '/' :: '*' :: rest => closeComment (depth + 1) rest
  | 0, '*' :: '/' :: rest => some rest
  | depth + 1, '*' :: '/' :: rest => closeComment depth rest
  | depth, _ :: rest => closeComment depth rest
  | _, [] => none

def afterBlockComment (depth : Nat) (text : List Char) : List Char :=
  (closeComment depth text).getD []

/-- What follows quoted text, from behind its opening quote on.  A doubled quote does not
close it, and neither does an escaped one. -/
def afterQuote (quote : Char) (escapes : Bool) : List Char → List Char
  | [] => []
  | c :: rest =>
    if c = quote then
      match rest with
      | [] => []
      | d :: later => if d = quote then afterQuote quote escapes later else d :: later
    else if c = '\\' ∧ escapes then
      match rest with
      | [] => []
      | _ :: later => afterQuote quote escapes later
    else afterQuote quote escapes rest

def afterString (escapes : Bool) (text : List Char) : List Char :=
  afterQuote '\'' escapes text

def afterQuotedIdent (text : List Char) : List Char :=
  afterQuote '"' false text

def dollarTag (text : List Char) : Option (List Char × List Char) :=
  match text.dropWhile isTagCont with
  | '$' :: body =>
    let tag := text.takeWhile isTagCont
    if tag.head?.all isIdentStart then some (tag, body) else none
  | _ => none

def afterDelimiter (delimiter : List Char) : List Char → List Char
  | [] => []
  | c :: rest =>
    if delimiter.isPrefixOf (c :: rest) then (c :: rest).drop delimiter.length
    else afterDelimiter delimiter rest

/-! ### Pieces -/

inductive Kind
  | space
  | lineComment
  | blockComment
  | constant
  /-- A part of a string constant that an `E` string before a newline goes on in. -/
  | continued
  | identifier
  | number
  | semicolon
  | symbol
  deriving DecidableEq

def Kind.isTrivia : Kind → Bool
  | .space | .lineComment | .blockComment => true
  | _ => false

inductive Tail
  | none
  | closed (newline : Bool)
  deriving DecidableEq

def Tail.space (c : Char) : Tail → Tail
  | .none => .none
  | .closed newline => .closed (newline || isNewline c)

def pieceAt (standard : Bool) (tail : Tail) (first : Char) (after : List Char) :
    Kind × List Char × Tail :=
  if isSpace first then (.space, after, tail.space first)
  else if first = '-' && startsWith after "-" then (.lineComment, afterLineComment after, tail)
  else if first = '/' && startsWith after "*" then
    (.blockComment, afterBlockComment 0 (after.drop 1), .none)
  else if first = ';' then (.semicolon, after, .none)
  else if first = '\'' then
    if tail = .closed true then (.continued, afterString true after, .closed false)
    else (.constant, afterString (!standard) after, .none)
  else if first = '"' then (.constant, afterQuotedIdent after, .none)
  else if first = '$' then
    match dollarTag after with
    | some (tag, body) => (.constant, afterDelimiter ('$' :: (tag ++ ['$'])) body, .none)
    | none => (.symbol, after, .none)
  else if (first = 'e' || first = 'E') && startsWith after "'" then
    (.constant, afterString true (after.drop 1), .closed false)
  else if (first = 'b' || first = 'B' || first = 'x' || first = 'X') && startsWith after "'" then
    (.constant, afterString false (after.drop 1), .none)
  else if (first = 'u' || first = 'U') && startsWith after "&'" then
    (.constant, afterString false (after.drop 2), .none)
  else if (first = 'u' || first = 'U') && startsWith after "&\"" then
    (.constant, afterQuotedIdent (after.drop 2), .none)
  else if isIdentStart first then (.identifier, after.dropWhile isIdentCont, .none)
  else if first.isDigit then (.number, after.dropWhile isTagCont, .none)
  else (.symbol, after, .none)

structure Piece where
  kind : Kind
  before : List Char
  after : List Char

def Piece.text (piece : Piece) : List Char :=
  piece.before.take (piece.before.length - piece.after.length)

def readWithin (standard : Bool) : Nat → Tail → List Char → List Piece
  | 0, _, _ => []
  | _, _, [] => []
  | fuel + 1, tail, first :: after =>
    let (kind, rest, later) := pieceAt standard tail first after
    ⟨kind, first :: after, rest⟩ :: readWithin standard fuel later rest

def read (standard : Bool) (text : List Char) : List Piece :=
  readWithin standard text.length .none text

example : (read true "SELECT a$b /* x */ E'\\'' ;".toList).map Piece.kind =
    [.identifier, .space, .identifier, .space, .blockComment, .space, .constant, .space,
      .semicolon] := by decide +kernel

/-! ### Every piece takes text -/

theorem length_le_two (c d : Char) (rest : List Char) :
    rest.length ≤ (c :: d :: rest).length := by
  rw [length_cons, length_cons]
  omega

theorem closeComment_length {depth : Nat} {text left : List Char}
    (closed : closeComment depth text = some left) : left.length ≤ text.length := by
  fun_induction closeComment depth text with
  | case1 depth rest ih => exact Nat.le_trans (ih closed) (length_le_two _ _ _)
  | case2 rest => cases closed; exact length_le_two _ _ _
  | case3 depth rest ih => exact Nat.le_trans (ih closed) (length_le_two _ _ _)
  | case4 depth c rest _ _ _ ih => exact Nat.le_trans (ih closed) (Nat.le_succ _)
  | case5 => cases closed

theorem afterBlockComment_length_le (depth : Nat) (text : List Char) :
    (afterBlockComment depth text).length ≤ text.length := by
  unfold afterBlockComment
  cases closed : closeComment depth text with
  | none => exact Nat.zero_le _
  | some left => exact closeComment_length closed

theorem afterQuote_single (quote : Char) (escapes : Bool) (c : Char) :
    afterQuote quote escapes [c] = [] := by
  delta afterQuote
  change (if c = quote then [] else if c = '\\' ∧ escapes then [] else []) = ([] : List Char)
  rw [ite_self, ite_self]

theorem afterQuote_pair (quote : Char) (escapes : Bool) (c d : Char) (rest : List Char) :
    afterQuote quote escapes (c :: d :: rest) =
      if c = quote then if d = quote then afterQuote quote escapes rest else d :: rest
      else if c = '\\' ∧ escapes then afterQuote quote escapes rest
      else afterQuote quote escapes (d :: rest) :=
  rfl

theorem afterQuote_length_le (quote : Char) (escapes : Bool) :
    ∀ text : List Char, (afterQuote quote escapes text).length ≤ text.length
  | [] => Nat.le_refl _
  | [c] => by
      rw [afterQuote_single]
      exact Nat.zero_le _
  | c :: d :: rest => by
      have later := afterQuote_length_le quote escapes rest
      have inner := afterQuote_length_le quote escapes (d :: rest)
      rw [afterQuote_pair]
      rw [length_cons] at inner
      split
      · split
        · exact Nat.le_succ_of_le (Nat.le_succ_of_le later)
        · exact Nat.le_succ _
      · split
        · exact Nat.le_succ_of_le (Nat.le_succ_of_le later)
        · exact Nat.le_succ_of_le inner

variable (escapes : Bool) (text : List Char)

theorem afterString_length_le : (afterString escapes text).length ≤ text.length :=
  afterQuote_length_le _ _ _

theorem afterQuotedIdent_length_le : (afterQuotedIdent text).length ≤ text.length :=
  afterQuote_length_le _ _ _

theorem afterDelimiter_length_le (delimiter text : List Char) :
    (afterDelimiter delimiter text).length ≤ text.length := by
  fun_induction afterDelimiter delimiter text with
  | case1 => exact Nat.le_refl _
  | case2 c rest _ => exact (drop_sublist _ _).length_le
  | case3 c rest _ ih => exact Nat.le_succ_of_le ih

theorem dollarTag_length_le {text tag body : List Char}
    (found : dollarTag text = some (tag, body)) :
    body.length ≤ text.length := by
  have dropped := (dropWhile_sublist isTagCont (l := text)).length_le
  unfold dollarTag at found
  split at found
  · rename_i rest shape
    rw [shape, length_cons] at dropped
    dsimp only at found
    split at found
    · obtain ⟨-, rfl⟩ := Prod.mk.inj (Option.some.inj found)
      exact Nat.le_of_succ_le dropped
    · cases found
  · cases found

inductive Cut (standard : Bool) (tail : Tail) (first : Char) (after : List Char) :
    Kind × List Char × Tail → Prop
  | space (space : isSpace first = true) :
      Cut standard tail first after (.space, after, tail.space first)
  | lineComment (dash : first = '-') (opens : startsWith after "-" = true) :
      Cut standard tail first after (.lineComment, afterLineComment after, tail)
  | blockComment (slash : first = '/') (opens : startsWith after "*" = true) :
      Cut standard tail first after (.blockComment, afterBlockComment 0 (after.drop 1), .none)
  | semicolon (semicolon : first = ';') : Cut standard tail first after (.semicolon, after, .none)
  | continued (quote : first = '\'') :
      Cut standard tail first after (.continued, afterString true after, .closed false)
  | plainString (quote : first = '\'') :
      Cut standard tail first after (.constant, afterString (!standard) after, .none)
  | quotedIdent (quote : first = '"') :
      Cut standard tail first after (.constant, afterQuotedIdent after, .none)
  | dollarQuote {tag body : List Char} (dollar : first = '$')
      (found : dollarTag after = some (tag, body)) :
      Cut standard tail first after (.constant, afterDelimiter ('$' :: (tag ++ ['$'])) body, .none)
  | dollar (dollar : first = '$') (none : dollarTag after = none) :
      Cut standard tail first after (.symbol, after, .none)
  | escapeString (letter : first = 'e' ∨ first = 'E') (opens : startsWith after "'" = true) :
      Cut standard tail first after (.constant, afterString true (after.drop 1), .closed false)
  | bitString (letter : first = 'b' ∨ first = 'B' ∨ first = 'x' ∨ first = 'X')
      (opens : startsWith after "'" = true) :
      Cut standard tail first after (.constant, afterString false (after.drop 1), .none)
  | unicodeString (letter : first = 'u' ∨ first = 'U') (opens : startsWith after "&'" = true) :
      Cut standard tail first after (.constant, afterString false (after.drop 2), .none)
  | unicodeIdent (letter : first = 'u' ∨ first = 'U') (opens : startsWith after "&\"" = true) :
      Cut standard tail first after (.constant, afterQuotedIdent (after.drop 2), .none)
  | identifier (starts : isIdentStart first = true)
      (introducer : startsWith after "'" = true →
        ¬ (first = 'e' ∨ first = 'E' ∨ first = 'b' ∨ first = 'B' ∨ first = 'x' ∨ first = 'X'))
      (ampersand : startsWith after "&'" = true → ¬ (first = 'u' ∨ first = 'U')) :
      Cut standard tail first after (.identifier, after.dropWhile isIdentCont, .none)
  | number (digit : first.isDigit = true) :
      Cut standard tail first after (.number, after.dropWhile isTagCont, .none)
  | symbol (visible : isSpace first = false) (dash : ¬ (first = '-' ∧ startsWith after "-" = true))
      (slash : ¬ (first = '/' ∧ startsWith after "*" = true))
      (plain : first ∉ [';', '\'', '"', '$'])
      (letter : isIdentStart first = false) (digit : first.isDigit = false) :
      Cut standard tail first after (.symbol, after, .none)

theorem pieceAt_cut (standard : Bool) (tail : Tail) (first : Char) (after : List Char) :
    Cut standard tail first after (pieceAt standard tail first after) := by
  unfold pieceAt
  simp only [Bool.and_eq_true, Bool.or_eq_true, decide_eq_true_eq, or_assoc]
  by_cases space : isSpace first = true
  · rw [if_pos space]
    exact .space space
  rw [if_neg space]
  by_cases dash : first = '-' ∧ startsWith after "-" = true
  · rw [if_pos dash]
    exact .lineComment dash.1 dash.2
  rw [if_neg dash]
  by_cases slash : first = '/' ∧ startsWith after "*" = true
  · rw [if_pos slash]
    exact .blockComment slash.1 slash.2
  rw [if_neg slash]
  by_cases semicolon : first = ';'
  · rw [if_pos semicolon]
    exact .semicolon semicolon
  rw [if_neg semicolon]
  by_cases quote : first = '\''
  · rw [if_pos quote]
    split
    · exact .continued quote
    · exact .plainString quote
  rw [if_neg quote]
  by_cases double : first = '"'
  · rw [if_pos double]
    exact .quotedIdent double
  rw [if_neg double]
  by_cases dollar : first = '$'
  · rw [if_pos dollar]
    split
    · rename_i found
      exact .dollarQuote dollar found
    · rename_i none
      exact .dollar dollar none
  rw [if_neg dollar]
  by_cases escape : (first = 'e' ∨ first = 'E') ∧ startsWith after "'" = true
  · rw [if_pos escape]
    exact .escapeString escape.1 escape.2
  rw [if_neg escape]
  by_cases bit : (first = 'b' ∨ first = 'B' ∨ first = 'x' ∨ first = 'X') ∧
      startsWith after "'" = true
  · rw [if_pos bit]
    exact .bitString bit.1 bit.2
  rw [if_neg bit]
  by_cases unicode : (first = 'u' ∨ first = 'U') ∧ startsWith after "&'" = true
  · rw [if_pos unicode]
    exact .unicodeString unicode.1 unicode.2
  rw [if_neg unicode]
  by_cases ident : (first = 'u' ∨ first = 'U') ∧ startsWith after "&\"" = true
  · rw [if_pos ident]
    exact .unicodeIdent ident.1 ident.2
  rw [if_neg ident]
  by_cases letter : isIdentStart first = true
  · rw [if_pos letter]
    refine .identifier letter (fun opens introducer => ?_)
      (fun opens introducer => unicode ⟨introducer, opens⟩)
    rcases introducer with lower | upper | bits
    · exact escape ⟨.inl lower, opens⟩
    · exact escape ⟨.inr upper, opens⟩
    · exact bit ⟨bits, opens⟩
  rw [if_neg letter]
  by_cases digit : first.isDigit = true
  · rw [if_pos digit]
    exact .number digit
  rw [if_neg digit]
  exact .symbol (Bool.eq_false_iff.mpr space) dash slash
    (by simp [semicolon, quote, double, dollar]) (Bool.eq_false_iff.mpr letter)
    (Bool.eq_false_iff.mpr digit)

theorem pieceAt_length_le (standard : Bool) (tail : Tail) (first : Char) (after : List Char) :
    (pieceAt standard tail first after).2.1.length ≤ after.length := by
  have dropped (count : Nat) : (after.drop count).length ≤ after.length :=
    (drop_sublist _ _).length_le
  have dropWhile (p : Char → Bool) : (after.dropWhile p).length ≤ after.length :=
    (dropWhile_sublist p).length_le
  have cut := pieceAt_cut standard tail first after
  generalize pieceAt standard tail first after = piece at cut
  cases cut with
  | space | semicolon | dollar | symbol => exact Nat.le_refl _
  | lineComment | identifier | number => exact dropWhile _
  | blockComment => exact Nat.le_trans (afterBlockComment_length_le _ _) (dropped 1)
  | continued | plainString => exact afterString_length_le _ _
  | quotedIdent => exact afterQuotedIdent_length_le _
  | dollarQuote _ found =>
    exact Nat.le_trans (afterDelimiter_length_le _ _) (dollarTag_length_le found)
  | escapeString | bitString => exact Nat.le_trans (afterString_length_le _ _) (dropped 1)
  | unicodeString => exact Nat.le_trans (afterString_length_le _ _) (dropped 2)
  | unicodeIdent => exact Nat.le_trans (afterQuotedIdent_length_le _) (dropped 2)

end Pgprox.Sql.Reference
