/-
The tokens that Postgres reads out of a statement, and the form of the statement.

A token is its text and how it stands to the token before it.  Statements with one form
have the same tokens where the lexer cuts them as Postgres does and no constant goes on
behind a newline.
-/

import Pgprox.Cache.Normalize

namespace Pgprox.Sql.Reference

open List hiding lex

/-! ### Postgres's tokens -/

/-- How a token stands to the one before it. -/
inductive Glue
  | adjacent
  | apart
  /-- A string constant goes on in it. -/
  | continues
  deriving DecidableEq

structure Token where
  glue : Glue
  text : List Char
  deriving DecidableEq

/-- What stands between two tokens. -/
inductive Gap
  | none
  | blank
  /-- White space and line comments, with a newline among them. -/
  | line
  | broken
  deriving DecidableEq

def Gap.over (gap : Gap) (piece : Piece) : Gap :=
  if gap = .broken || piece.kind = .blockComment then .broken
  else if gap = .line || piece.kind = .space && piece.before.head?.any isNewline then .line
  else .blank

def foldIntroducer (text : List Char) : List Char :=
  toAsciiLowercase (text.takeWhile Char.isAlpha) ++ text.dropWhile Char.isAlpha

def Piece.meaning (piece : Piece) : List Char :=
  match piece.kind with
  | .identifier | .number => toAsciiLowercase piece.text
  | .constant | .continued => foldIntroducer piece.text
  | _ => piece.text

def glueOf (quoted : Bool) (gap : Gap) (piece : Piece) : Glue :=
  if quoted && gap = .line && piece.before.head? = some '\'' then .continues
  else if gap = .none then .adjacent
  else .apart

def tokensFrom (quoted : Bool) (gap : Gap) : List Piece → List Token
  | [] => []
  | piece :: later =>
    if piece.kind.isTrivia then tokensFrom quoted (gap.over piece) later
    else
      ⟨glueOf quoted gap piece, piece.meaning⟩ ::
        tokensFrom (piece.text.getLast? = some '\'') .none later

def tokens (standard : Bool) (text : List Char) : List Token :=
  tokensFrom false .broken (read standard text)

example : tokens true "SELECT  A.b <= E'x' -- y\n 'z'".toList =
    [⟨.apart, "select".toList⟩, ⟨.apart, "a".toList⟩, ⟨.adjacent, ".".toList⟩,
      ⟨.adjacent, "b".toList⟩, ⟨.apart, "<".toList⟩, ⟨.adjacent, "=".toList⟩,
      ⟨.apart, "e'x'".toList⟩, ⟨.continues, "'z'".toList⟩] := by decide +kernel

/-- No string in single quotes holds a backslash. -/
def Unescaped (pieces : List Piece) : Prop :=
  ∀ piece ∈ pieces, piece.before.head? = some '\'' → '\\' ∉ piece.text

instance (pieces : List Piece) : Decidable (Unescaped pieces) :=
  inferInstanceAs (Decidable (∀ piece ∈ pieces, _))

/-- A statement that the lexer cuts as Postgres does, whose strings read alike with and without
escapes where backslashes may escape, and in which no string goes on behind a newline. -/
structure Plain (standard : Bool) (sql : List Char) : Prop where
  conforming : standard = true ∨ Unescaped (read standard sql)
  ordinary : ∀ piece ∈ read standard sql, piece.Ordinary
  whole : ∀ token ∈ tokens standard sql, token.glue ≠ .continues

instance (standard : Bool) (sql : List Char) : Decidable (Plain standard sql) :=
  decidable_of_iff ((standard = true ∨ Unescaped (read standard sql)) ∧
      (∀ piece ∈ read standard sql, piece.Ordinary) ∧
      ∀ token ∈ tokens standard sql, token.glue ≠ .continues)
    ⟨fun ⟨conforming, ordinary, whole⟩ => ⟨conforming, ordinary, whole⟩,
      fun plain => ⟨plain.conforming, plain.ordinary, plain.whole⟩⟩

/-! ### Where escapes make no difference -/

theorem afterQuote_unescaped {quote : Char} : ∀ {text : List Char},
    '\\' ∉ text.take (text.length - (afterQuote quote true text).length) →
      afterQuote quote false text = afterQuote quote true text
  | [], _ => rfl
  | [c], _ => by rw [afterQuote_single, afterQuote_single]
  | c :: d :: rest, plain => by
      have later := afterQuote_length_le quote true rest
      have inner := afterQuote_length_le quote true (d :: rest)
      rw [afterQuote_pair] at plain ⊢
      rw [afterQuote_pair]
      by_cases closes : c = quote
      · rw [if_pos closes, if_pos closes] at *
        by_cases doubled : d = quote
        · rw [if_pos doubled] at plain
          rw [if_pos doubled, if_pos doubled]
          refine afterQuote_unescaped fun listed => plain ?_
          rw [length_cons, length_cons, Nat.succ_sub (by omega), Nat.succ_sub later,
            take_succ_cons, take_succ_cons]
          exact mem_cons_of_mem _ (mem_cons_of_mem _ listed)
        · rw [if_neg doubled, if_neg doubled]
      · rw [if_neg closes, if_neg closes] at *
        by_cases escape : c = '\\'
        · rw [if_pos ⟨escape, rfl⟩, length_cons, length_cons, Nat.succ_sub (by omega),
            take_succ_cons, escape] at plain
          exact absurd mem_cons_self plain
        · rw [if_neg fun both => escape both.1] at plain
          rw [if_neg fun both => escape both.1, if_neg fun both => escape both.1]
          refine afterQuote_unescaped fun listed => plain ?_
          rw [length_cons, Nat.succ_sub inner, take_succ_cons]
          exact mem_cons_of_mem _ listed

theorem pieceAt_unescaped {tail : Tail} {first : Char} {after rest : List Char} {kind : Kind}
    {later : Tail} (piece : pieceAt false tail first after = (kind, rest, later))
    (plain : first = '\'' → '\\' ∉ (Piece.mk kind (first :: after) rest).text) :
    pieceAt true tail first after = (kind, rest, later) := by
  by_cases quote : first = '\''
  · subst quote
    by_cases continues : tail = .closed true
    · rw [← piece]
      simp [pieceAt, isSpace, continues]
    · have opened (standard : Bool) : pieceAt standard tail '\'' after =
          (.constant, afterString (!standard) after, .none) := by
        simp [pieceAt, isSpace, continues]
      rw [opened] at piece ⊢
      obtain ⟨rfl, rfl, rfl⟩ : Kind.constant = kind ∧ afterString true after = rest ∧
          Tail.none = later := by simpa using piece
      have short := afterString_length_le true after
      have same := @afterQuote_unescaped '\'' after fun listed => plain rfl ?_
      · exact congrArg (fun rest => (Kind.constant, rest, Tail.none)) same
      · unfold Piece.text
        rw [length_cons, Nat.succ_sub short, take_succ_cons]
        exact mem_cons_of_mem _ listed
  · rw [← piece]
    simp only [pieceAt, if_neg quote]

theorem readWithin_unescaped {fuel : Nat} {tail : Tail} {text : List Char}
    (plain : Unescaped (readWithin false fuel tail text)) :
    readWithin true fuel tail text = readWithin false fuel tail text := by
  induction fuel generalizing tail text with
  | zero => rfl
  | succ fuel ih =>
    cases text with
    | nil => rfl
    | cons first after =>
      rcases piece : pieceAt false tail first after with ⟨kind, rest, later⟩
      rw [readWithin, piece] at plain
      obtain ⟨here, behind⟩ := forall_mem_cons.mp plain
      rw [readWithin, readWithin, piece,
        pieceAt_unescaped piece fun quote => here (congrArg some quote)]
      exact congrArg (_ :: ·) (ih behind)

theorem read_unescaped {standard : Bool} {sql : List Char}
    (plain : standard = true ∨ Unescaped (read standard sql)) :
    read standard sql = read true sql := by
  cases standard with
  | true => rfl
  | false => exact (readWithin_unescaped (plain.resolve_left Bool.false_ne_true)).symm

end Pgprox.Sql.Reference

namespace Pgprox.Cache

open Sql
open List hiding lex

/-! ### Tokens out of readings -/

def Reading.token (apart : Bool) (reading : Reading) : Reference.Token where
  glue := if apart || reading.gap then .apart else .adjacent
  text :=
    match reading.kind with
    | .quoted => Reference.foldIntroducer reading.text
    | .word | .semicolon | .punct => reading.text

/-- The lexer cuts a quoted name with `U&` in front in three, and a vertical tab is a token
for it. -/
def interpret : Bool → List Reading → List Reference.Token
  | _, [] => []
  | apart, ⟨gap, .word, ['u']⟩ :: ⟨false, .punct, ['&']⟩ :: ⟨false, .quoted, '"' :: name⟩ ::
      later =>
      ⟨if apart || gap then .apart else .adjacent, 'u' :: '&' :: '"' :: name⟩ ::
        interpret false later
  | apart, reading :: later =>
    if reading.kind = .punct ∧ reading.text = ['\x0b'] then interpret true later
    else reading.token apart :: interpret false later

def EndsUnicodeIdent (later : List Reading) : Prop :=
  ∃ name rest, later = ⟨false, .punct, ['&']⟩ :: ⟨false, .quoted, '"' :: name⟩ :: rest

theorem interpret_cons {reading : Reading} {later : List Reading} (apart : Bool)
    (alone : reading.kind = .word → reading.text = ['u'] → ¬ EndsUnicodeIdent later) :
    interpret apart (reading :: later) =
      if reading.kind = .punct ∧ reading.text = ['\x0b'] then interpret true later
      else reading.token apart :: interpret false later := by
  rw [interpret]
  rintro gap name rest rfl rfl
  exact alone rfl rfl ⟨name, rest, rfl⟩

theorem interpret_gap {apart apart' gap gap' : Bool} (same : (apart || gap) = (apart' || gap'))
    (kind : TokenKind) (text : List Char) (later : List Reading) :
    interpret apart (⟨gap, kind, text⟩ :: later) =
      interpret apart' (⟨gap', kind, text⟩ :: later) := by
  by_cases joined : kind = .word ∧ text = ['u'] ∧ EndsUnicodeIdent later
  · obtain ⟨rfl, rfl, name, rest, rfl⟩ := joined
    rw [interpret, interpret, same]
  · have alone : kind = .word → text = ['u'] → ¬ EndsUnicodeIdent later :=
      fun word u ends => joined ⟨word, u, ends⟩
    rw [interpret_cons apart alone, interpret_cons apart' alone, Reading.token, Reading.token]
    rw [same]

theorem interpret_unled (readings : List Reading) :
    interpret true (unled readings) = interpret true readings := by
  cases readings with
  | nil => rfl
  | cons reading later =>
    exact interpret_gap ((Bool.true_or false).trans (Bool.true_or reading.gap).symm)
      reading.kind reading.text later

/-! ### The readings of a piece -/

theorem readings_solid {first : Char} {after rest : List Char} {token : Sql.Token}
    (solid : Solid (first :: after)) (taken : tokenAt first after = (token, rest)) :
    readings (first :: after) =
      ⟨false, .of token, (TokenKind.of token).fold
        ((first :: after).take ((first :: after).length - rest.length))⟩ :: readings rest := by
  unfold readings
  rw [lex_of_token solid taken, map_cons]
  congr 1
  unfold readingOf hadGap consumed
  rw [solid]
  simp

theorem interpret_trivia {text rest : List Char} (apart : Bool)
    (skips : skipTrivia text = skipTrivia rest) (shorter : rest.length < text.length) :
    interpret apart (readings text) = interpret true (readings rest) := by
  unfold readings
  cases shape : skipTrivia rest with
  | nil =>
    rw [lex_of_trivia (skips.trans shape), lex_of_trivia shape]
    rfl
  | cons first after =>
    rcases taken : tokenAt first after with ⟨token, left⟩
    have short := skipTrivia_length_le rest
    have gap : hadGap ⟨text, token, left⟩ = true := by
      refine decide_eq_true fun same => ?_
      rw [skips] at same
      exact absurd (same ▸ short) (Nat.not_le.mpr shorter)
    rw [lex_of_token (skips.trans shape) taken, lex_of_token shape taken, map_cons, readingOf, gap,
      consumed]
    rw [skips]
    exact interpret_gap (Bool.or_true apart) _ _ _

theorem fold_of_ne_word {kind : TokenKind} (copied : kind ≠ .word) (word : List Char) :
    kind.fold word = word := by
  cases kind with
  | word => exact absurd rfl copied
  | quoted | semicolon | punct => rfl

/-- A token that is copied and has nothing in front of it stands at the start of the text. -/
theorem text_of_readings {text : List Char} {kind : TokenKind} {word : List Char}
    {later : List Reading} (shape : readings text = ⟨false, kind, word⟩ :: later)
    (copied : kind ≠ .word) : ∃ rest, text = word ++ rest ∧ readings rest = later := by
  rcases splits_or_trivia text with ⟨none, -, -⟩ | ⟨gap, found, folded, rest, splits⟩
  · rw [none] at shape
    cases shape
  · rw [splits.readings] at shape
    obtain ⟨first, tail⟩ := List.cons.inj shape
    obtain ⟨rfl, rfl, same⟩ := Reading.mk.inj first
    rw [fold_of_ne_word copied] at same
    exact ⟨rest, same ▸ splits.whole rfl, tail⟩

theorem exists_of_endsUnicodeIdent {text : List Char} (ends : EndsUnicodeIdent (readings text)) :
    ∃ later, text = '&' :: '"' :: later := by
  obtain ⟨name, later, shape⟩ := ends
  obtain ⟨rest, rfl, tail⟩ := text_of_readings shape nofun
  obtain ⟨behind, rfl, -⟩ := text_of_readings tail nofun
  exact ⟨_, rfl⟩

theorem pieceAt_unicodeIdent (tail : Reference.Tail) {first : Char}
    (letter : first = 'u' ∨ first = 'U') (later : List Char) :
    Reference.pieceAt true tail first ('&' :: '"' :: later) =
      (.constant, Reference.afterQuotedIdent later, .none) := by
  rcases letter with rfl | rfl <;> rfl

theorem text_append {first : Char} {after rest : List Char} {token : Sql.Token}
    (taken : tokenAt first after = (token, rest)) (kind : Reference.Kind) :
    Reference.Piece.text ⟨kind, first :: after, rest⟩ ++ rest = first :: after := by
  have suffix := tokenAt_suffix first after
  rw [taken] at suffix
  exact suffix_iff_eq_append.mp suffix

section Step

variable {tail later : Reference.Tail} {first : Char} {after rest : List Char}
  {kind : Reference.Kind} {token : Sql.Token}

/-- The word `u` in front of a quoted name is not a token of its own for Postgres. -/
theorem not_endsUnicodeIdent (piece : Reference.pieceAt true tail first after = (kind, rest, later))
    (taken : tokenAt first after = (token, rest)) (named : kind ≠ .constant)
    (single : toAsciiLowercase (Reference.Piece.text ⟨kind, first :: after, rest⟩) = ['u']) :
    ¬ EndsUnicodeIdent (readings rest) := by
  intro ends
  obtain ⟨behind, rfl⟩ := exists_of_endsUnicodeIdent ends
  have whole := text_append taken kind
  obtain ⟨c, same, lower⟩ := map_eq_singleton_iff.mp single
  rw [same] at whole
  obtain ⟨rfl, rfl⟩ := List.cons.inj whole
  have u : eqIgnoreAsciiCase [c] "u" = true := decide_eq_true (congrArg (fun d => [d]) lower)
  have letter := eqIgnoreAsciiCase_letter 'u' 'U' rfl rfl u
  rw [append_eq, nil_append] at piece
  rw [pieceAt_unicodeIdent tail letter] at piece
  exact named (Prod.mk.inj piece).1.symm

variable (apart : Bool)

theorem interpret_token (piece : Reference.pieceAt true tail first after = (kind, rest, later))
    (solid : Solid (first :: after)) (taken : tokenAt first after = (token, rest))
    (agrees : Agrees kind token) (visible : kind.isTrivia = false) :
    interpret apart (readings (first :: after)) =
      ⟨if apart then .apart else .adjacent,
        Reference.Piece.meaning ⟨kind, first :: after, rest⟩⟩ ::
          interpret false (readings rest) := by
  have alone : TokenKind.of token = .word →
      (TokenKind.of token).fold (Reference.Piece.text ⟨kind, first :: after, rest⟩) = ['u'] →
        ¬ EndsUnicodeIdent (readings rest) := by
    intro word single
    cases agrees with
    | identifier | number => exact not_endsUnicodeIdent piece taken nofun single
    | semicolon | constant | continued | symbol | verticalTab => cases word
  have shown : ¬ (TokenKind.of token = .punct ∧
      (TokenKind.of token).fold (Reference.Piece.text ⟨kind, first :: after, rest⟩) =
        ['\x0b']) := by
    rintro ⟨punct, tab⟩
    rw [punct] at tab
    have whole := text_append taken kind
    change Reference.Piece.text _ = _ at tab
    rw [tab] at whole
    obtain ⟨rfl, -⟩ := List.cons.inj whole
    obtain ⟨rfl, -⟩ := Prod.mk.inj piece
    cases visible
  rw [readings_solid solid taken, interpret_cons apart alone]
  refine (if_neg shown).trans ?_
  rw [Reading.token, Bool.or_false]
  cases agrees with
  | verticalTab => cases visible
  | identifier | number | semicolon | constant | continued | symbol => rfl

theorem interpret_verticalTab (after : List Char) :
    interpret apart (readings ('\x0b' :: after)) = interpret true (readings after) := by
  have solid : Solid ('\x0b' :: after) :=
    solid_symbol rfl rfl (by decide) (by decide) after
  have taken : tokenAt '\x0b' after = (.punct '\x0b', after) := rfl
  have text : ('\x0b' :: after).take (('\x0b' :: after).length - after.length) = ['\x0b'] := by
    simp
  rw [readings_solid solid taken, text]
  exact if_pos ⟨rfl, rfl⟩

theorem interpret_unicodeIdent (letter : first = 'u' ∨ first = 'U') (later : List Char) :
    interpret apart (readings (first :: '&' :: '"' :: later)) =
      ⟨if apart then .apart else .adjacent,
        Reference.Piece.meaning
          ⟨.constant, first :: '&' :: '"' :: later, Reference.afterQuotedIdent later⟩⟩ ::
        interpret false (readings (Reference.afterQuotedIdent later)) := by
  have short := Reference.afterQuotedIdent_length_le later
  have word : readings (first :: '&' :: '"' :: later) =
      ⟨false, .word, ['u']⟩ :: readings ('&' :: '"' :: later) := by
    have taken : tokenAt first ('&' :: '"' :: later) = (.word [first], '&' :: '"' :: later) := by
      rcases letter with rfl | rfl <;> rfl
    have solid : Solid (first :: '&' :: '"' :: later) := by
      rcases letter with rfl | rfl <;> exact solid_of_isWordChar rfl (.inl rfl) _
    rw [readings_solid solid taken]
    congr 2
    rcases letter with rfl | rfl <;> simp [TokenKind.of, TokenKind.fold, toAsciiLowercase]
  have ampersand : readings ('&' :: '"' :: later) =
      ⟨false, .punct, ['&']⟩ :: readings ('"' :: later) := by
    have taken : tokenAt '&' ('"' :: later) = (.punct '&', '"' :: later) := rfl
    rw [readings_solid (solid_symbol rfl rfl (by decide) (by decide) _) taken]
    simp [TokenKind.of, TokenKind.fold]
  have name : readings ('"' :: later) = ⟨false, .quoted,
      '"' :: later.take (later.length - (Reference.afterQuotedIdent later).length)⟩ ::
        readings (Reference.afterQuotedIdent later) := by
    rw [readings_solid (solid_symbol rfl rfl (by decide) (by decide) _) (tokenAt_quotedIdent later),
      length_cons, Nat.sub_add_comm short]
    rfl
  have text : Reference.Piece.text
      ⟨.constant, first :: '&' :: '"' :: later, Reference.afterQuotedIdent later⟩ =
        first :: '&' :: '"' :: later.take
          (later.length - (Reference.afterQuotedIdent later).length) := by
    unfold Reference.Piece.text
    dsimp only [length_cons]
    rw [show later.length + 1 + 1 + 1 - (Reference.afterQuotedIdent later).length =
      later.length - (Reference.afterQuotedIdent later).length + 3 by omega]
    rfl
  rw [word, ampersand, name, interpret, Bool.or_false, Reference.Piece.meaning, text]
  rcases letter with rfl | rfl <;> rfl

theorem interpret_of_trivia (lexed : Lexed kind (first :: after) rest)
    (trivia : kind.isTrivia = true) :
    interpret apart (readings (first :: after)) = interpret true (readings rest) := by
  cases lexed with
  | trivia _ skips shorter => exact interpret_trivia apart skips shorter
  | token solid taken agrees =>
    cases agrees with
    | verticalTab =>
      have cut := tokenAt_taken first after
      rw [taken] at cut
      cases cut
      exact interpret_verticalTab apart after
    | identifier | number | semicolon | constant | continued | symbol => cases trivia
  | unicodeIdent => cases trivia

theorem interpret_of_piece (piece : Reference.pieceAt true tail first after = (kind, rest, later))
    (lexed : Lexed kind (first :: after) rest) (visible : kind.isTrivia = false) :
    interpret apart (readings (first :: after)) =
      ⟨if apart then .apart else .adjacent,
        Reference.Piece.meaning ⟨kind, first :: after, rest⟩⟩ ::
          interpret false (readings rest) := by
  cases lexed with
  | trivia silent => rcases silent with rfl | rfl | rfl <;> cases visible
  | token solid taken agrees => exact interpret_token apart piece solid taken agrees visible
  | unicodeIdent letter => exact interpret_unicodeIdent apart letter _

end Step

/-! ### Whole statements -/

theorem over_ne_none (gap : Reference.Gap) (piece : Reference.Piece) :
    gap.over piece ≠ .none := by
  unfold Reference.Gap.over
  split
  · exact nofun
  · split <;> exact nofun

theorem glueOf_whole {quoted : Bool} {gap : Reference.Gap} {piece : Reference.Piece}
    (whole : Reference.glueOf quoted gap piece ≠ .continues) :
    Reference.glueOf quoted gap piece =
      if decide (gap ≠ .none) then .apart else .adjacent := by
  unfold Reference.glueOf at whole ⊢
  split at whole
  · exact absurd rfl whole
  · rename_i apart
    rw [if_neg apart]
    by_cases adjacent : gap = .none <;> simp [adjacent]

theorem tokensFrom_eq_interpret (fuel : Nat) :
    ∀ {tail : Reference.Tail} {text : List Char} {quoted : Bool} {gap : Reference.Gap},
      text.length ≤ fuel →
      (∀ piece ∈ Reference.readWithin true fuel tail text, piece.Ordinary) →
      (∀ token ∈ Reference.tokensFrom quoted gap (Reference.readWithin true fuel tail text),
        token.glue ≠ .continues) →
      Reference.tokensFrom quoted gap (Reference.readWithin true fuel tail text) =
        interpret (gap ≠ .none) (readings text) := by
  induction fuel with
  | zero =>
    intro tail text quoted gap enough _ _
    obtain rfl := length_eq_zero_iff.mp (Nat.le_zero.mp enough)
    rfl
  | succ fuel ih =>
    intro tail text quoted gap enough ordinary whole
    cases text with
    | nil => rfl
    | cons first after =>
      rcases piece : Reference.pieceAt true tail first after with ⟨kind, rest, later⟩
      have short := Reference.pieceAt_length_le true tail first after
      rw [piece] at short
      have within : rest.length ≤ fuel := Nat.le_trans short (Nat.le_of_succ_le_succ enough)
      have pieces : Reference.readWithin true (fuel + 1) tail (first :: after) =
          ⟨kind, first :: after, rest⟩ :: Reference.readWithin true fuel later rest := by
        rw [Reference.readWithin, piece]
      rw [pieces] at ordinary whole ⊢
      obtain ⟨here, behind⟩ := forall_mem_cons.mp ordinary
      have lexed := lexed_of_ordinary piece here
      rw [Reference.tokensFrom] at whole ⊢
      by_cases trivia : kind.isTrivia = true
      · rw [if_pos trivia] at whole ⊢
        have next := ih within behind whole
        rw [decide_eq_true (over_ne_none gap _)] at next
        rw [next, interpret_of_trivia _ lexed trivia]
      · rw [if_neg trivia] at whole ⊢
        obtain ⟨glued, whole⟩ := forall_mem_cons.mp whole
        rw [ih within behind whole, glueOf_whole glued,
          interpret_of_piece _ piece lexed (Bool.eq_false_iff.mpr trivia)]
        rfl

theorem tokens_eq_interpret {standard : Bool} {sql : List Char}
    (plain : Reference.Plain standard sql) :
    Reference.tokens standard sql = interpret true (readings sql) := by
  have same := Reference.read_unescaped plain.conforming
  have ordinary := plain.ordinary
  have whole := plain.whole
  unfold Reference.tokens at whole ⊢
  rw [same] at ordinary whole ⊢
  exact tokensFrom_eq_interpret _ le_rfl ordinary whole

/-- Plain statements with one form are the same tokens for Postgres. -/
theorem tokens_of_normalize_eq {standard : Bool} {one two : List Char}
    (plain : Reference.Plain standard one) (plain' : Reference.Plain standard two)
    (same : normalize one = normalize two) :
    Reference.tokens standard one = Reference.tokens standard two := by
  rw [tokens_eq_interpret plain, tokens_eq_interpret plain', ← interpret_unled (readings one),
    readings_of_normalize_eq same, interpret_unled]

end Pgprox.Cache
