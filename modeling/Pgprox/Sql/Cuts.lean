/-
How the lexer reads the pieces of the reference.

A piece is trivia, or one token, or the three parts of `U&"…"`.  The lexer agrees with the
reference about every piece that is ordinary, and stands at the start of the next piece
behind it.
-/

import Pgprox.Sql.Stops

namespace Pgprox.Sql

open List

namespace Reference

/-- The pieces that the lexer cuts as Postgres does: behind a carriage return that ends a
comment the line is blank, an identifier has no dollar sign, does not start with a
character that Unicode counts as white space and is no `u` before a quote, and no part of
a continued `E` string has a backslash. -/
def Piece.Ordinary (piece : Piece) : Prop :=
  match piece.kind with
  | .lineComment => (piece.after.takeWhile fun c => c ≠ '\n').all isAsciiWhitespace = true
  | .identifier =>
    '$' ∉ piece.text ∧ piece.before.head?.all (fun c => !isWhitespace c) = true ∧
      ¬ (eqIgnoreAsciiCase piece.text "u" = true ∧ startsWith piece.after "'" = true)
  | .continued => '\\' ∉ piece.text
  | _ => True

instance (piece : Piece) : Decidable piece.Ordinary :=
  match piece with
  | ⟨.lineComment, _, _⟩ => inferInstanceAs (Decidable (_ = true))
  | ⟨.identifier, _, _⟩ => inferInstanceAs (Decidable (_ ∧ _ ∧ ¬ (_ ∧ _)))
  | ⟨.continued, _, _⟩ => inferInstanceAs (Decidable (_ ∉ _))
  | ⟨.space, _, _⟩ | ⟨.blockComment, _, _⟩ | ⟨.constant, _, _⟩ | ⟨.number, _, _⟩
  | ⟨.semicolon, _, _⟩ | ⟨.symbol, _, _⟩ => .isTrue trivial

end Reference

/-! ### Trivia and tokens -/

variable (text : List Char)

theorem skipTrivia_length_le : (skipTrivia text).length ≤ text.length :=
  skipTriviaWithin_length_le _ _

theorem skipTrivia_eq :
    skipTrivia text =
      if (trimLeadingSpace text).length ≠ text.length then skipTrivia (trimLeadingSpace text)
      else if startsWith text "--" then skipTrivia (text.drop (lineCommentEnd text))
      else if startsWith text "/*" then skipTrivia (text.drop (blockCommentEnd text))
      else text := by
  rw [← skipTriviaWithin_eq (text.length + 1) text (Nat.le_succ _), skipTriviaWithin_succ]
  rw [skipTriviaWithin_eq _ _ (trimLeadingSpace_length_le text),
    skipTriviaWithin_eq _ (text.drop (lineCommentEnd text)) (drop_sublist _ _).length_le,
    skipTriviaWithin_eq _ (text.drop (blockCommentEnd text)) (drop_sublist _ _).length_le]

def Solid (text : List Char) : Prop :=
  skipTrivia text = text

theorem solid_skipTrivia : Solid (skipTrivia text) := by
  unfold Solid
  induction size : text.length using Nat.strong_induction_on generalizing text with
  | _ size ih =>
    subst size
    have dropped (count : Nat) (some : 0 < count) (filled : text ≠ []) :
        (text.drop count).length < text.length := by
      have := length_pos_iff.mpr filled
      rw [length_drop]
      omega
    by_cases trimmed : (trimLeadingSpace text).length ≠ text.length
    · have short := trimLeadingSpace_length_le text
      rw [skipTrivia_eq text, if_pos trimmed]
      exact ih _ (by omega) _ rfl
    by_cases line : startsWith text "--" = true
    · have atLeast := lineCommentEnd_two_le line
      rw [skipTrivia_eq text, if_neg trimmed, if_pos line]
      refine ih _ (dropped _ (by omega) ?_) _ rfl
      rintro rfl
      cases line
    by_cases block : startsWith text "/*" = true
    · have atLeast := blockCommentEnd_two_le block
      rw [skipTrivia_eq text, if_neg trimmed, if_neg line, if_pos block]
      refine ih _ (dropped _ (by omega) ?_) _ rfl
      rintro rfl
      cases block
    have same : skipTrivia text = text := by
      rw [skipTrivia_eq, if_neg trimmed, if_neg line, if_neg block]
    rw [same, same]

variable {first : Char} {after : List Char}

section

variable (visible : isAsciiWhitespace first = false)
  (kept : isAscii first = true ∨ isWhitespace first = false)
include visible kept

theorem trimLeadingSpace_of_visible :
    trimLeadingSpace (first :: after) = first :: after := by
  unfold trimLeadingSpace
  rw [dropWhile_cons_of_neg (by simp [visible])]
  dsimp only
  rcases kept with ascii | other
  · rw [if_pos ascii]
  · split
    · rfl
    · unfold trimStart
      rw [dropWhile_cons_of_neg (by simp [other])]

theorem solid_cons (dash : ¬ (first = '-' ∧ startsWith after "-" = true))
    (slash : ¬ (first = '/' ∧ startsWith after "*" = true)) : Solid (first :: after) := by
  have line : ¬ startsWith (first :: after) "--" = true := by
    intro opens
    obtain ⟨same, rest⟩ := Bool.and_eq_true_iff.mp opens
    exact dash ⟨(beq_iff_eq.mp same).symm, rest⟩
  have block : ¬ startsWith (first :: after) "/*" = true := by
    intro opens
    obtain ⟨same, rest⟩ := Bool.and_eq_true_iff.mp opens
    exact slash ⟨(beq_iff_eq.mp same).symm, rest⟩
  unfold Solid
  rw [skipTrivia_eq, trimLeadingSpace_of_visible visible kept, if_neg (by simp), if_neg line,
    if_neg block]

end

theorem Solid.inv {text : List Char} (solid : Solid text) (filled : text ≠ []) :
    (trimLeadingSpace text).length = text.length ∧ startsWith text "--" ≠ true ∧
      startsWith text "/*" ≠ true := by
  have length : (skipTrivia text).length = text.length := congrArg List.length solid
  have dropped (count : Nat) (some : 0 < count) :
      (skipTrivia (text.drop count)).length < text.length := by
    have positive := length_pos_iff.mpr filled
    have short := skipTrivia_length_le (text.drop count)
    rw [length_drop] at short
    omega
  rw [skipTrivia_eq] at length
  split at length
  · have short := trimLeadingSpace_length_le text
    have within := skipTrivia_length_le (trimLeadingSpace text)
    omega
  · rename_i untrimmed
    split at length
    · rename_i opens
      have atLeast := lineCommentEnd_two_le opens
      have short := dropped (lineCommentEnd text) (by omega)
      omega
    · rename_i line
      split at length
      · rename_i opens
        have atLeast := blockCommentEnd_two_le opens
        have short := dropped (blockCommentEnd text) (by omega)
        omega
      · rename_i block
        exact ⟨not_not.mp untrimmed, line, block⟩

theorem Solid.visible (solid : Solid (first :: after)) :
    isAsciiWhitespace first = false ∧ (isAscii first = true ∨ isWhitespace first = false) := by
  obtain ⟨untrimmed, -⟩ := solid.inv (cons_ne_nil _ _)
  have dropped (p : Char → Bool) : (after.dropWhile p).length < (first :: after).length :=
    Nat.lt_succ_of_le (dropWhile_sublist p).length_le
  have visible : isAsciiWhitespace first = false := by
    rw [Bool.eq_false_iff]
    intro space
    have short := trimLeadingSpace_length_le after
    have same : trimLeadingSpace (first :: after) = trimLeadingSpace after := by
      unfold trimLeadingSpace
      rw [dropWhile_cons_of_pos space]
    rw [same, length_cons] at untrimmed
    omega
  refine ⟨visible, ?_⟩
  cases ascii : isAscii first with
  | true => exact .inl rfl
  | false =>
    refine .inr (Bool.eq_false_iff.mpr fun space => ?_)
    have short := dropped isWhitespace
    unfold trimLeadingSpace at untrimmed
    rw [dropWhile_cons_of_neg (by simp [visible])] at untrimmed
    dsimp only at untrimmed
    rw [if_neg (by simp [ascii]), trimStart, dropWhile_cons_of_pos space] at untrimmed
    omega

theorem skipTrivia_trimLeadingSpace : skipTrivia (trimLeadingSpace text) = skipTrivia text := by
  by_cases same : (trimLeadingSpace text).length = text.length
  · rw [(trimLeadingSpace_suffix text).eq_of_length same]
  · rw [skipTrivia_eq text, if_pos same]

variable {c : Char}

theorem skipTrivia_space (space : isAsciiWhitespace c = true) (rest : List Char) :
    skipTrivia (c :: rest) = skipTrivia rest := by
  have same : trimLeadingSpace (c :: rest) = trimLeadingSpace rest := by
    unfold trimLeadingSpace
    rw [dropWhile_cons_of_pos space]
  rw [← skipTrivia_trimLeadingSpace (c :: rest), same, skipTrivia_trimLeadingSpace]

theorem skipTrivia_spaces {spaces : List Char} (all : spaces.all isAsciiWhitespace = true)
    (rest : List Char) : skipTrivia (spaces ++ rest) = skipTrivia rest := by
  induction spaces with
  | nil => rfl
  | cons c later ih =>
    obtain ⟨space, others⟩ := Bool.and_eq_true_iff.mp all
    rw [cons_append, skipTrivia_space space, ih others]

theorem tokensOf_skipTrivia : tokensOf (skipTrivia text) = tokensOf text := by
  unfold tokensOf
  rw [lex_eq (skipTrivia text), lex_eq text]
  unfold next
  rw [show skipTrivia (skipTrivia text) = skipTrivia text from solid_skipTrivia text]
  cases skipTrivia text with
  | nil | cons => rfl

theorem tokensOf_space (space : isAsciiWhitespace c = true) (rest : List Char) :
    tokensOf (c :: rest) = tokensOf rest := by
  rw [← tokensOf_skipTrivia, skipTrivia_space space, tokensOf_skipTrivia]

theorem next_space (space : isAsciiWhitespace c = true) (rest : List Char) :
    next (c :: rest) = next rest := by
  unfold next
  rw [skipTrivia_space space]

/-! ### Characters -/

theorem isSpace_of_isAsciiWhitespace (space : isAsciiWhitespace c = true) :
    Reference.isSpace c = true := by
  simp only [isAsciiWhitespace, Bool.or_eq_true, decide_eq_true_eq] at space
  rcases space with (((space | tab) | newline) | feed) | carriage
  · rw [show c = ' ' from Char.ext space]; rfl
  · rw [show c = '\t' from Char.ext tab]; rfl
  · rw [show c = '\n' from Char.ext newline]; rfl
  · rw [show c = '\x0c' from Char.ext feed]; rfl
  · rw [show c = '\r' from Char.ext carriage]; rfl

theorem isAsciiWhitespace_of_isWordChar (letter : isWordChar c = true) :
    isAsciiWhitespace c = false := by
  rw [Bool.eq_false_iff]
  intro space
  have spaces := isSpace_of_isAsciiWhitespace space
  simp only [Reference.isSpace, Bool.or_eq_true, decide_eq_true_eq, or_assoc] at spaces
  rcases spaces with rfl | rfl | rfl | rfl | rfl | rfl <;> cases letter

theorem isAscii_of_isDigit (digit : c.isDigit = true) : isAscii c = true := by
  simp only [Char.isDigit, Bool.and_eq_true, decide_eq_true_eq] at digit
  exact decide_eq_true (Nat.lt_of_le_of_lt digit.2 (by decide))

theorem solid_of_isWordChar (letter : isWordChar first = true)
    (kept : isAscii first = true ∨ isWhitespace first = false) (after : List Char) :
    Solid (first :: after) := by
  refine solid_cons (isAsciiWhitespace_of_isWordChar letter) kept ?_ ?_
  · rintro ⟨rfl, -⟩
    cases letter
  · rintro ⟨rfl, -⟩
    cases letter

/-! ### Comments -/

theorem skipTrivia_blockComment (rest : List Char) :
    skipTrivia ('/' :: '*' :: rest) = skipTrivia (Reference.afterBlockComment 0 rest) := by
  have opens : startsWith ('/' :: '*' :: rest) "/*" = true := rfl
  rw [skipTrivia_eq, trimLeadingSpace_of_visible rfl (.inl rfl), if_neg (by simp),
    if_neg (by simp [startsWith]), if_pos opens, drop_blockCommentEnd]

theorem dropWhile_dropWhile_of_imp {p q : Char → Bool} (wider : ∀ c, p c = true → q c = true)
    (text : List Char) : (text.dropWhile p).dropWhile q = text.dropWhile q := by
  induction text with
  | nil => rfl
  | cons c rest ih =>
    by_cases dropped : p c = true
    · rw [dropWhile_cons_of_pos dropped, dropWhile_cons_of_pos (wider c dropped), ih]
    · rw [dropWhile_cons_of_neg dropped]

/-- Behind its last character a line is followed by a newline, or the text is over. -/
theorem skipTrivia_dropWhile_newline :
    skipTrivia (text.dropWhile fun c => c ≠ '\n') =
      skipTrivia ((text.dropWhile fun c => c ≠ '\n').drop 1) := by
  induction text with
  | nil => rfl
  | cons c rest ih =>
    by_cases newline : c = '\n'
    · rw [dropWhile_cons_of_neg (by simp [newline])]
      exact skipTrivia_space (by rw [newline]; rfl) rest
    · rw [dropWhile_cons_of_pos (by simp [newline]), ih]

theorem skipTrivia_lineComment (dash : startsWith after "-" = true)
    (blank : ((Reference.afterLineComment after).takeWhile fun c => c ≠ '\n').all
      isAsciiWhitespace = true) :
    skipTrivia ('-' :: after) = skipTrivia (Reference.afterLineComment after) := by
  have opens : startsWith ('-' :: after) "--" = true := Bool.and_eq_true_iff.mpr ⟨rfl, dash⟩
  have line : (Reference.afterLineComment after).dropWhile (fun c => c ≠ '\n') =
      after.dropWhile fun c => c ≠ '\n' :=
    dropWhile_dropWhile_of_imp (fun c => by simp +contextual [Reference.isNewline]) after
  calc skipTrivia ('-' :: after)
      = skipTrivia (('-' :: after).drop (lineCommentEnd ('-' :: after))) := by
        rw [skipTrivia_eq, trimLeadingSpace_of_visible rfl (.inl rfl), if_neg (by simp),
          if_pos opens]
    _ = skipTrivia (after.dropWhile fun c => c ≠ '\n') := by
        rw [drop_lineCommentEnd, dropWhile_cons_of_pos rfl, skipTrivia_dropWhile_newline]
    _ = skipTrivia (Reference.afterLineComment after) := by
        rw [← line, ← skipTrivia_spaces blank, takeWhile_append_dropWhile]

/-! ### Tokens -/

theorem tokenAt_string (after : List Char) :
    tokenAt '\'' after = (.quoted, Reference.afterString false after) := by
  rw [← drop_singleQuotedEnd]
  rfl

theorem tokenAt_quotedIdent (after : List Char) :
    tokenAt '"' after = (.quoted, Reference.afterQuotedIdent after) := by
  rw [← drop_doubleQuotedEnd]
  rfl

theorem tokenAt_dollarQuote {tag body : List Char}
    (found : Reference.dollarTag after = some (tag, body)) :
    tokenAt '$' after = (.quoted, Reference.afterDelimiter ('$' :: (tag ++ ['$'])) body) := by
  obtain ⟨stop, ends, left⟩ := drop_dollarQuotedEnd found
  rw [← left]
  unfold tokenAt
  rw [if_neg (by decide), if_neg (by decide), if_neg (by decide), if_pos rfl, ends]

theorem tokenAt_dollar (none : Reference.dollarTag after = none) :
    tokenAt '$' after = (.punct '$', after) := by
  unfold tokenAt
  rw [if_neg (by decide), if_neg (by decide), if_neg (by decide), if_pos rfl,
    dollarQuotedEnd_eq_none none]

theorem tokenAt_word (starts : isWordChar first = true) (after : List Char) :
    tokenAt first after =
      wordToken (first :: after.takeWhile isWordChar) (after.dropWhile isWordChar) := by
  have other {c : Char} (symbol : isWordChar c = false) : first ≠ c := by
    rintro rfl
    rw [symbol] at starts
    cases starts
  unfold tokenAt
  rw [if_neg (other rfl), if_neg (other rfl), if_neg (other rfl), if_neg (other rfl),
    if_pos starts, take_wordEnd, takeWhile_cons_of_pos starts]
  congr 1
  exact (drop_length_takeWhile isWordChar (first :: after)).trans
    (dropWhile_cons_of_pos starts)

theorem tokenAt_symbol (plain : first ∉ [';', '\'', '"', '$']) (symbol : isWordChar first = false)
    (after : List Char) : tokenAt first after = (.punct first, after) := by
  simp only [mem_cons, not_mem_nil, or_false, not_or] at plain
  obtain ⟨semicolon, quote, double, dollar⟩ := plain
  unfold tokenAt
  rw [if_neg semicolon, if_neg quote, if_neg double, if_neg dollar, if_neg (by simp [symbol])]

theorem tokenAt_introduced {later : List Char} (starts : isWordChar first = true)
    (introducer : isStringIntroducer [first] = true) (alone : after.takeWhile isWordChar = [])
    (quote : afterIntroducer [first] after = '\'' :: later) :
    tokenAt first after =
      (.quoted, Reference.afterString (eqIgnoreAsciiCase [first] "e") later) := by
  have left : after.dropWhile isWordChar = after := by
    rw [← drop_length_takeWhile, alone]
    rfl
  have opens : startsWith ('\'' :: later) "'" = true := rfl
  rw [tokenAt_word starts, left, alone, wordToken, if_pos introducer, quote]
  rw [if_pos opens, drop_singleQuotedEnd]

variable {rest : List Char}

theorem wordToken_plain {word : List Char}
    (plain : isStringIntroducer word = true → startsWith rest "'" ≠ true ∧
      (eqIgnoreAsciiCase word "u" = true → startsWith rest "&'" ≠ true)) :
    wordToken word rest = (.word word, rest) := by
  unfold wordToken
  split
  · rename_i introducer
    obtain ⟨quote, ampersand⟩ := plain introducer
    have same : afterIntroducer word rest = rest := by
      unfold afterIntroducer
      rw [if_neg]
      intro both
      obtain ⟨letter, opens⟩ := Bool.and_eq_true_iff.mp both
      exact ampersand letter opens
    rw [same, if_neg quote]
  · rfl

theorem eqIgnoreAsciiCase_letter (lower upper : Char) {keyword : String}
    (word : toAsciiLowercase keyword.toList = [lower]) (shifted : upper.val + 32 = lower.val)
    (same : eqIgnoreAsciiCase [c] keyword = true) : c = lower ∨ c = upper := by
  have letters := of_decide_eq_true same
  rw [word] at letters
  have letter : c.toLower = lower := (List.cons.inj letters).1
  unfold Char.toLower at letter
  split at letter
  · right
    have value : c.val + 32 = lower.val := congrArg Char.val letter
    rw [← shifted] at value
    exact Char.ext ((UInt32.add_left_inj 32).mp value)
  · exact .inl letter

theorem isStringIntroducer_cons {more : List Char}
    (introducer : isStringIntroducer (first :: more) = true) :
    more = [] ∧ ((first = 'e' ∨ first = 'E' ∨ first = 'b' ∨ first = 'B' ∨ first = 'x' ∨
      first = 'X') ∨ eqIgnoreAsciiCase [first] "u" = true) := by
  obtain ⟨single, letter⟩ := Bool.and_eq_true_iff.mp introducer
  have alone : more = [] := by simpa using single
  subst alone
  refine ⟨rfl, ?_⟩
  simp only [Bool.or_eq_true, or_assoc] at letter
  rcases letter with e | b | x | u
  · rcases eqIgnoreAsciiCase_letter 'e' 'E' rfl rfl e with rfl | rfl <;> simp
  · rcases eqIgnoreAsciiCase_letter 'b' 'B' rfl rfl b with rfl | rfl <;> simp
  · rcases eqIgnoreAsciiCase_letter 'x' 'X' rfl rfl x with rfl | rfl <;> simp
  · exact .inr u

theorem exists_of_startsWith {text : List Char} {start : String}
    (starts : startsWith text start = true) : ∃ rest, text = start.toList ++ rest := by
  obtain ⟨rest, whole⟩ := isPrefixOf_iff_prefix.mp starts
  exact ⟨rest, whole.symm⟩

theorem rest_of_wordToken {word text left : List Char}
    (taken : wordToken word rest = (.word text, left)) : left = rest := by
  unfold wordToken at taken
  split at taken
  · dsimp only at taken
    split at taken
    · cases taken
    · rename_i closed
      rw [← (Prod.mk.inj taken).2]
      unfold afterIntroducer at closed ⊢
      split
      · -- Behind the ampersand stands a quote.
        rename_i introduces
        obtain ⟨later, whole⟩ := exists_of_startsWith (Bool.and_eq_true_iff.mp introduces).2
        rw [if_pos introduces, whole] at closed
        exact absurd rfl closed
      · rfl
  · exact (Prod.mk.inj taken).2.symm

inductive Taken (first : Char) (after : List Char) : Token × List Char → Prop
  | semicolon (semicolon : first = ';') : Taken first after (.semicolon, after)
  | string (quote : first = '\'') : Taken first after (.quoted, Reference.afterString false after)
  | quotedIdent (quote : first = '"') :
      Taken first after (.quoted, Reference.afterQuotedIdent after)
  | dollarQuote {tag body : List Char} (dollar : first = '$')
      (found : Reference.dollarTag after = some (tag, body)) :
      Taken first after (.quoted, Reference.afterDelimiter ('$' :: (tag ++ ['$'])) body)
  | dollar (dollar : first = '$') (none : Reference.dollarTag after = none) :
      Taken first after (.punct '$', after)
  | introduced {later : List Char} (introducer : isStringIntroducer [first] = true)
      (alone : after.takeWhile isWordChar = [])
      (quote : afterIntroducer [first] after = '\'' :: later) :
      Taken first after (.quoted, Reference.afterString (eqIgnoreAsciiCase [first] "e") later)
  | word (letter : isWordChar first = true)
      (plain : isStringIntroducer (first :: after.takeWhile isWordChar) = true →
        startsWith (after.dropWhile isWordChar) "'" ≠ true ∧
          (eqIgnoreAsciiCase (first :: after.takeWhile isWordChar) "u" = true →
            startsWith (after.dropWhile isWordChar) "&'" ≠ true)) :
      Taken first after (.word (first :: after.takeWhile isWordChar), after.dropWhile isWordChar)
  | symbol (plain : first ∉ [';', '\'', '"', '$']) (symbol : isWordChar first = false) :
      Taken first after (.punct first, after)

theorem exists_quote_of_introduced {word : List Char} (opens : ¬ (startsWith rest "'" ≠ true ∧
      (eqIgnoreAsciiCase word "u" = true → startsWith rest "&'" ≠ true))) :
    ∃ later, afterIntroducer word rest = '\'' :: later := by
  unfold afterIntroducer
  split
  · rename_i both
    obtain ⟨later, rfl⟩ := exists_of_startsWith (Bool.and_eq_true_iff.mp both).2
    exact ⟨later, rfl⟩
  · rename_i neither
    have quote : startsWith rest "'" = true := by
      by_contra closed
      refine opens ⟨closed, fun u ampersand => neither ?_⟩
      rw [u, ampersand]
      rfl
    obtain ⟨later, rfl⟩ := exists_of_startsWith quote
    exact ⟨later, rfl⟩

theorem tokenAt_taken (first : Char) (after : List Char) :
    Taken first after (tokenAt first after) := by
  by_cases semicolon : first = ';'
  · subst semicolon
    exact .semicolon rfl
  by_cases quote : first = '\''
  · subst quote
    rw [tokenAt_string]
    exact .string rfl
  by_cases double : first = '"'
  · subst double
    rw [tokenAt_quotedIdent]
    exact .quotedIdent rfl
  by_cases dollar : first = '$'
  · subst dollar
    cases found : Reference.dollarTag after with
    | none =>
      rw [tokenAt_dollar found]
      exact .dollar rfl found
    | some tag =>
      rw [tokenAt_dollarQuote found]
      exact .dollarQuote rfl found
  cases letter : isWordChar first with
  | false =>
    have plain : first ∉ [';', '\'', '"', '$'] := by simp [semicolon, quote, double, dollar]
    rw [tokenAt_symbol plain letter]
    exact .symbol plain letter
  | true =>
    by_cases plain : isStringIntroducer (first :: after.takeWhile isWordChar) = true →
        startsWith (after.dropWhile isWordChar) "'" ≠ true ∧
          (eqIgnoreAsciiCase (first :: after.takeWhile isWordChar) "u" = true →
            startsWith (after.dropWhile isWordChar) "&'" ≠ true)
    · rw [tokenAt_word letter, wordToken_plain plain]
      exact .word letter plain
    · obtain ⟨introducer, opens⟩ := Classical.not_imp.mp plain
      have alone := (isStringIntroducer_cons introducer).1
      have left : after.dropWhile isWordChar = after := by
        rw [← drop_length_takeWhile, alone]
        rfl
      rw [alone, left] at opens
      rw [alone] at introducer
      obtain ⟨later, quote⟩ := exists_quote_of_introduced opens
      rw [tokenAt_introduced letter introducer alone quote]
      exact .introduced introducer alone quote

/-! ### Pieces -/

/-- What the lexer hands out for a piece that it reads as one token.  A vertical tab is a
symbol for it. -/
inductive Agrees : Reference.Kind → Token → Prop
  | identifier (word : List Char) : Agrees .identifier (.word word)
  | number (word : List Char) : Agrees .number (.word word)
  | semicolon : Agrees .semicolon .semicolon
  | constant : Agrees .constant .quoted
  | continued : Agrees .continued .quoted
  | symbol (c : Char) : Agrees .symbol (.punct c)
  | verticalTab : Agrees .space (.punct '\x0b')

/-- How the lexer reads a piece: the text from its start on and the text behind it. -/
inductive Lexed : Reference.Kind → List Char → List Char → Prop
  | trivia {kind : Reference.Kind} {text rest : List Char}
      (silent : kind = .space ∨ kind = .lineComment ∨ kind = .blockComment)
      (skips : skipTrivia text = skipTrivia rest) (shorter : rest.length < text.length) :
      Lexed kind text rest
  | token {kind : Reference.Kind} {first : Char} {after rest : List Char} {token : Token}
      (solid : Solid (first :: after)) (taken : tokenAt first after = (token, rest))
      (agrees : Agrees kind token) : Lexed kind (first :: after) rest
  | unicodeIdent {first : Char} {later : List Char} (letter : first = 'u' ∨ first = 'U') :
      Lexed .constant (first :: '&' :: '"' :: later) (Reference.afterQuotedIdent later)

theorem solid_symbol (visible : isAsciiWhitespace first = false) (ascii : isAscii first = true)
    (dash : first ≠ '-') (slash : first ≠ '/') (after : List Char) : Solid (first :: after) :=
  solid_cons visible (.inl ascii) (fun both => dash both.1) fun both => slash both.1

theorem lexed_space (space : Reference.isSpace first = true) (after : List Char) :
    Lexed .space (first :: after) after := by
  by_cases ascii : isAsciiWhitespace first = true
  · exact .trivia (.inl rfl) (skipTrivia_space ascii after) (Nat.lt_succ_self _)
  · simp only [Reference.isSpace, Bool.or_eq_true, decide_eq_true_eq, or_assoc] at space
    rcases space with rfl | rfl | rfl | rfl | rfl | rfl
    case inr.inr.inr.inr.inl =>
      exact .token (solid_symbol rfl rfl (by decide) (by decide) after) rfl .verticalTab
    all_goals exact absurd rfl ascii

theorem lexed_introduced {later : List Char} {escapes : Bool} (letter : isWordChar first = true)
    (ascii : isAscii first = true) (introducer : isStringIntroducer [first] = true)
    (alone : after.takeWhile isWordChar = [])
    (quote : afterIntroducer [first] after = '\'' :: later)
    (same : eqIgnoreAsciiCase [first] "e" = escapes) :
    Lexed .constant (first :: after) (Reference.afterString escapes later) := by
  subst same
  exact .token (solid_of_isWordChar letter (.inl ascii) after)
    (tokenAt_introduced letter introducer alone quote) .constant

theorem identifier_text (first : Char) (after : List Char) :
    Reference.Piece.text ⟨.identifier, first :: after, after.dropWhile Reference.isIdentCont⟩ =
      first :: after.takeWhile Reference.isIdentCont := by
  have short := (dropWhile_sublist Reference.isIdentCont (l := after)).length_le
  unfold Reference.Piece.text
  rw [length_cons, Nat.sub_add_comm short, take_succ_cons, take_length_sub_dropWhile]

theorem lexed_identifier (starts : Reference.isIdentStart first = true)
    (introducer : startsWith after "'" = true → ¬ (first = 'e' ∨ first = 'E' ∨ first = 'b' ∨
      first = 'B' ∨ first = 'x' ∨ first = 'X'))
    (ampersand : startsWith after "&'" = true → ¬ (first = 'u' ∨ first = 'U'))
    (ordinary : Reference.Piece.Ordinary
      ⟨.identifier, first :: after, after.dropWhile Reference.isIdentCont⟩) :
    Lexed .identifier (first :: after) (after.dropWhile Reference.isIdentCont) := by
  obtain ⟨dollars, spaces, single⟩ := ordinary
  rw [identifier_text] at dollars single
  have letter : isWordChar first = true := by
    rw [isWordChar_eq, Reference.isTagCont, starts, Bool.true_or]
  -- Without dollar signs an identifier is a run of word characters.
  have rest : after.dropWhile Reference.isIdentCont = after.dropWhile isWordChar := by
    apply dropWhile_eq_of_takeWhile
    · intro c word
      rw [isWordChar_eq] at word
      exact Bool.or_eq_true_iff.mpr (.inl word)
    · intro c member
      have other : c ≠ '$' := fun same => dollars (same ▸ mem_cons_of_mem _ member)
      have cont : Reference.isIdentCont c = true := mem_takeWhile_imp member
      rw [isWordChar_eq]
      simpa [Reference.isIdentCont, Reference.isTagCont, other] using cont
  have word : after.takeWhile Reference.isIdentCont = after.takeWhile isWordChar := by
    rw [← take_length_sub_dropWhile, rest, take_length_sub_dropWhile]
  rw [rest, word] at single
  rw [rest]
  refine .token (solid_of_isWordChar letter (.inr (by simpa using spaces)) after)
    ((tokenAt_word letter after).trans (wordToken_plain fun introduces => ?_)) (.identifier _)
  obtain ⟨alone, letters⟩ := isStringIntroducer_cons introduces
  have left : after.dropWhile isWordChar = after := by
    rw [← drop_length_takeWhile, alone]
    rfl
  rw [left, alone] at single ⊢
  constructor
  · intro opens
    rcases letters with letters | u
    · exact introducer opens letters
    · exact single ⟨u, opens⟩
  · exact fun u opens => ampersand opens (eqIgnoreAsciiCase_letter 'u' 'U' rfl rfl u)

theorem lexed_number (digit : first.isDigit = true) (after : List Char) :
    Lexed .number (first :: after) (after.dropWhile Reference.isTagCont) := by
  have letter : isWordChar first = true := by
    rw [isWordChar_eq, Reference.isTagCont, digit, Bool.or_true]
  have plain : wordToken (first :: after.takeWhile isWordChar) (after.dropWhile isWordChar) =
      (.word (first :: after.takeWhile isWordChar), after.dropWhile isWordChar) := by
    refine wordToken_plain fun introducer => ?_
    rcases (isStringIntroducer_cons introducer).2 with letters | u
    · rcases letters with rfl | rfl | rfl | rfl | rfl | rfl <;> cases digit
    · rcases eqIgnoreAsciiCase_letter 'u' 'U' rfl rfl u with rfl | rfl <;> cases digit
  rw [← funext isWordChar_eq]
  exact .token (solid_of_isWordChar letter (.inl (isAscii_of_isDigit digit)) after)
    ((tokenAt_word letter after).trans plain) (.number _)

theorem lexed_of_ordinary {tail : Reference.Tail} {kind : Reference.Kind} {later : Reference.Tail}
    (piece : Reference.pieceAt true tail first after = (kind, rest, later))
    (ordinary : Reference.Piece.Ordinary ⟨kind, first :: after, rest⟩) :
    Lexed kind (first :: after) rest := by
  have cut := Reference.pieceAt_cut true tail first after
  rw [piece] at cut
  cases cut with
  | space space => exact lexed_space space after
  | lineComment dash opens =>
    subst dash
    exact .trivia (.inr (.inl rfl)) (skipTrivia_lineComment opens ordinary)
      (Nat.lt_succ_of_le (dropWhile_sublist _).length_le)
  | blockComment slash opens =>
    subst slash
    obtain ⟨inner, rfl⟩ := exists_of_startsWith opens
    have short := Reference.afterBlockComment_length_le 0 inner
    refine .trivia (.inr (.inr rfl)) (skipTrivia_blockComment inner) ?_
    exact Nat.lt_succ_of_le (Nat.le_succ_of_le short)
  | semicolon semicolon =>
    subst semicolon
    exact .token (solid_symbol rfl rfl (by decide) (by decide) after) rfl .semicolon
  | continued quote =>
    subst quote
    have short := Reference.afterString_length_le true after
    refine .token (solid_symbol rfl rfl (by decide) (by decide) after) ?_ .continued
    rw [tokenAt_string]
    refine congrArg _ (afterQuote_of_no_backslash fun member => ?_).symm
    apply ordinary
    unfold Reference.Piece.text
    rw [length_cons, Nat.sub_add_comm short]
    exact mem_cons_of_mem _ member
  | plainString quote =>
    subst quote
    exact .token (solid_symbol rfl rfl (by decide) (by decide) after) (tokenAt_string after)
      .constant
  | quotedIdent quote =>
    subst quote
    exact .token (solid_symbol rfl rfl (by decide) (by decide) after) (tokenAt_quotedIdent after)
      .constant
  | dollarQuote dollar found =>
    subst dollar
    exact .token (solid_symbol rfl rfl (by decide) (by decide) after) (tokenAt_dollarQuote found)
      .constant
  | dollar dollar none =>
    subst dollar
    exact .token (solid_symbol rfl rfl (by decide) (by decide) after) (tokenAt_dollar none)
      (.symbol _)
  | escapeString letter opens =>
    obtain ⟨later, rfl⟩ := exists_of_startsWith opens
    rcases letter with rfl | rfl <;> exact lexed_introduced rfl rfl rfl rfl rfl rfl
  | bitString letter opens =>
    obtain ⟨later, rfl⟩ := exists_of_startsWith opens
    rcases letter with rfl | rfl | rfl | rfl <;>
      exact lexed_introduced rfl rfl rfl rfl rfl rfl
  | unicodeString letter opens =>
    obtain ⟨later, rfl⟩ := exists_of_startsWith opens
    rcases letter with rfl | rfl <;> exact lexed_introduced rfl rfl rfl rfl rfl rfl
  | unicodeIdent letter opens =>
    obtain ⟨later, rfl⟩ := exists_of_startsWith opens
    exact .unicodeIdent letter
  | identifier starts introducer ampersand =>
    exact lexed_identifier starts introducer ampersand ordinary
  | number digit => exact lexed_number digit after
  | symbol visible dash slash plain letter digit =>
    have ascii : isAscii first = true := by
      simp only [Reference.isIdentStart, Bool.or_eq_false_iff] at letter
      simpa using letter.2
    have symbol : isWordChar first = false := by
      rw [isWordChar_eq, Reference.isTagCont, letter, digit]
      rfl
    refine .token (solid_cons ?_ (.inl ascii) dash slash) (tokenAt_symbol plain symbol after)
      (.symbol _)
    rw [Bool.eq_false_iff] at visible ⊢
    exact fun space => visible (isSpace_of_isAsciiWhitespace space)

end Pgprox.Sql
