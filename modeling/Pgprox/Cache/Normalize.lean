/-
The form of a statement that the cache key holds.

Words are folded, other tokens are copied, and trivia between two tokens becomes one
space.  The lexer reads the same tokens out of the result as out of the statement.
-/

import Pgprox.Sql.Cuts

namespace Pgprox.Cache

open Sql
open List hiding lex

/-! ### The form -/

inductive TokenKind
  | word
  | quoted
  | semicolon
  | punct
  deriving DecidableEq

def TokenKind.of : Token → TokenKind
  | .word _ => .word
  | .quoted => .quoted
  | .semicolon => .semicolon
  | .punct _ => .punct

def TokenKind.fold : TokenKind → List Char → List Char
  | .word, text => toAsciiLowercase text
  | .quoted, text | .semicolon, text | .punct, text => text

def hadGap (lexeme : Lexeme) : Bool :=
  (skipTrivia lexeme.before).length ≠ lexeme.before.length

def consumed (lexeme : Lexeme) : List Char :=
  (skipTrivia lexeme.before).take ((skipTrivia lexeme.before).length - lexeme.after.length)

def normalizeFrom (first : Bool) : List Lexeme → List Char
  | [] => []
  | lexeme :: later =>
    (if hadGap lexeme && !first then [' '] else []) ++
      ((TokenKind.of lexeme.token).fold (consumed lexeme) ++ normalizeFrom false later)

def normalize (sql : List Char) : List Char :=
  normalizeFrom true (lex sql)

structure Reading where
  gap : Bool
  kind : TokenKind
  text : List Char
  deriving DecidableEq

def readingOf (lexeme : Lexeme) : Reading where
  gap := hadGap lexeme
  kind := .of lexeme.token
  text := (TokenKind.of lexeme.token).fold (consumed lexeme)

def readings (sql : List Char) : List Reading :=
  (lex sql).map readingOf

/-- Trivia in front of the first token leaves no trace. -/
def unled : List Reading → List Reading
  | [] => []
  | reading :: later => { reading with gap := false } :: later

/-! ### One token -/

theorem lex_of_trivia {text : List Char} (none : skipTrivia text = []) : lex text = [] := by
  rw [lex_eq, Sql.next, none]

theorem lex_of_token {text after rest : List Char} {first : Char} {token : Token}
    (shape : skipTrivia text = first :: after) (taken : tokenAt first after = (token, rest)) :
    lex text = ⟨text, token, rest⟩ :: lex rest := by
  rw [lex_eq, Sql.next, shape]
  dsimp only
  rw [taken]

def rendered (text : List Char) : List Char :=
  normalizeFrom false (lex text)

/-- A text whose first token is `word`, of the given kind, with `rest` behind it. -/
structure Splits (text : List Char) (gap : Bool) (kind : TokenKind) (word rest : List Char) :
    Prop where
  readings : readings text = ⟨gap, kind, kind.fold word⟩ :: readings rest
  normalized : normalize text = kind.fold word ++ rendered rest
  rendered : rendered text = (if gap then [' '] else []) ++ (kind.fold word ++ rendered rest)
  solid : Solid (word ++ rest)
  whole : gap = false → text = word ++ rest
  token : ∃ first after token, word ++ rest = first :: after ∧
    tokenAt first after = (token, rest) ∧ TokenKind.of token = kind
  shorter : rest.length < text.length

theorem splits_or_trivia (text : List Char) :
    (readings text = [] ∧ rendered text = [] ∧ normalize text = []) ∨
      ∃ gap kind word rest, Splits text gap kind word rest := by
  cases shape : skipTrivia text with
  | nil =>
    left
    have none := lex_of_trivia shape
    unfold readings rendered normalize
    rw [none]
    exact ⟨rfl, rfl, rfl⟩
  | cons first after =>
    right
    rcases taken : tokenAt first after with ⟨token, rest⟩
    have lexemes := lex_of_token shape taken
    have suffix := tokenAt_suffix first after
    have short := tokenAt_length_le first after
    have within := skipTrivia_length_le text
    rw [taken] at suffix short
    rw [shape, length_cons] at within
    dsimp only at suffix short
    have word : consumed ⟨text, token, rest⟩ ++ rest = first :: after := by
      obtain ⟨front, whole⟩ := suffix
      unfold consumed
      rw [shape, ← whole, length_append, Nat.add_sub_cancel, take_left]
    refine ⟨hadGap ⟨text, token, rest⟩, .of token, consumed ⟨text, token, rest⟩, rest, ?_⟩
    constructor
    · unfold readings
      rw [lexemes]
      rfl
    · unfold normalize
      rw [lexemes, normalizeFrom, Bool.not_true, Bool.and_false]
      rfl
    · unfold rendered
      rw [lexemes, normalizeFrom, Bool.not_false, Bool.and_true]
    · rw [word, ← shape]
      exact solid_skipTrivia text
    · intro tight
      rw [word, ← shape]
      have length : (skipTrivia text).length = text.length := by simpa [hadGap] using tight
      exact ((skipTriviaWithin_suffix _ _).eq_of_length length).symm
    · exact ⟨first, after, token, word, taken, rfl⟩
    · omega

/-! ### What may stand behind a token -/

/-- The text `more` may stand behind a token in place of `rest`: it ends no token later than
`rest` does. -/
structure Follows (rest more : List Char) : Prop where
  nothing : rest = [] → more = []
  head : ∀ c, more.head? = some c →
    c = ' ' ∨ (isWordChar c = true ∧ ∃ d, rest.head? = some d ∧ isWordChar d = true) ∨
      (isWordChar c = false ∧ rest.head? = some c)
  ampersand : startsWith more "&'" = true → startsWith rest "&'" = true
  dollar : Reference.dollarTag rest = none → Reference.dollarTag more = none

theorem Follows.symbol {rest more : List Char} (follows : Follows rest more) {c : Char}
    (symbol : isWordChar c = false) (visible : c ≠ ' ') (starts : more.head? = some c) :
    rest.head? = some c := by
  rcases follows.head c starts with blank | ⟨letter, -⟩ | ⟨-, same⟩
  · exact absurd blank visible
  · rw [symbol] at letter
    cases letter
  · exact same

theorem startsWith_single (text : List Char) (start : String) (c : Char)
    (single : start.toList = [c]) : startsWith text start = true ↔ text.head? = some c := by
  unfold startsWith
  rw [single]
  cases text with
  | nil => exact ⟨nofun, nofun⟩
  | cons d rest =>
    rw [isPrefixOf_cons_cons, isPrefixOf_nil_left, Bool.and_true, beq_iff_eq,
      head?_cons, Option.some.injEq]
    exact eq_comm

/-! ### Tokens in the form -/

def Reads (kind : TokenKind) (text rest : List Char) : Prop :=
  Solid text ∧ ∃ first after token, text = first :: after ∧ tokenAt first after = (token, rest) ∧
    TokenKind.of token = kind

theorem reads_symbol {first : Char} {after rest : List Char} {token : Token}
    (solid : Solid (first :: after)) (taken : tokenAt first after = (token, rest)) :
    Reads (.of token) (first :: after) rest :=
  ⟨solid, first, after, token, rfl, taken, rfl⟩

theorem kept_toLower {c : Char} (kept : isAscii c = true ∨ isWhitespace c = false) :
    isAscii c.toLower = true ∨ isWhitespace c.toLower = false := by
  rcases toLower_cases c with same | ⟨-, lower⟩
  · rwa [same]
  · left
    simp only [Char.isLower, Bool.and_eq_true, decide_eq_true_eq] at lower
    refine decide_eq_true (UInt32.lt_iff_toNat_lt.mpr ?_)
    exact Nat.lt_of_le_of_lt lower.2 (by decide)

theorem isStringIntroducer_lower (word : List Char) :
    isStringIntroducer (toAsciiLowercase word) = isStringIntroducer word := by
  unfold isStringIntroducer
  rw [eqIgnoreAsciiCase_lower, eqIgnoreAsciiCase_lower, eqIgnoreAsciiCase_lower,
    eqIgnoreAsciiCase_lower, toAsciiLowercase, length_map]

theorem isWordChar_of_introducer {first : Char} (introducer : isStringIntroducer [first] = true) :
    isWordChar first = true := by
  rcases (isStringIntroducer_cons introducer).2 with letters | u
  · rcases letters with rfl | rfl | rfl | rfl | rfl | rfl <;> rfl
  · rcases eqIgnoreAsciiCase_letter 'u' 'U' rfl rfl u with rfl | rfl <;> rfl

theorem append_split {front body rest inner : List Char} (same : body ++ rest = front ++ inner)
    (short : rest.length ≤ inner.length) : ∃ back, body = front ++ back ∧ inner = back ++ rest := by
  rcases append_eq_append_iff.mp same with ⟨middle, rfl, left⟩ | ⟨back, rfl, left⟩
  · have lengths := congrArg List.length left
    rw [length_append] at lengths
    obtain rfl : middle = [] := length_eq_zero_iff.mp (by omega)
    exact ⟨[], by simp, left.symm⟩
  · exact ⟨back, rfl, left⟩

theorem rest_of_append {first : Char} {after word rest : List Char}
    (whole : first :: after = word ++ rest) (short : rest.length ≤ after.length) :
    ∃ body, word = first :: body ∧ after = body ++ rest := by
  cases word with
  | nil =>
    have lengths := congrArg List.length whole
    rw [nil_append, length_cons] at lengths
    omega
  | cons c body =>
    obtain ⟨rfl, same⟩ := List.cons.inj whole
    exact ⟨body, rfl, same⟩

theorem Follows.stops {after more : List Char}
    (follows : Follows (after.dropWhile isWordChar) more) :
    more.takeWhile isWordChar = [] ∧ more.dropWhile isWordChar = more := by
  cases more with
  | nil => exact ⟨rfl, rfl⟩
  | cons c later =>
    have other : ¬ isWordChar c = true := by
      intro word
      rcases follows.head c rfl with rfl | ⟨-, d, starts, also⟩ | ⟨symbol, -⟩
      · cases word
      · have ends := head?_dropWhile_not isWordChar after
        rw [starts] at ends
        rw [ends] at also
        cases also
      · rw [symbol] at word
        cases word
    exact ⟨takeWhile_cons_of_neg other, dropWhile_cons_of_neg other⟩

theorem isWordChar_lower {first : Char} {after : List Char} (letter : isWordChar first = true) :
    ∀ c ∈ toAsciiLowercase (first :: after.takeWhile isWordChar), isWordChar c = true := by
  intro c member
  obtain ⟨d, listed, rfl⟩ := mem_map.mp member
  rw [isWordChar_toLower]
  rcases mem_cons.mp listed with rfl | inner
  · exact letter
  · exact mem_takeWhile_imp inner

section Render

variable {rest more : List Char}

theorem render_string {body : List Char} {escapes : Bool} (follows : Follows rest more)
    (ends : Reference.afterString escapes (body ++ rest) = rest) :
    Reference.afterString escapes (body ++ more) = more := by
  refine afterQuote_append follows.nothing (fun quote => ?_) ends
  have head := head_afterQuote '\'' escapes (body ++ rest)
  rw [Reference.afterString] at ends
  rw [ends] at head
  exact head (follows.symbol rfl (by decide) quote)

theorem render_quotedIdent {body : List Char} (follows : Follows rest more)
    (ends : Reference.afterQuotedIdent (body ++ rest) = rest) :
    Reference.afterQuotedIdent (body ++ more) = more := by
  refine afterQuote_append follows.nothing (fun quote => ?_) ends
  have head := head_afterQuote '"' false (body ++ rest)
  rw [Reference.afterQuotedIdent] at ends
  rw [ends] at head
  exact head (follows.symbol rfl (by decide) quote)

theorem render_dollarQuote {body tag inner : List Char} (follows : Follows rest more)
    (found : Reference.dollarTag (body ++ rest) = some (tag, inner))
    (ends : Reference.afterDelimiter ('$' :: (tag ++ ['$'])) inner = rest) :
    tokenAt '$' (body ++ more) = (.quoted, more) := by
  obtain ⟨whole, tagged, starts⟩ := dollarTag_inv found
  have short := Reference.afterDelimiter_length_le ('$' :: (tag ++ ['$'])) inner
  rw [ends] at short
  have front : body ++ rest = (tag ++ ['$']) ++ inner := by
    rw [whole, append_assoc]
    rfl
  obtain ⟨back, rfl, rfl⟩ := append_split front short
  rw [append_assoc, append_assoc, singleton_append,
    tokenAt_dollarQuote (dollarTag_append tagged starts _),
    afterDelimiter_append (cons_ne_nil _ _) follows.nothing ends]

/-- Between an introducer and the text of its string stands a quote, for `U` also an
ampersand. -/
theorem introduced_split {first : Char} {after later body : List Char}
    (quote : afterIntroducer [first] after = '\'' :: later) (split : after = body ++ rest)
    (short : rest.length ≤ later.length) :
    ∃ back, later = back ++ rest ∧ (body = '\'' :: back ∨
      body = '&' :: '\'' :: back ∧ eqIgnoreAsciiCase [first] "u" = true) := by
  unfold afterIntroducer at quote
  split at quote
  · rename_i both
    obtain ⟨u, ampersand⟩ := Bool.and_eq_true_iff.mp both
    obtain ⟨inner, rfl⟩ := exists_of_startsWith ampersand
    obtain rfl : inner = later := (List.cons.inj quote).2
    obtain ⟨back, rfl, same⟩ := append_split split.symm short
    exact ⟨back, same, .inr ⟨rfl, u⟩⟩
  · subst quote
    obtain ⟨back, rfl, same⟩ := @append_split ['\''] body rest later split.symm short
    exact ⟨back, same, .inl rfl⟩

theorem render_introduced {first : Char} {after later body : List Char}
    (introducer : isStringIntroducer [first] = true)
    (quote : afterIntroducer [first] after = '\'' :: later) (split : after = body ++ rest)
    (ends : Reference.afterString (eqIgnoreAsciiCase [first] "e") later = rest)
    (follows : Follows rest more) : tokenAt first (body ++ more) = (.quoted, more) := by
  have letter := isWordChar_of_introducer introducer
  have short := Reference.afterString_length_le (eqIgnoreAsciiCase [first] "e") later
  rw [ends] at short
  obtain ⟨back, rfl, rfl | ⟨rfl, u⟩⟩ := introduced_split quote split short
  · have introduces : afterIntroducer [first] ('\'' :: (back ++ more)) =
        '\'' :: (back ++ more) := by
      rw [afterIntroducer, if_neg (by simp [startsWith])]
    exact (tokenAt_introduced letter introducer rfl introduces).trans
      (congrArg _ (render_string follows ends))
  · have introduces : afterIntroducer [first] ('&' :: '\'' :: (back ++ more)) =
        '\'' :: (back ++ more) := by
      rw [afterIntroducer, u]
      rfl
    exact (tokenAt_introduced letter introducer rfl introduces).trans
      (congrArg _ (render_string follows ends))

theorem render_word {first : Char} {after : List Char} (letter : isWordChar first = true)
    (plain : isStringIntroducer (first :: after.takeWhile isWordChar) = true →
      startsWith (after.dropWhile isWordChar) "'" ≠ true ∧
        (eqIgnoreAsciiCase (first :: after.takeWhile isWordChar) "u" = true →
          startsWith (after.dropWhile isWordChar) "&'" ≠ true))
    (follows : Follows (after.dropWhile isWordChar) more) :
    tokenAt first.toLower (toAsciiLowercase (after.takeWhile isWordChar) ++ more) =
      (.word (toAsciiLowercase (first :: after.takeWhile isWordChar)), more) := by
  have every : ∀ c ∈ toAsciiLowercase (after.takeWhile isWordChar), isWordChar c = true :=
    fun c member => isWordChar_lower letter c (mem_cons_of_mem _ member)
  have stops := follows.stops
  have taken : (toAsciiLowercase (after.takeWhile isWordChar) ++ more).takeWhile isWordChar =
      toAsciiLowercase (after.takeWhile isWordChar) := by
    rw [takeWhile_append_of_pos every, stops.1, append_nil]
  have left : (toAsciiLowercase (after.takeWhile isWordChar) ++ more).dropWhile isWordChar =
      more := by
    rw [dropWhile_append_of_pos every, stops.2]
  have same : first.toLower :: toAsciiLowercase (after.takeWhile isWordChar) =
      toAsciiLowercase (first :: after.takeWhile isWordChar) := rfl
  rw [tokenAt_word (by rw [isWordChar_toLower, letter]), taken, left, same]
  apply wordToken_plain
  rw [isStringIntroducer_lower, eqIgnoreAsciiCase_lower]
  intro introducer
  obtain ⟨quote, ampersand⟩ := plain introducer
  refine ⟨fun opens => quote ?_, fun u opens => ampersand u (follows.ampersand opens)⟩
  rw [startsWith_single _ "'" '\'' rfl] at opens ⊢
  exact follows.symbol rfl (by decide) opens

end Render

/-- The form of a token is read as the token was, up to the form of what follows. -/
theorem Splits.reads {text word rest more : List Char} {gap : Bool} {kind : TokenKind}
    (splits : Splits text gap kind word rest) (follows : Follows rest more) :
    Reads kind (kind.fold word ++ more) more := by
  obtain ⟨first, after, token, whole, taken, rfl⟩ := splits.token
  have solid := splits.solid
  have short := tokenAt_length_le first after
  have cut := tokenAt_taken first after
  rw [taken] at short cut
  obtain ⟨body, rfl, split⟩ := rest_of_append whole.symm short
  obtain ⟨visible, kept⟩ := solid.visible
  obtain ⟨-, line, block⟩ := solid.inv (cons_ne_nil _ _)
  have still (dash : first ≠ '-') (slash : first ≠ '/') : Solid (first :: (body ++ more)) :=
    solid_cons visible kept (fun both => dash both.1) fun both => slash both.1
  cases cut with
  | semicolon semicolon =>
    subst semicolon
    obtain rfl := self_eq_append_left.mp split
    exact reads_symbol (still (by decide) (by decide)) rfl
  | string quote =>
    subst quote
    exact reads_symbol (still (by decide) (by decide)) ((tokenAt_string _).trans
      (congrArg _ (render_string follows (by rw [← split]))))
  | quotedIdent quote =>
    subst quote
    exact reads_symbol (still (by decide) (by decide)) ((tokenAt_quotedIdent _).trans
      (congrArg _ (render_quotedIdent follows (by rw [← split]))))
  | dollarQuote dollar found =>
    subst dollar
    refine reads_symbol (still (by decide) (by decide)) ?_
    exact render_dollarQuote follows (by rw [← split]; exact found) rfl
  | dollar dollar none =>
    subst dollar
    obtain rfl := self_eq_append_left.mp split
    exact reads_symbol (still (by decide) (by decide)) (tokenAt_dollar (follows.dollar none))
  | introduced introducer alone quote =>
    have letter := isWordChar_of_introducer introducer
    refine reads_symbol (solid_of_isWordChar letter kept _) ?_
    exact render_introduced introducer quote split rfl follows
  | word letter plain =>
    obtain rfl : body = after.takeWhile isWordChar := by
      nth_rewrite 1 [← takeWhile_append_dropWhile (p := isWordChar) (l := after)] at split
      exact (append_cancel_right split).symm
    refine ⟨?_, _, _, _, rfl, render_word letter plain follows, rfl⟩
    exact solid_of_isWordChar (by rw [isWordChar_toLower, letter]) (kept_toLower kept) _
  | symbol plain symbol =>
    obtain rfl := self_eq_append_left.mp split
    refine reads_symbol (solid_cons visible kept ?_ ?_) (tokenAt_symbol plain symbol more)
    · rintro ⟨rfl, opens⟩
      rw [startsWith_single _ "-" '-' rfl] at opens
      have dash := follows.symbol rfl (by decide) opens
      rw [← startsWith_single _ "-" '-' rfl] at dash
      exact line (Bool.and_eq_true_iff.mpr ⟨rfl, dash⟩)
    · rintro ⟨rfl, opens⟩
      rw [startsWith_single _ "*" '*' rfl] at opens
      have star := follows.symbol rfl (by decide) opens
      rw [← startsWith_single _ "*" '*' rfl] at star
      exact block (Bool.and_eq_true_iff.mpr ⟨rfl, star⟩)

/-! ### The form behind a token -/

theorem Follows.of_blank (text more : List Char) (filled : text ≠ []) :
    Follows text (' ' :: more) where
  nothing empty := absurd empty filled
  head c starts := .inl (Option.some.inj starts).symm
  ampersand opens := by cases opens
  dollar _ := rfl

theorem Follows.of_nil (text : List Char) : Follows text [] where
  nothing _ := rfl
  head _ := nofun
  ampersand opens := by cases opens
  dollar _ := rfl

theorem startsWith_ampersand {c : Char} {text : List Char}
    (opens : startsWith (c :: text) "&'" = true) : c = '&' ∧ startsWith text "'" = true := by
  obtain ⟨same, later⟩ := Bool.and_eq_true_iff.mp opens
  exact ⟨(beq_iff_eq.mp same).symm, later⟩

theorem Follows.of_symbol {first : Char} {after more : List Char}
    (symbol : isWordChar first = false)
    (quote : first = '&' → startsWith more "'" = true → startsWith after "'" = true) :
    Follows (first :: after) (first :: more) where
  nothing := nofun
  head c starts := .inr (.inr (by rw [← Option.some.inj starts]; exact ⟨symbol, rfl⟩))
  ampersand opens := by
    obtain ⟨rfl, later⟩ := startsWith_ampersand opens
    exact Bool.and_eq_true_iff.mpr ⟨rfl, quote rfl later⟩
  dollar none := by
    rw [isWordChar_eq] at symbol
    by_cases dollar : first = '$'
    · subst dollar
      cases none
    · unfold Reference.dollarTag
      rw [dropWhile_cons_of_neg (by simp [symbol])]
      split
      · rename_i same
        exact absurd (List.cons.inj same).1 dollar
      · rfl

theorem Follows.of_introduced {first d : Char} {after more : List Char}
    (letter : isWordChar first = true) (mark : d = '\'' ∨ d = '&') :
    Follows (first :: d :: after) (first :: d :: more) where
  nothing := nofun
  head c starts := .inr (.inl (by
    rw [← Option.some.inj starts]
    exact ⟨letter, first, rfl, letter⟩))
  ampersand opens := by
    obtain ⟨rfl, -⟩ := startsWith_ampersand opens
    cases letter
  dollar _ := by
    rw [isWordChar_eq] at letter
    unfold Reference.dollarTag
    rcases mark with rfl | rfl
    · rw [dropWhile_cons_of_pos letter]
      rfl
    · rw [dropWhile_cons_of_pos letter]
      rfl

theorem Follows.of_word {first : Char} {after more : List Char} (letter : isWordChar first = true)
    (follows : Follows (after.dropWhile isWordChar) more) :
    Follows (first :: after)
      (toAsciiLowercase (first :: after.takeWhile isWordChar) ++ more) where
  nothing := nofun
  head c starts := .inr (.inl (by
    rw [← Option.some.inj starts, isWordChar_toLower]
    exact ⟨letter, first, rfl, letter⟩))
  ampersand opens := by
    obtain ⟨same, -⟩ := startsWith_ampersand opens
    rw [← isWordChar_toLower, same] at letter
    cases letter
  dollar none := by
    by_contra found
    obtain ⟨⟨tag, inner⟩, found⟩ := Option.ne_none_iff_exists'.mp found
    obtain ⟨whole, tagged, starts⟩ := dollarTag_inv found
    -- The word is the tag, so the dollar sign follows it in the statement too.
    have word : tag = toAsciiLowercase (first :: after.takeWhile isWordChar) := by
      have front := congrArg (List.takeWhile isWordChar) whole
      rw [takeWhile_append_of_pos (isWordChar_lower letter), follows.stops.1,
        append_nil, funext isWordChar_eq,
        takeWhile_append_of_pos (all_eq_true.mp tagged),
        takeWhile_cons_of_neg (by decide), append_nil] at front
      rw [← front, funext isWordChar_eq]
    subst word
    have dollar : more.head? = some '$' := by
      rw [append_cancel_left whole]
      rfl
    have behind := follows.symbol rfl (by decide) dollar
    obtain ⟨body, left⟩ := head?_eq_some_iff.mp behind
    have split : first :: after = (first :: after.takeWhile isWordChar) ++ '$' :: body := by
      rw [← left, cons_append, takeWhile_append_dropWhile]
    rw [split, dollarTag_append] at none
    · cases none
    · rw [all_eq_true]
      intro c member
      rw [← isWordChar_eq]
      rcases mem_cons.mp member with rfl | inner
      · exact letter
      · exact mem_takeWhile_imp inner
    · change Reference.isIdentStart first = true
      rw [← isIdentStart_toLower]
      exact starts

theorem follows_token {first : Char} {after rest more : List Char} {token : Token}
    (taken : Taken first after (token, rest)) {body : List Char} (split : after = body ++ rest)
    (follows : Follows rest more) :
    Follows (first :: after) ((TokenKind.of token).fold (first :: body) ++ more) := by
  cases taken with
  | semicolon same => exact .of_symbol (by rw [same]; rfl) (by rw [same]; exact nofun)
  | string quote => exact .of_symbol (by rw [quote]; rfl) (by rw [quote]; exact nofun)
  | quotedIdent quote => exact .of_symbol (by rw [quote]; rfl) (by rw [quote]; exact nofun)
  | dollarQuote dollar found => exact .of_symbol (by rw [dollar]; rfl) (by rw [dollar]; exact nofun)
  | dollar dollar none => exact .of_symbol (by rw [dollar]; rfl) (by rw [dollar]; exact nofun)
  | introduced introducer alone quote =>
    have letter := isWordChar_of_introducer introducer
    obtain ⟨back, -, rfl | ⟨rfl, -⟩⟩ :=
      introduced_split quote split (Reference.afterString_length_le _ _)
    · rw [split]
      exact .of_introduced letter (.inl rfl)
    · rw [split]
      exact .of_introduced letter (.inr rfl)
  | word letter plain =>
    obtain rfl : body = after.takeWhile isWordChar := by
      nth_rewrite 1 [← takeWhile_append_dropWhile (p := isWordChar) (l := after)] at split
      exact (append_cancel_right split).symm
    exact .of_word letter follows
  | symbol plain symbol =>
    obtain rfl := self_eq_append_left.mp split
    refine .of_symbol symbol fun _ opens => ?_
    rw [startsWith_single _ "'" '\'' rfl] at opens ⊢
    exact follows.symbol rfl (by decide) opens

theorem follows_rendered (text : List Char) : Follows text (rendered text) := by
  induction size : text.length using Nat.strong_induction_on generalizing text with
  | _ size ih =>
    subst size
    rcases splits_or_trivia text with ⟨-, nothing, -⟩ | ⟨gap, kind, word, rest, splits⟩
    · rw [nothing]
      exact .of_nil text
    · have filled : text ≠ [] := by
        rintro rfl
        exact absurd splits.shorter (Nat.not_lt_zero _)
      rw [splits.rendered]
      cases gap with
      | true => exact .of_blank text _ filled
      | false =>
        obtain ⟨first, after, token, whole, taken, rfl⟩ := splits.token
        have short := tokenAt_length_le first after
        have cut := tokenAt_taken first after
        rw [taken] at short cut
        obtain ⟨body, rfl, split⟩ := rest_of_append whole.symm short
        rw [splits.whole rfl, whole]
        exact follows_token cut split (ih _ splits.shorter rest rfl)

/-! ### The tokens of the form -/

def spanOf (lexeme : Lexeme) : Reading where
  gap := hadGap lexeme
  kind := .of lexeme.token
  text := consumed lexeme

def spans (sql : List Char) : List Reading :=
  (lex sql).map spanOf

def Reading.folded (reading : Reading) : Reading :=
  { reading with text := reading.kind.fold reading.text }

theorem map_folded_spans (sql : List Char) : (spans sql).map Reading.folded = readings sql :=
  map_map

theorem spans_of_reads {kind : TokenKind} {word rest : List Char} (gap : Bool)
    (reads : Reads kind (word ++ rest) rest) :
    spans ((if gap then [' '] else []) ++ (word ++ rest)) = ⟨gap, kind, word⟩ :: spans rest := by
  obtain ⟨solid, first, after, token, whole, taken, rfl⟩ := reads
  have skips : skipTrivia ((if gap then [' '] else []) ++ (word ++ rest)) = first :: after := by
    cases gap with
    | false =>
      rw [← whole]
      exact solid
    | true =>
      rw [← whole]
      exact (skipTrivia_space rfl _).trans solid
  unfold spans
  rw [lex_of_token skips taken, map_cons]
  congr 1
  unfold spanOf hadGap consumed
  rw [skips, ← whole]
  cases gap <;> simp

theorem spans_rendered (text : List Char) : spans (rendered text) = readings text := by
  induction size : text.length using Nat.strong_induction_on generalizing text with
  | _ size ih =>
    subst size
    rcases splits_or_trivia text with ⟨none, nothing, -⟩ | ⟨gap, kind, word, rest, splits⟩
    · rw [nothing, none]
      rfl
    · rw [splits.rendered, splits.readings,
        spans_of_reads gap (splits.reads (follows_rendered rest)), ih _ splits.shorter rest rfl]

theorem spans_normalize (sql : List Char) : spans (normalize sql) = unled (readings sql) := by
  rcases splits_or_trivia sql with ⟨none, -, nothing⟩ | ⟨gap, kind, word, rest, splits⟩
  · rw [nothing, none]
    rfl
  · have first := spans_of_reads false (splits.reads (follows_rendered rest))
    rw [spans_rendered] at first
    rw [splits.normalized, splits.readings]
    exact first.trans rfl

theorem fold_fold (kind : TokenKind) (word : List Char) :
    kind.fold (kind.fold word) = kind.fold word := by
  cases kind with
  | word => exact toAsciiLowercase_idem word
  | quoted | semicolon | punct => rfl

theorem folded_readingOf (lexeme : Lexeme) : (readingOf lexeme).folded = readingOf lexeme :=
  congrArg (Reading.mk _ _) (fold_fold _ _)

theorem readings_normalize (sql : List Char) :
    readings (normalize sql) = unled (readings sql) := by
  rw [← map_folded_spans, spans_normalize]
  unfold readings
  cases lex sql with
  | nil => rfl
  | cons lexeme later =>
    have rest : (later.map readingOf).map Reading.folded = later.map readingOf := by
      rw [map_map]
      exact map_congr_left fun lexeme _ => folded_readingOf lexeme
    exact congrArg₂ cons (congrArg (Reading.mk _ _) (fold_fold _ _)) rest

theorem unled_unled (readings : List Reading) : unled (unled readings) = unled readings := by
  cases readings <;> rfl

/-- Two statements with one form have the same tokens, with trivia in the same places. -/
theorem readings_of_normalize_eq {one two : List Char} (same : normalize one = normalize two) :
    unled (readings one) = unled (readings two) := by
  rw [← readings_normalize one, same, readings_normalize two]

/-- Tokens set next to each other, with one space in every gap but the leading one. -/
def joined (first : Bool) : List Reading → List Char
  | [] => []
  | reading :: later =>
    (if reading.gap && !first then [' '] else []) ++ (reading.text ++ joined false later)

theorem normalizeFrom_eq (first : Bool) (lexemes : List Lexeme) :
    normalizeFrom first lexemes = joined first (lexemes.map readingOf) := by
  induction lexemes generalizing first with
  | nil => rfl
  | cons lexeme later ih => rw [normalizeFrom, ih, map_cons, joined, readingOf]

theorem normalize_eq (sql : List Char) : normalize sql = joined true (unled (readings sql)) := by
  rw [normalize, normalizeFrom_eq, readings]
  cases (lex sql).map readingOf with
  | nil => rfl
  | cons reading later => rw [unled, joined, joined, Bool.not_true, Bool.and_false, Bool.and_false]

/-- The form has the tokens of the statement, folded, with a space wherever trivia stood
between two of them, and nothing else.  It is its own form, and it tells two statements
apart exactly when their tokens or their gaps differ. -/
theorem normalization_faithful (one two : List Char) :
    spans (normalize one) = unled ((spans one).map Reading.folded) ∧
      normalize one = joined true (spans (normalize one)) ∧
      normalize (normalize one) = normalize one ∧
      (normalize one = normalize two ↔
        unled ((spans one).map Reading.folded) = unled ((spans two).map Reading.folded)) := by
  rw [map_folded_spans, map_folded_spans, spans_normalize]
  refine ⟨rfl, normalize_eq one, ?_, readings_of_normalize_eq, fun same => ?_⟩
  · rw [normalize_eq (normalize one), readings_normalize, unled_unled, ← normalize_eq]
  · rw [normalize_eq, same, ← normalize_eq]

end Pgprox.Cache
