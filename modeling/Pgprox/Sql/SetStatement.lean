/-
A `SET` as the server's lexical rules read it.

A text is read with a semicolon on a line of its own behind it: it is one statement when
that semicolon is seen, and no other is.  A name is read with its letters in lower case, and
no more than sixty-three bytes of each of its parts.
-/

import Pgprox.Sql.Cuts

namespace Pgprox.Sql.Reference

open List

def lexemesFrom (standard : Bool) (tail : Tail) (text : List Char) : List (Kind × List Char) :=
  ((readWithin standard text.length tail text).filter fun piece => !piece.kind.isTrivia).map
    fun piece => (piece.kind, piece.text)

def lexemes (standard : Bool) (text : List Char) : List (Kind × List Char) :=
  lexemesFrom standard .none text

def terminator : List Char := ['\n', ';']

/-! ### One parameter and its value -/

def clip (budget : Nat) : List Char → List Char
  | [] => []
  | c :: rest => if c.utf8Size ≤ budget then c :: clip (budget - c.utf8Size) rest else []

def identifierBytes : Nat := 63

def foldIdentifier (word : List Char) : List Char :=
  clip identifierBytes (toAsciiLowercase word)

def dotted (parts : List (List Char)) : List (Kind × List Char) :=
  (parts.map fun part => (Kind.identifier, part)).intersperse (.symbol, ['.'])

def parameterName (parts : List (List Char)) : List Char :=
  ['.'].intercalate (parts.map foldIdentifier)

/-- Tokens of one statement.  If they begin with a constant they are that constant, and it
is all that was written. -/
structure Enclosed (written : List Char) (value : List (Kind × List Char)) : Prop where
  some : value ≠ []
  single : ∀ token ∈ value, token.1 ≠ .semicolon
  whole : ∀ constant more, value = (.constant, constant) :: more → more = [] ∧ constant = written

def OneValue (standard : Bool) (text : List Char) : Prop :=
  ∃ value, lexemes standard (text ++ terminator) = value ++ [(.semicolon, [';'])] ∧
    Enclosed text value

def setText (name value : List Char) : List Char :=
  "SET ".toList ++ name ++ " = ".toList ++ value

def SetsOne (standard : Bool) (text name : List Char) : Prop :=
  ∃ parts value written,
    lexemes standard (text ++ terminator) =
      (.identifier, "SET".toList) :: (dotted parts ++ (.symbol, ['=']) :: value ++
        [(.semicolon, [';'])]) ∧
    parts ≠ [] ∧ parameterName parts = name ∧ text = setText name written ∧
    Enclosed written value

def IsWord : List Char → Bool
  | [] => false
  | first :: more => isIdentStart first && more.all isIdentCont

/-- A name that can be written as it is: words between dots, which folding leaves alone. -/
def PlainName (name : List Char) : Prop :=
  ∀ part ∈ name.splitOn '.', IsWord part = true ∧ foldIdentifier part = part

instance (name : List Char) : Decidable (PlainName name) :=
  inferInstanceAs (Decidable (∀ part ∈ name.splitOn '.', _ ∧ _))

/-! ### Reading token by token -/

section Tokens

variable {standard : Bool} {tail : Tail}

theorem readWithin_eq {fuel other : Nat} {text : List Char} (enough : text.length ≤ fuel)
    (plenty : text.length ≤ other) :
    readWithin standard fuel tail text = readWithin standard other tail text := by
  induction fuel generalizing other tail text with
  | zero =>
    rw [length_eq_zero_iff.1 (Nat.le_zero.1 enough)]
    cases other <;> rfl
  | succ fuel ih =>
    cases text with
    | nil => cases other <;> rfl
    | cons first after =>
      cases other with
      | zero => cases plenty
      | succ other =>
        have shorter := pieceAt_length_le standard tail first after
        simp only [readWithin]
        rw [ih (shorter.trans (Nat.le_of_succ_le_succ enough))
          (shorter.trans (Nat.le_of_succ_le_succ plenty))]

variable {rest : List Char}

theorem lexemesFrom_cons {first : Char} {after : List Char} {kind : Kind} {later : Tail}
    (cut : pieceAt standard tail first after = (kind, rest, later)) :
    lexemesFrom standard tail (first :: after) =
      (if kind.isTrivia then [] else [(kind, Piece.text ⟨kind, first :: after, rest⟩)]) ++
        lexemesFrom standard later rest := by
  have shorter : rest.length ≤ after.length := by
    simpa only [cut] using pieceAt_length_le standard tail first after
  unfold lexemesFrom
  rw [length_cons]
  simp only [readWithin, cut]
  rw [readWithin_eq shorter le_rfl]
  cases blank : kind.isTrivia <;> simp [blank]

theorem Piece.text_append (kind : Kind) (word rest : List Char) :
    Piece.text ⟨kind, word ++ rest, rest⟩ = word := by
  simp [Piece.text]

theorem lexemesFrom_space {c : Char} (space : isSpace c = true) (rest : List Char) :
    lexemesFrom standard tail (c :: rest) = lexemesFrom standard (tail.space c) rest := by
  have cut : pieceAt standard tail c rest = (.space, rest, tail.space c) := by
    rw [pieceAt, if_pos space]
  rw [lexemesFrom_cons cut]
  rfl

theorem lexemesFrom_terminator : lexemesFrom standard .none terminator = [(.semicolon, [';'])] := by
  cases standard <;> decide +kernel

theorem isIdentStart_of_isDigit {c : Char} (digit : c.isDigit = true) :
    isIdentStart c = false := by
  have ascii := isAscii_of_isDigit digit
  simp only [Char.isDigit, Bool.and_eq_true, decide_eq_true_eq, UInt32.le_iff_toNat_le] at digit
  have high : '9'.val.toNat = 57 := rfl
  have letter : c.isAlpha = false := by
    simp only [Char.isAlpha, Char.isUpper, Char.isLower, Bool.or_eq_false_iff,
      Bool.and_eq_false_iff, decide_eq_false_iff_not, UInt32.le_iff_toNat_le]
    have : 'A'.val.toNat = 65 := rfl
    have : 'a'.val.toNat = 97 := rfl
    omega
  have underscore : c ≠ '_' := by
    rintro rfl
    have : '_'.val.toNat = 95 := rfl
    omega
  simp [isIdentStart, ascii, letter, underscore]

theorem isSpace_of_isIdentStart {c : Char} (starts : isIdentStart c = true) :
    isSpace c = false := by
  by_contra space
  simp only [isSpace, Bool.not_eq_false, Bool.or_eq_true, decide_eq_true_eq, or_assoc] at space
  rcases space with rfl | rfl | rfl | rfl | rfl | rfl <;> exact absurd starts (by decide)

theorem pieceAt_word {first : Char} {after : List Char} (starts : isIdentStart first = true)
    (plain : ∀ c ∈ after.head?, c ≠ '\'' ∧ c ≠ '&') :
    pieceAt standard tail first after = (.identifier, after.dropWhile isIdentCont, .none) := by
  have cut := pieceAt_cut standard tail first after
  have quoted : startsWith after "'" ≠ true := by
    intro opens
    obtain ⟨rest, rfl⟩ := exists_of_startsWith opens
    exact (plain '\'' rfl).1 rfl
  have ampersand (more : String) (shape : more.toList.head? = some '&') :
      startsWith after more ≠ true := by
    intro opens
    obtain ⟨rest, rfl⟩ := exists_of_startsWith opens
    refine (plain '&' ?_).2 rfl
    rw [head?_append, shape]
    rfl
  generalize pieceAt standard tail first after = piece at cut
  cases cut with
  | identifier => rfl
  | space space => rw [isSpace_of_isIdentStart starts] at space; cases space
  | lineComment dash => subst dash; exact absurd starts (by decide)
  | blockComment slash => subst slash; exact absurd starts (by decide)
  | semicolon same | continued same | plainString same | quotedIdent same | dollarQuote same
  | dollar same => subst same; exact absurd starts (by decide)
  | escapeString letter opens | bitString letter opens => exact absurd opens quoted
  | unicodeString letter opens => exact absurd opens (ampersand "&'" rfl)
  | unicodeIdent letter opens => exact absurd opens (ampersand "&\"" rfl)
  | number digit => rw [isIdentStart_of_isDigit digit] at starts; cases starts
  | symbol visible dash slash plain letter => rw [letter] at starts; cases starts

def Ends (rest : List Char) : Prop :=
  ∀ c ∈ rest.head?, isIdentCont c = false ∧ c ≠ '\'' ∧ c ≠ '&'

variable {word : List Char}

section

variable {p : Char → Bool} (all : word.all p = true) (ends : ∀ c ∈ rest.head?, p c = false)
include all ends

theorem dropWhile_append_of_ends : (word ++ rest).dropWhile p = rest := by
  rw [dropWhile_append_of_pos (all_eq_true.1 all)]
  cases rest with
  | nil => rfl
  | cons c later => exact dropWhile_cons_of_neg (by simp [ends c rfl])

theorem takeWhile_append_of_ends : (word ++ rest).takeWhile p = word := by
  rw [takeWhile_append_of_pos (all_eq_true.1 all)]
  cases rest with
  | nil => exact append_nil word
  | cons c later =>
    rw [takeWhile_cons_of_neg (by simp [ends c rfl]), append_nil]

end

theorem lexemesFrom_word (isWord : IsWord word = true) (ends : Ends rest) :
    lexemesFrom standard tail (word ++ rest) =
      (.identifier, word) :: lexemesFrom standard .none rest := by
  cases word with
  | nil => cases isWord
  | cons first more =>
    obtain ⟨starts, cont⟩ := Bool.and_eq_true_iff.1 isWord
    have left : (more ++ rest).dropWhile isIdentCont = rest :=
      dropWhile_append_of_ends cont fun c head => (ends c head).1
    have plain : ∀ c ∈ (more ++ rest).head?, c ≠ '\'' ∧ c ≠ '&' := by
      cases more with
      | nil => exact fun c head => (ends c head).2
      | cons d _ =>
        intro c head
        cases head
        have within : isIdentCont d = true := (Bool.and_eq_true_iff.1 cont).1
        constructor <;> rintro rfl <;> exact absurd within (by decide)
    have cut : pieceAt standard tail first (more ++ rest) = _ := pieceAt_word starts plain
    rw [left] at cut
    rw [cons_append, lexemesFrom_cons cut, ← cons_append, Piece.text_append]
    rfl

theorem lexemesFrom_symbol {c : Char} (sign : c = '.' ∨ c = '=') (rest : List Char) :
    lexemesFrom standard .none (c :: rest) =
      (.symbol, [c]) :: lexemesFrom standard .none rest := by
  have cut : pieceAt standard .none c rest = (.symbol, rest, .none) := by
    rcases sign with rfl | rfl <;> simp [pieceAt, isSpace, isIdentStart, isAscii]
  rw [lexemesFrom_cons cut]
  exact congrArg (fun text => (Kind.symbol, text) :: _) (Piece.text_append .symbol [c] rest)

theorem lexemesFrom_dotted {parts : List (List Char)} (words : ∀ part ∈ parts, IsWord part = true)
    (some : parts ≠ []) (ends : Ends rest) :
    lexemesFrom standard .none (['.'].intercalate parts ++ rest) =
      dotted parts ++ lexemesFrom standard .none rest := by
  induction parts with
  | nil => exact absurd rfl some
  | cons part later ih =>
    cases later with
    | nil =>
      rw [intercalate_singleton, lexemesFrom_word (words part mem_cons_self) ends]
      rfl
    | cons second more =>
      have dot : Ends ('.' :: (['.'].intercalate (second :: more) ++ rest)) := by
        rintro c ⟨⟩
        decide
      rw [intercalate_cons_cons, append_assoc, append_assoc,
        singleton_append, lexemesFrom_word (words part mem_cons_self) dot,
        lexemesFrom_symbol (.inl rfl),
        ih (fun part among => words part (mem_cons_of_mem _ among)) nofun]
      rfl

theorem isWord_of_identifier {text : List Char} {size : Nat} (short : text.length ≤ size)
    (read : (.identifier, word) ∈ lexemesFrom standard tail text) : IsWord word = true := by
  induction size generalizing tail text with
  | zero =>
    rw [length_eq_zero_iff.1 (Nat.le_zero.1 short)] at read
    cases read
  | succ size ih =>
    cases text with
    | nil => cases read
    | cons first after =>
      have shorter := pieceAt_length_le standard tail first after
      have cut := pieceAt_cut standard tail first after
      rcases taken : pieceAt standard tail first after with ⟨kind, rest, behind⟩
      rw [taken] at shorter cut
      rw [lexemesFrom_cons taken] at read
      rcases mem_append.1 read with here | later
      · cases cut with
        | identifier starts =>
          obtain ⟨-, rfl⟩ := Prod.mk.inj (mem_singleton.1 here)
          rw [identifier_text]
          simp only [IsWord, starts]
          exact all_eq_true.2 fun c among => mem_takeWhile_imp among
        | _ => simp [Kind.isTrivia] at here
      · exact ih (shorter.trans (Nat.le_of_succ_le_succ short)) later

end Tokens

/-! ### Names -/

section Names

theorem clip_clip (budget : Nat) (word : List Char) :
    clip budget (clip budget word) = clip budget word := by
  fun_induction clip budget word with
  | case1 => rfl
  | case2 budget c rest fits ih => rw [clip, if_pos fits, ih]
  | case3 => rfl

theorem clip_isPrefix (budget : Nat) (word : List Char) : clip budget word <+: word := by
  fun_induction clip budget word with
  | case1 => exact prefix_refl _
  | case2 budget c rest fits ih => exact cons_prefix_cons.2 ⟨rfl, ih⟩
  | case3 => exact nil_prefix

theorem isIdentCont_toLower (c : Char) : isIdentCont c.toLower = isIdentCont c := by
  rcases toLower_cases c with same | ⟨upper, lower⟩
  · rw [same]
  · have before : isIdentStart c = true := by simp [isIdentStart, Char.isAlpha, upper]
    have after : isIdentStart c.toLower = true := by rw [isIdentStart_toLower, before]
    simp only [isIdentCont, before, after, Bool.true_or]

theorem isWord_foldIdentifier {word : List Char} (isWord : IsWord word = true) :
    IsWord (foldIdentifier word) = true := by
  cases word with
  | nil => cases isWord
  | cons first more =>
    obtain ⟨starts, cont⟩ := Bool.and_eq_true_iff.1 isWord
    have room : first.toLower.utf8Size ≤ identifierBytes :=
      Nat.le_trans first.toLower.utf8Size_le_four (by decide)
    have shape : foldIdentifier (first :: more) = first.toLower ::
        clip (identifierBytes - first.toLower.utf8Size) (toAsciiLowercase more) := by
      change clip identifierBytes (first.toLower :: toAsciiLowercase more) = _
      rw [clip, if_pos room]
    rw [shape, IsWord, isIdentStart_toLower, starts]
    refine all_eq_true.2 fun c among => ?_
    obtain ⟨d, member, rfl⟩ := mem_map.1 ((clip_isPrefix _ _).subset among)
    rw [isIdentCont_toLower]
    exact all_eq_true.1 cont d member

theorem foldIdentifier_idem (word : List Char) :
    foldIdentifier (foldIdentifier word) = foldIdentifier word := by
  have lower : toAsciiLowercase (foldIdentifier word) = foldIdentifier word := by
    refine (map_congr_left fun c among => ?_).trans (map_id _)
    obtain ⟨d, -, rfl⟩ := mem_map.1 ((clip_isPrefix _ _).subset among)
    exact toLower_toLower d
  rw [foldIdentifier, lower, foldIdentifier, clip_clip]

theorem dot_notMem_of_isWord {word : List Char} (isWord : IsWord word = true) : '.' ∉ word := by
  cases word with
  | nil => cases isWord
  | cons first more =>
    obtain ⟨starts, cont⟩ := Bool.and_eq_true_iff.1 isWord
    intro dot
    rcases mem_cons.1 dot with rfl | member
    · exact absurd starts (by decide)
    · exact absurd (all_eq_true.1 cont '.' member) (by decide)

/-- The name that words between dots stand for can be written as it is. -/
theorem plainName_parameterName {parts : List (List Char)}
    (words : ∀ part ∈ parts, IsWord part = true) (some : parts ≠ []) :
    PlainName (parameterName parts) := by
  have folded : ∀ part ∈ parts.map foldIdentifier, IsWord part = true := by
    intro part among
    obtain ⟨word, member, rfl⟩ := mem_map.1 among
    exact isWord_foldIdentifier (words word member)
  have split : (parameterName parts).splitOn '.' = parts.map foldIdentifier :=
    splitOn_intercalate '.' (fun part among => dot_notMem_of_isWord (folded part among))
      (by simpa using some)
  intro part among
  rw [split] at among
  refine ⟨folded part among, ?_⟩
  obtain ⟨word, -, rfl⟩ := mem_map.1 among
  exact foldIdentifier_idem word

theorem parameterName_of_plainName {name : List Char} (plain : PlainName name) :
    parameterName (name.splitOn '.') = name := by
  have same : (name.splitOn '.').map foldIdentifier = name.splitOn '.' :=
    (map_congr_left fun part among => (plain part among).2).trans (map_id _)
  rw [parameterName, same, intercalate_splitOn]

theorem splitOn_ne_nil (name : List Char) : name.splitOn '.' ≠ [] := by
  simp [List.splitOn]

/-! ### A `SET` of a plain name -/

variable {standard : Bool}

theorem lexemes_setText {name : List Char} (plain : PlainName name) (value : List Char) :
    lexemes standard (setText name value) =
      (.identifier, "SET".toList) ::
        (dotted (name.splitOn '.') ++ (.symbol, ['=']) :: lexemes standard value) := by
  have ends (rest : List Char) : Ends (' ' :: rest) := by
    rintro c ⟨⟩
    decide
  have text : setText name value = "SET".toList ++ ' ' ::
      (['.'].intercalate (name.splitOn '.') ++ ' ' :: '=' :: ' ' :: value) := by
    simp [setText]
  have space (rest : List Char) :
      lexemesFrom standard .none (' ' :: rest) = lexemesFrom standard .none rest :=
    lexemesFrom_space rfl rest
  rw [lexemes, text, lexemesFrom_word (by decide) (ends _), space,
    lexemesFrom_dotted (fun part among => (plain part among).1) (splitOn_ne_nil name) (ends _),
    space, lexemesFrom_symbol (.inr rfl), space, lexemes]

theorem equals_notMem_dotted (parts : List (List Char)) : (.symbol, ['=']) ∉ dotted parts := by
  induction parts with
  | nil => exact not_mem_nil
  | cons part later ih =>
    cases later with
    | nil => simp [dotted]
    | cons second more =>
      have shape : dotted (part :: second :: more) =
          (.identifier, part) :: (.symbol, ['.']) :: dotted (second :: more) := rfl
      rw [shape, mem_cons, mem_cons]
      rintro (word | dot | member)
      · exact absurd (congrArg Prod.fst word) nofun
      · exact absurd dot (by decide)
      · exact ih member

theorem identifier_of_mem_dotted {parts : List (List Char)} {part : List Char}
    (among : part ∈ parts) : (.identifier, part) ∈ dotted parts := by
  induction parts with
  | nil => cases among
  | cons first later ih =>
    cases later with
    | nil =>
      cases mem_singleton.1 among
      exact mem_singleton_self _
    | cons second more =>
      rcases mem_cons.1 among with rfl | behind
      · exact mem_cons_self
      · exact mem_cons_of_mem _ (mem_cons_of_mem _ (ih behind))

theorem behind_equals {earlier one two : List (Kind × List Char)}
    {before : List (Kind × List Char)} (first : (.symbol, ['=']) ∉ earlier)
    (only : (.symbol, ['=']) ∉ before)
    (same : earlier ++ (.symbol, ['=']) :: one = before ++ (.symbol, ['=']) :: two) :
    one = two := by
  have drops {list rest : List (Kind × List Char)} (none : (.symbol, ['=']) ∉ list) :
      (list ++ (.symbol, ['=']) :: rest).dropWhile (· ≠ (.symbol, ['='])) =
        (.symbol, ['=']) :: rest := by
    rw [dropWhile_append_of_pos, dropWhile_cons_of_neg (by simp)]
    intro token among
    exact decide_eq_true fun same => none (same ▸ among)
  have tails := congrArg (List.dropWhile (· ≠ (Kind.symbol, ['=']))) same
  rw [drops first, drops only] at tails
  exact (List.cons.inj tails).2

/-- A `SET` is one statement about the parameter it was written for exactly when the name
is plain and the value is one. -/
theorem setsOne_setText_iff (name value : List Char) :
    SetsOne standard (setText name value) name ↔ PlainName name ∧ OneValue standard value := by
  have whole : setText name value ++ terminator = setText name (value ++ terminator) := by
    simp [setText]
  unfold SetsOne
  rw [whole]
  constructor
  · rintro ⟨parts, tokens, written, read, some, named, same, enclosed⟩
    obtain rfl : value = written := append_cancel_left same
    have words : ∀ part ∈ parts, IsWord part = true := by
      intro part among
      have seen : (.identifier, part) ∈
          lexemes standard (setText name (value ++ terminator)) := by
        rw [read]
        exact mem_cons_of_mem _ (mem_append_left _ (mem_append_left _
          (identifier_of_mem_dotted among)))
      exact isWord_of_identifier le_rfl seen
    have plain : PlainName name := named ▸ plainName_parameterName words some
    refine ⟨plain, tokens, ?_, enclosed⟩
    rw [lexemes_setText plain, append_assoc] at read
    exact behind_equals (equals_notMem_dotted _) (equals_notMem_dotted _) (List.cons.inj read).2
  · rintro ⟨plain, tokens, read, enclosed⟩
    refine ⟨name.splitOn '.', tokens, value, ?_, splitOn_ne_nil name,
      parameterName_of_plainName plain, rfl, enclosed⟩
    rw [lexemes_setText plain, read, append_assoc, cons_append]

end Names

/-! ### Values -/

section Values

variable {standard : Bool}

theorem isBareChar_ne {c other : Char} (bare : isBareChar c = true)
    (differs : isBareChar other = false) : c ≠ other := by
  rintro rfl
  rw [bare] at differs
  cases differs

theorem isSpace_of_isBareChar {c : Char} (bare : isBareChar c = true) : isSpace c = false := by
  by_contra space
  simp only [isSpace, Bool.not_eq_false, Bool.or_eq_true, decide_eq_true_eq, or_assoc] at space
  rcases space with rfl | rfl | rfl | rfl | rfl | rfl <;> exact absurd bare (by decide)

theorem dropWhile_bare {p : Char → Bool} (newline : p '\n' = false) (text : List Char) :
    (text ++ terminator).dropWhile p = text.dropWhile p ++ terminator := by
  rw [dropWhile_append]
  split
  · rename_i all
    rw [List.isEmpty_iff.1 all]
    exact dropWhile_cons_of_neg (by simp [newline])
  · rfl

theorem startsWith_bare {text : List Char} (bare : text.all isBareChar = true) {start : String}
    {c : Char} (head : start.toList.head? = some c) (differs : isBareChar c = false)
    (visible : c ≠ '\n') : startsWith (text ++ terminator) start ≠ true := by
  intro starts
  obtain ⟨rest, whole⟩ := exists_of_startsWith starts
  have first := congrArg List.head? whole
  rw [head?_append, head?_append, head] at first
  cases text with
  | nil => exact visible (Option.some.inj first).symm
  | cons d more =>
    exact isBareChar_ne (Bool.and_eq_true_iff.1 bare).1 differs (Option.some.inj first)

theorem dashes_of_startsWith {after : List Char}
    (opens : startsWith (after ++ terminator) "-" = true) : "--".toList <+: '-' :: after := by
  cases after with
  | nil => exact absurd opens (by decide)
  | cons c more =>
    obtain ⟨rest, whole⟩ := exists_of_startsWith opens
    obtain ⟨rfl, -⟩ := List.cons.inj whole
    exact ⟨more, rfl⟩

theorem startsWith_of_dashes {first : Char} {after : List Char}
    (dashes : "--".toList <+: first :: after) :
    first = '-' ∧ startsWith (after ++ terminator) "-" = true := by
  obtain ⟨rest, whole⟩ := dashes
  cases whole
  exact ⟨rfl, rfl⟩

/-- What a bare text begins with: a comment, or a token with more of the text behind it. -/
theorem pieceAt_bare (standard : Bool) {first : Char} {after : List Char}
    (bare : (first :: after).all isBareChar = true) :
    ("--".toList <+: first :: after ∧
      pieceAt standard .none first (after ++ terminator) = (.lineComment, terminator, .none)) ∨
    (¬ "--".toList <+: first :: after ∧ ∃ kind rest, kind.isTrivia = false ∧
      (kind ≠ .semicolon ∧ kind ≠ .constant) ∧ rest <:+ after ∧
      pieceAt standard .none first (after ++ terminator) = (kind, rest ++ terminator, .none)) := by
  obtain ⟨here, later⟩ := Bool.and_eq_true_iff.1 bare
  have cut := pieceAt_cut standard .none first (after ++ terminator)
  have quoted : startsWith (after ++ terminator) "'" ≠ true :=
    startsWith_bare later rfl rfl (by decide)
  generalize pieceAt standard .none first (after ++ terminator) = piece at cut ⊢
  cases cut with
  | space space => rw [isSpace_of_isBareChar here] at space; cases space
  | lineComment dash opens =>
    subst dash
    have all : after.all (fun c => !isNewline c) = true := by
      refine all_eq_true.2 fun c among => ?_
      have bare := all_eq_true.1 later c among
      have newline : c ≠ '\n' := isBareChar_ne bare rfl
      have carriage : c ≠ '\r' := isBareChar_ne bare rfl
      simp [isNewline, newline, carriage]
    have left : afterLineComment (after ++ terminator) = terminator := by
      refine dropWhile_append_of_ends all ?_
      rintro c ⟨⟩
      rfl
    exact .inl ⟨dashes_of_startsWith opens, by rw [left]⟩
  | blockComment same => exact absurd same (isBareChar_ne here rfl)
  | semicolon same | continued same | plainString same | quotedIdent same | dollarQuote same
  | dollar same => exact absurd same (isBareChar_ne here rfl)
  | escapeString letter opens | bitString letter opens => exact absurd opens quoted
  | unicodeString letter opens => exact absurd opens (startsWith_bare later rfl rfl (by decide))
  | unicodeIdent letter opens => exact absurd opens (startsWith_bare later rfl rfl (by decide))
  | identifier starts =>
    refine .inr ⟨fun dashes => ?_, .identifier, after.dropWhile isIdentCont, rfl, by decide,
      dropWhile_suffix _, by rw [dropWhile_bare rfl]⟩
    rw [(startsWith_of_dashes dashes).1] at starts
    exact absurd starts (by decide)
  | number digit =>
    refine .inr ⟨fun dashes => ?_, .number, after.dropWhile isTagCont, rfl, by decide,
      dropWhile_suffix _, by rw [dropWhile_bare rfl]⟩
    rw [(startsWith_of_dashes dashes).1] at digit
    exact absurd digit (by decide)
  | symbol visible dash slash plain letter =>
    exact .inr ⟨fun dashes => dash (startsWith_of_dashes dashes), .symbol, after, rfl,
      by decide, suffix_refl _, rfl⟩

/-- A bare text has no semicolon, and it has a token unless it is empty or a comment. -/
theorem lexemes_bare (standard : Bool) {size : Nat} {text : List Char} (short : text.length ≤ size)
    (bare : text.all isBareChar = true) :
    ∃ value, lexemes standard (text ++ terminator) = value ++ [(.semicolon, [';'])] ∧
      (∀ token ∈ value, token.1 ≠ .semicolon ∧ token.1 ≠ .constant) ∧
      (value = [] ↔ text = [] ∨ "--".toList <+: text) := by
  induction size generalizing text with
  | zero =>
    rw [length_eq_zero_iff.1 (Nat.le_zero.1 short)]
    exact ⟨[], lexemesFrom_terminator, nofun, by simp⟩
  | succ size ih =>
    cases text with
    | nil => exact ⟨[], lexemesFrom_terminator, nofun, by simp⟩
    | cons first after =>
      rw [lexemes, cons_append]
      rcases pieceAt_bare standard bare with
        ⟨dashes, cut⟩ | ⟨plain, kind, rest, visible, other, suffix, cut⟩
      · refine ⟨[], ?_, nofun, fun _ => .inr dashes, fun _ => rfl⟩
        rw [lexemesFrom_cons cut]
        rfl
      · have fits : rest.length ≤ size :=
          Nat.le_trans suffix.length_le (Nat.le_of_succ_le_succ short)
        have tame : rest.all isBareChar = true :=
          all_eq_true.2 fun c among => all_eq_true.1 bare c
            (mem_cons_of_mem _ (suffix.subset among))
        obtain ⟨value, read, none, -⟩ := ih fits tame
        rw [lexemesFrom_cons cut, visible]
        refine ⟨(kind, _) :: value, congrArg _ read, ?_, nofun, fun either => ?_⟩
        · rintro token (⟨⟩ | ⟨_, among⟩)
          · exact other
          · exact none token among
        · exact either.elim nofun fun dashes => absurd dashes plain

theorem oneValue_bare_iff {text : List Char} (bare : text.all isBareChar = true)
    (filled : text ≠ []) : OneValue standard text ↔ ¬ "--".toList <+: text := by
  obtain ⟨value, read, none, empty⟩ := lexemes_bare standard le_rfl bare
  constructor
  · rintro ⟨other, same, enclosed⟩ dashes
    rw [read, empty.2 (.inr dashes)] at same
    exact enclosed.some (append_cancel_right same).symm
  · intro plain
    refine ⟨value, read, fun nil => (empty.1 nil).elim filled plain,
      fun token among => (none token among).1, ?_⟩
    rintro constant more rfl
    exact absurd rfl (none _ mem_cons_self).2

def doubled (value : List Char) : List Char :=
  value.flatMap fun c => if c = '\'' then ['\'', '\''] else [c]

/-- No quote is taken by a backslash before it, and no backslash is left over at the end:
every run of backslashes in front of a quote, and the one at the end, is of even length. -/
def Balanced : List Char → Bool
  | [] => true
  | '\\' :: [] => false
  | '\\' :: c :: rest => c ≠ '\'' && Balanced rest
  | _ :: rest => Balanced rest

theorem balanced_of_notMem {value : List Char} (none : '\\' ∉ value) : Balanced value = true := by
  fun_induction Balanced value with
  | case1 => rfl
  | case2 => simp at none
  | case3 => simp at none
  | case4 c rest _ _ ih => exact ih fun among => none (mem_cons_of_mem _ among)

theorem doubled_cons {c : Char} (other : c ≠ '\'') (rest : List Char) :
    doubled (c :: rest) = c :: doubled rest := by
  simp [doubled, other]

theorem afterQuote_other {c : Char} {escapes : Bool} (other : c ≠ '\'')
    (plain : escapes = false ∨ c ≠ '\\') (rest : List Char) :
    afterQuote '\'' escapes (c :: rest) = afterQuote '\'' escapes rest := by
  have taken : ¬ (c = '\\' ∧ escapes = true) := by
    rintro ⟨rfl, rfl⟩
    simp at plain
  rw [afterQuote.eq_def]
  dsimp only
  rw [if_neg other, if_neg taken]

theorem afterString_closes {escapes : Bool} {rest : List Char}
    (closes : rest.head? ≠ some '\'') : afterString escapes ('\'' :: rest) = rest := by
  unfold afterString
  cases rest with
  | nil => rfl
  | cons c later =>
    have other : c ≠ '\'' := fun same => closes (congrArg some same)
    rw [afterQuote.eq_def]
    simp [other]

/-- A quoted text is closed by its last quote, where a backslash is a character like any
other or the text is balanced. -/
theorem afterString_doubled {escapes : Bool} {value rest : List Char}
    (plain : escapes = false ∨ Balanced value = true) (closes : rest.head? ≠ some '\'') :
    afterString escapes (doubled value ++ '\'' :: rest) = rest := by
  have step {c : Char} {more : List Char}
      (ih : afterQuote '\'' escapes (doubled more ++ '\'' :: rest) = rest)
      (visible : c = '\'' ∨ escapes = false ∨ c ≠ '\\') :
      afterQuote '\'' escapes (doubled (c :: more) ++ '\'' :: rest) = rest := by
    by_cases quote : c = '\''
    · subst quote
      exact ih
    · rw [doubled_cons quote, cons_append,
        afterQuote_other quote (visible.resolve_left quote)]
      exact ih
  cases escapes with
  | false =>
    induction value with
    | nil => exact afterString_closes closes
    | cons c more ih => exact step (ih (.inl rfl)) (.inr (.inl rfl))
  | true =>
    replace plain := plain.resolve_left nofun
    fun_induction Balanced value with
    | case1 => exact afterString_closes closes
    | case2 => cases plain
    | case3 c more ih =>
      obtain ⟨other, tame⟩ := Bool.and_eq_true_iff.1 plain
      rw [doubled_cons (by decide), doubled_cons (of_decide_eq_true other)]
      exact ih tame
    | case4 c more alone single ih =>
      refine step (ih plain) (.inr (.inr ?_))
      rintro rfl
      cases more with
      | nil => exact alone rfl rfl
      | cons d later => exact single d later rfl rfl

theorem afterString_misplaced (value : List Char) :
    (afterString true ('\'' :: (doubled value ++ '\'' :: terminator))).length ≠ 2 := by
  induction value with
  | nil => decide +kernel
  | cons c more ih =>
    by_cases quote : c = '\''
    · subst quote
      exact ih
    · rw [doubled_cons quote, cons_append, afterString_closes (by simpa using quote)]
      simp [terminator]

/-- Where backslashes escape, a text that is not balanced ends too early or not at all. -/
theorem afterString_unbalanced {value : List Char} (ends : Balanced value = false) :
    (afterString true (doubled value ++ '\'' :: terminator)).length ≠ 2 := by
  fun_induction Balanced value with
  | case1 => cases ends
  | case2 => decide +kernel
  | case3 c more ih =>
    by_cases quote : c = '\''
    · subst quote
      exact afterString_misplaced more
    · rw [doubled_cons (by decide), doubled_cons quote]
      exact ih (by simpa [quote] using ends)
  | case4 c more alone single ih =>
    by_cases quote : c = '\''
    · subst quote
      exact ih ends
    · rw [doubled_cons quote, cons_append, afterString, afterQuote_other quote (.inr ?_)]
      · exact ih ends
      · rintro rfl
        cases more with
        | nil => exact alone rfl rfl
        | cons d later => exact single d later rfl rfl

def quotedText (value : List Char) : List Char :=
  '\'' :: (doubled value ++ ['\''])

theorem quotedText_terminator (value : List Char) :
    quotedText value ++ terminator = '\'' :: (doubled value ++ '\'' :: terminator) := by
  simp [quotedText]

theorem pieceAt_quoted (value : List Char) :
    pieceAt standard .none '\'' (doubled value ++ '\'' :: terminator) =
      (.constant, afterString (!standard) (doubled value ++ '\'' :: terminator), .none) := by
  simp [pieceAt, isSpace]

theorem lexemes_quoted {value : List Char} (plain : standard = true ∨ Balanced value = true) :
    lexemes standard (quotedText value ++ terminator) =
      [(.constant, quotedText value), (.semicolon, [';'])] := by
  have cut := @pieceAt_quoted standard value
  rw [afterString_doubled (plain.imp (fun on => by rw [on]; rfl) id) (by decide)] at cut
  have whole := quotedText_terminator value
  rw [lexemes, whole, lexemesFrom_cons cut, ← whole, Piece.text_append]
  rfl

/-- A quoted value is one value exactly when a backslash is a character like any other or the
value is balanced. -/
theorem oneValue_quoted_iff {value : List Char} :
    OneValue standard (quotedText value) ↔ standard = true ∨ Balanced value = true := by
  constructor
  · rintro ⟨tokens, read, enclosed⟩
    by_contra neither
    obtain ⟨off, unbalanced⟩ := not_or.1 neither
    obtain rfl : standard = false := Bool.eq_false_iff.2 off
    rw [lexemes, quotedText_terminator, lexemesFrom_cons (pieceAt_quoted value)] at read
    obtain ⟨token, more, rfl⟩ := exists_cons_of_ne_nil enclosed.some
    obtain ⟨rfl, -⟩ := List.cons.inj read
    obtain ⟨-, same⟩ := enclosed.whole _ _ rfl
    refine afterString_unbalanced (Bool.eq_false_iff.2 unbalanced) ?_
    have short := afterQuote_length_le '\'' true (doubled value ++ '\'' :: terminator)
    have size := congrArg length same
    simp only [Piece.text, length_take, quotedText, terminator, length_cons, length_append,
      length_nil, afterString, Bool.not_false] at size short ⊢
    omega
  · intro plain
    refine ⟨[(.constant, quotedText value)], lexemes_quoted plain, nofun, by simp, ?_⟩
    rintro constant more same
    cases same
    exact ⟨rfl, rfl⟩

theorem lexemes_word {word : List Char} (isWord : IsWord word = true) :
    lexemes standard (word ++ terminator) = [(.identifier, word), (.semicolon, [';'])] := by
  have ends : Ends terminator := by
    rintro c ⟨⟩
    decide
  rw [lexemes, lexemesFrom_word isWord ends, lexemesFrom_terminator]

end Values

end Pgprox.Sql.Reference
