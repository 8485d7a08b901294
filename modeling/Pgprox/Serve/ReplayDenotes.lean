/-
What a replayed `SET` denotes.

A client's `SET` is recorded as one text and written out again later.  The server reads
both: the second is to denote the values of the first.  It does when the text that was
recorded is the one value there was.
-/

import Pgprox.Serve.ReplayConverges
import Pgprox.Sql.SetGrammar

namespace Pgprox.Serve

open Pools Sql Reference SetGrammar
open List hiding lex

/-! ### Spellings -/

/-- The text between one pair of quotes; the text itself when it has none around it. -/
inductive Stripped : Text → Text → Prop
  | quotes {quote : Char} {body : Text} (kind : quote = '\'' ∨ quote = '"') :
      Stripped (quote :: (body ++ [quote])) body
  | plain {text : Text} (bare : ∀ quote body, quote = '\'' ∨ quote = '"' →
      text ≠ quote :: (body ++ [quote])) : Stripped text text

def Hidden (tail : Text) : Prop :=
  tail = [] ∨ "--".toList <+: tail

/-- What the server makes of a text of letters, digits, `_`, `.` and `-`. -/
inductive BareValue : Text → Text → Prop
  | word {word tail : Text} (isWord : IsWord word = true) (hidden : Hidden tail) :
      BareValue (word ++ tail) (toAsciiLowercase word)
  | number {text digits tail : Text} (starts : startsNumber text = true)
      (read : unsigned text = some (digits, tail)) (hidden : Hidden tail) :
      BareValue text (numberText false digits)
  | negative {text digits tail : Text} (starts : startsNumber text = true)
      (read : unsigned text = some (digits, tail)) (hidden : Hidden tail) :
      BareValue ('-' :: text) (numberText true digits)

/-- The right side of a `SET`, as the text is stripped, is the one value of the list when it
is written out again. -/
inductive Spells (side : Text) : List Text → Prop
  | bare {inner value : Text} (stripped : Stripped side inner) (bare : Bare inner)
      (means : BareValue inner value) : Spells side [value]
  | quoted {inner : Text} (stripped : Stripped side inner) (quoted : ¬ Bare inner) :
      Spells side [inner]

theorem surrounded_iff (quote : Char) (text : Text) :
    (2 ≤ text.length ∧ text.head? = some quote ∧ text.getLast? = some quote) ↔
      ∃ body, text = quote :: (body ++ [quote]) := by
  constructor
  · rintro ⟨long, opens, closes⟩
    obtain ⟨rest, rfl⟩ := head?_eq_some_iff.mp opens
    have filled : rest ≠ [] := by
      rintro rfl
      exact absurd long (by simp)
    rw [getLast?_cons_of_ne_nil filled] at closes
    obtain ⟨body, rfl⟩ := getLast?_eq_some_iff.mp closes
    exact ⟨body, rfl⟩
  · rintro ⟨body, rfl⟩
    refine ⟨?_, rfl, ?_⟩
    · rw [length_cons, length_append, length_singleton]
      omega
    · rw [← cons_append]
      exact getLast?_concat

theorem unquote_surrounded {quote : Char} (kind : quote = '\'' ∨ quote = '"') (body : Text) :
    unquote (quote :: (body ++ [quote])) = body := by
  have around := (surrounded_iff quote _).mpr ⟨body, rfl⟩
  have inside : ((quote :: (body ++ [quote])).drop 1).dropLast = body := by
    rw [drop_one, tail_cons, dropLast_concat]
  unfold unquote
  rcases kind with rfl | rfl
  · rw [if_pos around, inside]
  · rw [if_neg fun both => absurd both.2.1 (by simp), if_pos around, inside]

theorem stripped_iff (text inner : Text) : Stripped text inner ↔ inner = unquote text := by
  constructor
  · intro stripped
    cases stripped with
    | quotes kind => exact (unquote_surrounded kind inner).symm
    | plain bare =>
      have none (quote : Char) (kind : quote = '\'' ∨ quote = '"') : ¬ (2 ≤ text.length ∧
          text.head? = some quote ∧ text.getLast? = some quote) := by
        rw [surrounded_iff]
        exact fun ⟨body, same⟩ => bare quote body kind same
      unfold unquote
      rw [if_neg (none _ (.inl rfl)), if_neg (none _ (.inr rfl))]
  · rintro rfl
    by_cases around : ∃ quote body, (quote = '\'' ∨ quote = '"') ∧
        text = quote :: (body ++ [quote])
    · obtain ⟨quote, body, kind, rfl⟩ := around
      rw [unquote_surrounded kind]
      exact .quotes kind
    · have bare : ∀ quote body, quote = '\'' ∨ quote = '"' → text ≠ quote :: (body ++ [quote]) :=
        fun quote body kind same => around ⟨quote, body, kind, same⟩
      have none (quote : Char) (kind : quote = '\'' ∨ quote = '"') : ¬ (2 ≤ text.length ∧
          text.head? = some quote ∧ text.getLast? = some quote) := by
        rw [surrounded_iff]
        exact fun ⟨body, same⟩ => bare quote body kind same
      have same : unquote text = text := by
        unfold unquote
        rw [if_neg (none _ (.inl rfl)), if_neg (none _ (.inr rfl))]
      rw [same]
      exact .plain bare

/-! ### The tokens of what is written out -/

theorem closeQuote_doubled (value : Text) :
    closeQuote '\'' (doubled value ++ ['\'']) = some (value, []) := by
  induction value with
  | nil => rfl
  | cons c rest ih =>
    by_cases quote : c = '\''
    · subst quote
      have shape : doubled ('\'' :: rest) ++ ['\''] =
          '\'' :: '\'' :: (doubled rest ++ ['\'']) := rfl
      rw [shape, closeQuote]
      rw [ih]
      rfl
    · have shape : doubled (c :: rest) ++ ['\''] = c :: (doubled rest ++ ['\'']) := by
        simp [doubled, quote]
      rw [shape, closeQuote.eq_def]
      dsimp only
      rw [if_neg quote, ih]
      rfl

theorem setTokens_quotedText (value : Text) :
    setTokens (quotedText value) = some [.string value] := by
  have taken : tokenHere '\'' (doubled value ++ ['\'']) = some (.string value, []) := by
    unfold tokenHere
    rw [closeQuote_doubled]
    rfl
  unfold quotedText
  rw [setTokens_cons rfl (by simp) (by decide), taken]
  simp [setTokens_nil]

variable {c : Char}

theorem isIdentCont_of_isWordChar (letter : isWordChar c = true) : isIdentCont c = true := by
  rw [isWordChar_eq] at letter
  simp only [isIdentCont, isTagCont, Bool.or_eq_true] at letter ⊢
  exact .inl letter

variable {rest : Text}

theorem setTokens_word {word : Text} (isWord : IsWord word = true)
    (ends : ∀ c ∈ rest.head?, isIdentCont c = false) :
    setTokens (word ++ rest) = (setTokens rest).map (.word word :: ·) := by
  cases word with
  | nil => cases isWord
  | cons first more =>
    obtain ⟨starts, cont⟩ := Bool.and_eq_true_iff.mp isWord
    have other (c : Char) (plain : isIdentStart c = false) : first ≠ c := by
      rintro rfl
      rw [starts] at plain
      cases plain
    have taken : tokenHere first (more ++ rest) = some (.word (first :: more), rest) := by
      unfold tokenHere
      rw [if_pos starts, takeWhile_append_of_ends cont ends, dropWhile_append_of_ends cont ends]
    rw [cons_append, setTokens_cons (isSpace_of_isIdentStart starts)
      (fun both => other '-' (by decide) both.1) (other '/' (by decide)), taken]
    rfl

theorem setTokens_symbol (visible : isSpace c = false) (dash : c ≠ '-') (slash : c ≠ '/')
    (plain : isIdentStart c = false) (other : c.isDigit = false)
    (unquoted : c ≠ '"' ∧ c ≠ '\'' ∧ c ≠ '.') (rest : Text) :
    setTokens (c :: rest) = (setTokens rest).map (.symbol c :: ·) := by
  have taken : tokenHere c rest = some (.symbol c, rest) := by
    unfold tokenHere
    rw [if_neg (by simp [plain]), if_neg (by simp [startsNumber, other, unquoted.2.2]),
      if_neg unquoted.1, if_neg unquoted.2.1]
  rw [setTokens_cons visible (fun both => dash both.1) slash, taken]
  rfl

variable {name : Text}

theorem setTokens_setText (isWord : IsWord name = true) (value : Text) :
    setTokens (setText name value) =
      (setTokens value).map (.word "SET".toList :: .word name :: .symbol '=' :: ·) := by
  have blank (rest : Text) : ∀ c ∈ (' ' :: rest).head?, isIdentCont c = false := by
    rintro c ⟨⟩
    decide
  have shape : setText name value =
      "SET".toList ++ ' ' :: (name ++ ' ' :: '=' :: ' ' :: value) := by
    simp [setText]
  rw [shape, setTokens_word (by decide) (blank _), setTokens_space rfl,
    setTokens_word isWord (blank _), setTokens_space rfl,
    setTokens_symbol rfl (by decide) (by decide) (by decide) (by decide) (by decide),
    setTokens_space rfl, Option.map_map, Option.map_map]
  rfl

theorem setStatement_setText (isWord : IsWord name = true) (value : Text) :
    setStatement (setText name value) =
      ((setTokens value).bind valueList).map fun list => (toAsciiLowercase name, list) := by
  unfold setStatement
  rw [setTokens_setText isWord]
  cases setTokens value with
  | none | some => rfl

theorem setTokens_number (plain : isIdentStart c = false)
    (starts : startsNumber (c :: rest) = true) :
    setTokens (c :: rest) =
      (unsigned (c :: rest)).bind fun (digits, left) =>
        (setTokens left).map (.number digits :: ·) := by
  have sign : c.isDigit = true ∨ c = '.' := by
    simp only [startsNumber, Bool.or_eq_true, Bool.and_eq_true, decide_eq_true_eq] at starts
    exact starts.imp id And.left
  have visible : isSpace c = false ∧ c ≠ '-' ∧ c ≠ '/' := by
    rcases sign with digit | rfl
    · refine ⟨?_, ?_, ?_⟩
      · rw [Bool.eq_false_iff]
        intro space
        simp only [isSpace, Bool.or_eq_true, decide_eq_true_eq, or_assoc] at space
        rcases space with rfl | rfl | rfl | rfl | rfl | rfl <;> cases digit
      · rintro rfl
        cases digit
      · rintro rfl
        cases digit
    · decide
  rw [setTokens_cons visible.1 (fun both => visible.2.1 both.1) visible.2.2]
  unfold tokenHere
  rw [if_neg (by simp [plain]), if_pos starts]
  cases unsigned (c :: rest) with
  | none | some => rfl

theorem isWord_of_head (one : OneWord name) (starts : name.head?.any isIdentStart = true) :
    IsWord name = true := by
  obtain ⟨first, more, rfl⟩ := exists_cons_of_ne_nil one.filled
  refine Bool.and_eq_true_iff.mpr ⟨starts, all_eq_true.mpr fun c among => ?_⟩
  exact isIdentCont_of_isWordChar (all_eq_true.mp one.word c (mem_cons_of_mem _ among))

theorem isWord_of_setStatement {value : Text} {read : Text × List Text} (one : OneWord name)
    (accepted : setStatement (setText name value) = some read) : IsWord name = true := by
  obtain ⟨first, more, rfl⟩ := exists_cons_of_ne_nil one.filled
  have letter := (Bool.and_eq_true_iff.mp one.word).1
  cases starts : isIdentStart first with
  | true => exact isWord_of_head one starts
  | false =>
    exfalso
    have digit : first.isDigit = true := by
      rw [isWordChar_eq, isTagCont, starts] at letter
      exact letter
    have shape : setText (first :: more) value =
        "SET".toList ++ ' ' :: (first :: (more ++ " = ".toList ++ value)) := by
      simp [setText]
    unfold setStatement at accepted
    rw [shape, setTokens_word (by decide) (by rintro c ⟨⟩; decide), setTokens_space rfl,
      setTokens_number starts (by simp [startsNumber, digit])] at accepted
    cases taken : unsigned (first :: (more ++ " = ".toList ++ value)) with
    | none =>
      rw [taken] at accepted
      cases accepted
    | some number =>
      obtain ⟨digits, left⟩ := number
      rw [taken] at accepted
      dsimp only [Option.bind_some] at accepted
      cases later : setTokens left with
      | none | some =>
        rw [later] at accepted
        cases accepted

/-! ### A text without quotes -/

variable {tail : Text}

theorem hidden_iff (bare : tail.all isBareChar = true) :
    setTokens tail = some [] ↔ Hidden tail := by
  cases tail with
  | nil => exact iff_of_true setTokens_nil (.inl rfl)
  | cons c rest =>
    have here := (Bool.and_eq_true_iff.mp bare).1
    by_cases comment : c = '-' ∧ rest.head? = some '-'
    · obtain ⟨rfl, dash⟩ := comment
      obtain ⟨more, rfl⟩ := head?_eq_some_iff.mp dash
      have none := afterLineComment_of_bare (Bool.and_eq_true_iff.mp bare).2
      rw [setTokens_lineComment, none, setTokens_nil]
      exact iff_of_true rfl (.inr ⟨more, rfl⟩)
    · rw [setTokens_cons (isSpace_of_isBareChar here) comment (isBareChar_ne here (by decide))]
      refine iff_of_false ?_ ?_
      · cases tokenHere c rest with
        | none => exact nofun
        | some taken =>
          dsimp only [Option.bind_some]
          cases setTokens taken.2 <;> exact nofun
      · rintro (empty | ⟨more, same⟩)
        · cases empty
        · cases same
          exact comment ⟨rfl, rfl⟩

theorem tokenHere_of_bare {left : Text} {token : SetToken} (bare : isBareChar c = true)
    (taken : tokenHere c rest = some (token, left)) :
    token ≠ .symbol ';' ∧ token ≠ .symbol ',' := by
  unfold tokenHere at taken
  split at taken
  · cases taken
    exact ⟨nofun, nofun⟩
  · split at taken
    · obtain ⟨number, -, same⟩ := Option.map_eq_some_iff.mp taken
      cases same
      exact ⟨nofun, nofun⟩
    · rw [if_neg (isBareChar_ne bare (by decide)), if_neg (isBareChar_ne bare (by decide))]
        at taken
      cases taken
      exact ⟨fun same => isBareChar_ne bare (by decide) (SetToken.symbol.inj same),
        fun same => isBareChar_ne bare (by decide) (SetToken.symbol.inj same)⟩

theorem head_of_bare {tokens : List SetToken} (bare : tail.all isBareChar = true)
    (read : setTokens tail = some tokens) :
    ∀ token ∈ tokens.head?, token ≠ .symbol ';' ∧ token ≠ .symbol ',' := by
  by_cases hidden : Hidden tail
  · rw [(hidden_iff bare).mpr hidden] at read
    cases read
    exact nofun
  · cases tail with
    | nil => exact absurd (.inl rfl) hidden
    | cons c rest =>
      have here := (Bool.and_eq_true_iff.mp bare).1
      have comment : ¬ (c = '-' ∧ rest.head? = some '-') := by
        rintro ⟨rfl, dash⟩
        obtain ⟨more, rfl⟩ := head?_eq_some_iff.mp dash
        exact hidden (.inr ⟨more, rfl⟩)
      rw [setTokens_cons (isSpace_of_isBareChar here) comment (isBareChar_ne here (by decide)),
        Option.bind_eq_some_iff] at read
      obtain ⟨⟨token, left⟩, taken, later⟩ := read
      obtain ⟨more, -, rfl⟩ := Option.map_eq_some_iff.mp later
      rintro _ ⟨⟩
      exact tokenHere_of_bare here taken

def denote (text : Text) : Option (List Text) :=
  (setTokens text).bind valueList

variable {text : Text}

theorem denote_front {value : Text} {front : List SetToken}
    (tokens : setTokens text = (setTokens tail).map (front ++ ·))
    (reads : ∀ more, element (front ++ more) = some (value, more))
    (bare : tail.all isBareChar = true) (list : List Text) :
    denote text = some list ↔ Hidden tail ∧ list = [value] := by
  unfold denote
  rw [tokens, ← hidden_iff bare]
  cases read : setTokens tail with
  | none => simp
  | some more =>
    rw [Option.map_some, Option.bind_some,
      valueList_of_element (reads more) (head_of_bare bare read)]
    by_cases none : more = []
    · simp [eq_comm]
    · simp [none]

theorem isIdentStart_of_startsNumber (starts : startsNumber (c :: rest) = true) :
    isIdentStart c = false := by
  simp only [startsNumber, Bool.or_eq_true, Bool.and_eq_true, decide_eq_true_eq] at starts
  rcases starts with digit | ⟨rfl, -⟩
  · exact isIdentStart_of_isDigit digit
  · decide

theorem setTokens_of_unsigned {digits : Text} (starts : startsNumber text = true)
    (read : unsigned text = some (digits, tail)) :
    setTokens text = (setTokens tail).map ([.number digits] ++ ·) := by
  cases text with
  | nil => cases starts
  | cons c rest =>
    rw [setTokens_number (isIdentStart_of_startsNumber starts) starts, read]
    rfl

theorem setTokens_minus (alone : rest.head? ≠ some '-') :
    setTokens ('-' :: rest) = (setTokens rest).map (.symbol '-' :: ·) := by
  rw [setTokens_cons rfl (fun both => alone both.2) (by decide)]
  rfl

theorem head_of_startsNumber (starts : startsNumber text = true) : text.head? ≠ some '-' := by
  intro minus
  obtain ⟨rest, rfl⟩ := head?_eq_some_iff.mp minus
  simp [startsNumber] at starts

theorem all_of_suffix {whole : Text} (all : whole.all isBareChar = true) (behind : tail <:+ whole) :
    tail.all isBareChar = true :=
  all_eq_true.mpr fun c among => all_eq_true.mp all c (behind.subset among)

theorem setTokens_of_negative {digits : Text} (starts : startsNumber text = true)
    (read : unsigned text = some (digits, tail)) :
    setTokens ('-' :: text) = (setTokens tail).map ([.symbol '-', .number digits] ++ ·) := by
  rw [setTokens_minus (head_of_startsNumber starts), setTokens_of_unsigned starts read,
    Option.map_map]
  rfl

theorem denote_of_bareValue {value : Text} (bare : text.all isBareChar = true)
    (means : BareValue text value) : denote text = some [value] := by
  cases means with
  | @word word tail isWord hidden =>
    have ends : ∀ c ∈ tail.head?, isIdentCont c = false := by
      rcases hidden with rfl | ⟨more, rfl⟩
      · exact nofun
      · rintro c ⟨⟩
        decide
    have tokens : setTokens (word ++ tail) = (setTokens tail).map ([.word word] ++ ·) :=
      setTokens_word isWord ends
    exact (denote_front tokens (fun more => rfl)
      (all_of_suffix bare (suffix_append _ _)) _).mpr ⟨hidden, rfl⟩
  | number starts read hidden =>
    exact (denote_front (setTokens_of_unsigned starts read) (fun more => rfl)
      (all_of_suffix bare (unsigned_suffix read)) _).mpr ⟨hidden, rfl⟩
  | negative starts read hidden =>
    refine (denote_front (setTokens_of_negative starts read) (fun more => rfl)
      (all_of_suffix bare ?_) _).mpr ⟨hidden, rfl⟩
    exact (unsigned_suffix read).trans (suffix_cons _ _)

theorem tokenHere_ne_number {left digits : Text} (other : startsNumber (c :: rest) = false) :
    tokenHere c rest ≠ some (.number digits, left) := by
  unfold tokenHere
  split
  · simp
  · rw [if_neg (by simp [other])]
    split
    · simp [Option.bind_eq_some_iff]
    · split
      · simp
      · simp

theorem denote_of_hidden (bare : text.all isBareChar = true) (hidden : Hidden text) :
    denote text = none := by
  unfold denote
  rw [(hidden_iff bare).mpr hidden]
  exact valueList_of_none rfl

theorem setTokens_eq_none (starts : startsNumber text = true) (unread : unsigned text = none) :
    setTokens text = none := by
  cases text with
  | nil => cases starts
  | cons c rest =>
    rw [setTokens_number (isIdentStart_of_startsNumber starts) starts, unread]
    rfl

theorem denote_minus_of_other (bare : rest.all isBareChar = true)
    (other : startsNumber rest = false) : denote ('-' :: rest) = none := by
  by_cases comment : rest.head? = some '-'
  · obtain ⟨more, rfl⟩ := head?_eq_some_iff.mp comment
    exact denote_of_hidden (Bool.and_eq_true_iff.mpr ⟨rfl, bare⟩) (.inr ⟨more, rfl⟩)
  · unfold denote
    rw [setTokens_minus comment]
    cases read : setTokens rest with
    | none => rfl
    | some tokens =>
      refine valueList_of_none ?_
      cases rest with
      | nil =>
        rw [setTokens_nil] at read
        cases read
        rfl
      | cons c more =>
        have here := (Bool.and_eq_true_iff.mp bare).1
        have alone : ¬ (c = '-' ∧ more.head? = some '-') := fun both =>
          comment (congrArg some both.1)
        rw [setTokens_cons (isSpace_of_isBareChar here) alone
          (isBareChar_ne here (by decide)), Option.bind_eq_some_iff] at read
        obtain ⟨⟨token, left⟩, taken, later⟩ := read
        obtain ⟨after, -, rfl⟩ := Option.map_eq_some_iff.mp later
        cases token with
        | number digits => exact absurd taken (tokenHere_ne_number other)
        | word | quotedIdent | string | symbol => rfl

variable {list : List Text}

theorem bareValue_of_word (bare : (c :: rest).all isBareChar = true)
    (starts : isIdentStart c = true) (means : denote (c :: rest) = some list) :
    ∃ value, BareValue (c :: rest) value ∧ list = [value] := by
  have split : rest.takeWhile isIdentCont ++ rest.dropWhile isIdentCont = rest :=
    takeWhile_append_dropWhile
  have isWord : IsWord (c :: rest.takeWhile isIdentCont) = true :=
    Bool.and_eq_true_iff.mpr ⟨starts, all_takeWhile⟩
  have ends : ∀ d ∈ (rest.dropWhile isIdentCont).head?, isIdentCont d = false := by
    intro d head
    have first := head?_dropWhile_not isIdentCont rest
    rw [Option.mem_def.mp head] at first
    exact first
  have tokens : setTokens (c :: rest) = (setTokens (rest.dropWhile isIdentCont)).map
      ([.word (c :: rest.takeWhile isIdentCont)] ++ ·) := by
    have read := setTokens_word isWord ends
    rwa [cons_append, split] at read
  have tail := all_of_suffix bare
    ((dropWhile_suffix isIdentCont).trans (suffix_cons c rest))
  obtain ⟨hidden, rfl⟩ := (denote_front tokens (fun more => rfl) tail list).mp means
  have value := BareValue.word isWord hidden
  rw [cons_append, split] at value
  exact ⟨_, value, rfl⟩

theorem bareValue_of_number (bare : text.all isBareChar = true)
    (starts : startsNumber text = true) (means : denote text = some list) :
    ∃ value, BareValue text value ∧ list = [value] := by
  cases read : unsigned text with
  | none =>
    rw [denote, setTokens_eq_none starts read] at means
    cases means
  | some number =>
    obtain ⟨digits, tail⟩ := number
    obtain ⟨hidden, rfl⟩ := (denote_front (setTokens_of_unsigned starts read) (fun more => rfl)
      (all_of_suffix bare (unsigned_suffix read)) list).mp means
    exact ⟨_, .number starts read hidden, rfl⟩

theorem bareValue_of_negative (bare : ('-' :: text).all isBareChar = true)
    (starts : startsNumber text = true) (means : denote ('-' :: text) = some list) :
    ∃ value, BareValue ('-' :: text) value ∧ list = [value] := by
  cases read : unsigned text with
  | none =>
    rw [denote, setTokens_minus (head_of_startsNumber starts), setTokens_eq_none starts read]
      at means
    cases means
  | some number =>
    obtain ⟨digits, tail⟩ := number
    obtain ⟨hidden, rfl⟩ := (denote_front (setTokens_of_negative starts read) (fun more => rfl)
      (all_of_suffix bare ((unsigned_suffix read).trans (suffix_cons _ _))) list).mp means
    exact ⟨_, .negative starts read hidden, rfl⟩

/-- A text of letters, digits, `_`, `.` and `-` is at most one value. -/
theorem bareValue_of_denote (bare : text.all isBareChar = true) (means : denote text = some list) :
    ∃ value, BareValue text value ∧ list = [value] := by
  cases text with
  | nil =>
    rw [denote_of_hidden bare (.inl rfl)] at means
    cases means
  | cons c rest =>
    obtain ⟨here, others⟩ := Bool.and_eq_true_iff.mp bare
    by_cases starts : isIdentStart c = true
    · exact bareValue_of_word bare starts means
    by_cases number : startsNumber (c :: rest) = true
    · exact bareValue_of_number bare number means
    by_cases minus : c = '-'
    · subst minus
      by_cases digits : startsNumber rest = true
      · exact bareValue_of_negative bare digits means
      · rw [denote_minus_of_other others (Bool.eq_false_of_not_eq_true digits)] at means
        cases means
    · -- What is left is a dot that no digit follows.
      have dot : c = '.' := by
        simp only [isBareChar, Bool.or_eq_true, Bool.and_eq_true, decide_eq_true_eq,
          Char.isAlphanum] at here
        simp only [isIdentStart, startsNumber, Bool.or_eq_true, decide_eq_true_eq] at starts number
        tauto
      subst dot
      have taken : tokenHere '.' rest = some (.symbol '.', rest) := by
        unfold tokenHere
        rw [if_neg (by decide), if_neg number, if_neg (by decide), if_neg (by decide)]
      have tokens : setTokens ('.' :: rest) = (setTokens rest).map (.symbol '.' :: ·) := by
        rw [setTokens_cons rfl (by simp) (by decide), taken]
        rfl
      rw [denote, tokens] at means
      cases read : setTokens rest with
      | none =>
        rw [read] at means
        cases means
      | some later =>
        rw [read, Option.map_some, Option.bind_some, valueList_of_none rfl] at means
        cases means

/-! ### The statement and its replay -/

theorem denote_quote_iff (value : Text) (list : List Text) :
    denote (quote value) = some list ↔
      (Bare value ∧ ∃ meant, BareValue value meant ∧ list = [meant]) ∨
        (¬ Bare value ∧ list = [value]) := by
  by_cases bare : Bare value
  · rw [quote_of_bare bare]
    simp only [bare, true_and, not_true, false_and, or_false]
    constructor
    · exact bareValue_of_denote bare.2
    · rintro ⟨meant, means, rfl⟩
      exact denote_of_bareValue bare.2 means
  · have string : denote (quotedText value) = some [value] := by
      unfold denote
      have read : element [.string value] = some (value, []) := rfl
      rw [setTokens_quotedText, Option.bind_some, valueList_of_element read nofun, if_pos rfl]
    rw [quote_of_not_bare bare, string]
    simp [bare, eq_comm]

theorem spells_iff (side : Text) (list : List Text) :
    Spells side list ↔ denote (quote (unquote side)) = some list := by
  rw [denote_quote_iff]
  constructor
  · intro spells
    cases spells with
    | bare stripped bare means =>
      obtain rfl := (stripped_iff _ _).mp stripped
      exact .inl ⟨bare, _, means, rfl⟩
    | quoted stripped quoted =>
      obtain rfl := (stripped_iff _ _).mp stripped
      exact .inr ⟨quoted, rfl⟩
  · have stripped := (stripped_iff side (unquote side)).mpr rfl
    rintro (⟨bare, meant, means, rfl⟩ | ⟨quoted, rfl⟩)
    · exact .bare stripped bare means
    · exact .quoted stripped quoted

theorem toAsciiLowercase_of_normal (normal : normalise name = name) :
    toAsciiLowercase name = name := by
  rw [← normal, normalise, toAsciiLowercase_idem]

theorem head_of_accepted {sql : Text} {values : List Text}
    (accepted : setStatement sql = some (name, values)) : name.head?.any isIdentStart = true := by
  obtain ⟨tokens, read, accepted⟩ := Option.bind_eq_some_iff.mp accepted
  split at accepted
  · split at accepted
    · obtain ⟨⟨found, assigned⟩, reads, accepted⟩ := Option.bind_eq_some_iff.mp accepted
      have same : found = name := by
        dsimp only at accepted
        split at accepted
        · split at accepted
          · obtain ⟨list, -, same⟩ := Option.map_eq_some_iff.mp accepted
            exact (Prod.mk.inj same).1
          · cases accepted
        · cases accepted
      subst same
      obtain ⟨part, rest, more, rfl, rfl⟩ := nameAt_eq_some reads
      have starts : part.head?.any isIdentStart = true := head_of_word read (by simp)
      cases part with
      | nil => cases starts
      | cons c later =>
        change isIdentStart c.toLower = true
        rw [isIdentStart_toLower]
        exact starts
    · cases accepted
  · cases accepted

/-- The replay of a `SET` denotes the values of the `SET`, exactly when its right side as
stripped spells its one value. -/
theorem replay_denotes_iff (allowlist : Replayable) (sql name : Text) (values : List Text)
    (accepted : setStatement sql = some (name, values))
    (listed : allowlist.contains name = true) :
    (∃ text ∈ (SessionParams.new.observeStatement sql allowlist).replayOnto .new,
        setStatement text = some (name, values)) ↔
      ∃ rest, LastAssigned allowlist sql name rest ∧
        Spells (trim (skipTrivia rest)) values := by
  have oneWord {written value : Text}
      (held : (SessionParams.new.observeStatement sql allowlist).values.lookup written =
        some value) : OneWord written :=
    (observeStatement_recorded held).resolve_left nofun
  rw [SessionParams.replayOnto_new]
  constructor
  · rintro ⟨text, among, means⟩
    obtain ⟨⟨written, value⟩, recorded, rfl⟩ := mem_map.mp among
    have held := SessionParams.mem_sorted_iff.mp recorded
    have one := oneWord held
    change setStatement (setText written (quote value)) = some (name, values) at means
    rw [setStatement_setText (isWord_of_setStatement one means),
      toAsciiLowercase_of_normal one.normal] at means
    obtain ⟨list, denoted, same⟩ := Option.map_eq_some_iff.mp means
    cases same
    obtain ⟨rest, assigned, rfl⟩ := (lookup_observe_new_iff listed sql value).mp held
    exact ⟨rest, assigned, (spells_iff _ _).mpr denoted⟩
  · rintro ⟨rest, assigned, spells⟩
    have held := (lookup_observe_new_iff listed sql _).mpr ⟨rest, assigned, rfl⟩
    have one := oneWord held
    refine ⟨_, mem_map.mpr ⟨(name, _), SessionParams.mem_sorted_iff.mpr held, rfl⟩, ?_⟩
    change setStatement (setText name (quote _)) = some (name, values)
    rw [setStatement_setText (isWord_of_head one (head_of_accepted accepted)),
      toAsciiLowercase_of_normal one.normal]
    exact Option.map_eq_some_iff.mpr ⟨values, (spells_iff _ _).mp spells, rfl⟩

/-- A list comes back as one value. -/
theorem list_is_one_value :
    setStatement "SET search_path = a, b".toList =
        some ("search_path".toList, ["a".toList, "b".toList]) ∧
      ¬ ∃ text ∈ (SessionParams.new.observeStatement "SET search_path = a, b".toList
          .default).replayOnto .new,
        setStatement text = some ("search_path".toList, ["a".toList, "b".toList]) := by
  decide +kernel

theorem string_is_replayed :
    ∃ text ∈ (SessionParams.new.observeStatement "SET search_path TO 'my schema'; -- x".toList
        .default).replayOnto .new,
      setStatement text = some ("search_path".toList, ["my schema".toList]) := by
  have listed : Replayable.default.contains "search_path".toList = true := by decide +kernel
  refine (replay_denotes_iff .default _ _ _ (by decide +kernel) listed).mpr ?_
  have held : (SessionParams.new.observeStatement "SET search_path TO 'my schema'; -- x".toList
      .default).values.lookup "search_path".toList = some "my schema".toList := by
    decide +kernel
  obtain ⟨rest, assigned, shown⟩ := (lookup_observe_new_iff listed _ _).mp held
  refine ⟨rest, assigned, (spells_iff _ _).mpr ?_⟩
  rw [← shown]
  decide +kernel

end Pgprox.Serve
