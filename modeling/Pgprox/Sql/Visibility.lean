/-
What the lexer shows of a text, compared with what Postgres reads.

Both readings are one mark for each character, and behind every piece of the reference they
stand at the same place again, as long as the piece is none of the few that the lexer cuts
differently.
-/

import Pgprox.Sql.Cuts

namespace Pgprox.Sql

open List

inductive Mark
  | word
  | semicolon
  | other
  deriving DecidableEq

def Token.mark : Token → Mark
  | .word _ => .word
  | .semicolon => .semicolon
  | .quoted | .punct _ => .other

def marksFrom : List Char → List Lexeme → List Mark
  | text, [] => List.replicate text.length .other
  | text, lexeme :: later =>
    List.replicate (text.length - (skipTrivia text).length) .other ++
      (List.replicate ((skipTrivia text).length - lexeme.after.length) lexeme.token.mark ++
        marksFrom lexeme.after later)

def marks (text : List Char) : List Mark :=
  marksFrom text (lex text)

namespace Reference

def Kind.mark : Kind → Mark
  | .identifier => .word
  | .semicolon => .semicolon
  | _ => .other

def Piece.marks (piece : Piece) : List Mark :=
  List.replicate (piece.before.length - piece.after.length) piece.kind.mark

def marks (text : List Char) : List Mark :=
  (read true text).flatMap Piece.marks

end Reference

/-! ### Marks of the lexer -/

theorem marks_eq (text : List Char) :
    marks text = match skipTrivia text with
      | [] => List.replicate text.length .other
      | first :: after =>
        List.replicate (text.length - (after.length + 1)) .other ++
          (List.replicate (after.length + 1 - (tokenAt first after).2.length)
              (tokenAt first after).1.mark ++
            marks (tokenAt first after).2) := by
  unfold marks
  rw [lex_eq]
  unfold next
  cases shape : skipTrivia text with
  | nil => rfl
  | cons first after =>
    rw [marksFrom, shape]
    rfl

theorem marksFrom_length {lexemes : List Lexeme} :
    ∀ {text : List Char}, lex text = lexemes → (marksFrom text lexemes).length = text.length := by
  induction lexemes with
  | nil => intro text _; exact length_replicate
  | cons lexeme later ih =>
    intro text shape
    obtain ⟨-, taken, rest⟩ := lex_eq_cons shape
    have shorter := skipTrivia_length_le text
    have after : lexeme.after.length ≤ (skipTrivia text).length := by
      unfold next at taken
      split at taken
      · cases taken
      · rename_i first after solid
        have short := tokenAt_length_le first after
        rw [Option.some.inj taken] at short
        rw [solid]
        exact Nat.le_succ_of_le short
    rw [marksFrom, length_append, length_append, length_replicate,
      length_replicate, ih rest.symm]
    omega

@[simp] theorem length_marks (text : List Char) : (marks text).length = text.length :=
  marksFrom_length rfl

def Reaches (text rest : List Char) : Prop :=
  ∃ shown, marks text = shown ++ marks rest

variable {text rest : List Char}

theorem Reaches.trans {middle : List Char} (first : Reaches text middle)
    (second : Reaches middle rest) : Reaches text rest := by
  obtain ⟨shown, whole⟩ := first
  obtain ⟨later, part⟩ := second
  exact ⟨shown ++ later, by rw [whole, part, append_assoc]⟩

theorem Reaches.of_skipTrivia_eq (skips : skipTrivia text = skipTrivia rest)
    (shorter : rest.length ≤ text.length) : Reaches text rest := by
  have within := skipTrivia_length_le rest
  refine ⟨List.replicate (text.length - rest.length) .other, ?_⟩
  rw [marks_eq text, marks_eq rest, skips]
  cases shape : skipTrivia rest with
  | nil =>
    dsimp only
    rw [replicate_append_replicate]
    congr 1
    omega
  | cons first after =>
    rw [shape, length_cons] at within
    dsimp only
    rw [← append_assoc, ← append_assoc, ← append_assoc,
      replicate_append_replicate]
    congr 3
    omega

variable {first : Char} {after : List Char}

theorem marks_of_solid {token : Token} (solid : Solid (first :: after))
    (taken : tokenAt first after = (token, rest)) :
    marks (first :: after) =
      List.replicate (after.length + 1 - rest.length) token.mark ++ marks rest := by
  rw [marks_eq, solid]
  dsimp only
  rw [taken, length_cons, Nat.sub_self, replicate_zero, nil_append]

theorem Solid.reaches (solid : Solid (first :: after)) (taken : (tokenAt first after).2 = rest) :
    Reaches (first :: after) rest :=
  ⟨_, marks_of_solid solid (Prod.ext rfl taken)⟩

/-! ### Pieces -/

def Shows (wanted shown : List Mark) : Prop :=
  ∀ (index : Nat) (mark : Mark), wanted[index]? = some mark → mark ≠ .other →
    shown[index]? = some mark

theorem shows_append {wanted more shown later : List Mark} (same : wanted.length = shown.length) :
    Shows (wanted ++ more) (shown ++ later) ↔ Shows wanted shown ∧ Shows more later := by
  constructor
  · intro whole
    constructor
    · intro index mark here visible
      have inside : index < wanted.length := (List.getElem?_eq_some_iff.mp here).1
      have there := whole index mark (by rw [getElem?_append_left inside, here]) visible
      rwa [getElem?_append_left (same ▸ inside)] at there
    · intro index mark here visible
      have there := whole (wanted.length + index) mark
        (by rw [getElem?_append_right (by omega), Nat.add_sub_cancel_left, here]) visible
      rwa [same, getElem?_append_right (by omega), Nat.add_sub_cancel_left] at there
  · rintro ⟨first, second⟩ index mark here visible
    by_cases inside : index < wanted.length
    · rw [getElem?_append_left inside] at here
      rw [getElem?_append_left (same ▸ inside)]
      exact first index mark here visible
    · rw [getElem?_append_right (by omega)] at here
      rw [getElem?_append_right (by omega), ← same]
      exact second _ mark here visible

theorem shows_silent (count : Nat) (shown : List Mark) :
    Shows (List.replicate count .other) shown := by
  intro index mark here visible
  exact absurd (eq_of_mem_replicate (mem_of_getElem? here)) visible

variable {kind : Reference.Kind}

theorem Reaches.step (reaches : Reaches text rest) (silent : kind.mark = .other) :
    ∃ shown, marks text = shown ++ marks rest ∧
      Shows (Reference.Piece.marks ⟨kind, text, rest⟩) shown := by
  obtain ⟨shown, whole⟩ := reaches
  refine ⟨shown, whole, ?_⟩
  unfold Reference.Piece.marks
  rw [silent]
  exact shows_silent _ _

theorem Solid.step {token : Token} (solid : Solid (first :: after))
    (taken : tokenAt first after = (token, rest)) (agree : token.mark = kind.mark) :
    ∃ shown, marks (first :: after) = shown ++ marks rest ∧
      Shows (Reference.Piece.marks ⟨kind, first :: after, rest⟩) shown := by
  refine ⟨_, marks_of_solid solid taken, ?_⟩
  rw [agree]
  exact fun _ _ here _ => here

/-- The lexer hands out the three parts of `U&"…"` one by one. -/
theorem reaches_unicodeIdent (letter : first = 'u' ∨ first = 'U') (later : List Char) :
    Reaches (first :: '&' :: '"' :: later) (Reference.afterQuotedIdent later) := by
  have quote : Reaches ('"' :: later) (Reference.afterQuotedIdent later) :=
    (solid_symbol rfl rfl (by decide) (by decide) _).reaches
      (congrArg Prod.snd (tokenAt_quotedIdent later))
  have ampersand : Reaches ('&' :: '"' :: later) ('"' :: later) :=
    (solid_symbol rfl rfl (by decide) (by decide) _).reaches rfl
  have word : Reaches (first :: '&' :: '"' :: later) ('&' :: '"' :: later) := by
    rcases letter with rfl | rfl
    all_goals exact (solid_of_isWordChar rfl (.inl rfl) _).reaches rfl
  exact (word.trans ampersand).trans quote

theorem Lexed.step (lexed : Lexed kind text rest) :
    ∃ shown, marks text = shown ++ marks rest ∧
      Shows (Reference.Piece.marks ⟨kind, text, rest⟩) shown := by
  cases lexed with
  | trivia silent skips shorter =>
    refine (Reaches.of_skipTrivia_eq skips shorter.le).step ?_
    rcases silent with rfl | rfl | rfl <;> rfl
  | token solid taken agrees =>
    cases agrees with
    | number => exact (solid.reaches (congrArg Prod.snd taken)).step rfl
    | identifier | semicolon | constant | continued | symbol | verticalTab =>
      exact solid.step taken rfl
  | unicodeIdent letter => exact (reaches_unicodeIdent letter _).step rfl

/-! ### What is hidden -/

theorem isWordChar_of_tokenAt {word : List Char}
    (taken : tokenAt first after = (.word word, rest)) :
    ∀ c ∈ (first :: after).take (after.length + 1 - rest.length), isWordChar c = true := by
  by_cases starts : isWordChar first = true
  · rw [tokenAt_word starts] at taken
    have short := (dropWhile_sublist isWordChar (l := after)).length_le
    rw [rest_of_wordToken taken, Nat.sub_add_comm short, take_succ_cons,
      take_length_sub_dropWhile, forall_mem_cons]
    exact ⟨starts, fun c member => mem_takeWhile_imp member⟩
  · unfold tokenAt at taken
    dsimp only at taken
    split at taken
    · cases taken
    · split at taken
      · cases taken
      · split at taken
        · cases taken
        · split at taken
          · split at taken
            · cases taken
            · cases taken
          · cases taken

theorem getElem?_of_suffix (suffix : rest <:+ text) {index : Nat}
    (behind : text.length - rest.length ≤ index) :
    text[index]? = rest[index - (text.length - rest.length)]? := by
  obtain ⟨front, rfl⟩ := suffix
  rw [length_append, Nat.add_sub_cancel] at behind ⊢
  rw [getElem?_append_right behind]

theorem getElem?_replicate_append (count : Nat) (mark : Mark) (later : List Mark) (index : Nat) :
    (List.replicate count mark ++ later)[index]? =
      if index < count then some mark else later[index - count]? := by
  rw [getElem?_append, length_replicate]
  split
  · rename_i inside
    rw [getElem?_replicate, if_pos inside]
  · rfl

theorem marks_head_of_trivia (trivia : (skipTrivia text).length < text.length) :
    (marks text)[0]? = some .other := by
  rw [marks_eq]
  cases shape : skipTrivia text with
  | nil =>
    rw [shape] at trivia
    exact getElem?_replicate_of_lt trivia
  | cons first after =>
    rw [shape, length_cons] at trivia
    rw [getElem?_replicate_append, if_pos (by omega)]

theorem isAscii_of_isWhitespace {c : Char} (space : isWhitespace c = true)
    (starts : Reference.isIdentStart c = true) : isAscii c = false := by
  rw [Bool.eq_false_iff]
  intro ascii
  simp only [Reference.isIdentStart, Char.isAlpha, Char.isUpper, Char.isLower, isWhitespace,
    isAscii, Bool.or_eq_true, Bool.and_eq_true, decide_eq_true_eq, ge_iff_le, Char.ext_iff,
    UInt32.le_iff_toNat_le, UInt32.lt_iff_toNat_lt, ← UInt32.toNat_inj] at space starts ascii
  simp at space starts ascii
  omega

theorem isWordChar_of_mark {size : Nat} :
    ∀ {text : List Char} {index : Nat}, text.length ≤ size → (marks text)[index]? = some .word →
      ∃ c, text[index]? = some c ∧ isWordChar c = true := by
  induction size with
  | zero =>
    intro text index small shown
    obtain rfl := length_eq_zero_iff.mp (Nat.le_zero.mp small)
    cases shown
  | succ size ih =>
    intro text index small shown
    have within := skipTrivia_length_le text
    have solid : skipTrivia text <:+ text := skipTriviaWithin_suffix _ _
    rw [marks_eq] at shown
    cases shape : skipTrivia text with
    | nil =>
      rw [shape] at shown
      exact absurd (eq_of_mem_replicate (mem_of_getElem? shown)) (by decide)
    | cons first after =>
      rw [shape, length_cons] at within
      rw [shape] at shown solid
      rw [getElem?_replicate_append] at shown
      split at shown
      · cases shown
      rename_i behind
      have trivia : text[index]? = (first :: after)[index - (text.length - (after.length + 1))]? :=
        getElem?_of_suffix solid (Nat.not_lt.mp behind)
      rw [trivia]
      rcases taken : tokenAt first after with ⟨token, rest⟩
      have suffix := tokenAt_suffix first after
      have short := tokenAt_length_le first after
      rw [taken] at shown suffix short
      rw [getElem?_replicate_append] at shown
      split at shown
      · rename_i inside
        have bound : index - (text.length - (after.length + 1)) < (first :: after).length := by
          rw [length_cons]
          omega
        refine ⟨_, getElem?_eq_getElem bound, ?_⟩
        cases token with
        | word word =>
          refine isWordChar_of_tokenAt taken _ (mem_take_iff_getElem.mpr ⟨_, ?_, rfl⟩)
          exact Nat.lt_min.mpr ⟨inside, bound⟩
        | quoted | semicolon | punct => cases shown
      · rename_i later
        obtain ⟨c, here, letter⟩ := ih (by omega) shown
        refine ⟨c, ?_, letter⟩
        exact (getElem?_of_suffix suffix (Nat.not_lt.mp later)).trans here

theorem identifier_hidden (starts : Reference.isIdentStart first = true)
    (odd : ¬ Reference.Piece.Ordinary
      ⟨.identifier, first :: after, after.dropWhile Reference.isIdentCont⟩) :
    ∃ index < after.length + 1 - (after.dropWhile Reference.isIdentCont).length,
      (marks (first :: after))[index]? ≠ some .word := by
  have short := (dropWhile_sublist Reference.isIdentCont (l := after)).length_le
  by_cases spaces : isWhitespace first = true
  · have wide := isAscii_of_isWhitespace spaces starts
    refine ⟨0, by omega, ?_⟩
    rw [marks_head_of_trivia]
    · decide
    have trimmed : trimLeadingSpace (first :: after) = trimStart (first :: after) := by
      have letter : isWordChar first = true := by rw [isWordChar, wide]; rfl
      unfold trimLeadingSpace
      rw [dropWhile_cons_of_neg (by simp [isAsciiWhitespace_of_isWordChar letter])]
      dsimp only
      rw [if_neg (by simp [wide])]
    have dropped : (trimStart (first :: after)).length ≤ after.length := by
      unfold trimStart
      rw [dropWhile_cons_of_pos spaces]
      exact (dropWhile_sublist _).length_le
    rw [← skipTrivia_trimLeadingSpace, trimmed]
    exact (Nat.le_trans (skipTrivia_length_le _) dropped).trans_lt (Nat.lt_succ_self _)
  by_cases dollars : '$' ∈ Reference.Piece.text
      ⟨.identifier, first :: after, after.dropWhile Reference.isIdentCont⟩
  · obtain ⟨index, inside, here⟩ := mem_take_iff_getElem.mp dollars
    refine ⟨index, (Nat.lt_min.mp inside).1, fun shown => ?_⟩
    obtain ⟨c, there, letter⟩ := isWordChar_of_mark le_rfl shown
    rw [getElem?_eq_getElem (Nat.lt_min.mp inside).2] at there
    rw [← Option.some.inj there, here] at letter
    cases letter
  · refine ⟨0, by omega, ?_⟩
    obtain ⟨u, quote⟩ : eqIgnoreAsciiCase (Reference.Piece.text
        ⟨.identifier, first :: after, after.dropWhile Reference.isIdentCont⟩) "u" = true ∧
          startsWith (after.dropWhile Reference.isIdentCont) "'" = true := by
      by_contra ordinary
      exact odd ⟨dollars, by simpa using spaces, ordinary⟩
    rw [identifier_text] at u
    obtain ⟨alone, same⟩ : after.takeWhile Reference.isIdentCont = [] ∧
        eqIgnoreAsciiCase [first] "u" = true := by
      have lengths := congrArg List.length (of_decide_eq_true u)
      simp only [toAsciiLowercase, length_map, length_cons] at lengths
      have none : after.takeWhile Reference.isIdentCont = [] :=
        length_eq_zero_iff.mp (Nat.succ.inj lengths)
      exact ⟨none, none ▸ u⟩
    rw [← drop_length_takeWhile, alone] at quote
    obtain ⟨later, whole⟩ := exists_of_startsWith quote
    obtain rfl : after = '\'' :: later := whole
    have solid : Solid (first :: '\'' :: later) := by
      rcases eqIgnoreAsciiCase_letter 'u' 'U' rfl rfl same with rfl | rfl
      all_goals exact solid_of_isWordChar rfl (.inl rfl) _
    have taken : ∃ rest, tokenAt first ('\'' :: later) = (.quoted, rest) := by
      rcases eqIgnoreAsciiCase_letter 'u' 'U' rfl rfl same with rfl | rfl
      all_goals exact ⟨_, tokenAt_introduced rfl rfl rfl rfl⟩
    obtain ⟨rest, taken⟩ := taken
    have left := tokenAt_length_le first ('\'' :: later)
    rw [taken] at left
    dsimp only at left
    rw [marks_of_solid solid taken, getElem?_replicate_append, if_pos (by omega)]
    decide

/-! ### Whole texts -/

theorem shows_readWithin_iff {fuel : Nat} :
    ∀ {tail : Reference.Tail} {text : List Char}, text.length ≤ fuel →
      (∀ piece ∈ Reference.readWithin true fuel tail text,
        piece.kind ≠ .identifier → piece.Ordinary) →
      (Shows ((Reference.readWithin true fuel tail text).flatMap Reference.Piece.marks)
          (marks text) ↔
        ∀ piece ∈ Reference.readWithin true fuel tail text, piece.Ordinary) := by
  induction fuel with
  | zero =>
    intro tail text enough _
    obtain rfl := length_eq_zero_iff.mp (Nat.le_zero.mp enough)
    exact ⟨fun _ => nofun, fun _ => nofun⟩
  | succ fuel ih =>
    intro tail text enough others
    cases text with
    | nil => exact ⟨fun _ => nofun, fun _ => nofun⟩
    | cons first after =>
      have short := Reference.pieceAt_length_le true tail first after
      rcases piece : Reference.pieceAt true tail first after with ⟨kind, rest, later⟩
      rw [piece] at short
      rw [Reference.readWithin, piece] at others ⊢
      rw [flatMap_cons, forall_mem_cons]
      by_cases ordinary : Reference.Piece.Ordinary ⟨kind, first :: after, rest⟩
      · obtain ⟨shown, whole, shows⟩ := (lexed_of_ordinary piece ordinary).step
        have same : (Reference.Piece.marks ⟨kind, first :: after, rest⟩).length =
            shown.length := by
          have lengths := congrArg List.length whole
          rw [length_append, length_marks, length_marks] at lengths
          unfold Reference.Piece.marks
          rw [length_replicate]
          dsimp only
          omega
        have later := ih (short.trans (Nat.le_of_succ_le_succ enough))
          fun piece member => others piece (mem_cons_of_mem _ member)
        rw [whole, shows_append same, later]
        exact and_congr_left' ⟨fun _ => ordinary, fun _ => shows⟩
      · -- Both readings start here, so the identifier is hidden.
        refine iff_of_false (fun shows => ?_) fun all => ordinary all.1
        obtain rfl : kind = .identifier := by
          by_contra other
          exact ordinary (others _ mem_cons_self other)
        have cut := Reference.pieceAt_cut true tail first after
        rw [piece] at cut
        cases cut with
        | identifier starts =>
          obtain ⟨index, inside, hidden⟩ := identifier_hidden starts ordinary
          refine hidden (shows index .word ?_ (by decide))
          unfold Reference.Piece.marks
          rw [getElem?_replicate_append]
          exact if_pos inside

/-- The lexer shows every keyword or identifier character and every semicolon of the reference
when all pieces are ordinary.  Where the comments and the continued strings are, an
identifier that is not ordinary is hidden in part. -/
theorem lexer_shows_sql_iff {text : List Char}
    (others : ∀ piece ∈ Reference.read true text, piece.kind ≠ .identifier → piece.Ordinary) :
    Shows (Reference.marks text) (marks text) ↔
      ∀ piece ∈ Reference.read true text, piece.Ordinary :=
  shows_readWithin_iff le_rfl others

theorem lexer_shows_drop_behind_string :
    Shows (Reference.marks "SELECT E'a\\'' -- b\n; DROP TABLE t".toList)
      (marks "SELECT E'a\\'' -- b\n; DROP TABLE t".toList) :=
  (lexer_shows_sql_iff (by decide +kernel)).mpr (by decide +kernel)

/-- For Postgres a carriage return ends a comment; for the lexer the comment goes on. -/
theorem comment_hides_delete :
    ¬ Shows (Reference.marks "SELECT 1 -- note\r; DELETE FROM t".toList)
      (marks "SELECT 1 -- note\r; DELETE FROM t".toList) := by
  intro shows
  have semicolon := shows 17 .semicolon (by decide +kernel) (by decide)
  exact absurd semicolon (by decide +kernel)

end Pgprox.Sql
