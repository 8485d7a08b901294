/-
The statements sent on a session's behalf.

Names and values of the client are written into them.  A value is quoted when it has a
character that asks for it; a name is written as it is.
-/

import Pgprox.Serve.Parameters
import Pgprox.Session.Handshake
import Pgprox.Sql.SetStatement

namespace Pgprox.Serve

open Proto Pools Session Sql Reference
open List hiding lex

/-! ### Values in quotes -/

def Bare (value : Text) : Prop :=
  value ≠ [] ∧ value.all isBareChar = true

instance (value : Text) : Decidable (Bare value) :=
  inferInstanceAs (Decidable (_ ∧ _))

theorem quote_of_bare {value : Text} (bare : Bare value) : quote value = value :=
  if_pos bare

theorem quote_of_not_bare {value : Text} (quoted : ¬ Bare value) :
    quote value = quotedText value :=
  if_neg quoted

/-- A value that leaves the statement it is written into one statement. -/
structure Contained (standard : Bool) (value : Text) : Prop where
  comment : Bare value → ¬ "--".toList <+: value
  escapes : ¬ Bare value → standard = true ∨ Balanced value = true

theorem oneValue_quote_iff {standard : Bool} (value : Text) :
    OneValue standard (quote value) ↔ Contained standard value := by
  by_cases bare : Bare value
  · rw [quote_of_bare bare, oneValue_bare_iff bare.2 bare.1]
    exact ⟨fun plain => ⟨fun _ => plain, fun quoted => absurd bare quoted⟩,
      fun contained => contained.comment bare⟩
  · rw [quote_of_not_bare bare, oneValue_quoted_iff]
    exact ⟨fun closed => ⟨fun other => absurd other bare, fun _ => closed⟩,
      fun contained => contained.escapes bare⟩

/-! ### What is sent -/

def timeoutName : Text := "statement_timeout".toList

def parametersOf (session : SessionMemory) (statementTimeout : Option Nat) : List Text :=
  (statementTimeout.toList.map fun _ => timeoutName) ++ session.params.sorted.map Prod.fst

def issued (session : SessionMemory) (statementTimeout : Option Nat) : List (Text × Text) :=
  (statementTimeout.toList.map fun milliseconds =>
      (timeoutName, setText timeoutName (Nat.repr milliseconds).toList)) ++
    session.params.sorted.map fun entry => (entry.1, setText entry.1 (quote entry.2))

variable (session : SessionMemory) (statementTimeout : Option Nat)

theorem issued_parameters :
    (issued session statementTimeout).map Prod.fst = parametersOf session statementTimeout := by
  simp [issued, parametersOf, Function.comp_def]

theorem issued_statements :
    (issued session statementTimeout).map Prod.snd = resume session statementTimeout := by
  unfold issued resume onAcquire
  rw [SessionParams.replayOnto_new, map_append, map_map, map_map]
  rfl

theorem isDigit_of_mem_repr {number : Nat} {c : Char} (among : c ∈ (Nat.repr number).toList) :
    c.isDigit = true := by
  rw [Nat.toList_repr] at among
  exact Nat.isDigit_of_mem_toDigits (by decide) (by decide) among

theorem bare_repr (number : Nat) : Bare (Nat.repr number).toList := by
  constructor
  · rw [Nat.toList_repr]
    exact Nat.toDigits_ne_nil
  · refine all_eq_true.2 fun c among => ?_
    have digit := isDigit_of_mem_repr among
    simp [isBareChar, isAscii_of_isDigit digit, Char.isAlphanum, digit]

theorem setsOne_timeout (standard : Bool) (milliseconds : Nat) :
    SetsOne standard (setText timeoutName (Nat.repr milliseconds).toList) timeoutName := by
  obtain ⟨filled, bare⟩ := bare_repr milliseconds
  refine (setsOne_setText_iff _ _).2 ⟨by decide +kernel, (oneValue_bare_iff bare filled).2 ?_⟩
  intro dashes
  exact absurd (isDigit_of_mem_repr (dashes.subset mem_cons_self)) (by decide)

theorem setsOne_of_issued_iff (standing : Text → Bool) :
    (∀ sent ∈ issued session statementTimeout, SetsOne (standing sent.2) sent.2 sent.1) ↔
      ∀ entry ∈ session.params.sorted,
        PlainName entry.1 ∧ Contained (standing (setText entry.1 (quote entry.2))) entry.2 := by
  unfold issued
  rw [forall_mem_append, forall_mem_map, forall_mem_map]
  simp only [setsOne_setText_iff, oneValue_quote_iff]
  refine and_iff_right fun milliseconds _ => ?_
  exact (setsOne_setText_iff _ _).1 (setsOne_timeout _ milliseconds)

/-- Every statement sent on a session's behalf is one `SET` of the parameter it stands for,
exactly when the name of every recorded parameter is plain and its value leaves the
statement one.  `standing` is the server's `standard_conforming_strings` when it reads the
text. -/
theorem replay_is_settings_iff (mode : PoolMode) (statementTimeout : Option Nat)
    (startup : Startup) (events : List LoopEvent) (standing : Text → Bool) :
    let live := (Live.start mode statementTimeout (StartupInfo.settingsOf startup)).after events
    List.Forall₂ (fun name sql => SetsOne (standing sql) sql name)
        (parametersOf live.session live.statementTimeout)
        (resume live.session live.statementTimeout) ↔
      ∀ entry ∈ live.session.params.sorted,
        PlainName entry.1 ∧ Contained (standing (setText entry.1 (quote entry.2))) entry.2 := by
  intro live
  rw [← issued_parameters, ← issued_statements, List.forall₂_map_left_iff,
    List.forall₂_map_right_iff, List.forall₂_same]
  exact setsOne_of_issued_iff live.session live.statementTimeout standing

/-! ### Statements of the client's making -/

def injectingStartup : Startup :=
  .startupMessage 196608
    [("user".toList, "app".toList), ("x = 1; DELETE FROM t; --".toList, "1".toList)]

def escapingStartup : Startup :=
  .startupMessage 196608
    [("user".toList, "app".toList),
      ("options".toList, "-c TimeZone=\\\\';\\ DELETE\\ FROM\\ t;\\ --".toList)]

/-- A name with a semicolon in it brings a statement of the client's along.  So does a value
with a backslash before a quote, where backslashes escape. -/
theorem startup_brings_delete :
    (let live := Live.start .transaction none (StartupInfo.settingsOf injectingStartup)
    resume live.session none = ["SET x = 1; delete from t; -- = 1".toList]) ∧
    lexemes true "SET x = 1; delete from t; -- = 1".toList =
      [(.identifier, "SET".toList), (.identifier, "x".toList), (.symbol, "=".toList),
        (.number, "1".toList), (.semicolon, ";".toList), (.identifier, "delete".toList),
        (.identifier, "from".toList), (.identifier, "t".toList), (.semicolon, ";".toList)] ∧
    (let live := Live.start .transaction none (StartupInfo.settingsOf escapingStartup)
    resume live.session none = ["SET timezone = '\\''; DELETE FROM t; --'".toList]) ∧
    lexemes false "SET timezone = '\\''; DELETE FROM t; --'".toList =
      [(.identifier, "SET".toList), (.identifier, "timezone".toList), (.symbol, "=".toList),
        (.constant, "'\\''".toList), (.semicolon, ";".toList), (.identifier, "DELETE".toList),
        (.identifier, "FROM".toList), (.identifier, "t".toList), (.semicolon, ";".toList)] := by
  decide +kernel

end Pgprox.Serve
