/-
What the router keeps from the server.

A message that the router answers itself is never forwarded.  That is to be so for one
statement alone, which sets or resets `pgprox.route`.
-/

import Pgprox.Route.Router
import Pgprox.Sql.Cuts

namespace Pgprox.Route

open Sql
open List hiding lex

def IsRouteName (tokens : List Token) : Prop :=
  ∃ spaceName name, tokens = [.word spaceName, .punct '.', .word name] ∧
    eqIgnoreAsciiCase spaceName "pgprox" = true ∧ eqIgnoreAsciiCase name "route" = true

def isAssignOperator : Token → Bool
  | .punct c => c = '='
  | .word word => eqIgnoreAsciiCase word "to"
  | _ => false

inductive AssignsRoute : List Token → Prop
  | set {verb : List Char} {name value : List Token} {operator : Token} :
      eqIgnoreAsciiCase verb "set" = true → IsRouteName name → isAssignOperator operator = true →
        AssignsRoute (.word verb :: name ++ operator :: value)
  | reset {verb : List Char} {name : List Token} :
      eqIgnoreAsciiCase verb "reset" = true → IsRouteName name →
        AssignsRoute (.word verb :: name)

def RouteAlone (sql : List Char) : Prop :=
  ∃ part, statements sql = [part] ∧ AssignsRoute (tokensOf part)

def ResetsAll (sql : List Char) : Prop :=
  ∃ verb what, tokensOf sql = [.word verb, .word what] ∧
    eqIgnoreAsciiCase verb "reset" = true ∧ eqIgnoreAsciiCase what "all" = true

/-! ### The token walk -/

theorem routeParameter_eq_some {input after : List Char}
    (found : routeParameter input = some after) :
    ∃ name, IsRouteName name ∧ tokensOf input = name ++ tokensOf after := by
  unfold routeParameter at found
  split at found
  · rename_i spaceName afterName readSpace
    split at found
    · rename_i dot afterDot readDot
      split at found
      · rename_i name behind readName
        split at found
        · rename_i named
          obtain ⟨isSpace, rfl, isName⟩ := named
          cases found
          refine ⟨_, ⟨spaceName, name, rfl, isSpace, isName⟩, ?_⟩
          rw [tokensOf_of_next readSpace, tokensOf_of_next readDot, tokensOf_of_next readName]
          rfl
        · exact absurd found nofun
      · exact absurd found nofun
    · exact absurd found nofun
  · exact absurd found nofun

theorem afterOperator_eq_some {input after : List Char}
    (found : afterOperator input = some after) :
    ∃ operator, isAssignOperator operator = true ∧ tokensOf input = operator :: tokensOf after := by
  unfold afterOperator at found
  split at found
  · rename_i c behind read
    split at found
    · rename_i equals
      cases found
      exact ⟨.punct c, decide_eq_true equals, tokensOf_of_next read⟩
    · exact absurd found nofun
  · rename_i word behind read
    split at found
    · rename_i isTo
      cases found
      exact ⟨.word word, isTo, tokensOf_of_next read⟩
    · exact absurd found nofun
  · exact absurd found nofun

theorem statementIsExhausted_iff (input : List Char) :
    statementIsExhausted input = true ↔ tokensOf input = [] ∨ tokensOf input = [.semicolon] := by
  unfold statementIsExhausted
  cases read : Sql.next input with
  | none => exact iff_of_true rfl (.inl ((next_eq_none_iff input).mp read))
  | some taken =>
    obtain ⟨token, after⟩ := taken
    rw [tokensOf_of_next read]
    cases token with
    | semicolon =>
      rw [Option.isNone_iff_eq_none, next_eq_none_iff]
      simp
    | word | quoted | punct => simp

theorem isAll_iff (input : List Char) :
    isAll input = true ↔
      ∃ word, tokensOf input = [.word word] ∧ eqIgnoreAsciiCase word "all" = true := by
  unfold isAll
  split
  · rename_i word after read
    rw [tokensOf_of_next read, Bool.and_eq_true, Option.isNone_iff_eq_none, next_eq_none_iff]
    constructor
    · rintro ⟨all, last⟩
      exact ⟨word, by rw [last], all⟩
    · rintro ⟨other, same, all⟩
      obtain ⟨first, last⟩ := List.cons.inj same
      cases first
      exact ⟨all, last⟩
  · rename_i other
    refine iff_of_false Bool.false_ne_true ?_
    rintro ⟨word, same, -⟩
    obtain ⟨after, read, -⟩ := next_of_tokensOf same
    exact other word after read

theorem firstStatement_exhausted {lexemes : List Lexeme} :
    ∀ {input : List Char} (text : List Char), lex input = lexemes →
      (firstStatement text lexemes).2 = true →
        ∃ value, .semicolon ∉ value ∧
          (lexemes.map Lexeme.token = value ∨
            lexemes.map Lexeme.token = value ++ [.semicolon]) := by
  induction lexemes with
  | nil => exact fun _ _ _ => ⟨[], not_mem_nil, .inl rfl⟩
  | cons lexeme later ih =>
    intro input text shape exhausted
    obtain ⟨-, -, rest⟩ := lex_eq_cons shape
    unfold firstStatement at exhausted
    split at exhausted
    · rename_i separates
      have last : later.map Lexeme.token = [] := by
        rw [rest]
        exact (next_eq_none_iff _).mp (Option.isNone_iff_eq_none.mp exhausted)
      refine ⟨[], not_mem_nil, .inr ?_⟩
      rw [map_cons, separates, last]
      rfl
    · rename_i other
      obtain ⟨value, plain, same⟩ := ih text rest.symm exhausted
      refine ⟨lexeme.token :: value, ?_, ?_⟩
      · rw [mem_cons, not_or]
        exact ⟨Ne.symm other, plain⟩
      · exact same.imp (congrArg _) (congrArg _)

/-! ### What is consumed -/

theorem IsRouteName.plain {name : List Token} (named : IsRouteName name) :
    .semicolon ∉ name := by
  obtain ⟨spaceName, last, rfl, -⟩ := named
  simp

variable {sql : List Char}

theorem routeAlone_of_tokens {tokens : List Token} (assigns : AssignsRoute tokens)
    (plain : .semicolon ∉ tokens)
    (shape : tokensOf sql = tokens ∨ tokensOf sql = tokens ++ [.semicolon]) : RouteAlone sql := by
  have filled : tokens ≠ [] := by
    cases assigns with
    | set | reset => exact nofun
  obtain ⟨part, single, rfl⟩ := statements_eq_singleton plain filled shape
  exact ⟨part, single, assigns⟩

/-- Whatever is taken for a route assignment is one, or `RESET ALL`. -/
theorem routeAlone_of_parse {assignment : RouteAssignment}
    (parsed : parseRouteAssignment sql = some assignment) : ResetsAll sql ∨ RouteAlone sql := by
  unfold parseRouteAssignment at parsed
  split at parsed
  · rename_i verb rest read
    have tokens := tokensOf_of_next read
    split at parsed
    · rename_i resets
      split at parsed
      · rename_i all
        obtain ⟨what, same, everything⟩ := (isAll_iff rest).mp all
        exact .inl ⟨verb, what, by rw [tokens, same], resets, everything⟩
      · split at parsed
        · rename_i after found
          split at parsed
          · rename_i exhausted
            obtain ⟨name, named, same⟩ := routeParameter_eq_some found
            refine .inr (routeAlone_of_tokens (.reset resets named) ?_ ?_)
            · rw [mem_cons, not_or]
              exact ⟨nofun, named.plain⟩
            · rw [tokens, same]
              rcases (statementIsExhausted_iff after).mp exhausted with nothing | mark
              · exact .inl (by rw [nothing, append_nil])
              · exact .inr (by rw [mark]; rfl)
          · exact absurd parsed nofun
        · exact absurd parsed nofun
    · split at parsed
      · rename_i sets
        split at parsed
        · exact absurd parsed nofun
        · rename_i after found
          dsimp only at parsed
          split at parsed
          · rename_i exhausted
            obtain ⟨behind, foundName, foundOperator⟩ := Option.bind_eq_some_iff.mp found
            obtain ⟨name, named, same⟩ := routeParameter_eq_some foundName
            obtain ⟨operator, assigns, rest⟩ := afterOperator_eq_some foundOperator
            obtain ⟨value, plain, last⟩ := firstStatement_exhausted _ rfl exhausted
            change tokensOf (skipTrivia after) = value ∨
              tokensOf (skipTrivia after) = value ++ [.semicolon] at last
            rw [tokensOf_skipTrivia] at last
            have statement : AssignsRoute (.word verb :: name ++ operator :: value) :=
              .set sets named assigns
            refine .inr (routeAlone_of_tokens statement ?_ ?_)
            · rw [mem_append, mem_cons, mem_cons]
              rintro ((mark | inName) | mark | inValue)
              · exact absurd mark nofun
              · exact named.plain inName
              · exact absurd (mark ▸ assigns) nofun
              · exact plain inValue
            · rw [tokens, same, rest]
              rcases last with ends | mark
              · exact .inl (by rw [ends]; rfl)
              · exact .inr (by rw [mark]; simp)
          · exact absurd parsed nofun
      · exact absurd parsed nofun
  · exact absurd parsed nofun

theorem not_routeAlone_of_resetsAll (resets : ResetsAll sql) : ¬ RouteAlone sql := by
  obtain ⟨verb, what, tokens, -, -⟩ := resets
  obtain ⟨other, single, same⟩ :=
    statements_eq_singleton (by simp) (by simp) (.inl tokens)
  rintro ⟨part, alone, assigns⟩
  rw [single] at alone
  obtain rfl := (List.cons.inj alone).1
  rw [same] at assigns
  generalize written : [Token.word verb, Token.word what] = two at assigns
  cases assigns with
  | set _ named =>
    obtain ⟨spaceName, name, rfl, -⟩ := named
    exact absurd written (by simp)
  | reset _ named =>
    obtain ⟨spaceName, name, rfl, -⟩ := named
    exact absurd written (by simp)

theorem parse_of_resetsAll (resets : ResetsAll sql) : parseRouteAssignment sql = some .reset := by
  obtain ⟨verb, what, tokens, isReset, everything⟩ := resets
  obtain ⟨rest, read, last⟩ := next_of_tokensOf tokens
  unfold parseRouteAssignment
  rw [read]
  dsimp only
  rw [if_pos isReset, if_pos ((isAll_iff rest).mpr ⟨what, last, everything⟩)]

def Consumed (answer : Routed) : Prop :=
  answer = .hintAccepted ∨ answer = .hintRejected

theorem consumed_iff (router : SessionRouter) (sql : List Char) (inTransaction : Bool)
    (replicas : Replicas) (now : Nat) :
    Consumed (router.route sql inTransaction replicas now).2 ↔
      (parseRouteAssignment sql).isSome = true := by
  cases hint : parseRouteAssignment sql with
  | none =>
    obtain ⟨target, routed⟩ :=
      SessionRouter.route_of_statement hint router inTransaction replicas now
    rw [routed]
    refine iff_of_false ?_ nofun
    rintro (same | same)
    · exact absurd same nofun
    · exact absurd same nofun
  | some assignment =>
    refine iff_of_true ?_ rfl
    unfold SessionRouter.route
    rw [hint]
    cases assignment with
    | set | reset => exact .inl rfl
    | invalid => exact .inr rfl

/-- What the router keeps from the server is a route assignment alone, except for
`RESET ALL`. -/
theorem consumed_is_route_iff (router : SessionRouter) (sql : List Char) (inTransaction : Bool)
    (replicas : Replicas) (now : Nat) :
    (Consumed (router.route sql inTransaction replicas now).2 → RouteAlone sql) ↔
      ¬ ResetsAll sql := by
  rw [consumed_iff]
  constructor
  · intro alone resets
    have consumed : (parseRouteAssignment sql).isSome = true := by
      rw [parse_of_resetsAll resets]
      rfl
    exact not_routeAlone_of_resetsAll resets (alone consumed)
  · intro other consumed
    obtain ⟨assignment, parsed⟩ := Option.isSome_iff_exists.mp consumed
    exact (routeAlone_of_parse parsed).resolve_left other

theorem reset_all_is_consumed :
    Consumed (SessionRouter.new.route "RESET ALL".toList false ⟨0, []⟩ 0).2 ∧
      ¬ RouteAlone "RESET ALL".toList := by
  have resets : ResetsAll "RESET ALL".toList :=
    ⟨"RESET".toList, "ALL".toList, by decide +kernel, by decide +kernel, by decide +kernel⟩
  refine ⟨(consumed_iff _ _ _ _ _).mpr ?_, not_routeAlone_of_resetsAll resets⟩
  rfl

end Pgprox.Route
