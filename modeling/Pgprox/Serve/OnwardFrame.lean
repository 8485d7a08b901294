/-
The frame that goes upstream for a frame of the client's.

A statement has another name on the wire; every other byte of the frame is the client's.
-/

import Pgprox.Proto.Rewrite
import Pgprox.Serve.StatementMeaning

namespace Pgprox.Serve

open Sql Proto Pools Route Session Cache Topologies
open List hiding lex

/-! ### The frame that goes upstream -/

/-- The frame with the name that a statement of this SQL has on the wire. -/
def renamed (sql : Text) : FrontendMessage → FrontendMessage
  | .parse name text => .parse (wireName name sql) text
  | .bind portal name arguments => .bind portal (wireName name sql) arguments
  | .describe .statement name => .describe .statement (wireName name sql)
  | .close .statement name => .close .statement (wireName name sql)
  | message => message

def statementNamed : FrontendMessage → Text
  | .parse name _ | .bind _ name _ => name
  | .describe .statement name | .close .statement name => name
  | _ => []

def onwardBody (message : FrontendMessage) (body name : List UInt8) : Option (List UInt8) :=
  match message with
  | .parse statement _ => if statement = [] then some body else parseStatement body name
  | .bind _ statement _ => if statement = [] then some body else bindStatement body name
  | .describe .statement statement | .close .statement statement =>
    if statement = [] then some body else describedStatement body name
  | _ => some body

/-- Where the statement name stands: first in a `Parse`, after the portal in a `Bind`, after
the letter in a `Describe` or a `Close`. -/
def statementAt (message : FrontendMessage) (body : List UInt8) :
    Option (List UInt8 × List UInt8 × List UInt8) :=
  match message with
  | .parse _ _ => cstringAt 0 body
  | .bind _ _ _ => cstringAt (portalEnd body) body
  | .describe .statement _ | .close .statement _ =>
    if describesStatement body then cstringAt 1 body else none
  | _ => none

/-- The body that goes out with the frame `onward` is the client's, byte for byte, except that
where the client named a statement the name is the one `onward` has. -/
def KeepsBytes (incoming : Incoming) (onward : FrontendMessage) : Prop :=
  let written := onwardBody incoming.message incoming.frame.body (utf8 (statementNamed onward))
  (statementNamed incoming.message = [] →
    onward = incoming.message ∧ written = some incoming.frame.body) ∧
  (statementNamed incoming.message ≠ [] →
    written = (statementAt incoming.message incoming.frame.body).map
      (putCstring (utf8 (statementNamed onward))))

theorem onwardBody_named {message : FrontendMessage} {body name : List UInt8}
    (named : statementNamed message ≠ []) (clean : 0 ∉ name) :
    onwardBody message body name = (statementAt message body).map (putCstring name) := by
  cases message with
  | parse statement sql => exact (if_neg named).trans (replaceCstring_eq clean)
  | bind portal statement arguments => exact (if_neg named).trans (bindStatement_eq clean)
  | describe target statement =>
    cases target with
    | statement => exact (if_neg named).trans (describedStatement_eq clean)
    | portal => exact absurd rfl named
  | close target statement =>
    cases target with
    | statement => exact (if_neg named).trans (describedStatement_eq clean)
    | portal => exact absurd rfl named
  | _ => exact absurd rfl named

theorem onwardBody_unnamed {message : FrontendMessage} {body name : List UInt8}
    (unnamed : statementNamed message = []) : onwardBody message body name = some body := by
  cases message with
  | parse statement sql => exact if_pos unnamed
  | bind portal statement arguments => exact if_pos unnamed
  | describe target statement =>
    cases target with
    | statement => exact if_pos unnamed
    | portal => rfl
  | close target statement =>
    cases target with
    | statement => exact if_pos unnamed
    | portal => rfl
  | _ => rfl

theorem zero_notMem_utf8_hex16 (n : Nat) : 0 ∉ utf8 (hex16 n) := by
  have digit : ∀ value < 16, 0 ∉ String.utf8EncodeChar (Nat.digitChar value) := by decide
  simp only [utf8, hex16, mem_flatMap, mem_map, not_exists, not_and]
  rintro _ ⟨place, -, rfl⟩
  exact digit _ (Nat.mod_lt _ (by decide))

theorem zero_notMem_wireName (statement sql : Text) : 0 ∉ utf8 (wireName statement sql) := by
  unfold wireName
  split
  · exact not_mem_nil
  · have split (one two : Text) : utf8 (one ++ two) = utf8 one ++ utf8 two := flatMap_append
    change 0 ∉ utf8 ("pgprox_".toList ++ hex16 _ ++ hex16 _)
    rw [split, split, mem_append, mem_append]
    exact not_or.mpr ⟨not_or.mpr ⟨by decide, zero_notMem_utf8_hex16 _⟩, zero_notMem_utf8_hex16 _⟩

theorem statementNamed_renamed (sql : Text) (message : FrontendMessage) :
    statementNamed (renamed sql message) = wireName (statementNamed message) sql := by
  cases message with
  | describe target statement => cases target <;> rfl
  | close target statement => cases target <;> rfl
  | _ => rfl

theorem renamed_unnamed {sql : Text} {message : FrontendMessage}
    (unnamed : statementNamed message = []) : renamed sql message = message := by
  cases message with
  | parse statement text => cases unnamed; rfl
  | bind portal statement arguments => cases unnamed; rfl
  | describe target statement =>
    cases target with
    | statement => cases unnamed; rfl
    | portal => rfl
  | close target statement =>
    cases target with
    | statement => cases unnamed; rfl
    | portal => rfl
  | _ => rfl

theorem keepsBytes_renamed (incoming : Incoming) (sql : Text) :
    KeepsBytes incoming (renamed sql incoming.message) := by
  refine ⟨fun unnamed => ⟨renamed_unnamed unnamed, onwardBody_unnamed unnamed⟩, ?_⟩
  intro named
  refine onwardBody_named named ?_
  rw [statementNamed_renamed]
  exact zero_notMem_wireName _ _

theorem wireName_of_choice {name : Text} {form : Text → FrontendMessage}
    {statements mapped : SessionStatements} {onward : FrontendMessage}
    (chosen : (if name = [] then some (statements, form name)
      else (statements.get name).map fun prepared => (statements, form prepared.global.text)) =
        some (mapped, onward)) :
    ∃ sql, onward = form (wireName name sql) := by
  split at chosen
  · rename_i unnamed
    cases chosen
    exact ⟨[], by rw [wireName, if_pos unnamed, unnamed]⟩
  · rename_i named
    obtain ⟨prepared, -, same⟩ := Option.map_eq_some_iff.mp chosen
    cases same
    exact ⟨prepared.sql, by rw [wireName, if_neg named, prepared.named]⟩

theorem renamed_of_map {statements mapped : SessionStatements}
    {message onward : FrontendMessage}
    (named : mapStatementName statements message = some (mapped, onward)) :
    ∃ sql, onward = renamed sql message := by
  cases message with
  | parse statement sql =>
    rw [mapStatementName_parse] at named
    exact ⟨sql, (congrArg Prod.snd (Option.some.inj named)).symm⟩
  | bind portal statement arguments =>
    exact @wireName_of_choice _ (.bind portal · arguments) _ _ _ named
  | describe target statement =>
    cases target with
    | portal => exact ⟨[], (congrArg Prod.snd (Option.some.inj named)).symm⟩
    | statement => exact @wireName_of_choice _ (.describe .statement ·) _ _ _ named
  | close target statement =>
    cases target with
    | portal => exact ⟨[], (congrArg Prod.snd (Option.some.inj named)).symm⟩
    | statement => exact @wireName_of_choice _ (.close .statement ·) _ _ _ named
  | _ => exact ⟨[], (congrArg Prod.snd (Option.some.inj named)).symm⟩

end Pgprox.Serve
