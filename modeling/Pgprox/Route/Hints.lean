/-
Explicit routing instructions: `SET pgprox.route` for the session and a leading
comment for one statement.
-/

import Pgprox.Sql.Lexer

namespace Pgprox.Route

open Sql

inductive RouteHint
  | auto
  | primary
  | replica
  deriving DecidableEq

def parseHintValue (value : List Char) : Option RouteHint :=
  let lowered := toAsciiLowercase (unquote (trim value))
  if lowered = "auto".toList ∨ lowered = "default".toList then some .auto
  else if lowered = "primary".toList ∨ lowered = "writer".toList ∨
      lowered = "master".toList then some .primary
  else if lowered = "replica".toList ∨ lowered = "reader".toList ∨
      lowered = "standby".toList then some .replica
  else none

inductive RouteAssignment
  | set (hint : RouteHint)
  | invalid
  | reset
  deriving DecidableEq

def routeParameter (input : List Char) : Option (List Char) :=
  match next input with
  | some (.word spaceName, afterName) =>
    match next afterName with
    | some (.punct dot, afterDot) =>
      match next afterDot with
      | some (.word name, after) =>
        if eqIgnoreAsciiCase spaceName "pgprox" ∧ dot = '.' ∧
          eqIgnoreAsciiCase name "route" then some after
        else none
      | _ => none
    | _ => none
  | _ => none

def statementIsExhausted (input : List Char) : Bool :=
  match next input with
  | none => true
  | some (.semicolon, after) => (next after).isNone
  | some _ => false

def firstStatement (text : List Char) : List Lexeme → List Char × Bool
  | [] => (text, true)
  | lexeme :: later =>
    if lexeme.token = .semicolon then
      (text.take (text.length - lexeme.before.length), (next lexeme.after).isNone)
    else firstStatement text later

def isAll (input : List Char) : Bool :=
  match next input with
  | some (.word word, after) => eqIgnoreAsciiCase word "all" && (next after).isNone
  | _ => false

def afterOperator (input : List Char) : Option (List Char) :=
  match next input with
  | some (.punct c, after) => if c = '=' then some after else none
  | some (.word word, after) => if eqIgnoreAsciiCase word "to" then some after else none
  | _ => none

def parseRouteAssignment (sql : List Char) : Option RouteAssignment :=
  match next sql with
  | some (.word verb, rest) =>
    if eqIgnoreAsciiCase verb "reset" then
      if isAll rest then some .reset
      else
        match routeParameter rest with
        | some after => if statementIsExhausted after then some .reset else none
        | none => none
    else if eqIgnoreAsciiCase verb "set" then
      match (routeParameter rest).bind afterOperator with
      | none => none
      | some after =>
        let (value, exhausted) := firstStatement (skipTrivia after) (lex (skipTrivia after))
        -- another statement in the same message is not this one's to consume
        if exhausted then
          some (match parseHintValue (trim value) with
            | some hint => .set hint
            | none => .invalid)
        else none
    else none
  | _ => none

def hintFromComment (body : List Char) : Option RouteHint :=
  let trimmed := trim body
  if startsWith trimmed "pgprox:" then
    let value := (trimmed.drop 7).reverse.dropWhile (fun c => c = '*' || c = '/')
    parseHintValue (trim value.reverse)
  else none

def splitBlockComment (depth taken : Nat) (input : List Char) :
    List Char → Option (List Char × List Char)
  | '/' :: '*' :: rest => splitBlockComment (depth + 1) (taken + 2) input rest
  | '*' :: '/' :: rest =>
    if depth = 1 then some ((input.take taken).drop 2, rest)
    else splitBlockComment (depth - 1) (taken + 2) input rest
  | _ :: rest => splitBlockComment depth (taken + 1) input rest
  | [] => none

def statementHintWithin : Nat → List Char → Option RouteHint
  | 0, _ => none
  | fuel + 1, rest =>
    if (trimStart rest).length ≠ rest.length then statementHintWithin fuel (trimStart rest)
    else if startsWith rest "--" then
      let line := (rest.drop 2).takeWhile fun c => c ≠ '\n'
      match hintFromComment line with
      | some hint => some hint
      | none => statementHintWithin fuel ((rest.drop 2).drop (line.length + 1))
    else if startsWith rest "/*" then
      match splitBlockComment 0 0 rest rest with
      | none => none
      | some (body, remainder) =>
        match hintFromComment body with
        | some hint => some hint
        | none => statementHintWithin fuel remainder
    else none

def statementHint (sql : List Char) : Option RouteHint :=
  statementHintWithin (sql.length + 1) sql

end Pgprox.Route
