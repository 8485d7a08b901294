/-
When a session must keep its upstream connection.

Some statements attach state to the connection itself.  From the first of them on the
session is pinned, and nothing unpins it.
-/

import Pgprox.Sql.Lexer

namespace Pgprox.Pools

open Sql

inductive PinReason
  | listen
  | advisoryLock
  | tempTable
  | withHold
  | prepare
  | unreplayableSet
  | requested
  deriving DecidableEq

structure Replayable where
  names : List String
  deriving DecidableEq

namespace Replayable

def default : Replayable where
  names :=
    ["search_path", "timezone", "application_name", "statement_timeout", "datestyle",
      "extra_float_digits", "client_encoding", "lock_timeout",
      "idle_in_transaction_session_timeout", "default_transaction_isolation",
      "default_transaction_read_only", "default_transaction_deferrable", "intervalstyle",
      "bytea_output", "standard_conforming_strings"]

def contains (allowlist : Replayable) (name : List Char) : Bool :=
  allowlist.names.any fun listed => listed.toList = name

end Replayable

def bareName (word : List Char) : List Char :=
  (word.reverse.takeWhile fun c => c ≠ '.').reverse

def isSessionAdvisoryLock (word : List Char) : Bool :=
  let name := bareName word
  (startsWith name "pg_advisory" || startsWith name "pg_try_advisory") &&
    (findText "_xact_".toList name).isNone

def hasAdjacentPair (words : List (List Char)) (first second : String) : Bool :=
  (words.zip words.tail).any fun pair => pair.1 = first.toList && pair.2 = second.toList

def quotedParameterName (statement : List Char) : Bool :=
  match lex statement with
  | _ :: second :: later =>
    match second.token with
    | .word word =>
      if eqIgnoreAsciiCase word "session" then
        match later with
        | third :: _ => third.token = .quoted
        | [] => false
      else false
    | .quoted => true
    | _ => false
  | _ => false

def wordsOf (statement : List Char) : List (List Char) :=
  ((statementWords statement true).head?).getD []

def namePinReason (name : Option (List Char)) (allowlist : Replayable) : Option PinReason :=
  match name with
  | none => none
  | some name =>
    if name = "transaction".toList ∨ name = "constraints".toList then none
    else if name = "pgprox.pin".toList then some .requested
    else if startsWith name "pgprox." then none
    else if allowlist.contains name then none
    else some .unreplayableSet

def setPinReason (statement : List Char) (words : List (List Char)) (allowlist : Replayable) :
    Option PinReason :=
  let rest := words.tail
  if rest.head? = some "session".toList then
    if quotedParameterName statement then some .unreplayableSet
    else namePinReason rest.tail.head? allowlist
  else if rest.head? = some "local".toList then none
  else if quotedParameterName statement then some .unreplayableSet
  else namePinReason rest.head? allowlist

def statementPinReason (statement : List Char) (allowlist : Replayable) : Option PinReason :=
  let words := wordsOf statement
  match words.head? with
  | none => none
  | some first =>
    if first = "listen".toList ∨ first = "unlisten".toList then some .listen
    else if first = "prepare".toList then some .prepare
    else if first = "declare".toList ∧ hasAdjacentPair words "with" "hold" then some .withHold
    else if words.any fun w => w = "temp".toList || w = "temporary".toList ||
        w = "pg_temp".toList || startsWith w "pg_temp." then some .tempTable
    else if words.any isSessionAdvisoryLock then some .advisoryLock
    else if first = "set".toList then setPinReason statement words allowlist
    else none

def pinReason (sql : List Char) (allowlist : Replayable) : Option PinReason :=
  (statements sql).findSome? fun statement => statementPinReason statement allowlist

structure PinState where
  reason : Option PinReason
  deriving DecidableEq

namespace PinState

def new : PinState where
  reason := none

def isPinned (state : PinState) : Bool :=
  state.reason.isSome

def pin (state : PinState) (reason : PinReason) : PinState × Bool :=
  if state.reason.isSome then (state, false) else (⟨some reason⟩, true)

def observeStatement (state : PinState) (sql : List Char) (allowlist : Replayable) :
    PinState × Option PinReason :=
  if state.isPinned then (state, none)
  else
    match pinReason sql allowlist with
    | none => (state, none)
    | some reason => (⟨some reason⟩, some reason)

def observeNotification (state : PinState) : PinState × Option PinReason :=
  ((state.pin .listen).1, if (state.pin .listen).2 then some .listen else none)

end PinState

end Pgprox.Pools
