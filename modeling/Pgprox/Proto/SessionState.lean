/-
The messages of the protocol, and when an upstream connection may be released.

A frame carries what the proxy reads from it; what it forwards untouched is one
field.  Completions that the source leaves undecoded have their own constructors
here, because the proxy tells them apart by tag.
-/

import Pgprox.Core.Basic

namespace Pgprox.Proto

inductive TxStatus
  | idle
  | inTransaction
  | failed
  deriving DecidableEq

inductive Target
  | statement
  | portal
  deriving DecidableEq

inductive FrontendMessage
  | query (sql : Text)
  | parse (statement : Text) (sql : Text)
  | bind (portal : Text) (statement : Text) (arguments : Text)
  | execute (portal : Text) (maxRows : Nat)
  | describe (target : Target) (name : Text)
  | close (target : Target) (name : Text)
  | sync
  | flush
  | terminate
  | password
  | functionCall
  | copyData
  | copyDone
  | copyFail
  | other
  deriving DecidableEq

namespace FrontendMessage

def sql? : FrontendMessage → Option Text
  | .query sql => some sql
  | .parse _ sql => some sql
  | _ => none

def startsExtendedSequence : FrontendMessage → Bool
  | .parse .. | .bind .. | .execute .. | .describe .. | .close .. => true
  | _ => false

end FrontendMessage

inductive BackendMessage
  | readyForQuery (status : TxStatus)
  | parseComplete
  | bindComplete
  | closeComplete
  | parameterDescription (body : Text)
  | rowDescription (body : Text)
  | noData
  | dataRow (body : Text)
  | commandComplete (tag : Text)
  | emptyQueryResponse
  | portalSuspended
  | errorResponse (body : Text)
  | noticeResponse (body : Text)
  | notificationResponse (body : Text)
  | parameterStatus (name : Text) (value : Text)
  | copyInResponse
  | copyOutResponse
  | copyBothResponse
  | copyDone
  | other
  deriving DecidableEq

inductive CopyDirection
  | into
  | out
  | both
  deriving DecidableEq

inductive HoldReason
  | inTransaction
  | failedTransaction
  | extendedSequence
  | copy (direction : CopyDirection)
  | authenticating
  deriving DecidableEq

structure SessionState where
  txStatus : TxStatus
  inSequence : Bool
  copy : Option CopyDirection
  readySeen : Bool
  deriving DecidableEq

namespace SessionState

def new : SessionState where
  txStatus := .idle
  inSequence := false
  copy := none
  readySeen := false

def holdReason (state : SessionState) : Option HoldReason :=
  if !state.readySeen then some .authenticating
  else
    match state.txStatus with
    | .inTransaction => some .inTransaction
    | .failed => some .failedTransaction
    | .idle =>
      match state.copy with
      | some direction => some (.copy direction)
      | none => if state.inSequence then some .extendedSequence else none

def isReleasable (state : SessionState) : Bool :=
  state.holdReason.isNone

def onFrontend (state : SessionState) (message : FrontendMessage) : SessionState :=
  match message with
  | .copyDone | .copyFail =>
    if state.copy = some .into then { state with copy := none } else state
  -- `Sync` alone does not end the sequence: the `ReadyForQuery` it asks for does
  | .sync => state
  | _ => if message.startsExtendedSequence then { state with inSequence := true } else state

def onBackend (state : SessionState) : BackendMessage → SessionState
  | .readyForQuery status =>
    { txStatus := status, inSequence := false, copy := none, readySeen := true }
  | .copyInResponse => { state with copy := some .into }
  | .copyOutResponse => { state with copy := some .out }
  | .copyBothResponse => { state with copy := some .both }
  | .copyDone => { state with copy := none }
  | _ => state

end SessionState

end Pgprox.Proto
