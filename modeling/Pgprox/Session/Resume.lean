/-
Making a borrowed connection look like the session's own, and counting what the
server still owes.
-/

import Pgprox.Pool.Params
import Pgprox.Pool.Statements
import Pgprox.Proto.SessionState

namespace Pgprox.Session

open Proto Pools

structure SessionMemory where
  params : SessionParams
  statements : SessionStatements

def SessionMemory.new : SessionMemory where
  params := .new
  statements := ∅

def onAcquire (session : SessionMemory) (carried : SessionParams) : List Text :=
  session.params.replayOnto carried

def observeStatement (session : SessionStatements) (record : ConnectionStatements) (sql : Text) :
    SessionStatements × ConnectionStatements :=
  if deallocatesEverything sql then (session.closeAll, record.forgetAll) else (session, record)

def onClose (session : SessionStatements) (record : ConnectionStatements) (clientName : Text) :
    SessionStatements × ConnectionStatements :=
  match session.get clientName with
  | none => (session, record)
  | some closed => (session.close clientName, record.forget closed.global)

/-! ### What the server owes -/

inductive Owed
  | parse
  | bind
  | close
  | describe
  | execute
  deriving DecidableEq

def Owed.of : FrontendMessage → Option Owed
  | .parse .. => some .parse
  | .bind .. => some .bind
  | .close .. => some .close
  | .describe .. => some .describe
  | .execute .. => some .execute
  | _ => none

def Owed.dischargedBy : Owed → BackendMessage → Bool
  | .parse, .parseComplete => true
  | .bind, .bindComplete => true
  | .close, .closeComplete => true
  | .describe, .rowDescription _ => true
  | .describe, .noData => true
  | .execute, .commandComplete _ => true
  | .execute, .portalSuspended => true
  | .execute, .emptyQueryResponse => true
  | _, _ => false

structure Outstanding where
  owed : List Owed
  deriving DecidableEq

namespace Outstanding

def new : Outstanding where
  owed := []

def sent (outstanding : Outstanding) (message : FrontendMessage) : Outstanding where
  owed := outstanding.owed ++ (Owed.of message).toList

/-- Strict about order: a frame the head does not wait for discharges nothing. -/
def discharge (outstanding : Outstanding) (message : BackendMessage) : Outstanding :=
  match outstanding.owed with
  | [] => outstanding
  | head :: later => if head.dischargedBy message then ⟨later⟩ else outstanding

def received (outstanding : Outstanding) (message : BackendMessage) : Outstanding :=
  match message with
  -- the server abandons the rest of the sequence on an error
  | .errorResponse _ | .readyForQuery _ => .new
  | _ => outstanding.discharge message

def settled (outstanding : Outstanding) : Bool :=
  outstanding.owed.isEmpty

end Outstanding

end Pgprox.Session
