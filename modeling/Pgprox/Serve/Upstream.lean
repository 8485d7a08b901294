/-
Sending a client's frame to the server.

The proxy renames the statement a frame names, prepares on the connection what the frame is
about to assume, and remembers how many answers are to frames the client never sent.
-/

import Pgprox.Session.Resume

namespace Pgprox.Serve

open Proto Pools Session

/-! ### Names -/

/-- Puts the proxy's name for a statement into the frame.  Nothing when the session
never parsed the name. -/
def mapStatementName (session : SessionStatements) (message : FrontendMessage) :
    Option (SessionStatements × FrontendMessage) :=
  match message with
  | .parse statement sql =>
    -- the unnamed statement keeps its own name, which is no name
    if statement = [] then some (session.parse statement sql, message)
    else some (session.parse statement sql, .parse (GlobalName.forSql sql).text sql)
  | .bind portal statement arguments =>
    if statement = [] then some (session, message)
    else (session.get statement).map fun prepared =>
      (session, .bind portal prepared.global.text arguments)
  | .describe .statement name =>
    if name = [] then some (session, message)
    else (session.get name).map fun prepared =>
      (session, .describe .statement prepared.global.text)
  | .close .statement name =>
    if name = [] then some (session, message)
    else (session.get name).map fun prepared =>
      (session, .close .statement prepared.global.text)
  | _ => some (session, message)

def observe (session : SessionMemory) (message : FrontendMessage) :
    Option (SessionMemory × FrontendMessage) :=
  let params := match message.sql? with
    | some sql => session.params.observeStatement sql .default
    | none => session.params
  (mapStatementName session.statements message).map fun mapped =>
    (⟨params, mapped.1⟩, mapped.2)

/-! ### Preparing the connection -/

/-- What happened before the frame could be forwarded: frames of the proxy's own, and
how many of the answers are not the client's. -/
inductive Statement
  | nothing
  | prepared (injected : List FrontendMessage) (swallow : Nat)
  | alreadyPrepared
  deriving DecidableEq

def statementName : FrontendMessage → Option Text
  | .parse statement _ => some statement
  | .bind _ statement _ => some statement
  | _ => none

def isParse : FrontendMessage → Bool
  | .parse .. => true
  | _ => false

def evictFor (record : ConnectionStatements) (global : GlobalName) :
    ConnectionStatements × List FrontendMessage :=
  match record.prepareFor global with
  | (updated, .replay evict) => (updated, evict.map fun victim => .close .statement victim.text)
  | (updated, .alreadyHeld) => (updated, [])

def prepareUnnamed (record : ConnectionStatements) (message : FrontendMessage) (sql : Text) :
    ConnectionStatements × Bool :=
  (record.noteUnnamed sql, !(isParse message || record.holdsUnnamed sql))

def readyUnnamed (record : ConnectionStatements) (message : FrontendMessage) (sql : Text) :
    ConnectionStatements × Statement :=
  let (updated, owed) := prepareUnnamed record message sql
  (updated, if owed then .prepared [.parse [] sql] 1 else .nothing)

def readyNamed (record : ConnectionStatements) (message : FrontendMessage)
    (prepared : PreparedStatement) : ConnectionStatements × Statement :=
  if isParse message then
    if record.holds prepared.global then (record, .alreadyPrepared)
    else
      let (updated, closes) := evictFor record prepared.global
      (updated, .prepared closes closes.length)
  else if record.holds prepared.global then (record, .prepared [] 0)
  else
    let (updated, closes) := evictFor record prepared.global
    (updated,
      .prepared (closes ++ [.parse prepared.global.text prepared.sql]) (closes.length + 1))

def readyStatement (record : ConnectionStatements) (session : SessionStatements)
    (message : FrontendMessage) : ConnectionStatements × Statement :=
  match statementName message with
  | none => (record, .nothing)
  | some name =>
    match session.get name with
    | none => (record, .nothing)
    | some prepared =>
      if name = [] then readyUnnamed record message prepared.sql
      else readyNamed record message prepared

/-! ### Sending -/

structure Sent where
  session : SessionStatements
  record : ConnectionStatements
  upstream : List FrontendMessage
  swallow : Nat
  forwarded : Bool

def forgetFor (session : SessionStatements) (record : ConnectionStatements)
    (message : FrontendMessage) : SessionStatements × ConnectionStatements :=
  match message with
  | .query sql => observeStatement session record sql
  | .parse _ sql => observeStatement session record sql
  | .close .statement name => onClose session record name
  | _ => (session, record)

def sendUpstream (session : SessionStatements) (record : ConnectionStatements)
    (message onward : FrontendMessage) : Sent :=
  let (session, record) := forgetFor session record message
  match readyStatement record session message with
  | (updated, .nothing) => ⟨session, updated, [onward], 0, true⟩
  | (updated, .prepared injected swallow) =>
    ⟨session, updated, injected ++ [onward], swallow, true⟩
  | (updated, .alreadyPrepared) => ⟨session, updated, [], 0, false⟩

/-! ### What each frame sends -/

section Sending

variable {session : SessionStatements} {record : ConnectionStatements}

theorem mapStatementName_parse (session : SessionStatements) (name sql : Text) :
    mapStatementName session (.parse name sql) =
      some (session.parse name sql,
        .parse (if name = [] then [] else (GlobalName.forSql sql).text) sql) := by
  unfold mapStatementName
  by_cases named : name = []
  · subst named
    rfl
  · dsimp only
    rw [if_neg named, if_neg named]

theorem mapStatementName_bind (session : SessionStatements) (portal name arguments : Text) :
    mapStatementName session (.bind portal name arguments) =
      if name = [] then some (session, .bind portal name arguments)
      else (session.get name).map fun prepared =>
        (session, .bind portal prepared.global.text arguments) :=
  rfl

theorem mapStatementName_describe (session : SessionStatements) (name : Text) :
    mapStatementName session (.describe .statement name) =
      if name = [] then some (session, .describe .statement name)
      else (session.get name).map fun prepared =>
        (session, .describe .statement prepared.global.text) :=
  rfl

theorem mapStatementName_close (session : SessionStatements) (name : Text) :
    mapStatementName session (.close .statement name) =
      if name = [] then some (session, .close .statement name)
      else (session.get name).map fun prepared =>
        (session, .close .statement prepared.global.text) :=
  rfl

variable {name : Text}

theorem forgetFor_close_unknown (unknown : session.get name = none) :
    forgetFor session record (.close .statement name) = (session, record) := by
  unfold forgetFor onClose
  dsimp only
  rw [unknown]

variable {prepared : PreparedStatement}

theorem forgetFor_close_known (known : session.get name = some prepared) :
    forgetFor session record (.close .statement name) =
      (session.close name, record.forget prepared.global) := by
  unfold forgetFor onClose
  dsimp only
  rw [known]

theorem evictFor_of_not_held {global : GlobalName} (absent : record.holds global = false) :
    ∃ (updated : ConnectionStatements) (evict : List GlobalName),
      evictFor record global =
        (updated, (evict.map GlobalName.text).map fun name => .close .statement name) ∧
      updated.perConnectionCap = record.perConnectionCap ∧
      updated.unnamed = record.unnamed ∧
      (0 < record.perConnectionCap → ∀ other, updated.holds other =
        (other = global || (other ∉ evict && record.holds other))) := by
  obtain ⟨updated, evict, prepared, cap, unnamed, holds⟩ :=
    ConnectionStatements.prepareFor_of_not_held absent
  refine ⟨updated, evict, ?_, cap, unnamed, holds⟩
  unfold evictFor
  rw [prepared]
  rw [List.map_map]
  rfl

variable {message : FrontendMessage}

theorem readyNamed_held (held : record.holds prepared.global = true) :
    readyNamed record message prepared =
      (record, if isParse message then .alreadyPrepared else .prepared [] 0) := by
  unfold readyNamed
  split <;> rfl

theorem readyNamed_absent (absent : record.holds prepared.global = false) :
    readyNamed record message prepared =
      ((evictFor record prepared.global).1,
        if isParse message then
          .prepared (evictFor record prepared.global).2 (evictFor record prepared.global).2.length
        else
          .prepared
            ((evictFor record prepared.global).2 ++ [.parse prepared.global.text prepared.sql])
            ((evictFor record prepared.global).2.length + 1)) := by
  unfold readyNamed
  rw [absent]
  split <;> rfl

theorem sendUpstream_of_no_statement (plain : statementName message = none)
    (onward : FrontendMessage) :
    sendUpstream session record message onward =
      ⟨(forgetFor session record message).1, (forgetFor session record message).2, [onward], 0,
        true⟩ := by
  unfold sendUpstream readyStatement
  rw [plain]

section

variable {sql : Text} (keeps : deallocatesEverything sql = false)
include keeps

theorem forgetFor_parse :
    forgetFor session record (.parse name sql) = (session, record) := by
  unfold forgetFor observeStatement
  dsimp only
  rw [keeps]
  rfl

theorem sendUpstream_parse_unnamed (onward : FrontendMessage) :
    sendUpstream (session.parse [] sql) record (.parse [] sql) onward =
      ⟨session.parse [] sql, record.noteUnnamed sql, [onward], 0, true⟩ := by
  unfold sendUpstream readyStatement
  rw [forgetFor_parse keeps]
  rfl

theorem sendUpstream_parse_held
    (named : name ≠ []) (held : record.holds (.forSql sql) = true) (onward : FrontendMessage) :
    sendUpstream (session.parse name sql) record (.parse name sql) onward =
      ⟨session.parse name sql, record, [], 0, false⟩ := by
  unfold sendUpstream readyStatement
  rw [forgetFor_parse keeps]
  dsimp only [statementName]
  rw [SessionStatements.get_parse_if, if_pos rfl]
  dsimp only
  rw [if_neg named]
  rw [readyNamed_held held]
  rfl

theorem sendUpstream_parse_new
    (named : name ≠ []) (absent : record.holds (.forSql sql) = false) (onward : FrontendMessage) :
    sendUpstream (session.parse name sql) record (.parse name sql) onward =
      ⟨session.parse name sql, (evictFor record (.forSql sql)).1,
        (evictFor record (.forSql sql)).2 ++ [onward],
        (evictFor record (.forSql sql)).2.length, true⟩ := by
  unfold sendUpstream readyStatement
  rw [forgetFor_parse keeps]
  dsimp only [statementName]
  rw [SessionStatements.get_parse_if, if_pos rfl]
  dsimp only
  rw [if_neg named]
  rw [readyNamed_absent absent]
  rfl

end

variable {portal arguments : Text}

theorem sendUpstream_bind_missing (missing : session.get name = none) (onward : FrontendMessage) :
    sendUpstream session record (.bind portal name arguments) onward =
      ⟨session, record, [onward], 0, true⟩ := by
  unfold sendUpstream readyStatement
  dsimp only [forgetFor, statementName]
  rw [missing]

theorem sendUpstream_bind_unnamed (known : session.get [] = some prepared)
    (onward : FrontendMessage) :
    sendUpstream session record (.bind portal [] arguments) onward =
      if record.holdsUnnamed prepared.sql then
        ⟨session, record.noteUnnamed prepared.sql, [onward], 0, true⟩
      else
        ⟨session, record.noteUnnamed prepared.sql, [.parse [] prepared.sql, onward], 1, true⟩ := by
  unfold sendUpstream readyStatement
  dsimp only [forgetFor, statementName]
  rw [known]
  dsimp only
  unfold readyUnnamed prepareUnnamed
  cases holds : record.holdsUnnamed prepared.sql with
  | true | false => rfl

theorem sendUpstream_bind_held (named : name ≠ []) (known : session.get name = some prepared)
    (held : record.holds prepared.global = true) (onward : FrontendMessage) :
    sendUpstream session record (.bind portal name arguments) onward =
      ⟨session, record, [onward], 0, true⟩ := by
  unfold sendUpstream readyStatement
  dsimp only [forgetFor, statementName]
  rw [known]
  dsimp only
  rw [if_neg named]
  rw [readyNamed_held held]
  rfl

theorem sendUpstream_bind_new (named : name ≠ []) (known : session.get name = some prepared)
    (absent : record.holds prepared.global = false) (onward : FrontendMessage) :
    sendUpstream session record (.bind portal name arguments) onward =
      ⟨session, (evictFor record prepared.global).1,
        (evictFor record prepared.global).2 ++
          [.parse prepared.global.text prepared.sql] ++ [onward],
        ((evictFor record prepared.global).2 ++
          [FrontendMessage.parse prepared.global.text prepared.sql]).length, true⟩ := by
  unfold sendUpstream readyStatement
  dsimp only [forgetFor, statementName]
  rw [known]
  dsimp only
  rw [if_neg named]
  rw [readyNamed_absent absent, List.length_append]
  rfl

end Sending

/-! ### The last `Parse` of a name -/

def lastParse (name : Text) (frames : List FrontendMessage) : Option Text :=
  frames.foldl (fun known message => match message with
    | .parse statement sql => if statement = name then some sql else known
    | _ => known) none

@[simp] theorem lastParse_append_singleton (name : Text) (frames : List FrontendMessage)
    (message : FrontendMessage) :
    lastParse name (frames ++ [message]) = match message with
      | .parse statement sql => if statement = name then some sql else lastParse name frames
      | _ => lastParse name frames := by
  unfold lastParse
  rw [List.foldl_append]
  cases message <;> rfl

theorem lastParse_append_of_not_parse {message : FrontendMessage} (other : isParse message = false)
    (name : Text) (frames : List FrontendMessage) :
    lastParse name (frames ++ [message]) = lastParse name frames := by
  rw [lastParse_append_singleton]
  cases message with
  | parse _ _ => cases other
  | _ => rfl

def Known (statements : SessionStatements) (frames : List FrontendMessage) : Prop :=
  ∀ name prepared, statements.get name = some prepared →
    lastParse name frames = some prepared.sql

theorem Known.mono {statements fewer : SessionStatements} {frames : List FrontendMessage}
    (known : Known statements frames)
    (kept : ∀ name prepared, fewer.get name = some prepared →
      statements.get name = some prepared) :
    Known fewer frames :=
  fun name prepared found => known name prepared (kept name prepared found)

section Mapping

variable {statements mapped : SessionStatements} {frames : List FrontendMessage}
  {message onward : FrontendMessage}

theorem mapped_of_choice {name : Text} {unnamed : FrontendMessage}
    {other : PreparedStatement → FrontendMessage}
    (known : (if name = [] then some (statements, unnamed) else
      (statements.get name).map fun prepared => (statements, other prepared)) =
        some (mapped, onward)) :
    mapped = statements := by
  split at known
  · exact (Prod.mk.inj (Option.some.inj known)).1.symm
  · obtain ⟨prepared, -, same⟩ := Option.map_eq_some_iff.mp known
    exact (Prod.mk.inj same).1.symm

theorem mapStatementName_statements
    (named : mapStatementName statements message = some (mapped, onward)) :
    mapped = match message with
      | .parse name sql => statements.parse name sql
      | _ => statements := by
  cases message with
  | parse name sql =>
    rw [mapStatementName_parse] at named
    exact (Prod.mk.inj (Option.some.inj named)).1.symm
  | bind portal name arguments => exact mapped_of_choice named
  | describe target name =>
    cases target with
    | portal => exact (Prod.mk.inj (Option.some.inj named)).1.symm
    | statement => exact mapped_of_choice named
  | close target name =>
    cases target with
    | portal => exact (Prod.mk.inj (Option.some.inj named)).1.symm
    | statement => exact mapped_of_choice named
  | _ => exact (Prod.mk.inj (Option.some.inj named)).1.symm

section

variable (known : Known statements frames)
  (named : mapStatementName statements message = some (mapped, onward))
include known named

theorem Known.map
    (latest : ∀ name sql, message = .parse name sql → lastParse name frames = some sql) :
    Known mapped frames := by
  rw [mapStatementName_statements named]
  cases message with
  | parse name sql =>
    intro asked prepared found
    rw [SessionStatements.get_parse_if] at found
    split at found
    · rename_i same
      rw [same, ← Option.some.inj found]
      exact latest name sql rfl
    · exact known asked prepared found
  | _ => exact known

theorem Known.read :
    Known mapped (frames ++ [message]) := by
  rw [mapStatementName_statements named]
  intro asked prepared found
  rw [lastParse_append_singleton]
  cases message with
  | parse name sql =>
    dsimp only at found ⊢
    rw [SessionStatements.get_parse_if] at found
    split at found
    · rename_i same
      rw [if_pos same.symm, ← Option.some.inj found]
      rfl
    · rename_i other
      rw [if_neg fun same => other same.symm]
      exact known asked prepared found
  | _ => exact known asked prepared found

end

theorem Known.observe {session memory : SessionMemory} (known : Known session.statements frames)
    (observed : observe session message = some (memory, onward)) :
    Known memory.statements (frames ++ [message]) := by
  obtain ⟨mapped, named, same⟩ := Option.map_eq_some_iff.mp observed
  obtain ⟨rfl, -⟩ := Prod.mk.inj same
  exact known.read named

theorem Known.refused (known : Known statements frames)
    (refused : mapStatementName statements message = none) :
    Known statements (frames ++ [message]) := by
  intro name prepared found
  rw [lastParse_append_of_not_parse ?_]
  · exact known name prepared found
  · cases message with
    | parse name sql =>
      rw [mapStatementName_parse] at refused
      cases refused
    | _ => rfl

theorem forgetFor_get {record : ConnectionStatements} {name : Text} {prepared : PreparedStatement}
    (found : (forgetFor statements record message).1.get name = some prepared) :
    statements.get name = some prepared := by
  have all {sql : Text}
      (found : (observeStatement statements record sql).1.get name = some prepared) :
      statements.get name = some prepared := by
    unfold observeStatement at found
    split at found
    · cases found
    · exact found
  cases message with
  | query | parse => exact all found
  | close target closing =>
    cases target with
    | portal => exact found
    | statement =>
      change (onClose statements record closing).1.get name = some prepared at found
      unfold onClose at found
      split at found
      · exact found
      · rw [SessionStatements.get_close_if] at found
        split at found
        · cases found
        · exact found
  | _ => exact found

end Mapping

theorem sendUpstream_session (statements : SessionStatements) (record : ConnectionStatements)
    (message onward : FrontendMessage) :
    (sendUpstream statements record message onward).session =
      (forgetFor statements record message).1 := by
  unfold sendUpstream
  dsimp only
  split
  · rfl
  · rfl
  · rfl

/-! ### Reading the answer -/

def awaitsMore : FrontendMessage → Bool
  | .parse .. | .bind .. | .describe .. | .execute .. | .close .. => true
  | _ => false

structure Pumping where
  swallow : Nat
  owed : Outstanding
  deriving DecidableEq

namespace Pumping

def new : Pumping where
  swallow := 0
  owed := .new

def swallowOne (pumping : Pumping) (message : BackendMessage) : Option Pumping :=
  match message with
  | .parseComplete | .closeComplete =>
    if 0 < pumping.swallow then some { pumping with swallow := pumping.swallow - 1 } else none
  | _ => none

end Pumping

end Pgprox.Serve
