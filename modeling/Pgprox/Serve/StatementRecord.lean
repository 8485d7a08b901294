/-
The record of a connection's statements against the server at its other end.

The record is written when a frame is sent, and the server may still reject the frame, skip
it or find that it does something else.
-/

import Pgprox.Library.Run
import Pgprox.Serve.Server
import Pgprox.Serve.Upstream

namespace Pgprox.Serve

open Proto Pools Session

/-! ### What a frame leaves alone on the server -/

namespace Server

variable {engine : Engine}

def KeepsNamed (before after : Server engine) : Prop :=
  ∀ name ≠ [], after.statements.lookup name = before.statements.lookup name

theorem KeepsNamed.of_eq {before after : Server engine}
    (same : after.statements = before.statements) : before.KeepsNamed after := by
  intro name _named
  rw [same]

theorem KeepsNamed.trans {first second third : Server engine}
    (earlier : first.KeepsNamed second) (later : second.KeepsNamed third) :
    first.KeepsNamed third := by
  intro name named
  rw [later name named, earlier name named]

theorem keepsNamed_parse_unnamed (server : Server engine) (sql : Text) :
    server.KeepsNamed (server.parse [] sql).1 := by
  unfold parse
  cases engine.parse server.state sql with
  | error reason =>
    intro name named
    exact AList.lookup_erase_ne named
  | ok state =>
    intro name named
    exact AList.lookup_insert_ne named

def QueryDiscards (server : Server engine) (sql : Text) : Prop :=
  server.skipping = false ∧ (engine.query server.state sql).discards = true

variable {server : Server engine}

theorem keepsNamed_query {sql : Text} (listens : server.skipping = false)
    (keeps : ¬ server.QueryDiscards sql) : server.KeepsNamed (server.query sql).1 := by
  intro name named
  have stays : ¬ (engine.query server.state sql).discards = true := fun discards =>
    keeps ⟨listens, discards⟩
  unfold query
  dsimp only
  rw [if_neg stays]
  exact AList.lookup_erase_ne named

theorem KeepsNamed.of_skipping {message : FrontendMessage} (skips : server.skipping = true)
    (inside : message ≠ .sync) : server.KeepsNamed (server.serve message).1 := by
  rw [serve_of_skipping skips inside]
  exact .of_eq rfl

theorem KeepsNamed.of_process {message : FrontendMessage} (inside : message ≠ .sync)
    (processed : server.skipping = false → server.KeepsNamed (server.process message).1) :
    server.KeepsNamed (server.serve message).1 := by
  cases skips : server.skipping with
  | true => exact .of_skipping skips inside
  | false =>
    rw [serve_eq_process skips inside]
    exact processed skips

end Server

/-! ### Sessions taking turns on one connection -/

structure Shared (engine : Engine) where
  server : Server engine
  record : ConnectionStatements
  sessions : Nat → SessionStatements
  ready : Bool

inductive ShareEvent
  | frame (session : Nat) (message : FrontendMessage)
  | replay (sql : Text)
  | elsewhere (session : Nat) (statements : SessionStatements)

def endsReady (answers : List BackendMessage) : Bool :=
  match answers.getLast? with
  | some (.readyForQuery _) => true
  | _ => false

namespace Shared

variable {engine : Engine}

def start (state : engine.State) (perConnectionCap : Nat) : Shared engine where
  server := { state := state, statements := ∅, portals := ∅, skipping := false }
  record := .new perConnectionCap
  sessions := fun _ => ∅
  ready := true

def frame (shared : Shared engine) (session : Nat) (message : FrontendMessage) :
    Shared engine :=
  match mapStatementName (shared.sessions session) message with
  -- a name the session never parsed: the client is refused, and nothing is sent
  | none => shared
  | some mapped =>
    let sent := sendUpstream mapped.1 shared.record message mapped.2
    let served := shared.server.serveAll sent.upstream
    { server := served.1
      record := sent.record
      sessions := Function.update shared.sessions session sent.session
      ready := endsReady served.2 }

def step (shared : Shared engine) : ShareEvent → Shared engine
  | .frame session message => shared.frame session message
  | .replay sql =>
    let served := shared.server.serve (.query sql)
    { shared with server := served.1, ready := endsReady served.2 }
  | .elsewhere session statements =>
    { shared with sessions := Function.update shared.sessions session statements }

/-- Every global name is in the record exactly when the server has a statement of that
name. -/
def Agrees (record : ConnectionStatements) (server : Server engine) : Prop :=
  ∀ sql, record.holds (.forSql sql) =
    (server.statements.lookup (GlobalName.forSql sql).text).isSome

/-- A statement sent now would be created and recorded: nothing has failed since the
last `Sync`, the record has room for at least one, and the server accepts the SQL. -/
def Takes (shared : Shared engine) (sql : Text) : Prop :=
  shared.server.skipping = false ∧ 0 < shared.record.perConnectionCap ∧
    ∃ state, engine.parse shared.server.state sql = .ok state

/-- The server will do with the frame what the proxy writes down when it sends it. -/
def Foreseen (shared : Shared engine) (session : Nat) : FrontendMessage → Prop
  | .parse name sql =>
    deallocatesEverything sql = false ∧
      (name = [] ∨ shared.record.holds (.forSql sql) = true ∨ shared.Takes sql)
  | .bind _ name _ =>
    ∀ prepared, (shared.sessions session).get name = some prepared →
      name = [] ∨ shared.record.holds prepared.global = true ∨ shared.Takes prepared.sql
  | .close .statement name =>
    ∀ prepared, (shared.sessions session).get name = some prepared →
      shared.record.holds prepared.global = false ∨
        (name ≠ [] ∧ shared.server.skipping = false)
  | .query sql => shared.server.QueryDiscards sql ↔ deallocatesEverything sql = true
  | .execute name maxRows => ¬ shared.server.ExecuteDiscards name maxRows
  | _ => True

def EventForeseen (shared : Shared engine) : ShareEvent → Prop
  | .frame session message => shared.Foreseen session message
  | .replay sql => ¬ shared.server.QueryDiscards sql
  | .elsewhere _ _ => True

/-! ### One frame -/

variable {record : ConnectionStatements}

theorem Agrees.of_keeps {updated : ConnectionStatements} {before after : Server engine}
    (agrees : Agrees record before) (same : ∀ global, updated.holds global = record.holds global)
    (keeps : before.KeepsNamed after) : Agrees updated after := by
  intro sql
  rw [same, keeps _ (GlobalName.forSql sql).nonempty]
  exact agrees sql

theorem Agrees.prepare {server : Server engine} {sql : Text} {state : engine.State}
    (agrees : Agrees record server) (absent : record.holds (.forSql sql) = false)
    (listens : server.skipping = false) (positive : 0 < record.perConnectionCap)
    (accepted : engine.parse server.state sql = .ok state) :
    Agrees (evictFor record (.forSql sql)).1
      (server.serveAll ((evictFor record (.forSql sql)).2 ++
        [.parse (GlobalName.forSql sql).text sql])).1 := by
  obtain ⟨updated, evict, made, _cap, _unnamed, holds⟩ := evictFor_of_not_held absent
  have missing : server.statements.lookup (GlobalName.forSql sql).text = none := by
    have unheld := agrees sql
    rw [absent] at unheld
    exact Option.isNone_iff_eq_none.mp (Option.isSome_eq_false_iff.mp unheld.symm)
  rw [made]
  rw [Server.serveAll_prepare listens missing accepted]
  intro other
  rw [holds positive, GlobalName.lookup_prepared, agrees other]
  by_cases same : GlobalName.forSql other = .forSql sql
  · simp [same]
  · by_cases gone : GlobalName.forSql other ∈ evict
    · simp [same, gone]
    · simp [same, gone]

variable {shared : Shared engine} {session : Nat} {message : FrontendMessage}

theorem agrees_of_sent {onward : FrontendMessage} {statements : SessionStatements} {sent : Sent}
    (mapped : mapStatementName (shared.sessions session) message = some (statements, onward))
    (sends : sendUpstream statements shared.record message onward = sent)
    (agrees : Agrees sent.record (shared.server.serveAll sent.upstream).1) :
    Agrees (shared.frame session message).record (shared.frame session message).server := by
  unfold frame
  rw [mapped]
  dsimp only
  rw [sends]
  exact agrees

theorem agrees_of_refused (refused : mapStatementName (shared.sessions session) message = none)
    (agrees : Agrees shared.record shared.server) :
    Agrees (shared.frame session message).record (shared.frame session message).server := by
  unfold frame
  rw [refused]
  exact agrees

variable {name : Text}

theorem agrees_parse {sql : Text} (agrees : Agrees shared.record shared.server)
    (foreseen : shared.Foreseen session (.parse name sql)) :
    Agrees (shared.frame session (.parse name sql)).record
      (shared.frame session (.parse name sql)).server := by
  obtain ⟨keeps, accepted⟩ := foreseen
  have mapped := mapStatementName_parse (shared.sessions session) name sql
  by_cases named : name = []
  · subst named
    refine agrees_of_sent mapped (sendUpstream_parse_unnamed keeps _) ?_
    apply agrees.of_keeps (ConnectionStatements.holds_noteUnnamed _ _)
    exact .of_process nofun fun _ => shared.server.keepsNamed_parse_unnamed sql
  · cases held : shared.record.holds (.forSql sql) with
    | true => exact agrees_of_sent mapped (sendUpstream_parse_held keeps named held _) agrees
    | false =>
      rw [held] at accepted
      obtain ⟨listens, positive, state, taken⟩ :=
        (accepted.resolve_left named).resolve_left Bool.false_ne_true
      refine agrees_of_sent mapped (sendUpstream_parse_new keeps named held _) ?_
      rw [if_neg named]
      exact agrees.prepare held listens positive taken

theorem keepsNamed_serve_bind (server : Server engine) (portal name arguments : Text) :
    server.KeepsNamed (server.serve (.bind portal name arguments)).1 :=
  .of_process nofun fun _ => .of_eq (server.statements_bind portal name arguments)

theorem agrees_bind_unnamed {portal arguments : Text}
    (agrees : Agrees shared.record shared.server) :
    Agrees (shared.frame session (.bind portal [] arguments)).record
      (shared.frame session (.bind portal [] arguments)).server := by
  have mapped : mapStatementName (shared.sessions session) (.bind portal [] arguments) =
      some (shared.sessions session, .bind portal [] arguments) :=
    rfl
  cases known : (shared.sessions session).get [] with
  | none =>
    refine agrees_of_sent mapped (sendUpstream_bind_missing known _) ?_
    exact agrees.of_keeps (fun _ => rfl) (keepsNamed_serve_bind _ _ _ _)
  | some prepared =>
    refine agrees_of_sent mapped (sendUpstream_bind_unnamed known _) ?_
    split
    · exact agrees.of_keeps (ConnectionStatements.holds_noteUnnamed _ _)
        (keepsNamed_serve_bind _ _ _ _)
    · apply agrees.of_keeps (ConnectionStatements.holds_noteUnnamed _ _)
      have parsed : shared.server.KeepsNamed
          (shared.server.serve (.parse [] prepared.sql)).1 :=
        .of_process nofun fun _ => shared.server.keepsNamed_parse_unnamed prepared.sql
      exact parsed.trans (keepsNamed_serve_bind _ _ _ _)

theorem agrees_bind {portal arguments : Text} (agrees : Agrees shared.record shared.server)
    (foreseen : shared.Foreseen session (.bind portal name arguments)) :
    Agrees (shared.frame session (.bind portal name arguments)).record
      (shared.frame session (.bind portal name arguments)).server := by
  by_cases named : name = []
  · subst named
    exact agrees_bind_unnamed agrees
  have mapped := mapStatementName_bind (shared.sessions session) portal name arguments
  rw [if_neg named] at mapped
  cases known : (shared.sessions session).get name with
  | none =>
    rw [known] at mapped
    exact agrees_of_refused mapped agrees
  | some prepared =>
    rw [known] at mapped
    have accepted := (foreseen prepared known).resolve_left named
    cases held : shared.record.holds prepared.global with
    | true =>
      refine agrees_of_sent mapped (sendUpstream_bind_held named known held _) ?_
      exact agrees.of_keeps (fun _ => rfl) (keepsNamed_serve_bind _ _ _ _)
    | false =>
      rw [held] at accepted
      obtain ⟨listens, positive, state, taken⟩ :=
        accepted.resolve_left Bool.false_ne_true
      refine agrees_of_sent mapped (sendUpstream_bind_new named known held _) ?_
      rw [Server.serveAll_append]
      rw [prepared.named] at held ⊢
      exact (agrees.prepare held listens positive taken).of_keeps (fun _ => rfl)
        (keepsNamed_serve_bind _ _ _ _)

theorem Agrees.close {server : Server engine} {prepared : PreparedStatement}
    (agrees : Agrees record server) (listens : server.skipping = false) :
    Agrees (record.forget prepared.global)
      (server.serve (.close .statement prepared.global.text)).1 := by
  have processed : server.serve (.close .statement prepared.global.text) = (_, _) :=
    Server.serve_eq_process listens nofun
  rw [processed]
  intro sql
  rw [ConnectionStatements.holds_forget, AList.lookup_erase_if, agrees sql]
  by_cases same : GlobalName.forSql sql = prepared.global
  · simp [same]
  · have other : (GlobalName.forSql sql).text ≠ prepared.global.text := fun text =>
      same (GlobalName.ext text)
    simp [same, other]

theorem keepsNamed_serve_close_unnamed (server : Server engine) :
    server.KeepsNamed (server.serve (.close .statement [])).1 :=
  .of_process nofun fun _ _ named => AList.lookup_erase_ne named

theorem agrees_close (agrees : Agrees shared.record shared.server)
    (foreseen : shared.Foreseen session (.close .statement name)) :
    Agrees (shared.frame session (.close .statement name)).record
      (shared.frame session (.close .statement name)).server := by
  have plain : statementName (.close .statement name) = none := rfl
  have mapped := mapStatementName_close (shared.sessions session) name
  cases known : (shared.sessions session).get name with
  | none =>
    by_cases named : name = []
    · subst named
      refine agrees_of_sent mapped (sendUpstream_of_no_statement plain _) ?_
      rw [forgetFor_close_unknown known]
      exact agrees.of_keeps (fun _ => rfl) (keepsNamed_serve_close_unnamed _)
    · rw [if_neg named, known] at mapped
      exact agrees_of_refused mapped agrees
  | some prepared =>
    by_cases named : name = []
    · -- the record forgets a global name, and the server a statement without one
      subst named
      refine agrees_of_sent mapped (sendUpstream_of_no_statement plain _) ?_
      rw [forgetFor_close_known known]
      have unheld := (foreseen prepared known).resolve_right fun closed => closed.1 rfl
      exact agrees.of_keeps (ConnectionStatements.holds_forget_of_unheld unheld)
        (keepsNamed_serve_close_unnamed _)
    · rw [if_neg named, known] at mapped
      refine agrees_of_sent mapped (sendUpstream_of_no_statement plain _) ?_
      rw [forgetFor_close_known known]
      cases skips : shared.server.skipping with
      | false => exact agrees.close skips
      | true =>
        have unheld := (foreseen prepared known).resolve_right fun closed => by
          rw [skips] at closed
          exact Bool.false_ne_true closed.2.symm
        exact agrees.of_keeps (ConnectionStatements.holds_forget_of_unheld unheld)
          (.of_skipping skips nofun)

theorem agrees_query {sql : Text} (agrees : Agrees shared.record shared.server)
    (foreseen : shared.Foreseen session (.query sql)) :
    Agrees (shared.frame session (.query sql)).record
      (shared.frame session (.query sql)).server := by
  have plain : statementName (.query sql) = none := rfl
  refine agrees_of_sent rfl (sendUpstream_of_no_statement plain _) ?_
  rw [Server.serveAll_singleton]
  unfold forgetFor observeStatement
  dsimp only
  cases drops : deallocatesEverything sql with
  | true =>
    obtain ⟨listens, discards⟩ := foreseen.mpr drops
    have processed : shared.server.serve (.query sql) = shared.server.query sql :=
      Server.serve_eq_process listens nofun
    rw [processed]
    intro other
    unfold Server.query
    dsimp only
    rw [if_pos discards]
    rfl
  | false =>
    have keeps : ¬ shared.server.QueryDiscards sql := fun discards => by
      rw [foreseen.mp discards] at drops
      cases drops
    exact agrees.of_keeps (fun _ => rfl)
      (.of_process nofun fun listens => Server.keepsNamed_query listens keeps)

theorem agrees_passed {onward : FrontendMessage}
    (mapped : mapStatementName (shared.sessions session) message =
      some (shared.sessions session, onward)) (plain : statementName message = none)
    (remembers : forgetFor (shared.sessions session) shared.record message =
      (shared.sessions session, shared.record)) (agrees : Agrees shared.record shared.server)
    (keeps : shared.server.KeepsNamed (shared.server.serve onward).1) :
    Agrees (shared.frame session message).record (shared.frame session message).server := by
  refine agrees_of_sent mapped (sendUpstream_of_no_statement plain _) ?_
  rw [remembers]
  exact agrees.of_keeps (fun _ => rfl) keeps

theorem agrees_describe (agrees : Agrees shared.record shared.server) :
    Agrees (shared.frame session (.describe .statement name)).record
      (shared.frame session (.describe .statement name)).server := by
  have mapped := mapStatementName_describe (shared.sessions session) name
  have keeps (asked : Text) :
      shared.server.KeepsNamed (shared.server.serve (.describe .statement asked)).1 :=
    .of_process nofun fun _ => .of_eq (shared.server.statements_describeStatement asked)
  by_cases named : name = []
  · rw [if_pos named] at mapped
    exact agrees_passed mapped rfl rfl agrees (keeps name)
  · rw [if_neg named] at mapped
    cases known : (shared.sessions session).get name with
    | none =>
      rw [known] at mapped
      exact agrees_of_refused mapped agrees
    | some prepared =>
      rw [known] at mapped
      exact agrees_passed mapped rfl rfl agrees (keeps prepared.global.text)

theorem agrees_frame (agrees : Agrees shared.record shared.server)
    (foreseen : shared.Foreseen session message) :
    Agrees (shared.frame session message).record (shared.frame session message).server := by
  have ignored {message : FrontendMessage} (inside : message ≠ .sync)
      (kept : (shared.server.process message).1.statements = shared.server.statements) :
      shared.server.KeepsNamed (shared.server.serve message).1 :=
    .of_process inside fun _ => .of_eq kept
  cases message with
  | parse name sql => exact agrees_parse agrees foreseen
  | bind portal name arguments => exact agrees_bind agrees foreseen
  | query sql => exact agrees_query agrees foreseen
  | close target name =>
    cases target with
    | statement => exact agrees_close agrees foreseen
    | portal => exact agrees_passed rfl rfl rfl agrees (ignored nofun rfl)
  | describe target name =>
    cases target with
    | statement => exact agrees_describe agrees
    | portal =>
      exact agrees_passed rfl rfl rfl agrees
        (.of_process nofun fun _ => .of_eq (shared.server.statements_describePortal name))
  | execute name maxRows =>
    exact agrees_passed rfl rfl rfl agrees
      (.of_process nofun fun listens => .of_eq (Server.statements_execute listens foreseen))
  | sync => exact agrees_passed rfl rfl rfl agrees (.of_eq rfl)
  | flush | terminate | password | functionCall | copyData | copyDone | copyFail | other =>
    exact agrees_passed rfl rfl rfl agrees (ignored nofun rfl)

/-! ### Every run -/

theorem agrees_step {event : ShareEvent} (agrees : Agrees shared.record shared.server)
    (foreseen : shared.EventForeseen event) :
    Agrees (shared.step event).record (shared.step event).server := by
  cases event with
  | frame session message => exact agrees_frame agrees foreseen
  | replay sql =>
    exact agrees.of_keeps (fun _ => rfl)
      (.of_process nofun fun listens => Server.keepsNamed_query listens foreseen)
  | elsewhere session statements => exact agrees

/-- Along every run of sessions on one connection in which the server does with each
frame what the proxy assumed when it sent it, the record names exactly the statements
the server holds. -/
theorem record_agrees_of_foreseen (state : engine.State) (perConnectionCap : Nat)
    (shared : Shared engine)
    (reached : Run.Reachable (start state perConnectionCap) EventForeseen step shared)
    (sql : Text) :
    shared.record.holds (.forSql sql) =
      (shared.server.statements.lookup (GlobalName.forSql sql).text).isSome := by
  have agrees : Agrees shared.record shared.server := by
    refine reached.invariant (P := fun shared => Agrees shared.record shared.server) ?_ ?_
    · intro other
      rfl
    · intro before event agreed foreseen
      exact agrees_step agreed foreseen
  exact agrees sql

theorem record_agrees_after_parse :
    let shared := ((start () 100 : Shared pickyEngine).frame 0
      (.parse "s1".toList "SELECT 1".toList)).frame 0 .sync
    shared.ready = true ∧ shared.record.holds (.forSql "SELECT 1".toList) = true ∧
      shared.record.holds (.forSql "SELECT 1".toList) =
        (shared.server.statements.lookup (GlobalName.forSql "SELECT 1".toList).text).isSome := by
  intro shared
  refine ⟨by decide +kernel, by decide +kernel, ?_⟩
  apply record_agrees_of_foreseen () 100
  have parses : EventForeseen (start () 100 : Shared pickyEngine)
      (.frame 0 (.parse "s1".toList "SELECT 1".toList)) :=
    ⟨by decide +kernel, .inr (.inr ⟨rfl, by decide, (), rfl⟩)⟩
  have syncs : EventForeseen ((start () 100 : Shared pickyEngine).frame 0
      (.parse "s1".toList "SELECT 1".toList)) (.frame 0 .sync) :=
    trivial
  have parsed : Run.Reachable (start () 100 : Shared pickyEngine) EventForeseen step
      ((start () 100 : Shared pickyEngine).frame 0
        (.parse "s1".toList "SELECT 1".toList)) :=
    .step .start parses
  exact .step parsed syncs

/-- A named `Parse` the server rejects: at the `ReadyForQuery` that ends the sequence the
record has a statement the server does not hold. -/
theorem record_names_failed_parse :
    let shared := ((start () 100 : Shared pickyEngine).frame 0
      (.parse "s1".toList "SELEC 1".toList)).frame 0 .sync
    shared.ready = true ∧ shared.record.holds (.forSql "SELEC 1".toList) = true ∧
      (shared.server.statements.lookup (GlobalName.forSql "SELEC 1".toList).text).isSome =
        false := by
  decide +kernel

end Shared

end Pgprox.Serve
