/-
The server the proxy talks to, as far as the extended protocol shows it.

A frame that fails is answered with an error, and everything up to the next `Sync` is
skipped.  What SQL means is left to an engine.
-/

import Pgprox.Library.FiniteMap
import Pgprox.Proto.SessionState

namespace Pgprox.Serve

open Proto List

structure Portal where
  sql : Text
  arguments : Text
  position : Nat
  deriving DecidableEq

structure Executed (State : Type) where
  state : State
  portal : Portal
  frames : List BackendMessage
  discards : Bool

structure Queried (State : Type) where
  state : State
  frames : List BackendMessage
  discards : Bool
  status : TxStatus

structure Engine where
  State : Type
  parse : State → Text → Except Text State
  bind : State → Text → Text → Except Text State
  describeStatement : State → Text → Except Text (List BackendMessage)
  describePortal : State → Portal → Except Text (List BackendMessage)
  execute : State → Portal → Nat → Except Text (Executed State)
  query : State → Text → Queried State
  fail : State → State
  sync : State → State × TxStatus

def pickyEngine : Engine where
  State := Unit
  parse _ sql :=
    if sql = "SELEC 1".toList then .error "syntax error".toList else .ok ()
  bind _ _ _ := .ok ()
  describeStatement _ _ := .ok [.noData]
  describePortal _ _ := .ok [.noData]
  execute _ portal _ := .ok ⟨(), portal, [.commandComplete "SELECT 1".toList], false⟩
  query _ sql := ⟨(), [.commandComplete sql], sql = "DISCARD ALL".toList, .idle⟩
  fail _ := ()
  sync _ := ((), .idle)

structure Server (engine : Engine) where
  state : engine.State
  statements : FiniteMap Text Text
  portals : FiniteMap Text Portal
  skipping : Bool

namespace Server

variable {engine : Engine}

def fail (server : Server engine) (reason : Text) : Server engine × List BackendMessage :=
  ({ server with state := engine.fail server.state, skipping := true }, [.errorResponse reason])

def release (server : Server engine) (name : Text) : Server engine :=
  if name = [] then { server with statements := server.statements.erase [] } else server

def parse (server : Server engine) (name sql : Text) : Server engine × List BackendMessage :=
  if name ≠ [] ∧ (server.statements.lookup name).isSome then
    server.fail ("duplicate prepared statement ".toList ++ name)
  else
    match engine.parse server.state sql with
    | .error reason => (server.release name).fail reason
    | .ok state =>
      ({ server with state := state, statements := server.statements.insert name sql },
        [.parseComplete])

def bind (server : Server engine) (portal name arguments : Text) :
    Server engine × List BackendMessage :=
  match server.statements.lookup name with
  | none => server.fail ("no prepared statement ".toList ++ name)
  | some sql =>
    if portal ≠ [] ∧ (server.portals.lookup portal).isSome then
      server.fail ("duplicate portal ".toList ++ portal)
    else
      match engine.bind server.state sql arguments with
      | .error reason => server.fail reason
      | .ok state =>
        ({ server with
            state := state
            portals := server.portals.insert portal ⟨sql, arguments, 0⟩ },
          [.bindComplete])

def describeStatement (server : Server engine) (name : Text) :
    Server engine × List BackendMessage :=
  match server.statements.lookup name with
  | none => server.fail ("no prepared statement ".toList ++ name)
  | some sql =>
    match engine.describeStatement server.state sql with
    | .error reason => server.fail reason
    | .ok frames => (server, frames)

def describePortal (server : Server engine) (name : Text) :
    Server engine × List BackendMessage :=
  match server.portals.lookup name with
  | none => server.fail ("no portal ".toList ++ name)
  | some portal =>
    match engine.describePortal server.state portal with
    | .error reason => server.fail reason
    | .ok frames => (server, frames)

def execute (server : Server engine) (name : Text) (maxRows : Nat) :
    Server engine × List BackendMessage :=
  match server.portals.lookup name with
  | none => server.fail ("no portal ".toList ++ name)
  | some portal =>
    match engine.execute server.state portal maxRows with
    | .error reason => server.fail reason
    | .ok executed =>
      ({ server with
          state := executed.state
          statements := if executed.discards then ∅ else server.statements
          portals := server.portals.insert name executed.portal },
        executed.frames)

def query (server : Server engine) (sql : Text) : Server engine × List BackendMessage :=
  let queried := engine.query server.state sql
  ({ server with
      state := queried.state
      statements := if queried.discards then ∅ else server.statements.erase []
      portals := if queried.status = .idle then ∅ else server.portals.erase [] },
    queried.frames ++ [.readyForQuery queried.status])

def sync (server : Server engine) : Server engine × List BackendMessage :=
  let (state, status) := engine.sync server.state
  ({ server with
      state := state
      portals := if status = .idle then ∅ else server.portals
      skipping := false },
    [.readyForQuery status])

def process (server : Server engine) : FrontendMessage → Server engine × List BackendMessage
  | .parse name sql => server.parse name sql
  | .bind portal name arguments => server.bind portal name arguments
  | .describe .statement name => server.describeStatement name
  | .describe .portal name => server.describePortal name
  | .execute name maxRows => server.execute name maxRows
  | .close .statement name =>
    ({ server with statements := server.statements.erase name }, [.closeComplete])
  | .close .portal name =>
    ({ server with portals := server.portals.erase name }, [.closeComplete])
  | .query sql => server.query sql
  | .sync => server.sync
  | _ => (server, [])

def serve (server : Server engine) (message : FrontendMessage) :
    Server engine × List BackendMessage :=
  if message = .sync then server.sync
  else if server.skipping then (server, [])
  else server.process message

def serveAll (server : Server engine) : List FrontendMessage → Server engine × List BackendMessage
  | [] => (server, [])
  | message :: later =>
    let first := server.serve message
    let rest := first.1.serveAll later
    (rest.1, first.2 ++ rest.2)

theorem serveAll_append (server : Server engine) (earlier later : List FrontendMessage) :
    server.serveAll (earlier ++ later) =
      (((server.serveAll earlier).1.serveAll later).1,
        (server.serveAll earlier).2 ++ ((server.serveAll earlier).1.serveAll later).2) := by
  induction earlier generalizing server with
  | nil => rfl
  | cons message rest ih =>
    rw [cons_append, serveAll, serveAll, ih]
    simp only [append_assoc]

theorem serveAll_singleton (server : Server engine) (message : FrontendMessage) :
    server.serveAll [message] = server.serve message := by
  simp [serveAll]

/-! ### One frame at a time -/

variable {server : Server engine}

theorem serve_of_skipping {message : FrontendMessage} (skips : server.skipping = true)
    (inside : message ≠ .sync) : server.serve message = (server, []) := by
  unfold serve
  rw [if_neg inside, if_pos skips]

theorem serve_eq_process {message : FrontendMessage} (listens : server.skipping = false)
    (inside : message ≠ .sync) : server.serve message = server.process message := by
  unfold serve
  rw [if_neg inside, listens]
  rfl

/-! ### What a frame leaves alone -/

@[simp] theorem release_state (server : Server engine) (name : Text) :
    (server.release name).state = server.state := by
  unfold release
  split <;> rfl

@[simp] theorem release_portals (server : Server engine) (name : Text) :
    (server.release name).portals = server.portals := by
  unfold release
  split <;> rfl

@[simp] theorem release_skipping (server : Server engine) (name : Text) :
    (server.release name).skipping = server.skipping := by
  unfold release
  split <;> rfl

theorem statements_bind (server : Server engine) (portal name arguments : Text) :
    (server.bind portal name arguments).1.statements = server.statements := by
  unfold bind
  split
  · rfl
  · split
    · rfl
    · split <;> rfl

theorem statements_describeStatement (server : Server engine) (name : Text) :
    (server.describeStatement name).1.statements = server.statements := by
  unfold describeStatement
  split
  · rfl
  · split <;> rfl

theorem statements_describePortal (server : Server engine) (name : Text) :
    (server.describePortal name).1.statements = server.statements := by
  unfold describePortal
  split
  · rfl
  · split <;> rfl

def ExecuteDiscards (server : Server engine) (name : Text) (maxRows : Nat) : Prop :=
  server.skipping = false ∧ ∃ portal executed, server.portals.lookup name = some portal ∧
    engine.execute server.state portal maxRows = .ok executed ∧ executed.discards = true

theorem statements_execute {name : Text} {maxRows : Nat} (listens : server.skipping = false)
    (keeps : ¬ server.ExecuteDiscards name maxRows) :
    (server.execute name maxRows).1.statements = server.statements := by
  unfold execute
  cases found : server.portals.lookup name with
  | none => rfl
  | some portal =>
    dsimp only
    cases ran : engine.execute server.state portal maxRows with
    | error reason => rfl
    | ok executed =>
      have stays : ¬ executed.discards = true := fun discards =>
        keeps ⟨listens, portal, executed, found, ran, discards⟩
      exact if_neg stays

/-! ### Closing and preparing -/

theorem serveAll_closes (listens : server.skipping = false) (names : List Text) :
    server.serveAll (names.map fun name => .close .statement name) =
      ({ server with statements := server.statements.eraseAll names },
        List.replicate names.length .closeComplete) := by
  induction names generalizing server with
  | nil => rfl
  | cons name later ih =>
    have rest : ({ server with statements := server.statements.erase name } :
        Server engine).serveAll (later.map fun name => .close .statement name) = _ :=
      ih listens
    have first : server.serve (.close .statement name) =
        ({ server with statements := server.statements.erase name }, [.closeComplete]) :=
      serve_eq_process listens nofun
    rw [map_cons, serveAll, first]
    rw [rest]
    rfl

theorem serve_parse_eq {name sql : Text} (listens : server.skipping = false)
    (absent : name = [] ∨ server.statements.lookup name = none) :
    server.serve (.parse name sql) =
      match engine.parse server.state sql with
      | .error reason => (server.release name).fail reason
      | .ok state =>
        ({ server with state := state, statements := server.statements.insert name sql },
          [.parseComplete]) := by
  have processed : server.serve (.parse name sql) = server.parse name sql :=
    serve_eq_process listens nofun
  have fresh : ¬ (name ≠ [] ∧ (server.statements.lookup name).isSome) := by
    rintro ⟨named, present⟩
    rw [absent.resolve_left named] at present
    cases present
  rw [processed]
  unfold parse
  rw [if_neg fresh]

theorem serve_parse {name sql : Text} {state : engine.State} (listens : server.skipping = false)
    (absent : name = [] ∨ server.statements.lookup name = none)
    (accepted : engine.parse server.state sql = .ok state) :
    server.serve (.parse name sql) =
      ({ server with state := state, statements := server.statements.insert name sql },
        [.parseComplete]) := by
  rw [serve_parse_eq listens absent, accepted]

theorem parse_accepted {name sql : Text} (listens : server.skipping = false)
    (absent : name = [] ∨ server.statements.lookup name = none)
    (stays : (server.serve (.parse name sql)).1.skipping = false) :
    ∃ state, engine.parse server.state sql = .ok state := by
  rw [serve_parse_eq listens absent] at stays
  cases parsed : engine.parse server.state sql with
  | error reason =>
    rw [parsed] at stays
    cases stays
  | ok state => exact ⟨state, rfl⟩

theorem serveAll_prepare (listens : server.skipping = false) {names : List Text} {name sql : Text}
    {state : engine.State} (absent : server.statements.lookup name = none)
    (accepted : engine.parse server.state sql = .ok state) :
    server.serveAll ((names.map fun name => .close .statement name) ++ [.parse name sql]) =
      ({ server with
          state := state
          statements := (server.statements.eraseAll names).insert name sql },
        List.replicate names.length .closeComplete ++ [.parseComplete]) := by
  rw [serveAll_append, serveAll_closes listens, serveAll_singleton]
  have gone : (server.statements.eraseAll names).lookup name = none := by
    rw [AList.lookup_eraseAll, absent, ite_self]
  have opened : ({ server with statements := server.statements.eraseAll names } :
      Server engine).serve (.parse name sql) = _ :=
    serve_parse (by exact listens) (.inr gone) (by exact accepted)
  rw [opened]

end Server

end Pgprox.Serve
