/-
Whether the answer to a statement may be stored and served again.
-/

import Pgprox.Route.Classify

namespace Pgprox.Cache

open Sql Route

inductive NotCacheable
  | notReadOnly
  | sessionWrote
  | inTransaction
  | pinned
  | multipleStatements
  | notAFunctionOfTheKey (name : String)
  | quotedFunctionCall
  deriving DecidableEq

structure SessionFacts where
  wroteInTransaction : Bool
  pinned : Bool
  inTransaction : Bool
  deriving DecidableEq

def notAFunctionOfTheKey : List String :=
  ["now", "current_timestamp", "current_date", "current_time", "localtime", "localtimestamp",
    "clock_timestamp", "statement_timestamp", "transaction_timestamp", "timeofday", "random",
    "random_normal", "gen_random_uuid", "uuid_generate_v1", "uuid_generate_v1mc",
    "uuid_generate_v4", "current_user", "session_user", "current_role", "current_catalog",
    "current_database", "current_schema", "current_schemas", "current_query", "pg_backend_pid",
    "inet_client_addr", "inet_client_port", "inet_server_addr", "inet_server_port",
    "pg_current_logfile", "current_setting", "currval", "lastval", "pg_current_xact_id",
    "pg_current_xact_id_if_assigned", "txid_current_if_assigned", "pg_current_snapshot",
    "txid_current_snapshot", "pg_sleep", "pg_sleep_for", "pg_sleep_until"]

def hasQuotedCall (sql : List Char) : Bool :=
  let tokens := (lex sql).map Lexeme.token
  (tokens.zip (tokens.drop 1)).any fun pair => pair.1 = .quoted && pair.2 = .punct '('

def cacheable (sql : List Char) (cls : StmtClass) (session : SessionFacts) :
    Except NotCacheable Unit :=
  if cls ≠ .readOnly then .error .notReadOnly
  else if session.wroteInTransaction then .error .sessionWrote
  else if session.inTransaction then .error .inTransaction
  else if session.pinned then .error .pinned
  else
    let found := statementWords sql false
    if 1 < found.length then .error .multipleStatements
    else if hasQuotedCall sql then .error .quotedFunctionCall
    else
      match found.flatten.findSome? fun word =>
          notAFunctionOfTheKey.find? fun name => name.toList = word with
      | some name => .error (.notAFunctionOfTheKey name)
      | none => .ok ()

end Pgprox.Cache
