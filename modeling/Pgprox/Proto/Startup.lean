/-
The startup phase.

Before any tagged message a client sends untagged ones: a four-byte length, and a body
whose first four bytes say what it is.  A startup packet goes on with its parameters, one
of which, `options`, packs further settings into one text.
-/

import Pgprox.Proto.Bind
import Pgprox.Sql.Lexer

namespace Pgprox.Proto

open Sql

def sslRequestCode : Int := 80877103

def gssEncRequestCode : Int := 80877104

def cancelRequestCode : Int := 80877102

def notASetting : List Text :=
  ["user".toList, "database".toList, "options".toList, "replication".toList]

def extensionPrefix : Text := "_pq_.".toList

inductive Startup
  | sslRequest
  | gssEncRequest
  | cancelRequest (processId secret : Int)
  | startupMessage (version : Int) (params : List (Text × Text))
  deriving DecidableEq

inductive StartupError
  | field (error : FieldError)
  | unterminated
  deriving DecidableEq

/-! ### Untagged frames -/

def decodeUntagged (buf : List UInt8) (maxFrame : Nat) : Except DecodeError Decoded :=
  if buf.length < lenPrefix then .ok (.incomplete none)
  else
    match checkLength (readU32 buf) maxFrame with
    | .error error => .error error
    | .ok bodyLen =>
      let total := lenPrefix + bodyLen
      if buf.length < total then .ok (.incomplete (some total))
      else .ok (.frame ⟨0, (buf.drop lenPrefix).take bodyLen⟩ total)

def fieldResult {α : Type} : Except FieldError α → Except StartupError α
  | .ok value => .ok value
  | .error error => .error (.field error)

/-- The parameters up to the empty name that ends them.  Each takes two bytes at least, so
that the length of the body is fuel enough. -/
def readParams : Nat → Reader → Except StartupError (List (Text × Text))
  | 0, _ => .error .unterminated
  | fuel + 1, reader => do
      if reader.rest = [] then throw .unterminated
      let (name, reader) ← fieldResult (reader.cstr "parameter_name")
      if name = [] then return []
      let (value, reader) ← fieldResult (reader.cstr "parameter_value")
      let later ← readParams fuel reader
      return (name, value) :: later

def decodeStartup (body : List UInt8) : Except StartupError Startup := do
  let (code, reader) ← fieldResult ((Reader.new body).i32 "protocol_version")
  if code = sslRequestCode then return .sslRequest
  else if code = gssEncRequestCode then return .gssEncRequest
  else if code = cancelRequestCode then
    let (processId, reader) ← fieldResult (reader.i32 "process_id")
    let (secret, _) ← fieldResult (reader.i32 "secret_key")
    return .cancelRequest processId secret
  else
    let params ← readParams (body.length + 1) reader
    return .startupMessage code params

/-! ### What a startup packet asks for -/

/-- How far `options` has been read: the piece under way, whether the last character
escapes the next one, and the settings found. -/
structure OptionScan where
  token : Text
  escaped : Bool
  found : List (Text × Text)
  deriving DecidableEq

def settingOf (token : Text) : Option (Text × Text) :=
  let stripped := if "-c".toList <+: token then token.drop 2 else token
  let setting := trim stripped
  if setting = [] ∨ setting = "-c".toList then none
  else (splitOnce '=' setting).map fun (name, value) => (trim name, value)

instance text_lawfulBEq : LawfulBEq Text :=
  inferInstance

namespace OptionScan

def start : OptionScan where
  token := []
  escaped := false
  found := []

def boundary (scan : OptionScan) : OptionScan where
  token := []
  escaped := false
  found :=
    if scan.token = [] then scan.found else scan.found ++ (settingOf scan.token).toList

def push (scan : OptionScan) (c : Char) : OptionScan :=
  if scan.escaped then { scan with token := scan.token ++ [c], escaped := false }
  else if c = '\\' then { scan with escaped := true }
  else if c = ' ' then scan.boundary
  else { scan with token := scan.token ++ [c] }

end OptionScan

def eachOption (raw : Text) : List (Text × Text) :=
  (raw.foldl OptionScan.push .start).boundary.found

namespace Startup

def params : Startup → List (Text × Text)
  | .startupMessage _ params => params
  | _ => []

def param (startup : Startup) (name : String) : Option Text :=
  (startup.params.find? fun param => param.1 = name.toList).map Prod.snd

def user (startup : Startup) : Option Text :=
  startup.param "user"

def database (startup : Startup) : Option Text :=
  (startup.param "database").or startup.user

def options (startup : Startup) : List (Text × Text) :=
  match startup.param "options" with
  | none => []
  | some raw => eachOption raw

def replication (startup : Startup) : Bool :=
  match startup.param "replication" with
  | none => false
  | some value =>
    value ∉ ["false".toList, "off".toList, "0".toList, []]

def settings (startup : Startup) : List (Text × Text) :=
  startup.params.filter fun param =>
    param.1 ∉ notASetting ∧ ¬ extensionPrefix <+: param.1

def extensions (startup : Startup) : List Text :=
  (startup.params.map Prod.fst).filter fun name => extensionPrefix <+: name

end Startup

example : eachOption "-c search_path=a\\ b  -ctimezone=UTC geqo=off".toList =
    [("search_path".toList, "a b".toList), ("timezone".toList, "UTC".toList),
      ("geqo".toList, "off".toList)] := by decide +kernel

inductive VersionResponse
  | accept
  | negotiate (minor : Int)
  | unsupported
  deriving DecidableEq

/-- The major version is the upper half of the number, the minor version the lower one. -/
def negotiate (requested : Int) (unrecognisedExtension : Bool) : VersionResponse :=
  let major := requested / 2 ^ 16
  let minor := requested % 2 ^ 16
  if major ≠ 3 then .unsupported
  else if minor = 0 ∧ unrecognisedExtension = false then .accept
  else .negotiate 0

end Pgprox.Proto
