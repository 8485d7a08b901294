/-
What a Postgres server reads out of a startup packet.

`options` is cut at white space, where a backslash takes the next character as it is, and
the pieces are command-line switches: `-c name=value` in one piece or two, or
`--name=value`, with dashes in the name for underscores.
-/

import Pgprox.Proto.Startup
import Pgprox.Sql.SetStatement

namespace Pgprox.Proto

open Sql

namespace Server

structure PieceScan where
  pieces : List Text
  piece : Option Text
  escaped : Bool
  deriving DecidableEq

namespace PieceScan

def start : PieceScan where
  pieces := []
  piece := none
  escaped := false

def boundary (scan : PieceScan) : PieceScan where
  pieces := scan.pieces ++ scan.piece.toList
  piece := none
  escaped := false

def push (scan : PieceScan) (c : Char) : PieceScan :=
  let piece := scan.piece.getD []
  if scan.escaped then { scan with piece := some (piece ++ [c]), escaped := false }
  else if Reference.isSpace c then scan.boundary
  else if c = '\\' then { scan with piece := some piece, escaped := true }
  else { scan with piece := some (piece ++ [c]) }

end PieceScan

def splitOptions (raw : Text) : List Text :=
  (raw.foldl PieceScan.push .start).boundary.pieces

def longOption (setting : Text) : Option (Text × Text) :=
  (splitOnce '=' setting).map fun (name, value) =>
    (name.map fun c => if c = '-' then '_' else c, value)

def joined (piece : Text) : Option (Text × Text) :=
  if "-c".toList <+: piece ∨ "--".toList <+: piece then longOption (piece.drop 2) else none

def switches : List Text → Option (List (Text × Text))
  | [] => some []
  | [piece] => (joined piece).map fun setting => [setting]
  | piece :: next :: later =>
    if piece = "-c".toList then do
      let setting ← longOption next
      let more ← switches later
      return setting :: more
    else do
      let setting ← joined piece
      let more ← switches (next :: later)
      return setting :: more

/-- The settings of a packet in the order they apply.  Of several `options` the last one
counts. -/
def settings (startup : Startup) : Option (List (Text × Text)) :=
  match (startup.params.filter fun param => param.1 = "options".toList).getLast? with
  | none => some startup.settings
  | some (_, raw) => (switches (splitOptions raw)).map fun packed => startup.settings ++ packed

def lastGiven (settings : List (Text × Text)) (name : Text) : Option Text :=
  ((settings.filter fun setting => toAsciiLowercase setting.1 = name).getLast?).map Prod.snd

example : settings (.startupMessage 196608
      [("TimeZone".toList, "UTC".toList),
        ("options".toList, "-c search_path=a,\\ b --lock-timeout=5s".toList)]) =
    some [("TimeZone".toList, "UTC".toList), ("search_path".toList, "a, b".toList),
      ("lock_timeout".toList, "5s".toList)] := by decide +kernel

/-! ### The elements of a list -/

def quotedName : Text → Option (Text × Text)
  | '"' :: '"' :: rest => (quotedName rest).map fun (name, after) => ('"' :: name, after)
  | '"' :: rest => some ([], rest)
  | c :: rest => (quotedName rest).map fun (name, after) => (c :: name, after)
  | [] => none

def elementAt : Text → Option (Text × Text)
  | '"' :: inner =>
    (quotedName inner).map fun (name, after) =>
      (Reference.clip Reference.identifierBytes name, after)
  | text =>
    let name := text.takeWhile fun c => c ≠ ',' && !Reference.isSpace c
    if name = [] then none
    else some (Reference.foldIdentifier name, text.drop name.length)

def elementsWithin : Nat → Text → Option (List Text)
  | 0, _ => none
  | fuel + 1, text => do
      let (element, after) ← elementAt text
      match after.dropWhile Reference.isSpace with
      | [] => return [element]
      | ',' :: more =>
        let later ← elementsWithin fuel (more.dropWhile Reference.isSpace)
        return element :: later
      | _ => none

def elements (value : Text) : Option (List Text) :=
  match value.dropWhile Reference.isSpace with
  | [] => some []
  | text => elementsWithin text.length text

example : elements "Tenant, \"$user\" ,public".toList =
    some ["tenant".toList, "$user".toList, "public".toList] := by decide +kernel

end Server

end Pgprox.Proto
