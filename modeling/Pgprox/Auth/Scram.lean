/-
The client half of a SCRAM-SHA-256 exchange.

Three messages: the client's first with a nonce, the client's final with a proof, and the
check of the server's final.  The keyed hash, the digest, the key derivation and the
base64 coding are taken as given.
-/

import Pgprox.Core.Basic

namespace Pgprox.Auth

abbrev Bytes := List UInt8

structure Primitives where
  hmacSha256 : Bytes → Bytes → Bytes
  sha256 : Bytes → Bytes
  pbkdf2 : Bytes → Bytes → Nat → Bytes
  encodeBase64 : Bytes → Text
  decodeBase64 : Text → Option Bytes

def maxIterations : Nat := 1000000

inductive ScramError
  | malformed (reason : Text)
  | notBase64 (field : String)
  | nonceMismatch
  | badIterationCount (count : Nat)
  | verificationFailed
  | outOfOrder
  deriving DecidableEq

def ScramError.text : ScramError → Text
  | .malformed reason => "malformed SCRAM message: ".toList ++ reason
  | .notBase64 field => ("SCRAM field " ++ field ++ " is not valid base64").toList
  | .nonceMismatch => "server nonce does not extend the client nonce".toList
  | .badIterationCount count => ("SCRAM iteration count is not usable: " ++ toString count).toList
  | .verificationFailed => "SCRAM verification failed".toList
  | .outOfOrder => "a SCRAM message arrived before the exchange was ready for it".toList

structure ScramKeys where
  saltedPassword : Bytes
  clientKey : Bytes
  storedKey : Bytes
  serverKey : Bytes
  deriving DecidableEq

/-! ### The messages -/

def parseU32 (text : Text) : Option Nat :=
  let digits := match text with
    | '+' :: rest => rest
    | _ => text
  if digits ≠ [] ∧ digits.all Char.isDigit = true then
    let number := digits.foldl (fun number digit => number * 10 + (digit.toNat - '0'.toNat)) 0
    if number ≤ u32Max then some number else none
  else none

def clientFirstBare (username nonce : Text) : Text :=
  "n=".toList ++ username ++ ",r=".toList ++ nonce

def clientFirst (username nonce : Text) : Text :=
  "n,,".toList ++ clientFirstBare username nonce

structure ServerFirst where
  nonce : Text
  salt : Bytes
  iterations : Nat
  deriving DecidableEq

/-- The last field of the name wins. -/
def fieldOf (name : Char) (message : Text) : Option Text :=
  (message.splitOn ',').foldl (fun found field =>
    match splitOnce '=' field with
    | some (key, value) => if key = [name] then some value else found
    | none => found) none

variable (primitives : Primitives)

def parseServerFirst (message clientNonce : Text) : Except ScramError ServerFirst := do
  let some nonce := fieldOf 'r' message
    | throw (.malformed "no nonce (r=) in server-first".toList)
  if ¬ clientNonce <+: nonce ∨ nonce.length = clientNonce.length then
    throw .nonceMismatch
  let some salt := fieldOf 's' message
    | throw (.malformed "no salt (s=) in server-first".toList)
  let some salt := primitives.decodeBase64 salt
    | throw (.notBase64 "salt")
  let some iterations := fieldOf 'i' message
    | throw (.malformed "no iteration count (i=) in server-first".toList)
  let some iterations := parseU32 iterations
    | throw (.badIterationCount 0)
  if iterations = 0 ∨ maxIterations < iterations then
    throw (.badIterationCount iterations)
  return ⟨nonce, salt, iterations⟩

def ScramKeys.derive (password salt : Bytes) (iterations : Nat) : Except ScramError ScramKeys :=
  if iterations = 0 then .error (.badIterationCount iterations)
  else
    let salted := primitives.pbkdf2 password salt iterations
    let clientKey := primitives.hmacSha256 salted (utf8 "Client Key".toList)
    .ok
      { saltedPassword := salted
        clientKey := clientKey
        storedKey := primitives.sha256 clientKey
        serverKey := primitives.hmacSha256 salted (utf8 "Server Key".toList) }

def clientFinalWithoutProof (nonce : Text) : Text :=
  "c=".toList ++ primitives.encodeBase64 (utf8 "n,,".toList) ++ ",r=".toList ++ nonce

def authMessage (clientFirstBare serverFirst clientFinalBare : Text) : Text :=
  clientFirstBare ++ [','] ++ serverFirst ++ [','] ++ clientFinalBare

def clientProof (keys : ScramKeys) (message : Text) : Bytes :=
  keys.clientKey.zipWith (· ^^^ ·) (primitives.hmacSha256 keys.storedKey (utf8 message))

def serverSignature (keys : ScramKeys) (message : Text) : Bytes :=
  primitives.hmacSha256 keys.serverKey (utf8 message)

def verifyServerFinal (message : Text) (keys : ScramKeys) (signed : Text) :
    Except ScramError Unit :=
  if "e=".toList <+: message then
    .error (.malformed ("server rejected the exchange: ".toList ++ message.drop 2))
  else
    match (message.splitOn ',').find? fun field => "v=".toList <+: field with
    | none => .error (.malformed "no verifier (v=) in server-final".toList)
    | some field =>
      match primitives.decodeBase64 (field.drop 2) with
      | none => .error (.notBase64 "verifier")
      | some received =>
        if received = serverSignature primitives keys signed then .ok ()
        else .error .verificationFailed

/-! ### The exchange -/

structure ClientExchange where
  nonce : Text
  clientFirstBare : Text
  keys : Option ScramKeys
  authMessage : Text
  deriving DecidableEq

namespace ClientExchange

def clientFirst (user nonce : Text) : ClientExchange × Text :=
  ({ nonce := nonce
     clientFirstBare := Auth.clientFirstBare user nonce
     keys := none
     authMessage := [] },
    Auth.clientFirst user nonce)

def clientFinal (exchange : ClientExchange) (password serverFirst : Text) :
    Except ScramError (ClientExchange × Text) := do
  let parsed ← parseServerFirst primitives serverFirst exchange.nonce
  let keys ← ScramKeys.derive primitives (utf8 password) parsed.salt parsed.iterations
  let withoutProof := clientFinalWithoutProof primitives parsed.nonce
  let signed := Auth.authMessage exchange.clientFirstBare serverFirst withoutProof
  let proof := clientProof primitives keys signed
  return ({ exchange with keys := some keys, authMessage := signed },
    withoutProof ++ ",p=".toList ++ primitives.encodeBase64 proof)

def verify (exchange : ClientExchange) (serverFinal : Text) : Except ScramError Unit :=
  match exchange.keys with
  | none => .error .outOfOrder
  | some keys => verifyServerFinal primitives serverFinal keys exchange.authMessage

theorem clientFinal_first {exchange answered : ClientExchange}
    {password serverFirst message : Text}
    (final : exchange.clientFinal primitives password serverFirst = .ok (answered, message)) :
    answered.clientFirstBare = exchange.clientFirstBare := by
  unfold clientFinal at final
  cases parsed : parseServerFirst primitives serverFirst exchange.nonce with
  | error reason =>
    rw [parsed] at final
    cases final
  | ok first =>
    rw [parsed] at final
    cases derived : ScramKeys.derive primitives (utf8 password) first.salt first.iterations with
    | error reason =>
      change ScramKeys.derive primitives _ _ _ >>= _ = _ at final
      rw [derived] at final
      cases final
    | ok keys =>
      change ScramKeys.derive primitives _ _ _ >>= _ = _ at final
      rw [derived] at final
      cases final
      rfl

end ClientExchange

end Pgprox.Auth
