/-
Identifiers, time and machine integers shared by every component.

Instants and durations are naturals, counted in one unit on one common clock.  A `u32` of
the source is a natural number; where the source saturates, the model does too.
-/

import Mathlib

namespace Pgprox

def saturatingDurationSince (now earlier : Nat) : Nat :=
  now - earlier

def u32Max : Nat := 2 ^ 32 - 1

/-- `u32::try_from(n).unwrap_or(u32::MAX)`. -/
def clampU32 (n : Nat) : Nat :=
  min n u32Max

def saturatingAdd (a b : Nat) : Nat :=
  min (a + b) u32Max

def saturatingMul (a b : Nat) : Nat :=
  min (a * b) u32Max

theorem clampU32_le (n : Nat) : clampU32 n ≤ n :=
  Nat.min_le_left _ _

theorem saturatingAdd_le (a b : Nat) : saturatingAdd a b ≤ a + b :=
  Nat.min_le_left _ _

theorem saturatingMul_le (a b : Nat) : saturatingMul a b ≤ a * b :=
  Nat.min_le_left _ _

abbrev NodeId := Nat

structure TenantId where
  name : String
  deriving DecidableEq

structure ServerId where
  address : String
  deriving DecidableEq

structure PoolKey where
  server : ServerId
  database : String
  user : String
  deriving DecidableEq

/-- The derived order of pool keys: by server, then database, then user. -/
def PoolKey.le (a b : PoolKey) : Prop :=
  a.server.address < b.server.address ∨
    a.server.address = b.server.address ∧
      (a.database < b.database ∨ a.database = b.database ∧ a.user ≤ b.user)

instance (a b : PoolKey) : Decidable (a.le b) :=
  inferInstanceAs (Decidable (_ ∨ _ ∧ (_ ∨ _ ∧ _)))

inductive RouteTarget
  | primary
  | replica (index : Nat)
  deriving DecidableEq

abbrev Text := List Char

def utf8 (text : Text) : List UInt8 :=
  text.flatMap String.utf8EncodeChar

def splitOnce (separator : Char) (text : Text) : Option (Text × Text) :=
  match text.span (· ≠ separator) with
  | (_, []) => none
  | (before, _ :: after) => some (before, after)

end Pgprox
