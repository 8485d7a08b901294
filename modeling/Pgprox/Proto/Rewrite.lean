/-
Putting another statement name into the body of a frame.

The name is found by its terminator and replaced; every other byte stays.
-/

import Pgprox.Proto.Frame

namespace Pgprox.Proto

open List

def replaceCstring (body : List UInt8) (start : Nat) (name : List UInt8) : Option (List UInt8) :=
  -- a name with a null in it cannot be encoded
  if name.contains 0 then none
  else if body.length < start then none
  else
    match (body.drop start).span (· ≠ 0) with
    | (_, []) => none
    | (_, _ :: after) => some (body.take start ++ name ++ 0 :: after)

def parseStatement (body name : List UInt8) : Option (List UInt8) :=
  replaceCstring body 0 name

def bindStatement (body name : List UInt8) : Option (List UInt8) :=
  match body.span (· ≠ 0) with
  | (_, []) => none
  | (portal, _ :: _) => replaceCstring body (portal.length + 1) name

def describesStatement (body : List UInt8) : Bool :=
  body.head? = some 0x53

def describedStatement (body name : List UInt8) : Option (List UInt8) :=
  if describesStatement body then replaceCstring body 1 name else none

/-! ### Where the name stands -/

/-- The null-terminated string at a place: what stands before it, the string, and the body
from its terminator on. -/
def cstringAt (start : Nat) (body : List UInt8) :
    Option (List UInt8 × List UInt8 × List UInt8) :=
  let rest := (body.drop start).dropWhile (· ≠ 0)
  if body.length < start ∨ rest = [] then none
  else some (body.take start, (body.drop start).takeWhile (· ≠ 0), rest)

def portalEnd (body : List UInt8) : Nat :=
  (body.takeWhile (· ≠ 0)).length + 1

/-- The body with another string at the place. -/
def putCstring (name : List UInt8) (found : List UInt8 × List UInt8 × List UInt8) : List UInt8 :=
  found.1 ++ name ++ found.2.2

theorem replaceCstring_eq {start : Nat} {body name : List UInt8} (clean : 0 ∉ name) :
    replaceCstring body start name = (cstringAt start body).map (putCstring name) := by
  unfold replaceCstring cstringAt
  rw [if_neg (by simpa using clean), span_eq_takeWhile_dropWhile]
  by_cases short : body.length < start
  · rw [if_pos short, if_pos (.inl short)]
    rfl
  · rw [if_neg short]
    cases shape : (body.drop start).dropWhile (· ≠ 0) with
    | nil =>
      rw [if_pos (.inr rfl)]
      rfl
    | cons null after =>
      have stops := head?_dropWhile_not (fun byte : UInt8 => decide (byte ≠ 0)) (body.drop start)
      rw [shape] at stops
      obtain rfl : null = 0 := by simpa using stops
      rw [if_neg (not_or.mpr ⟨short, nofun⟩)]
      rfl

theorem bindStatement_eq {body name : List UInt8} (clean : 0 ∉ name) :
    bindStatement body name = (cstringAt (portalEnd body) body).map (putCstring name) := by
  unfold bindStatement
  rw [span_eq_takeWhile_dropWhile]
  split
  · rename_i portal shape
    have whole : body.takeWhile (· ≠ 0) = body := by
      conv_rhs => rw [← @takeWhile_append_dropWhile _ (· ≠ 0) body]
      rw [(Prod.mk.inj shape).2, append_nil]
    unfold cstringAt portalEnd
    rw [whole, if_pos (.inl (Nat.lt_succ_self _))]
    rfl
  · rename_i portal first after shape
    rw [← (Prod.mk.inj shape).1]
    exact replaceCstring_eq clean

theorem describedStatement_eq {body name : List UInt8} (clean : 0 ∉ name) :
    describedStatement body name =
      (if describesStatement body then cstringAt 1 body else none).map (putCstring name) := by
  unfold describedStatement
  split
  · exact replaceCstring_eq clean
  · rfl

end Pgprox.Proto
