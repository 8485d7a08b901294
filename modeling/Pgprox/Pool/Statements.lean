/-
Prepared statements: what a session prepared, and what a connection holds.

On the wire a statement has a global name derived from its SQL.  Each connection keeps a
record of the global names it holds, bounded by a cap, and evicts the least recently used.
-/

import Pgprox.Core.Basic
import Pgprox.Library.FiniteMap
import Pgprox.Sql.Lexer

namespace Pgprox.Pools

open Sql

/-! ### Global names -/

def u64 (n : Nat) : Nat :=
  n % 2 ^ 64

def bytesOf (text : Text) : List Nat :=
  text.flatMap fun c => (String.utf8EncodeChar c).map UInt8.toNat

def hashFrom (basis : Nat) (bytes : List Nat) : Nat :=
  let hash := bytes.foldl (fun hash byte => u64 ((hash ^^^ byte) * 0x00000100000001b3)) basis
  let z := u64 (hash + 0x9e3779b97f4a7c15)
  let z := u64 ((z ^^^ (z >>> 30)) * 0xbf58476d1ce4e5b9)
  let z := u64 ((z ^^^ (z >>> 27)) * 0x94d049bb133111eb)
  z ^^^ (z >>> 31)

def stableHash (bytes : List Nat) : Nat :=
  hashFrom 0xcbf29ce484222325 bytes

def wideHash (bytes : List Nat) : Nat × Nat :=
  (stableHash bytes, hashFrom 0x9E3779B97F4A7C15 bytes.reverse)

def hex16 (n : Nat) : Text :=
  (List.range 16).reverse.map fun place => Nat.digitChar (n / 16 ^ place % 16)

/-- A name of the proxy's own making, never the empty one. -/
@[ext] structure GlobalName where
  text : Text
  nonempty : text ≠ []
  deriving DecidableEq

def GlobalName.forSql (sql : Text) : GlobalName :=
  let (low, high) := wideHash (bytesOf sql)
  ⟨"pgprox_".toList ++ hex16 high ++ hex16 low, List.cons_ne_nil _ _⟩

theorem GlobalName.text_inj {one two : GlobalName} : one.text = two.text ↔ one = two :=
  ⟨GlobalName.ext, congrArg GlobalName.text⟩

theorem GlobalName.text_mem_map {name : GlobalName} {names : List GlobalName} :
    name.text ∈ names.map GlobalName.text ↔ name ∈ names := by
  rw [List.mem_map]
  constructor
  · rintro ⟨listed, among, same⟩
    exact GlobalName.ext same ▸ among
  · exact fun among => ⟨name, among, rfl⟩

theorem GlobalName.lookup_prepared (statements : FiniteMap Text Text) (closed : List GlobalName)
    (opened name : GlobalName) (sql : Text) :
    ((statements.eraseAll (closed.map GlobalName.text)).insert opened.text sql).lookup name.text =
      if name = opened then some sql
      else if name ∈ closed then none
      else statements.lookup name.text := by
  simp only [AList.lookup_insert_if, AList.lookup_eraseAll, GlobalName.text_inj,
    GlobalName.text_mem_map]

/-! ### What a session has prepared -/

structure PreparedStatement where
  sql : Text
  global : GlobalName
  named : global = GlobalName.forSql sql
  deriving DecidableEq

def PreparedStatement.of (sql : Text) : PreparedStatement where
  sql := sql
  global := .forSql sql
  named := rfl

abbrev SessionStatements := FiniteMap Text PreparedStatement

namespace SessionStatements

def parse (session : SessionStatements) (clientName sql : Text) : SessionStatements :=
  session.insert clientName (.of sql)

def get (session : SessionStatements) (clientName : Text) : Option PreparedStatement :=
  session.lookup clientName

def close (session : SessionStatements) (clientName : Text) : SessionStatements :=
  session.erase clientName

def closeAll (_session : SessionStatements) : SessionStatements :=
  ∅

theorem get_parse_if (session : SessionStatements) (clientName sql asked : Text) :
    (session.parse clientName sql).get asked =
      if asked = clientName then some (.of sql) else session.get asked :=
  AList.lookup_insert_if _ _ _ _

theorem get_close_if (session : SessionStatements) (clientName asked : Text) :
    (session.close clientName).get asked =
      if asked = clientName then none else session.get asked :=
  AList.lookup_erase_if _ _ _

end SessionStatements

def nextWord (input : Text) : Text × Text :=
  match next input with
  | some (.word word, after) => (word, after)
  | _ => ([], [])

def deallocatesEverything (sql : Text) : Bool :=
  match next sql with
  | some (.word verb, rest) =>
    if eqIgnoreAsciiCase verb "discard" || eqIgnoreAsciiCase verb "deallocate" then
      let (what, later) := nextWord rest
      let named := if eqIgnoreAsciiCase what "prepare" then (nextWord later).1 else what
      eqIgnoreAsciiCase named "all"
    else false
  | _ => false

/-! ### What a connection holds -/

structure ConnectionStatements where
  perConnectionCap : Nat
  held : FiniteMap GlobalName Nat
  unnamed : Nat
  tick : Nat

inductive Preparation
  | alreadyHeld
  | replay (evict : List GlobalName)
  deriving DecidableEq

namespace ConnectionStatements

def new (perConnectionCap : Nat) : ConnectionStatements where
  perConnectionCap := perConnectionCap
  held := ∅
  unnamed := 0
  tick := 0

def noteUnnamed (record : ConnectionStatements) (sql : Text) : ConnectionStatements :=
  { record with unnamed := stableHash (bytesOf sql) }

def holdsUnnamed (record : ConnectionStatements) (sql : Text) : Bool :=
  let hash := stableHash (bytesOf sql)
  hash ≠ 0 && record.unnamed = hash

def holds (record : ConnectionStatements) (global : GlobalName) : Bool :=
  (record.held.lookup global).isSome

def usedBefore (a b : GlobalName × Nat) : Bool :=
  a.2 < b.2 || (a.2 = b.2 && (a.1.text : List Char) < b.1.text)

def oldest : List (GlobalName × Nat) → Option (GlobalName × Nat)
  | [] => none
  | entry :: later =>
    match oldest later with
    | none => some entry
    | some other => if usedBefore other entry then some other else some entry

def leastRecentlyUsed (held : FiniteMap GlobalName Nat) : Option GlobalName :=
  (oldest (held.entries.map fun entry => (entry.1, entry.2))).map Prod.fst

def makeRoom (cap : Nat) :
    Nat → FiniteMap GlobalName Nat → FiniteMap GlobalName Nat × List GlobalName
  | 0, held => (held, [])
  | fuel + 1, held =>
    if cap < held.entries.length + 1 then
      match leastRecentlyUsed held with
      | none => (held, [])
      | some victim =>
        let (kept, later) := makeRoom cap fuel (held.erase victim)
        (kept, victim :: later)
    else (held, [])

def prepareFor (record : ConnectionStatements) (global : GlobalName) :
    ConnectionStatements × Preparation :=
  let tick := record.tick + 1
  if record.holds global then
    ({ record with held := record.held.insert global tick, tick := tick }, .alreadyHeld)
  else
    let (kept, evict) := makeRoom record.perConnectionCap record.held.entries.length record.held
    ({ record with
        held := if 0 < record.perConnectionCap then kept.insert global tick else kept
        tick := tick },
      .replay evict)

def forget (record : ConnectionStatements) (global : GlobalName) : ConnectionStatements :=
  { record with held := record.held.erase global }

def forgetAll (record : ConnectionStatements) : ConnectionStatements :=
  { record with held := ∅, unnamed := 0 }

/-! ### What the record says after a step -/

theorem makeRoom_fst (cap fuel : Nat) (held : FiniteMap GlobalName Nat) :
    (makeRoom cap fuel held).1 = held.eraseAll (makeRoom cap fuel held).2 := by
  induction fuel generalizing held with
  | zero => rfl
  | succ fuel ih =>
    unfold makeRoom
    split
    · split
      · rfl
      · exact ih _
    · rfl

variable {record : ConnectionStatements} {global : GlobalName}

@[simp] theorem holds_noteUnnamed (record : ConnectionStatements) (sql : Text)
    (global : GlobalName) : (record.noteUnnamed sql).holds global = record.holds global := by
  unfold noteUnnamed holds
  -- the hash is not to be computed
  generalize stableHash (bytesOf sql) = hash
  rfl

theorem holds_forget (record : ConnectionStatements) (closed global : GlobalName) :
    (record.forget closed).holds global = (global ≠ closed && record.holds global) := by
  unfold forget holds
  dsimp only
  rw [AList.lookup_erase_if]
  by_cases same : global = closed
  · simp [same]
  · simp [same]

theorem holds_forget_of_unheld {closed : GlobalName} (unheld : record.holds closed = false)
    (global : GlobalName) : (record.forget closed).holds global = record.holds global := by
  rw [holds_forget]
  by_cases same : global = closed
  · rw [same, unheld, Bool.and_false]
  · simp [same]

theorem prepareFor_of_not_held (absent : record.holds global = false) :
    ∃ updated evict, record.prepareFor global = (updated, .replay evict) ∧
      updated.perConnectionCap = record.perConnectionCap ∧
      updated.unnamed = record.unnamed ∧
      (0 < record.perConnectionCap → ∀ other, updated.holds other =
        (other = global || (other ∉ evict && record.holds other))) := by
  unfold prepareFor
  rw [absent]
  refine ⟨_, _, rfl, rfl, rfl, fun positive other => ?_⟩
  unfold holds
  dsimp only
  rw [if_pos positive, AList.lookup_insert_if, makeRoom_fst, AList.lookup_eraseAll]
  by_cases same : other = global
  · simp [same]
  · by_cases evicted : other ∈ (makeRoom record.perConnectionCap record.held.entries.length
        record.held).2
    · simp [same, evicted]
    · simp [same, evicted]

end ConnectionStatements

end Pgprox.Pools
