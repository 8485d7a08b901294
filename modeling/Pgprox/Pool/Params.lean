/-
Session parameters, recorded once and replayed onto whichever connection the session
borrows next.
-/

import Pgprox.Core.Basic
import Pgprox.Library.FiniteMap
import Pgprox.Pool.Pin

namespace Pgprox.Pools

open Sql

def normalise (name : Text) : Text :=
  toAsciiLowercase (trim name)

def quote (value : Text) : Text :=
  if value ≠ [] ∧ value.all isBareChar then value
  else ['\''] ++ (value.flatMap fun c => if c = '\'' then ['\'', '\''] else [c]) ++ ['\'']

inductive ParsedSet
  | set (name value : Text)
  | reset (name : Text)
  | resetAll
  | scopedToTransaction
  deriving DecidableEq

namespace ParsedSet

def valueText (input : Text) : Option Text :=
  match next input with
  | some (.punct c, after) => if c = '=' then some (skipTrivia after) else none
  | some (.word word, after) =>
    if eqIgnoreAsciiCase word "to" then some (skipTrivia after) else none
  | _ => none

def assignment (input : Text) : Option ParsedSet :=
  match next input with
  | some (.word name, after) =>
    if eqIgnoreAsciiCase name "transaction" || eqIgnoreAsciiCase name "constraints" then
      some .scopedToTransaction
    else (valueText after).map fun value => .set name (unquote (trim value))
  | _ => none

def afterSet (input : Text) : Option ParsedSet :=
  match next input with
  | some (.word scope, after) =>
    if eqIgnoreAsciiCase scope "local" then some .scopedToTransaction
    else if eqIgnoreAsciiCase scope "session" then assignment after
    else assignment input
  | _ => assignment input

def parse (sql : Text) : Option ParsedSet :=
  match next sql with
  | some (.word verb, rest) =>
    if eqIgnoreAsciiCase verb "discard" then
      match next rest with
      | some (.word what, _) => if eqIgnoreAsciiCase what "all" then some .resetAll else none
      | _ => none
    else if eqIgnoreAsciiCase verb "reset" then
      match next rest with
      | some (.word name, _) =>
        if eqIgnoreAsciiCase name "all" then some .resetAll else some (.reset name)
      | _ => none
    else if eqIgnoreAsciiCase verb "set" then afterSet rest
    else none
  | _ => none

end ParsedSet

inductive ParamChange
  | recorded (name : Text)
  | cleared (name : Text)
  | clearedAll
  | transactionScoped
  deriving DecidableEq

structure SessionParams where
  values : FiniteMap Text Text

namespace SessionParams

def new : SessionParams where
  values := ∅

def get (params : SessionParams) (name : Text) : Option Text :=
  params.values.lookup (normalise name)

def record (params : SessionParams) (name value : Text) : SessionParams where
  values := params.values.insert (normalise name) value

def clear (params : SessionParams) (name : Text) : SessionParams where
  values := params.values.erase (normalise name)

def clearAll (_params : SessionParams) : SessionParams :=
  .new

def observeOne (params : SessionParams) (sql : Text) (allowlist : Replayable) :
    SessionParams × Option ParamChange :=
  match ParsedSet.parse sql with
  | none => (params, none)
  | some .scopedToTransaction => (params, some .transactionScoped)
  | some .resetAll => (params.clearAll, some .clearedAll)
  | some (.reset name) =>
    if allowlist.contains (normalise name) then
      (params.clear (normalise name), some (.cleared (normalise name)))
    else (params, none)
  | some (.set name value) =>
    if allowlist.contains (normalise name) then
      (params.record (normalise name) value, some (.recorded (normalise name)))
    else (params, none)

def observeStatement (params : SessionParams) (sql : Text) (allowlist : Replayable) :
    SessionParams :=
  (statements sql).foldl (fun params statement => (params.observeOne statement allowlist).1) params

def sorted (params : SessionParams) : List (Text × Text) :=
  (params.values.entries.map fun entry => (entry.1, entry.2)).insertionSort fun a b => a.1 ≤ b.1

/-- The statements that make `current` match this session: what differs is set, what
only `current` has is reset. -/
def replayOnto (params current : SessionParams) : List Text :=
  ((params.sorted.filter fun entry => current.values.lookup entry.1 ≠ some entry.2).map
      fun entry => "SET ".toList ++ entry.1 ++ " = ".toList ++ quote entry.2) ++
    ((current.sorted.filter fun entry => (params.values.lookup entry.1).isNone).map
      fun entry => "RESET ".toList ++ entry.1)

/-! ### What is recorded -/

variable {params : SessionParams}

theorem mem_sorted_iff {entry : Text × Text} :
    entry ∈ params.sorted ↔ params.values.lookup entry.1 = some entry.2 := by
  unfold sorted
  rw [List.mem_insertionSort, List.mem_map]
  constructor
  · rintro ⟨kept, present, rfl⟩
    exact (AList.lookup_eq_some_iff _ _ _).mpr present
  · intro found
    exact ⟨⟨entry.1, entry.2⟩, (AList.lookup_eq_some_iff _ _ _).mp found, rfl⟩

theorem replayOnto_new (params : SessionParams) :
    params.replayOnto .new =
      params.sorted.map fun entry => "SET ".toList ++ entry.1 ++ " = ".toList ++ quote entry.2 := by
  unfold replayOnto
  have nothing : SessionParams.new.sorted = [] := rfl
  rw [nothing, List.filter_nil, List.map_nil, List.append_nil, List.filter_eq_self.mpr]
  intro entry _among
  simp [new]

def setsName (statement name : Text) : Bool :=
  match ParsedSet.parse statement with
  | some (.set written _) => normalise written = name
  | _ => false

def sets (sql name : Text) : Bool :=
  (statements sql).any fun statement => setsName statement name

theorem normalise_of_replayable {name : Text} (listed : Replayable.default.contains name = true) :
    normalise name = name := by
  obtain ⟨known, among, same⟩ := List.any_eq_true.mp listed
  have all : ∀ known ∈ Replayable.default.names, normalise known.toList = known.toList := by
    decide +kernel
  rw [← of_decide_eq_true same]
  exact all known among

theorem observeOne_lookup_none {statement name : Text} (unset : params.values.lookup name = none)
    (leaves : setsName statement name = false) :
    (params.observeOne statement .default).1.values.lookup name = none := by
  unfold observeOne
  split
  · exact unset
  · exact unset
  · rfl
  · split
    · unfold clear
      dsimp only
      rw [AList.lookup_erase_if, unset, ite_self]
    · exact unset
  · rename_i written value parsed
    split
    · rename_i listed
      have apart : normalise written ≠ name := by
        unfold setsName at leaves
        rw [parsed] at leaves
        exact of_decide_eq_false leaves
      unfold record
      dsimp only
      rw [AList.lookup_insert_if, normalise_of_replayable listed, if_neg apart.symm]
      exact unset
    · exact unset

theorem observeStatement_lookup_none {sql name : Text} (unset : params.values.lookup name = none)
    (leaves : sets sql name = false) :
    (params.observeStatement sql .default).values.lookup name = none := by
  unfold observeStatement
  refine List.foldlRecOn (motive := fun kept : SessionParams => kept.values.lookup name = none)
    _ _ unset ?_
  intro observed stays statement among
  exact observeOne_lookup_none stays
    (Bool.eq_false_of_not_eq_true (List.any_eq_false.mp leaves statement among))

end SessionParams

end Pgprox.Pools
