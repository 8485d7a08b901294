/-
Finite maps with a retained part and a weighed total.

The maps are the association lists with distinct keys of the standard library.  The lemmas
below reduce three more operations to lookups, so that no later proof looks inside an entry
list.
-/

import Mathlib

universe u v

abbrev FiniteMap (κ : Type u) (ν : Type v) := AList fun _ : κ => ν

namespace AList

open List

variable {κ : Type u} {ν : Type v}

def retain (m : FiniteMap κ ν) (keep : κ → ν → Bool) : FiniteMap κ ν where
  entries := m.entries.filter fun entry => keep entry.1 entry.2
  nodupKeys := m.nodupKeys.sublist filter_sublist

def weigh (m : FiniteMap κ ν) (weight : κ → ν → Nat) : Nat :=
  (m.entries.map fun entry => weight entry.1 entry.2).sum

def mapValues (m : FiniteMap κ ν) (change : κ → ν → ν) : FiniteMap κ ν where
  entries := m.entries.map fun entry => ⟨entry.1, change entry.1 entry.2⟩
  nodupKeys := List.NodupKeys.map₂ change m.entries m.nodupKeys

variable (m : FiniteMap κ ν)

@[simp] theorem entries_retain (keep : κ → ν → Bool) :
    (m.retain keep).entries = m.entries.filter fun entry => keep entry.1 entry.2 :=
  rfl

theorem keys_mapValues (change : κ → ν → ν) : (m.mapValues change).keys = m.keys := by
  unfold keys List.keys mapValues
  rw [map_map]
  rfl

variable (weight : κ → ν → Nat)

section Lookup

variable [DecidableEq κ]

variable (m : FiniteMap κ ν) (key : κ)

theorem lookup_eq_some_iff (value : ν) : m.lookup key = some value ↔ ⟨key, value⟩ ∈ m.entries :=
  mem_lookup_iff

theorem lookup_insert_if (other : κ) (value : ν) :
    (m.insert key value).lookup other =
      if other = key then some value else m.lookup other := by
  by_cases same : other = key
  · subst same
    simp
  · rw [if_neg same, lookup_insert_ne same]

theorem lookup_erase_if (other : κ) :
    (m.erase key).lookup other = if other = key then none else m.lookup other := by
  by_cases same : other = key
  · subst same
    simp
  · rw [if_neg same, lookup_erase_ne same]

def eraseAll (m : FiniteMap κ ν) (keys : List κ) : FiniteMap κ ν :=
  keys.foldl (fun acc listed => acc.erase listed) m

theorem lookup_eraseAll (keys : List κ) (key : κ) :
    (m.eraseAll keys).lookup key = if key ∈ keys then none else m.lookup key := by
  unfold eraseAll
  induction keys generalizing m with
  | nil => simp
  | cons head tail ih =>
    rw [foldl_cons, ih]
    by_cases same : key = head
    · subst same
      simp
    · simp [same]

theorem lookup_retain (keep : κ → ν → Bool) (key : κ) :
    (m.retain keep).lookup key = (m.lookup key).filter (keep key) := by
  apply Option.ext
  intro value
  rw [lookup_eq_some_iff, entries_retain, mem_filter, Option.filter_eq_some_iff,
    lookup_eq_some_iff]

theorem lookup_mapValues (change : κ → ν → ν) (key : κ) :
    (m.mapValues change).lookup key = (m.lookup key).map (change key) :=
  dlookup_map₂ key

theorem lookup_foldl_insert (keys : List κ) (m : FiniteMap κ ν) (value : κ → ν) (key : κ) :
    (keys.foldl (fun acc listed => acc.insert listed (value listed)) m).lookup key =
      if key ∈ keys then some (value key) else m.lookup key := by
  induction keys generalizing m with
  | nil => simp
  | cons head tail ih =>
    rw [foldl_cons, ih]
    by_cases same : key = head
    · subst same
      simp
    · simp [same]

theorem perm_of_lookup_eq {m m' : FiniteMap κ ν} (same : ∀ key, m.lookup key = m'.lookup key) :
    m.entries.Perm m'.entries := by
  apply lookup_ext m.nodupKeys m'.nodupKeys
  intro key value
  change value ∈ m.lookup key ↔ value ∈ m'.lookup key
  rw [same key]

end Lookup

/-! ### Totals -/

section

variable [DecidableEq κ]

theorem weigh_eq_sum_keys :
    m.weigh weight = ∑ key ∈ m.keys.toFinset, (m.lookup key).elim 0 (weight key) := by
  rw [sum_toFinset _ m.keys_nodup]
  unfold weigh keys List.keys
  rw [map_map]
  apply congrArg
  apply map_congr_left
  intro entry member
  have found : m.lookup entry.1 = some entry.2 := (lookup_eq_some_iff m _ _).mpr member
  simp [found]

/-- Whatever set of keys is summed over, the entries looked up there weigh at
most the whole map. -/
theorem sum_lookup_le_weigh (keys : Finset κ) (bound : κ → Nat)
    (bounded : ∀ key ∈ keys, bound key ≤ (m.lookup key).elim 0 (weight key)) :
    ∑ key ∈ keys, bound key ≤ m.weigh weight := by
  rw [weigh_eq_sum_keys]
  calc ∑ key ∈ keys, bound key
      ≤ ∑ key ∈ keys, (m.lookup key).elim 0 (weight key) := Finset.sum_le_sum bounded
    _ = ∑ key ∈ keys with key ∈ m.keys.toFinset, (m.lookup key).elim 0 (weight key) := by
        symm
        apply Finset.sum_filter_of_ne
        intro key _ nonzero
        by_contra missing
        have absent : m.lookup key = none := by
          rw [lookup_eq_none, mem_keys]
          simpa using missing
        exact nonzero (by rw [absent]; rfl)
    _ ≤ ∑ key ∈ m.keys.toFinset, (m.lookup key).elim 0 (weight key) := by
        apply Finset.sum_le_sum_of_subset
        intro key member
        exact (Finset.mem_filter.mp member).2

theorem weigh_mono {m m' : FiniteMap κ ν} {weight weight' : κ → ν → Nat}
    (below : ∀ key, (m.lookup key).elim 0 (weight key) ≤ (m'.lookup key).elim 0 (weight' key)) :
    m.weigh weight ≤ m'.weigh weight' := by
  rw [weigh_eq_sum_keys m]
  exact sum_lookup_le_weigh m' weight' _ _ fun key _ => below key

theorem weigh_congr {m m' : FiniteMap κ ν} {weight weight' : κ → ν → Nat}
    (same : ∀ key, (m.lookup key).elim 0 (weight key) = (m'.lookup key).elim 0 (weight' key)) :
    m.weigh weight = m'.weigh weight' :=
  Nat.le_antisymm (weigh_mono fun key => (same key).le) (weigh_mono fun key => (same key).ge)

theorem weigh_split (key : κ) :
    m.weigh weight =
      (m.erase key).weigh weight + (m.lookup key).elim 0 (weight key) := by
  rw [weigh_eq_sum_keys m, weigh_eq_sum_keys (m.erase key), keys_erase,
    List.Nodup.erase_eq_filter m.keys_nodup]
  have rest : ∑ other ∈ (m.keys.filter fun other => other != key).toFinset,
      ((m.erase key).lookup other).elim 0 (weight other) =
      ∑ other ∈ m.keys.toFinset.erase key, (m.lookup other).elim 0 (weight other) := by
    apply Finset.sum_congr
    · ext other
      simp [and_comm]
    · intro other member
      rw [lookup_erase_ne (Finset.ne_of_mem_erase member)]
  rw [rest]
  by_cases present : key ∈ m.keys.toFinset
  · exact (Finset.sum_erase_add _ _ present).symm
  · have absent : m.lookup key = none := by
      rw [lookup_eq_none, mem_keys]
      simpa using present
    rw [Finset.erase_eq_of_notMem present, absent]
    rfl

theorem weigh_insert (key : κ) (value : ν) :
    (m.insert key value).weigh weight = (m.erase key).weigh weight + weight key value := by
  rw [weigh_split _ weight key, lookup_insert]
  apply congrArg (· + weight key value)
  apply weigh_congr
  intro other
  by_cases same : other = key
  · subst same
    simp
  · rw [lookup_erase_ne same, lookup_insert_ne same, lookup_erase_ne same]

theorem weigh_insert_le {m : FiniteMap κ ν} {weight : κ → ν → Nat} {key : κ}
    {old new : ν} (present : m.lookup key = some old)
    (below : weight key new ≤ weight key old) :
    (m.insert key new).weigh weight ≤ m.weigh weight := by
  rw [weigh_insert, weigh_split m weight key, present]
  exact Nat.add_le_add_left below _

theorem weigh_insert_of_absent {m : FiniteMap κ ν} {key : κ} (value : ν)
    (absent : m.lookup key = none) :
    (m.insert key value).weigh weight = m.weigh weight + weight key value := by
  rw [weigh_insert, weigh_split m weight key, absent]
  rfl

end

end AList
