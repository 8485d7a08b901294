/-
Which pools get the connections a division leaves over.

The leftover goes one by one to the pools with the most demand, ties to the earlier
pool.  Demand counts connections as well as callers, so a pool that nobody waits for can
come before one with a queue.
-/

import Pgprox.Pool.Admission

namespace Pgprox.Pools

open List

/-! ### Places in a sorted list -/

/-- In a list sorted by a strict order, an element's place is the number of elements
that come before it. -/
theorem countP_eq_idxOf {α : Type} [DecidableEq α] (before : α → α → Bool)
    (asymmetric : ∀ a b, before a b = true → before b a = false) {sorted : List α}
    (ordered : sorted.Pairwise fun a b => before a b = true) {item : α} (listed : item ∈ sorted) :
    sorted.countP (fun other => before other item) = sorted.idxOf item := by
  induction sorted with
  | nil => cases listed
  | cons head tail ih =>
    obtain ⟨first, rest⟩ := pairwise_cons.mp ordered
    by_cases own : item = head
    · subst own
      have none : tail.countP (fun other => before other item) = 0 := by
        rw [countP_eq_zero]
        intro other member
        rw [asymmetric item other (first other member)]
        exact Bool.false_ne_true
      have self : before item item = false := by
        cases same : before item item with
        | false => rfl
        | true => cases same.symm.trans (asymmetric item item same)
      rw [countP_cons_of_neg (by rw [self]; exact Bool.false_ne_true), none,
        idxOf_cons_self]
    · have later : item ∈ tail := (mem_cons.mp listed).resolve_left own
      have counted : (head :: tail).countP (fun other => before other item) =
          tail.countP (fun other => before other item) + 1 :=
        countP_cons_of_pos (first item later)
      rw [counted, ih rest later, idxOf_cons_ne _ (Ne.symm own)]

theorem mem_take_iff_idxOf_lt {α : Type} [DecidableEq α] {items : List α} {item : α}
    (listed : item ∈ items) (count : Nat) : item ∈ items.take count ↔ items.idxOf item < count := by
  induction items generalizing count with
  | nil => cases listed
  | cons head tail ih =>
    cases count with
    | zero => simp
    | succ count =>
      rw [take_succ_cons, mem_cons]
      by_cases own : item = head
      · subst own
        simp
      · have later : item ∈ tail := (mem_cons.mp listed).resolve_left own
        rw [idxOf_cons_ne _ (Ne.symm own), ih later count]
        constructor
        · rintro (same | below)
          · exact absurd same own
          · omega
        · intro below
          exact .inr (by omega)

/-! ### Handing out -/

theorem getD_handOut {order : List Nat} (distinct : order.Nodup) (remainder : Nat)
    (shares : List Nat) {index : Nat} (inside : index < shares.length) :
    (handOut order remainder shares).getD index 0 =
      shares.getD index 0 + if index ∈ order.take remainder then 1 else 0 := by
  induction order generalizing remainder shares with
  | nil => simp [handOut]
  | cons head tail ih =>
    obtain ⟨fresh, rest⟩ := nodup_cons.mp distinct
    cases remainder with
    | zero => simp [handOut]
    | succ remainder =>
      change (handOut tail remainder (shares.modify head (· + 1))).getD index 0 = _
      rw [ih rest _ _ (by rwa [length_modify]), take_succ_cons]
      by_cases own : index = head
      · subst own
        have absent : index ∉ tail.take remainder := fun member =>
          fresh (mem_of_mem_take member)
        rw [if_neg absent, if_pos mem_cons_self]
        simp [getD_eq_getElem?_getD, inside]
      · have same : index ∈ head :: tail.take remainder ↔ index ∈ tail.take remainder := by
          simp [own]
        simp only [same]
        congr 1
        simp [getD_eq_getElem?_getD, Ne.symm own]

theorem sum_handOut {order : List Nat} {remainder : Nat} {shares : List Nat}
    (inside : ∀ index ∈ order, index < shares.length) (enough : remainder ≤ order.length) :
    (handOut order remainder shares).sum = shares.sum + remainder := by
  induction order generalizing remainder shares with
  | nil =>
    obtain rfl : remainder = 0 := Nat.le_zero.mp enough
    rfl
  | cons head tail ih =>
    cases remainder with
    | zero => rfl
    | succ remainder =>
      change (handOut tail remainder (shares.modify head (· + 1))).sum = _
      rw [ih _ (Nat.le_of_succ_le_succ enough), sum_modify_succ,
        if_pos (inside head mem_cons_self)]
      · omega
      · intro index member
        rw [length_modify]
        exact inside index (mem_cons_of_mem head member)

/-! ### The order of demand -/

section Demand

variable (demand : List Nat)

def comesBefore (a b : Nat) : Bool :=
  decide (demand.getD b 0 < demand.getD a 0 ∨ demand.getD a 0 = demand.getD b 0 ∧ a < b)

def ahead (index : Nat) : Nat :=
  (List.range demand.length).countP fun other => comesBefore demand other index

def byDemand : List Nat :=
  (List.range demand.length).insertionSort fun a b =>
    demand.getD b 0 < demand.getD a 0 ∨ demand.getD a 0 = demand.getD b 0 ∧ a ≤ b

theorem byDemand_perm : (byDemand demand).Perm (List.range demand.length) :=
  perm_insertionSort _ _

theorem byDemand_nodup : (byDemand demand).Nodup :=
  (byDemand_perm demand).nodup_iff.mpr nodup_range

theorem byDemand_pairwise :
    (byDemand demand).Pairwise fun a b => comesBefore demand a b = true := by
  have total : Std.Total fun a b : Nat =>
      demand.getD b 0 < demand.getD a 0 ∨ demand.getD a 0 = demand.getD b 0 ∧ a ≤ b :=
    ⟨fun a b => by omega⟩
  have transitive : IsTrans Nat fun a b : Nat =>
      demand.getD b 0 < demand.getD a 0 ∨ demand.getD a 0 = demand.getD b 0 ∧ a ≤ b :=
    ⟨fun a b c => by omega⟩
  have sorted := pairwise_insertionSort (fun a b : Nat =>
    demand.getD b 0 < demand.getD a 0 ∨ demand.getD a 0 = demand.getD b 0 ∧ a ≤ b)
    (List.range demand.length)
  refine (sorted.and (byDemand_nodup demand)).imp ?_
  rintro a b ⟨order, different⟩
  apply decide_eq_true
  omega

theorem idxOf_byDemand {index : Nat} (inside : index < demand.length) :
    (byDemand demand).idxOf index = ahead demand index := by
  have listed : index ∈ byDemand demand :=
    (byDemand_perm demand).mem_iff.mpr (mem_range.mpr inside)
  have asymmetric : ∀ a b, comesBefore demand a b = true → comesBefore demand b a = false := by
    intro a b first
    have order := of_decide_eq_true first
    apply decide_eq_false
    omega
  rw [← countP_eq_idxOf (comesBefore demand) asymmetric (byDemand_pairwise demand) listed]
  exact (byDemand_perm demand).countP_eq _

theorem getD_sharesAcrossPools (guaranteed leased : Nat) (counted : demand.length ≤ u32Max)
    {index : Nat} (inside : index < demand.length) :
    (sharesAcrossPools guaranteed leased demand).getD index 0 =
      saturatingAdd guaranteed leased / demand.length +
        if ahead demand index < saturatingAdd guaranteed leased % demand.length then 1 else 0 := by
  have listed : index ∈ byDemand demand :=
    (byDemand_perm demand).mem_iff.mpr (mem_range.mpr inside)
  unfold sharesAcrossPools
  rw [if_neg (Nat.not_lt.mpr counted), if_neg (by omega)]
  change (handOut (byDemand demand) _ _).getD index 0 = _
  rw [getD_handOut (byDemand_nodup demand) _ _ (by rwa [length_replicate])]
  congr 1
  · simp [getD_eq_getElem?_getD, inside]
  · simp only [mem_take_iff_idxOf_lt listed, idxOf_byDemand demand inside]

theorem sum_sharesAcrossPools (guaranteed leased : Nat) (some : demand ≠ [])
    (counted : demand.length ≤ u32Max) :
    (sharesAcrossPools guaranteed leased demand).sum = saturatingAdd guaranteed leased := by
  have filled : 0 < demand.length := length_pos_iff.mpr some
  have whole := Nat.div_add_mod (saturatingAdd guaranteed leased) demand.length
  have left := Nat.mod_lt (saturatingAdd guaranteed leased) filled
  have size := (byDemand_perm demand).length_eq
  rw [length_range] at size
  unfold sharesAcrossPools
  rw [if_neg (Nat.not_lt.mpr counted), if_neg (by omega)]
  change (handOut (byDemand demand) _ _).sum = _
  rw [sum_handOut, sum_replicate, smul_eq_mul]
  · exact whole
  · intro index member
    rw [length_replicate]
    exact mem_range.mp ((byDemand_perm demand).mem_iff.mp member)
  · omega

end Demand

/-! ### One server's pools -/

def waitingFor (all : List (PoolKey × PoolStats)) (server : ServerId) : List Nat :=
  (all.filter fun entry => decide (entry.1.server = server)).map fun entry => entry.2.waiting

/-- Whether waiting callers come first among the leftover: a pool without any is among
the `leftover` pools of most demand only if every pool with some is. -/
def WaitersFirst (demand waiting : List Nat) (leftover : Nat) : Prop :=
  ∀ idle busy, idle < demand.length → busy < demand.length → waiting.getD idle 0 = 0 →
    0 < waiting.getD busy 0 → ahead demand idle < leftover → ahead demand busy < leftover

/-- The limits of a server's pools add up to the allowance and differ by at most one; the
leftover reaches every pool with waiting callers before any without exactly when the order
of demand does. -/
theorem leftover_follows_waiting_iff (all : List (PoolKey × PoolStats)) (server : ServerId)
    (guaranteed leased : Nat) (some : poolsFor all server ≠ [])
    (counted : (poolsFor all server).length ≤ u32Max) (fits : guaranteed + leased ≤ u32Max) :
    let demand := (poolsFor all server).map Prod.snd
    let limits := sharesAcrossPools guaranteed leased demand
    let floor := (guaranteed + leased) / demand.length
    limits.sum = guaranteed + leased ∧
      (∀ first second, first < demand.length → second < demand.length →
        limits.getD first 0 ≤ limits.getD second 0 + 1) ∧
      ((∀ idle busy, idle < demand.length → busy < demand.length →
          (waitingFor all server).getD idle 0 = 0 → 0 < (waitingFor all server).getD busy 0 →
          floor < limits.getD idle 0 → floor < limits.getD busy 0) ↔
        WaitersFirst demand (waitingFor all server)
          ((guaranteed + leased) % demand.length)) := by
  intro demand limits floor
  have total : saturatingAdd guaranteed leased = guaranteed + leased := Nat.min_eq_left fits
  have filled : demand ≠ [] := fun empty => some (map_eq_nil_iff.mp empty)
  have size : demand.length ≤ u32Max := by rwa [length_map]
  have share : ∀ index, index < demand.length → limits.getD index 0 =
      floor + if ahead demand index < (guaranteed + leased) % demand.length then 1 else 0 := by
    intro index inside
    have exact := getD_sharesAcrossPools demand guaranteed leased size inside
    rwa [total] at exact
  have gets : ∀ index, index < demand.length → (floor < limits.getD index 0 ↔
      ahead demand index < (guaranteed + leased) % demand.length) := by
    intro index inside
    rw [share index inside]
    split <;> omega
  refine ⟨?_, ?_, ?_⟩
  · rw [← total]
    exact sum_sharesAcrossPools demand guaranteed leased filled size
  · intro first second insideFirst insideSecond
    rw [share first insideFirst, share second insideSecond]
    split <;> split <;> omega
  · constructor
    · intro fair idle busy insideIdle insideBusy none waits first
      rw [← gets busy insideBusy]
      exact fair idle busy insideIdle insideBusy none waits ((gets idle insideIdle).mpr first)
    · intro first idle busy insideIdle insideBusy none waits more
      rw [gets busy insideBusy]
      exact first idle busy insideIdle insideBusy none waits ((gets idle insideIdle).mp more)

def idleAndQueued : List (PoolKey × PoolStats) :=
  [(acmeKey, { active := 0, idle := 3, waiting := 0, limit := 3 }),
    (otherKey, { active := 0, idle := 0, waiting := 1, limit := 0 })]

theorem leftover_passes_waiting_pool :
    (poolsFor idleAndQueued acmeKey.server).map Prod.snd = [3, 1] ∧
      waitingFor idleAndQueued acmeKey.server = [0, 1] ∧
        sharesAcrossPools 1 0 [3, 1] = [1, 0] := by
  decide +kernel

theorem leftover_follows_waiting_two_pools :
    let demand := (poolsFor idleAndQueued.reverse acmeKey.server).map Prod.snd
    let limits := sharesAcrossPools 2 1 demand
    let floor := (2 + 1) / demand.length
    limits.sum = 2 + 1 ∧
      (∀ first second, first < demand.length → second < demand.length →
        limits.getD first 0 ≤ limits.getD second 0 + 1) ∧
      ((∀ idle busy, idle < demand.length → busy < demand.length →
          (waitingFor idleAndQueued.reverse acmeKey.server).getD idle 0 = 0 →
          0 < (waitingFor idleAndQueued.reverse acmeKey.server).getD busy 0 →
          floor < limits.getD idle 0 → floor < limits.getD busy 0) ↔
        WaitersFirst demand (waitingFor idleAndQueued.reverse acmeKey.server)
          ((2 + 1) % demand.length)) :=
  leftover_follows_waiting_iff idleAndQueued.reverse acmeKey.server 2 1 (by decide) (by decide)
    (by decide)

end Pgprox.Pools
