/-
The guaranteed shares of all nodes together.

Each node divides by the larger of the configured fleet size and what it sees, so a fleet
that outgrew its configuration is safe only once all its nodes have heard of each other.
-/

import Pgprox.Cluster.Coordinator

namespace Pgprox.Cluster

/-! ### One cap divided twice -/

theorem guaranteedPerNode_split (cap nodes : Nat) (guaranteedFraction : ℚ) :
    (split cap nodes guaranteedFraction).guaranteedPerNode =
      guaranteedTotal cap guaranteedFraction / nodes := by
  unfold split
  split
  · rename_i none
    rw [none, Nat.div_zero]
  · rfl

theorem freePool_split {nodes : Nat} (some : 0 < nodes) (cap : Nat) (guaranteedFraction : ℚ) :
    (split cap nodes guaranteedFraction).freePool =
      cap - guaranteedTotal cap guaranteedFraction := by
  unfold split
  rw [if_neg (Nat.ne_of_gt some)]

/-- Shares computed under one view and a free pool computed under another stay within
the cap together, and leave fewer connections unassigned than there are shares. -/
theorem shares_add_freePool_le (cap first second : Nat) (guaranteedFraction : ℚ)
    (someFirst : 0 < first) (someSecond : 0 < second) :
    first * (split cap first guaranteedFraction).guaranteedPerNode +
        (split cap second guaranteedFraction).freePool ≤ cap ∧
      cap - first * (split cap first guaranteedFraction).guaranteedPerNode -
        (split cap second guaranteedFraction).freePool < first := by
  have part := guaranteedTotal_le cap guaranteedFraction
  have divided := Nat.div_add_mod (guaranteedTotal cap guaranteedFraction) first
  have remainder := Nat.mod_lt (guaranteedTotal cap guaranteedFraction) someFirst
  rw [guaranteedPerNode_split, freePool_split someSecond]
  omega

theorem shares_add_freePool_le_three_and_five :
    (0 < 3 ∧ 0 < 5) ∧
      3 * (split 100 3 (1 / 2)).guaranteedPerNode + (split 100 5 (1 / 2)).freePool ≤ 100 ∧
        100 - 3 * (split 100 3 (1 / 2)).guaranteedPerNode - (split 100 5 (1 / 2)).freePool < 3 :=
  ⟨⟨by decide, by decide⟩, shares_add_freePool_le 100 3 5 (1 / 2) (by decide) (by decide)⟩

/-! ### A fleet larger than configured -/

namespace NodeCoordinator

def seen (c : NodeCoordinator) (now : Nat) : Finset NodeId :=
  ((c.membership now).members.map Member.id).toFinset

def divisor (c : NodeCoordinator) (now : Nat) : Nat :=
  max c.config.fleetSize (clampU32 (c.seen now).card)

theorem card_seen (c : NodeCoordinator) (now : Nat) :
    (c.seen now).card = (c.membership now).members.length := by
  unfold seen membership
  rw [List.toFinset_card_of_nodup (c.liveness.nodup_view now), List.length_map]

theorem guaranteed_allowance_setCap (c : NodeCoordinator) (server : ServerId)
    (quota : ServerQuota) (now : Nat) :
    ((c.setCap server quota).allowance server now).guaranteed =
      guaranteedTotal quota.cap quota.guaranteedFraction / c.divisor now := by
  change ((c.setCap server quota).splitFor server (c.membership now)).guaranteedPerNode = _
  unfold splitFor setCap divisor
  rw [AList.lookup_insert, card_seen]
  exact guaranteedPerNode_split _ _ _

end NodeCoordinator

/-- The guaranteed part of a cap without the rounding of the product. -/
def exactTotal (cap : Nat) (guaranteedFraction : ℚ) : Nat :=
  ⌊(cap : ℚ) * clampFraction guaranteedFraction⌋.toNat

theorem exactTotal_one (cap : Nat) : exactTotal cap 1 = cap := by
  have whole : clampFraction 1 = 1 := by decide
  unfold exactTotal
  rw [whole, mul_one, floor_natCast]

section Divided

variable {nodes : Finset NodeId} {divisor : NodeId → Nat}

theorem sum_div_le_of_card_le (amount : Nat) (large : ∀ node ∈ nodes, nodes.card ≤ divisor node) :
    ∑ node ∈ nodes, amount / divisor node ≤ amount := by
  calc ∑ node ∈ nodes, amount / divisor node
      ≤ ∑ _node ∈ nodes, amount / nodes.card := by
        apply Finset.sum_le_sum
        intro node member
        exact Nat.div_le_div_left (large node member) (Finset.card_pos.mpr ⟨node, member⟩)
    _ = nodes.card * (amount / nodes.card) := by rw [Finset.sum_const, smul_eq_mul]
    _ ≤ amount := Nat.mul_div_le amount nodes.card

/-- A party that divides by less than the number of parties takes more than is left for it. -/
theorem lt_sum_div {short : NodeId} (member : short ∈ nodes)
    (some : ∀ node ∈ nodes, 0 < divisor node)
    (within : ∀ node ∈ nodes, divisor node ≤ nodes.card) (less : divisor short < nodes.card) :
    nodes.card * (nodes.card - 1) <
      ∑ node ∈ nodes, nodes.card * (nodes.card - 1) / divisor node := by
  have parties : 0 < nodes.card := Finset.card_pos.mpr ⟨short, member⟩
  have constant : nodes.card * (nodes.card - 1) = ∑ _node ∈ nodes, (nodes.card - 1) := by
    rw [Finset.sum_const, smul_eq_mul]
  rw [constant]
  apply Finset.sum_lt_sum
  · intro node listed
    rw [← constant, Nat.le_div_iff_mul_le (some node listed), Nat.mul_comm]
    exact Nat.mul_le_mul_right _ (within node listed)
  · refine ⟨short, member, ?_⟩
    rw [← constant, Nat.lt_iff_add_one_le, Nat.sub_add_cancel parties,
      Nat.le_div_iff_mul_le (some short member)]
    exact Nat.mul_le_mul_left _ (Nat.le_sub_one_of_lt less)

end Divided

/-- Running nodes of one configured fleet size, of which each sees itself and whichever of the
others, keep within the guaranteed part of every cap whose product is floored exactly, if and
only if no more nodes run than are configured or every node sees all of them. -/
theorem guaranteed_shares_within_iff (nodes : Finset NodeId)
    (running : NodeId → NodeCoordinator) (fleetSize : Nat) (server : ServerId) (now : Nat)
    (identifiers : ∀ node ∈ nodes, node < 2 ^ 16)
    (configured : ∀ node ∈ nodes, (running node).config.fleetSize = fleetSize)
    (heard : ∀ node ∈ nodes, node ∈ (running node).seen now ∧ (running node).seen now ⊆ nodes) :
    (∀ quota : ServerQuota, quota.cap ≤ u32Max →
        guaranteedTotal quota.cap quota.guaranteedFraction =
          exactTotal quota.cap quota.guaranteedFraction →
        ∑ node ∈ nodes, (((running node).setCap server quota).allowance server now).guaranteed ≤
          exactTotal quota.cap quota.guaranteedFraction) ↔
      nodes.card ≤ fleetSize ∨ ∀ node ∈ nodes, (running node).seen now = nodes := by
  simp only [NodeCoordinator.guaranteed_allowance_setCap]
  have few : nodes.card ≤ 2 ^ 16 := by
    have inside : nodes ⊆ Finset.range (2 ^ 16) := fun node member =>
      Finset.mem_range.mpr (identifiers node member)
    simpa using Finset.card_le_card inside
  have divides : ∀ node ∈ nodes,
      (running node).divisor now = max fleetSize ((running node).seen now).card := by
    intro node member
    have fewer := Finset.card_le_card (heard node member).2
    unfold NodeCoordinator.divisor clampU32 u32Max
    rw [configured node member]
    omega
  constructor
  · intro within
    by_contra! outgrown
    obtain ⟨larger, short, member, misses⟩ := outgrown
    have less := Finset.card_lt_card (lt_of_le_of_ne (heard short member).2 misses)
    have some : ∀ node ∈ nodes, 0 < (running node).divisor now := by
      intro node listed
      rw [divides node listed]
      exact lt_max_of_lt_right (Finset.card_pos.mpr ⟨node, (heard node listed).1⟩)
    have exceeds := lt_sum_div member some
      (fun node listed => by
        rw [divides node listed]
        exact max_le larger.le (Finset.card_le_card (heard node listed).2))
      (by
        rw [divides short member]
        exact max_lt larger less)
    have capped : nodes.card * (nodes.card - 1) ≤ u32Max := by
      calc nodes.card * (nodes.card - 1) ≤ 2 ^ 16 * (2 ^ 16 - 1) :=
            Nat.mul_le_mul few (Nat.sub_le_sub_right few 1)
        _ ≤ u32Max := by decide
    have full := within { cap := nodes.card * (nodes.card - 1), guaranteedFraction := 1 } capped
    rw [guaranteedTotal_one, exactTotal_one] at full
    exact absurd (full rfl) (Nat.not_le.mpr exceeds)
  · intro safe quota _ exact_
    rw [← exact_]
    apply sum_div_le_of_card_le
    intro node member
    rw [divides node member]
    rcases safe with small | all
    · exact le_max_of_le_left small
    · exact le_max_of_le_right (Finset.card_le_card (all node member).superset)

def unheardNode (node : NodeId) : NodeCoordinator :=
  (NodeCoordinator.new node CoordinatorConfig.default 0).heartbeat 0

def unheardShare (node : NodeId) : Nat :=
  (((unheardNode node).setCap ⟨"db:5432"⟩ { cap := 100, guaranteedFraction := 1 / 2 }).allowance
    ⟨"db:5432"⟩ 0).guaranteed

theorem guaranteed_shares_within_of_five :
    ∑ node ∈ Finset.range 5, unheardShare node ≤ exactTotal 100 (1 / 2) :=
  (guaranteed_shares_within_iff (Finset.range 5) unheardNode 5 ⟨"db:5432"⟩ 0
    (by decide) (by decide +kernel) (by decide +kernel)).mpr (.inl (by decide))
    { cap := 100, guaranteedFraction := 1 / 2 } (by decide) (by decide +kernel)

/-- Eight nodes of a fleet of five that have heard of no other; and, for one node, a product
that the rounding lifts to the next whole number. -/
theorem guaranteed_shares_exceed_unheard :
    exactTotal 100 (1 / 2) = 50 ∧ ∑ node ∈ Finset.range 8, unheardShare node = 80 ∧
      exactTotal 10 (6305039478318694 / 2 ^ 53) = 6 ∧
        guaranteedTotal 10 (6305039478318694 / 2 ^ 53) = 7 := by
  decide +kernel

end Pgprox.Cluster
