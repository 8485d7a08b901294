/-
Which node a tenant lives on.

The home is the active node of highest weight, a maximum over the set of active nodes, so a
change of one node moves only tenants to it or away from it.
-/

import Pgprox.Cluster.Membership

namespace Pgprox.Cluster

open List

/-- FNV-1a, and a `SplitMix64` finalizer. -/
def stableHash (bytes : List UInt8) (seed : UInt64) : UInt64 :=
  let hash := bytes.foldl (fun hash byte => (hash ^^^ byte.toUInt64) * 0x100000001b3)
    (0xcbf29ce484222325 ^^^ seed)
  let z := hash + 0x9e3779b97f4a7c15
  let z := (z ^^^ (z >>> 30)) * 0xbf58476d1ce4e5b9
  let z := (z ^^^ (z >>> 27)) * 0x94d049bb133111eb
  z ^^^ (z >>> 31)

def rank (tenant : TenantId) (node : NodeId) : ℕ ×ₗ ℕ :=
  toLex ((stableHash tenant.name.toUTF8.toList (UInt64.ofNat node)).toNat, node)

def MembershipView.homeNode (view : MembershipView) (tenant : TenantId) : Option NodeId :=
  view.active.argmax (rank tenant)

theorem rank_injective (tenant : TenantId) : Function.Injective (rank tenant) :=
  fun _ _ same => congrArg (fun key => (ofLex key).2) same

/-! ### The mode a list gives a node -/

def standing (members : List Member) (node : NodeId) : Option NodeMode :=
  (members.find? fun member => member.id = node).map Member.mode

theorem standing_cons (member : Member) (members : List Member) (node : NodeId) :
    standing (member :: members) node =
      if member.id = node then some member.mode else standing members node := by
  unfold standing
  by_cases same : member.id = node
  · simp [same]
  · simp [same]

/-- Sorting is stable: an entry goes in front of those of its own identifier. -/
theorem standing_orderedInsert (member : Member) (members : List Member) (node : NodeId) :
    standing (members.orderedInsert (fun a b => a.id ≤ b.id) member) node =
      standing (member :: members) node := by
  induction members with
  | nil => rfl
  | cons head tail ih =>
    rw [List.orderedInsert]
    split
    · rfl
    · rename_i behind
      have apart : ¬ (head.id = node ∧ member.id = node) := fun both =>
        behind (Nat.le_of_eq (both.2.trans both.1.symm))
      rw [standing_cons head, ih, standing_cons member, standing_cons member, standing_cons head]
      by_cases first : head.id = node
      · rw [if_pos first, if_neg fun second => apart ⟨first, second⟩, if_pos first]
      · rw [if_neg first, if_neg first]

theorem standing_insertionSort (members : List Member) (node : NodeId) :
    standing (members.insertionSort fun a b => a.id ≤ b.id) node = standing members node := by
  induction members with
  | nil => rfl
  | cons head tail ih =>
    rw [insertionSort_cons, standing_orderedInsert, standing_cons, standing_cons, ih]

theorem head?_dedupById (members : List Member) :
    (dedupById members).head? = members.head? := by
  cases members with
  | nil => rfl
  | cons head tail =>
    rw [dedupById, foldr_cons]
    split
    · rfl
    · split <;> rfl

theorem filter_dedupById {members : List Member}
    (sorted : members.Pairwise fun a b => a.id ≤ b.id) (node : NodeId) :
    (dedupById members).filter (fun member => member.id = node) =
      (members.find? fun member => member.id = node).toList := by
  induction members with
  | nil => rfl
  | cons head tail ih =>
    obtain ⟨least, below⟩ := pairwise_cons.mp sorted
    have rest := ih below
    have first := head?_dedupById tail
    rw [dedupById, foldr_cons, ← dedupById]
    split
    · rename_i empty
      rw [empty] at first
      rw [head?_eq_none_iff.mp first.symm]
      by_cases same : head.id = node <;> simp [same]
    · rename_i next later shape
      rw [shape] at rest first
      by_cases same : head.id = node
      · rw [find?_cons_of_pos (by simpa using same)]
        split
        · rename_i level
          rw [filter_cons_of_pos (by simpa using same)]
          rw [filter_cons_of_pos (by simpa using level.symm.trans same)] at rest
          have short := congrArg List.length rest
          rw [length_cons] at short
          have none : (later.filter fun member => decide (member.id = node)).length = 0 := by
            have := Option.length_toList_le (o := tail.find? fun member => member.id = node)
            omega
          rw [length_eq_zero_iff.mp none]
          rfl
        · rename_i differs
          obtain ⟨more, rfl⟩ := head?_eq_some_iff.mp first.symm
          rw [filter_cons_of_pos (by simpa using same), rest]
          have none : ((next :: more).find? fun member => member.id = node) = none := by
            rw [find?_eq_none]
            intro member listed here
            have level : member.id = head.id := (of_decide_eq_true here).trans same.symm
            have high : next.id ≤ member.id := by
              rcases mem_cons.mp listed with rfl | behind
              · exact le_rfl
              · exact rel_of_pairwise_cons below behind
            exact differs (Nat.le_antisymm (least next mem_cons_self) (level ▸ high))
          rw [none]
          rfl
      · rw [find?_cons_of_neg (by simpa using same), ← rest]
        split
        · rename_i level
          rw [filter_cons_of_neg (by simpa using same),
            filter_cons_of_neg (by simpa [← level] using same)]
        · rw [filter_cons_of_neg (by simpa using same)]

theorem mem_active_new_iff {self : NodeId} {members : List Member} {node : NodeId} :
    node ∈ (MembershipView.new self members).active ↔ standing members node = some .active := by
  have only := filter_dedupById
    (pairwise_insertionSort (fun a b : Member => a.id ≤ b.id) members) node
  rw [← standing_insertionSort]
  unfold MembershipView.active standing
  rw [mem_map, Option.map_eq_some_iff]
  constructor
  · rintro ⟨member, listed, rfl⟩
    obtain ⟨here, active⟩ := mem_filter.mp listed
    have kept : member ∈ (dedupById (members.insertionSort fun a b => a.id ≤ b.id)).filter
        fun other => other.id = member.id :=
      mem_filter.mpr ⟨here, decide_eq_true rfl⟩
    rw [only, Option.mem_toList] at kept
    exact ⟨member, kept, by simpa using active⟩
  · rintro ⟨member, found, active⟩
    have kept : member ∈ (dedupById (members.insertionSort fun a b => a.id ≤ b.id)).filter
        fun member => member.id = node := by
      rw [only, found]
      exact mem_singleton_self member
    obtain ⟨here, same⟩ := mem_filter.mp kept
    exact ⟨member, mem_filter.mpr ⟨here, by simp [active]⟩, of_decide_eq_true same⟩

/-! ### The home is the best of a set -/

section Home

variable {self node : NodeId} {members others : List Member} {tenant : TenantId}

theorem homeNode_eq_some_iff :
    (MembershipView.new self members).homeNode tenant = some node ↔
      standing members node = some .active ∧
        ∀ other, standing members other = some .active → rank tenant other ≤ rank tenant node := by
  unfold MembershipView.homeNode
  rw [argmax_eq_some_iff]
  simp only [mem_active_new_iff]
  constructor
  · exact fun best => ⟨best.1, best.2.1⟩
  · rintro ⟨active, highest⟩
    refine ⟨active, highest, fun other listed level => ?_⟩
    rw [rank_injective tenant (le_antisymm level (highest other listed))]

theorem homeNode_eq_none_iff :
    (MembershipView.new self members).homeNode tenant = none ↔
      ∀ other, standing members other ≠ some .active := by
  unfold MembershipView.homeNode
  rw [argmax_eq_none, eq_nil_iff_forall_not_mem]
  exact forall_congr' fun other => not_congr mem_active_new_iff

/-- Lists that agree on all nodes but one agree on every home but that one. -/
theorem homeNode_eq_of_agree (node : NodeId)
    (agree : ∀ other ≠ node, standing members other = standing others other)
    (before : (MembershipView.new self members).homeNode tenant ≠ some node)
    (after : (MembershipView.new self others).homeNode tenant ≠ some node) :
    (MembershipView.new self others).homeNode tenant =
      (MembershipView.new self members).homeNode tenant := by
  cases first : (MembershipView.new self members).homeNode tenant with
  | none =>
    cases second : (MembershipView.new self others).homeNode tenant with
    | none => rfl
    | some home =>
      have apart : home ≠ node := fun same => after (same ▸ second)
      have active := (homeNode_eq_some_iff.mp second).1
      rw [← agree home apart] at active
      exact absurd active (homeNode_eq_none_iff.mp first home)
  | some home =>
    have apart : home ≠ node := fun same => before (same ▸ first)
    obtain ⟨active, highest⟩ := homeNode_eq_some_iff.mp first
    rw [agree home apart] at active
    cases second : (MembershipView.new self others).homeNode tenant with
    | none => exact absurd active (homeNode_eq_none_iff.mp second home)
    | some other =>
      have apartToo : other ≠ node := fun same => after (same ▸ second)
      obtain ⟨activeToo, highestToo⟩ := homeNode_eq_some_iff.mp second
      rw [← agree other apartToo] at activeToo
      congr 1
      exact rank_injective tenant (le_antisymm (highest other activeToo) (highestToo home active))

theorem homeNode_of_activated
    (agree : ∀ other ≠ node, standing members other = standing others other)
    (active : standing others node = some .active)
    (before : (MembershipView.new self members).homeNode tenant = some node) :
    (MembershipView.new self others).homeNode tenant = some node := by
  rw [homeNode_eq_some_iff] at before ⊢
  refine ⟨active, fun other listed => ?_⟩
  by_cases same : other = node
  · rw [same]
  · exact before.2 other ((agree other same).trans listed)

end Home

/-! ### Changes of one node -/

def withoutNode (node : NodeId) (members : List Member) : List Member :=
  members.filter fun member => member.id ≠ node

def withMode (node : NodeId) (mode : NodeMode) (members : List Member) : List Member :=
  members.map fun member => if member.id = node then { member with mode := mode } else member

theorem standing_withoutNode (node : NodeId) (members : List Member) (other : NodeId) :
    standing (withoutNode node members) other =
      if other = node then none else standing members other := by
  induction members with
  | nil => simp [withoutNode, standing]
  | cons head tail ih =>
    unfold withoutNode at ih ⊢
    rw [filter_cons, standing_cons]
    by_cases gone : head.id = node
    · grind
    · rw [if_pos (by simpa using gone), standing_cons]
      grind

theorem standing_withMode (node : NodeId) (mode : NodeMode) (members : List Member)
    (other : NodeId) :
    standing (withMode node mode members) other =
      if other = node then (standing members other).map fun _ => mode
      else standing members other := by
  induction members with
  | nil => simp [withMode, standing]
  | cons head tail ih =>
    unfold withMode at ih ⊢
    rw [map_cons, standing_cons, standing_cons]
    grind

theorem standing_append (front back : List Member) (node : NodeId) :
    standing (front ++ back) node = (standing front node).or (standing back node) := by
  unfold standing
  rw [find?_append]
  cases front.find? fun member => member.id = node <;> rfl

/-! ### The order of the list -/

theorem mem_of_standing {members : List Member} {node : NodeId} {mode : NodeMode}
    (found : standing members node = some mode) : ⟨node, mode⟩ ∈ members := by
  obtain ⟨member, first, rfl⟩ := Option.map_eq_some_iff.mp found
  have same : member.id = node := by simpa using find?_some first
  rw [← same]
  exact mem_of_find?_eq_some first

/-- Where no node is listed twice, each has the mode of its entry, wherever that stands. -/
theorem standing_eq_some_iff {members : List Member} (distinct : (members.map Member.id).Nodup)
    {node : NodeId} {mode : NodeMode} :
    standing members node = some mode ↔ ⟨node, mode⟩ ∈ members := by
  refine ⟨mem_of_standing, fun listed => ?_⟩
  cases found : standing members node with
  | none =>
    have missing := find?_eq_none.mp (Option.map_eq_none_iff.mp found) _ listed
    exact absurd (decide_eq_true rfl) missing
  | some other =>
    cases inj_on_of_nodup_map distinct (mem_of_standing found) listed rfl
    rfl

theorem homeNode_perm {self : NodeId} {tenant : TenantId} {members others : List Member}
    (distinct : (members.map Member.id).Nodup) (same : members.Perm others) :
    (MembershipView.new self others).homeNode tenant =
      (MembershipView.new self members).homeNode tenant := by
  have distinctToo : (others.map Member.id).Nodup := (same.map Member.id).nodup_iff.mp distinct
  apply Option.ext
  intro node
  rw [homeNode_eq_some_iff, homeNode_eq_some_iff]
  simp only [standing_eq_some_iff distinct, standing_eq_some_iff distinctToo, same.mem_iff]

/-- No home depends on the order of a list without repeated nodes.  Removing or draining a
node moves only its own tenants, adding or re-activating one moves tenants only to it, and
the home is an active member whenever there is one. -/
theorem rehoming_minimal (self node : NodeId) (tenant : TenantId) (members : List Member)
    (distinct : (members.map Member.id).Nodup) :
    let home := fun listed => (MembershipView.new self listed).homeNode tenant
    (∀ others, members.Perm others → home others = home members) ∧
      (home members ≠ some node → home (withoutNode node members) = home members ∧
        home (withMode node .draining members) = home members) ∧
      (∀ front back, front ++ back = members → (∀ member ∈ members, member.id ≠ node) →
        home (front ++ ⟨node, .active⟩ :: back) ≠ some node →
          home (front ++ ⟨node, .active⟩ :: back) = home members) ∧
      (home (withMode node .active members) ≠ some node →
        home (withMode node .active members) = home members) ∧
      (∀ chosen, home members = some chosen →
        chosen ∈ (MembershipView.new self members).active) ∧
      ((MembershipView.new self members).active ≠ [] → (home members).isSome = true) := by
  intro home
  refine ⟨fun others => homeNode_perm distinct, ?_, ?_, ?_, ?_, ?_⟩
  · intro before
    constructor
    · refine homeNode_eq_of_agree node ?_ before ?_
      · intro other apart
        rw [standing_withoutNode, if_neg apart]
      · intro after
        have stands := (homeNode_eq_some_iff.mp after).1
        rw [standing_withoutNode, if_pos rfl] at stands
        cases stands
    · refine homeNode_eq_of_agree node ?_ before ?_
      · intro other apart
        rw [standing_withMode, if_neg apart]
      · intro after
        have stands := (homeNode_eq_some_iff.mp after).1
        rw [standing_withMode, if_pos rfl] at stands
        obtain ⟨_, -, same⟩ := Option.map_eq_some_iff.mp stands
        cases same
  · rintro front back rfl absent after
    refine homeNode_eq_of_agree node ?_ ?_ after
    · intro other apart
      rw [standing_append, standing_append, standing_cons, if_neg fun same => apart same.symm]
    · intro before
      exact absent _ (mem_of_standing (homeNode_eq_some_iff.mp before).1) rfl
  · intro after
    have agree : ∀ other ≠ node,
        standing members other = standing (withMode node .active members) other := by
      intro other apart
      rw [standing_withMode, if_neg apart]
    refine homeNode_eq_of_agree node agree (fun before => after ?_) after
    apply homeNode_of_activated agree _ before
    rw [standing_withMode, if_pos rfl, (homeNode_eq_some_iff.mp before).1]
    rfl
  · exact fun chosen found => mem_active_new_iff.mpr (homeNode_eq_some_iff.mp found).1
  · intro some
    rw [Option.isSome_iff_ne_none]
    exact fun none => some (argmax_eq_none.mp none)

theorem rehoming_minimal_while_draining :
    let peers := ((Membership.new 1 .default).heard 2 .draining 0).heard 3 .active 0
    (peers.present 5).length = 2 ∧
      (MembershipView.new 1 (peers.present 5).reverse).homeNode ⟨"t"⟩ =
        (MembershipView.new 1 (peers.present 5)).homeNode ⟨"t"⟩ := by
  intro peers
  refine ⟨by decide +kernel, ?_⟩
  exact (rehoming_minimal 1 2 ⟨"t"⟩ _ (peers.nodup_present 5)).1 _ (reverse_perm _).symm

end Pgprox.Cluster
