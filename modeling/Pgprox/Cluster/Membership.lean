/-
Who is in the cluster, as one node sees it.

`Membership` remembers when each peer was last heard from and turns silence into
a state; `MembershipView` is the list of members a node acts on.  The leader is
the lowest active identifier of a view, and a view is one node's opinion.
-/

import Pgprox.Core.Basic
import Pgprox.Library.FiniteMap

namespace Pgprox.Cluster

open List

inductive NodeMode where
  | active
  | draining
  deriving DecidableEq

structure Member where
  id : NodeId
  mode : NodeMode
  deriving DecidableEq

/-! ### Views -/

/-- `Vec::dedup_by_key(|m| m.id)`: of neighbours with one identifier the first stays. -/
def dedupById (members : List Member) : List Member :=
  members.foldr
    (fun member kept =>
      match kept with
      | [] => [member]
      | next :: rest => if member.id = next.id then member :: rest else member :: next :: rest)
    []

structure MembershipView where
  localNode : NodeId
  members : List Member
  deriving DecidableEq

namespace MembershipView

def new (localNode : NodeId) (members : List Member) : MembershipView where
  localNode := localNode
  members := dedupById (members.insertionSort fun a b => a.id ≤ b.id)

def active (view : MembershipView) : List NodeId :=
  (view.members.filter fun member => member.mode == .active).map Member.id

def leader (view : MembershipView) : Option NodeId :=
  view.active.min?

def isLeader (view : MembershipView) : Bool :=
  view.leader == some view.localNode

end MembershipView

theorem dedupById_eq_self {members : List Member}
    (distinct : (members.map Member.id).Nodup) :
    dedupById members = members := by
  induction members with
  | nil => rfl
  | cons head tail ih =>
    have split := nodup_cons.mp distinct
    change (match dedupById tail with
      | [] => [head]
      | next :: rest =>
        if head.id = next.id then head :: rest else head :: next :: rest) = head :: tail
    rw [ih split.2]
    cases tail with
    | nil => rfl
    | cons next rest =>
      have differs : head.id ≠ next.id := by
        intro same
        apply split.1
        simp [same]
      simp only [if_neg differs]

theorem MembershipView.perm_new {localNode : NodeId} {members : List Member}
    (distinct : (members.map Member.id).Nodup) :
    (new localNode members).members.Perm members := by
  have sorted := perm_insertionSort (fun a b : Member => a.id ≤ b.id) members
  have still : ((members.insertionSort fun a b => a.id ≤ b.id).map Member.id).Nodup :=
    (sorted.map Member.id).nodup_iff.mpr distinct
  unfold new
  rw [dedupById_eq_self still]
  exact sorted

theorem MembershipView.isLeader_le {view : MembershipView} (leads : view.isLeader = true)
    {member : Member} (present : member ∈ view.members) (active : member.mode = .active) :
    view.localNode ≤ member.id := by
  have lowest : view.active.min? = some view.localNode := by
    simpa [isLeader, leader] using leads
  have listed : member.id ∈ view.active := by
    exact mem_map_of_mem (mem_filter.mpr ⟨present, by simp [active]⟩)
  exact (min?_eq_some_iff.mp lowest).2 _ listed

/-! ### Contact -/

structure MembershipConfig where
  suspectAfter : Nat
  deadAfter : Nat
  deriving DecidableEq

namespace MembershipConfig

def default : MembershipConfig where
  suspectAfter := 3000
  deadAfter := 10000

end MembershipConfig

inductive NodeState where
  | alive
  | suspect
  | dead
  deriving DecidableEq

structure Contact where
  mode : NodeMode
  heardAt : Nat
  deriving DecidableEq

structure Membership where
  localNode : NodeId
  config : MembershipConfig
  peers : FiniteMap NodeId Contact
  deriving DecidableEq

namespace Membership

def new (localNode : NodeId) (config : MembershipConfig) : Membership where
  localNode := localNode
  config := config
  peers := ∅

def heard (m : Membership) (node : NodeId) (mode : NodeMode) (now : Nat) : Membership :=
  match m.peers.lookup node with
  | none => { m with peers := m.peers.insert node { mode := mode, heardAt := now } }
  | some contact =>
    if contact.heardAt ≤ now then
      { m with peers := m.peers.insert node { mode := mode, heardAt := now } }
    else m

def heardWithoutMode (m : Membership) (node : NodeId) (now : Nat) : Membership :=
  match m.peers.lookup node with
  | none => m
  | some contact =>
    if contact.heardAt ≤ now then
      { m with peers := m.peers.insert node { contact with heardAt := now } }
    else m

def state (m : Membership) (node : NodeId) (now : Nat) : NodeState :=
  match m.peers.lookup node with
  | none => .dead
  | some contact =>
    let silence := saturatingDurationSince now contact.heardAt
    if m.config.deadAfter ≤ silence then .dead
    else if m.config.suspectAfter ≤ silence then .suspect
    else .alive

def present (m : Membership) (now : Nat) : List Member :=
  (m.peers.retain fun id _ => m.state id now != .dead).entries.map fun entry =>
    { id := entry.1, mode := entry.2.mode }

def view (m : Membership) (now : Nat) : MembershipView :=
  MembershipView.new m.localNode (m.present now)

def aliveCount (m : Membership) (now : Nat) : Nat :=
  (m.peers.retain fun id contact =>
    contact.mode == .active && m.state id now == .alive).entries.length

def reap (m : Membership) (now : Nat) : Membership × List NodeId :=
  let dead := m.peers.keys.filter fun id => m.state id now == .dead
  ({ m with peers := m.peers.retain fun id _ => m.state id now != .dead }, dead)

/-! ### What silence means -/

theorem nodup_present (m : Membership) (now : Nat) :
    ((m.present now).map Member.id).Nodup := by
  unfold present
  rw [map_map]
  exact (m.peers.retain fun id _ => m.state id now != .dead).nodupKeys

theorem nodup_view (m : Membership) (now : Nat) :
    ((m.view now).members.map Member.id).Nodup :=
  ((MembershipView.perm_new (nodup_present m now)).map Member.id).nodup_iff.mpr
    (nodup_present m now)

theorem mem_view_iff (m : Membership) (now : Nat) (member : Member) :
    member ∈ (m.view now).members ↔
      ∃ contact, m.peers.lookup member.id = some contact ∧ contact.mode = member.mode ∧
        m.state member.id now ≠ .dead := by
  unfold view
  rw [(MembershipView.perm_new (nodup_present m now)).mem_iff]
  unfold present
  rw [mem_map]
  constructor
  · rintro ⟨entry, listed, rfl⟩
    have kept := mem_filter.mp listed
    exact ⟨entry.2, (AList.lookup_eq_some_iff _ _ _).mpr kept.1, rfl, by simpa using kept.2⟩
  · rintro ⟨contact, found, sameMode, notDead⟩
    refine ⟨⟨member.id, contact⟩, ?_, ?_⟩
    · rw [AList.entries_retain, mem_filter]
      exact ⟨(AList.lookup_eq_some_iff _ _ _).mp found, by simpa using notDead⟩
    · cases member
      simp_all

theorem state_eq_alive {m : Membership} {node : NodeId} {now : Nat}
    (alive : m.state node now = .alive) :
    ∃ contact, m.peers.lookup node = some contact ∧
      now < contact.heardAt + m.config.suspectAfter := by
  unfold state saturatingDurationSince at alive
  split at alive
  · contradiction
  · rename_i contact found
    grind

theorem state_ne_dead {m : Membership} {node : NodeId} {now : Nat} {contact : Contact}
    (found : m.peers.lookup node = some contact) (past : contact.heardAt ≤ now)
    (recent : now < contact.heardAt + m.config.deadAfter) :
    m.state node now ≠ .dead := by
  unfold state saturatingDurationSince
  grind

/-- The nodes counted toward quorum are distinct, so any set that holds them all
is at least as large. -/
theorem aliveCount_le_card {m : Membership} {now : Nat} {nodes : Finset NodeId}
    (counted : ∀ id contact, m.peers.lookup id = some contact →
      now < contact.heardAt + m.config.suspectAfter → id ∈ nodes) :
    m.aliveCount now ≤ nodes.card := by
  unfold aliveCount
  generalize kept_def : (m.peers.retain fun id contact =>
    contact.mode == .active && m.state id now == .alive) = kept
  have size : kept.entries.length = kept.keys.toFinset.card := by
    rw [toFinset_card_of_nodup kept.keys_nodup]
    unfold AList.keys List.keys
    rw [length_map]
  rw [size]
  apply Finset.card_le_card
  intro id listed
  have present : id ∈ kept := by
    rw [AList.mem_keys]
    simpa using listed
  obtain ⟨contact, found⟩ := Option.isSome_iff_exists.mp (AList.lookup_isSome.mpr present)
  rw [← kept_def, AList.lookup_retain, Option.filter_eq_some_iff] at found
  have alive : m.state id now = .alive := by
    have test := found.2
    simp only [Bool.and_eq_true, beq_iff_eq] at test
    exact test.2
  obtain ⟨same, sameFound, recent⟩ := state_eq_alive alive
  exact counted id same sameFound recent

end Membership

end Pgprox.Cluster
