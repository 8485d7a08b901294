/-
Two nodes in office at once.

A quorum is counted by each node over the nodes it hears itself, so two nodes that both
hear a third, but not each other, can both lead, and their ledgers then lend the same pool
twice.
-/

import Pgprox.Cluster.FleetCap

namespace Pgprox.Cluster

namespace Fleet

def AsksBelievedLeader (s : Fleet) (event : Event) : Prop :=
  match event.action with
  | .request asker responder _ =>
    ((s.node asker).membership event.time).leader = some responder
  | _ => True

/-- A request that would be granted finds no other node in office for longer
than `suspect_after`. -/
def GrantsAlone (d : Deployment) (s : Fleet) (event : Event) : Prop :=
  match event.action with
  | .request _ responder _ =>
    s.grants d responder event.time = true →
      ∀ other ∈ d.nodes, other ≠ responder →
        ∀ since ∈ s.officeSince d other,
          event.time ≤ since + d.config.membership.suspectAfter
  | _ => True

instance (s : Fleet) : (event : Event) → Decidable (s.AsksBelievedLeader event)
  | ⟨time, .request asker responder _⟩ =>
    inferInstanceAs (Decidable (((s.node asker).membership time).leader = some responder))
  | ⟨_, .heartbeat _⟩ | ⟨_, .observe _⟩ | ⟨_, .send _ _ _⟩ | ⟨_, .deliver _ _⟩
  | ⟨_, .restart _⟩ | ⟨_, .accept _ _⟩ => .isTrue trivial

instance (d : Deployment) (s : Fleet) : (event : Event) → Decidable (s.GrantsAlone d event)
  | ⟨time, .request _ responder _⟩ =>
    inferInstanceAs (Decidable (s.grants d responder time = true →
      ∀ other ∈ d.nodes, other ≠ responder →
        ∀ since ∈ s.officeSince d other, time ≤ since + d.config.membership.suspectAfter))
  | ⟨_, .heartbeat _⟩ | ⟨_, .observe _⟩ | ⟨_, .send _ _ _⟩ | ⟨_, .deliver _ _⟩
  | ⟨_, .restart _⟩ | ⟨_, .accept _ _⟩ => .isTrue trivial

end Fleet

section Schedule

variable {d : Deployment} {started : Nat} {schedule : Nat → Event} {steps : Nat}

theorem ValidSchedule.mem_nodes_of_officeSince (valid : ValidSchedule d started schedule steps)
    {position : Nat} (within : position ≤ steps) {node : NodeId} {since : Nat}
    (office : (Fleet.before d started schedule position).officeSince d node = some since) :
    node ∈ d.nodes := by
  induction position with
  | zero => contradiction
  | succ position ih =>
    have below : position < steps := within
    rcases Fleet.officeSince_step (schedule position)
        (Fleet.configured_before d started schedule position) node with
      same | lost | ⟨observed, -, -⟩
    · exact ih below.le (same.symm.trans office)
    · have impossible := lost.symm.trans office
      contradiction
    · have acts := (valid position below).2
      rw [observed] at acts
      exact acts

/-- Granting alone makes overlapping grants exclusive: the later issuer was not in
office at the earlier grant, or had only just entered it. -/
theorem exclusiveGrants_of_grantsAlone (valid : ValidSchedule d started schedule steps)
    (alone : ∀ position < steps,
      (Fleet.before d started schedule position).GrantsAlone d (schedule position)) :
    ExclusiveGrants d started schedule steps := by
  intro earlier later order within asker asker' issuer issuer' want want' since since'
    asked asked' granting granting' different _
  have first : earlier < steps := Nat.lt_trans order within
  by_cases office :
      (Fleet.before d started schedule earlier).officeSince d issuer' = some since'
  · have single := alone earlier first
    unfold Fleet.GrantsAlone at single
    rw [asked] at single
    exact single
      (granting.grants_eq_true (Fleet.configured_before d started schedule earlier issuer))
      issuer' (valid.mem_nodes_of_officeSince (Nat.le_of_lt first) office) different.symm
      since' office
  · have begun := valid.time_le_since order.le within.le office
      granting'.office
    exact begun.trans (Nat.le_add_right _ _)

end Schedule

/-- In every schedule whose requests are granted by a node alone in office and
renew in full, the whole fleet stays within the cap at every instant. -/
theorem totalAllowance_le_cap_of_grantsAlone (d : Deployment) (started : Nat)
    (schedule : Nat → Event) (steps : Nat) (valid : ValidSchedule d started schedule steps)
    (alone : ∀ position < steps,
      (Fleet.before d started schedule position).GrantsAlone d (schedule position))
    (renews : ∀ position < steps,
      (Fleet.before d started schedule position).RenewsInFull d (schedule position)) :
    ∀ position ≤ steps, ∀ now, (Fleet.before d started schedule position).clock ≤ now →
      (Fleet.before d started schedule position).totalAllowance d now ≤ d.quota.cap := by
  intro position within now later
  have exclusive := exclusiveGrants_of_grantsAlone valid alone
  have pool := withinPool_of_exclusiveGrants valid renews exclusive within
  exact pool.totalAllowance_le (Fleet.configured_before d started schedule position) later

/-! ### Two quorums around one node -/

def threeNodes : Deployment where
  nodes := {1, 2, 3}
  config := { CoordinatorConfig.default with fleetSize := 3 }
  server := { address := "db-1:5432" }
  quota := { cap := 100, guaranteedFraction := 1 / 2 }
  size := by decide
  nonempty := by decide

def halfLease (expiresAt : Nat) : QuotaLease where
  server := threeNodes.server
  nominalCount := 50
  expiresAt := expiresAt

def twoQuorums : List Event :=
  [ ⟨0, .heartbeat 1⟩, ⟨0, .heartbeat 2⟩,
    ⟨0, .send 3 1 1⟩, ⟨0, .send 3 2 1⟩,
    ⟨0, .deliver 1 (idleDigest 3 1)⟩, ⟨0, .deliver 2 (idleDigest 3 1)⟩,
    ⟨0, .observe 1⟩, ⟨0, .observe 2⟩,
    ⟨8000, .heartbeat 1⟩, ⟨8000, .heartbeat 2⟩,
    ⟨8000, .send 3 1 2⟩, ⟨8000, .send 3 2 2⟩,
    ⟨8000, .deliver 1 (idleDigest 3 2)⟩, ⟨8000, .deliver 2 (idleDigest 3 2)⟩,
    ⟨8000, .request 1 1 50⟩, ⟨8000, .accept 1 (halfLease 13000)⟩,
    ⟨8000, .request 2 2 50⟩, ⟨8000, .accept 2 (halfLease 13000)⟩ ]

set_option maxRecDepth 4000 in
theorem twoQuorums_valid : ∀ position < 18,
    (Fleet.before threeNodes 0 (scheduleOf twoQuorums) position).Allowed threeNodes
        (scheduleOf twoQuorums position) ∧
      (Fleet.before threeNodes 0 (scheduleOf twoQuorums) position).AsksBelievedLeader
        (scheduleOf twoQuorums position) := by
  decide +kernel

set_option maxRecDepth 4000 in
theorem twoQuorums_total :
    (Fleet.before threeNodes 0 (scheduleOf twoQuorums) 18).clock ≤ 8000 ∧
      (Fleet.before threeNodes 0 (scheduleOf twoQuorums) 18).totalAllowance threeNodes 8000 =
        148 := by
  decide +kernel

/-- Delivery that is not transitive breaks the cap: both leaders lend all of the
free pool. -/
theorem totalAllowance_exceeds_cap_of_two_quorums :
    ¬ ∀ (d : Deployment) (started : Nat) (schedule : Nat → Event) (steps : Nat),
      ValidSchedule d started schedule steps →
      (∀ position < steps,
        (Fleet.before d started schedule position).AsksBelievedLeader (schedule position)) →
      ∀ now, (Fleet.before d started schedule steps).clock ≤ now →
        (Fleet.before d started schedule steps).totalAllowance d now ≤ d.quota.cap := by
  intro always
  have bound := always threeNodes 0 (scheduleOf twoQuorums) 18
    (fun position within => (twoQuorums_valid position within).1)
    (fun position within => (twoQuorums_valid position within).2) 8000 twoQuorums_total.1
  rw [twoQuorums_total.2] at bound
  exact absurd bound (by decide)

def oneLeader : List Event :=
  [ ⟨0, .heartbeat 1⟩, ⟨0, .send 2 1 1⟩, ⟨0, .deliver 1 (idleDigest 2 1)⟩, ⟨0, .observe 1⟩,
    ⟨8000, .heartbeat 1⟩, ⟨8000, .send 2 1 2⟩, ⟨8000, .deliver 1 (idleDigest 2 2)⟩,
    ⟨8000, .request 2 1 50⟩, ⟨8000, .accept 2 (halfLease 13000)⟩ ]

set_option maxRecDepth 4000 in
theorem oneLeader_valid : ∀ position < 9,
    (Fleet.before threeNodes 0 (scheduleOf oneLeader) position).Allowed threeNodes
        (scheduleOf oneLeader position) ∧
      (Fleet.before threeNodes 0 (scheduleOf oneLeader) position).GrantsAlone threeNodes
        (scheduleOf oneLeader position) ∧
      (Fleet.before threeNodes 0 (scheduleOf oneLeader) position).RenewsInFull threeNodes
        (scheduleOf oneLeader position) := by
  decide +kernel

theorem totalAllowance_le_cap_oneLeader :
    (Fleet.before threeNodes 0 (scheduleOf oneLeader) 9).totalAllowance threeNodes 8000 = 98 ∧
      (Fleet.before threeNodes 0 (scheduleOf oneLeader) 9).totalAllowance threeNodes 8000 ≤
        100 :=
  ⟨by decide +kernel,
    totalAllowance_le_cap_of_grantsAlone threeNodes 0 (scheduleOf oneLeader) 9
      (fun position within => (oneLeader_valid position within).1)
      (fun position within => (oneLeader_valid position within).2.1)
      (fun position within => (oneLeader_valid position within).2.2) 9 (Nat.le_refl 9) 8000
      (by decide +kernel)⟩

end Pgprox.Cluster
