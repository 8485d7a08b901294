/-
A fleet of coordinators on one clock, exchanging digests and leases.

A digest that was sent may be delivered late, out of order or never, and so may the answer
to a lease request.  Any node may restart with fresh state.
-/

import Pgprox.Cluster.Coordinator
import Pgprox.Library.Run

namespace Pgprox.Cluster

open List

/-- A fleet of exactly `fleet_size` nodes, equally configured, and the one server
whose cap they share. -/
structure Deployment where
  nodes : Finset NodeId
  config : CoordinatorConfig
  server : ServerId
  quota : ServerQuota
  size : nodes.card = config.fleetSize
  nonempty : 0 < config.fleetSize

namespace Deployment

def freePool (d : Deployment) : Nat :=
  d.quota.cap - guaranteedTotal d.quota.cap d.quota.guaranteedFraction

def fresh (d : Deployment) (node : NodeId) : NodeCoordinator :=
  (NodeCoordinator.new node d.config 0).setCap d.server d.quota

end Deployment

structure Fleet where
  clock : Nat
  node : NodeId → NodeCoordinator
  inFlight : List (NodeId × VersionedDigest)
  answers : List (NodeId × QuotaLease)

inductive Action where
  | heartbeat (node : NodeId)
  | observe (node : NodeId)
  | send (source target : NodeId) (version : Nat)
  | deliver (target : NodeId) (message : VersionedDigest)
  | restart (node : NodeId)
  | request (asker responder : NodeId) (want : Nat)
  | accept (holder : NodeId) (lease : QuotaLease)
  deriving DecidableEq

/-- The action is an operation of this node that always takes place.  A request
may be refused and then changes nothing. -/
def Action.Touches (node : NodeId) : Action → Prop
  | .heartbeat touched => touched = node
  | .observe touched => touched = node
  | .send _ _ _ => False
  | .deliver touched _ => touched = node
  | .restart touched => touched = node
  | .request _ _ _ => False
  | .accept touched _ => touched = node

structure Event where
  time : Nat
  action : Action
  deriving DecidableEq

namespace Fleet

def start (d : Deployment) (now : Nat) : Fleet where
  clock := now
  node := d.fresh
  inFlight := []
  answers := []

def put (s : Fleet) (node : NodeId) (c : NodeCoordinator) : Fleet :=
  { s with node := Function.update s.node node c }

def act (d : Deployment) (s : Fleet) (now : Nat) : Action → Fleet
  | .heartbeat node => s.put node ((s.node node).heartbeat now)
  | .observe node => s.put node ((s.node node).observe now)
  | .send source target version =>
    { s with
      inFlight :=
        (target, { digest := (s.node source).digest, version := version }) :: s.inFlight }
  | .deliver target message =>
    { s.put target ((s.node target).gossip message now) with
      inFlight := s.inFlight.erase (target, message) }
  | .restart node => s.put node (d.fresh node)
  | .request asker responder want =>
    match (s.node responder).request d.server asker want now with
    | .error _ => s
    | .ok (c, lease) =>
      { s.put responder c with answers := (asker, lease) :: s.answers }
  | .accept holder lease =>
    { s.put holder ((s.node holder).accept lease) with
      answers := s.answers.erase (holder, lease) }

def step (d : Deployment) (s : Fleet) (event : Event) : Fleet :=
  { s.act d event.time event.action with clock := event.time }

def Enabled (d : Deployment) (s : Fleet) : Action → Prop
  | .heartbeat node => node ∈ d.nodes
  | .observe node => node ∈ d.nodes
  | .send source target _ => source ∈ d.nodes ∧ target ∈ d.nodes ∧ source ≠ target
  | .deliver target message => (target, message) ∈ s.inFlight
  | .restart node => node ∈ d.nodes
  | .request asker responder _ => asker ∈ d.nodes ∧ responder ∈ d.nodes
  | .accept holder lease => (holder, lease) ∈ s.answers

instance (d : Deployment) (s : Fleet) : (action : Action) → Decidable (s.Enabled d action)
  | .heartbeat node => inferInstanceAs (Decidable (node ∈ d.nodes))
  | .observe node => inferInstanceAs (Decidable (node ∈ d.nodes))
  | .send source target _ =>
    inferInstanceAs (Decidable (source ∈ d.nodes ∧ target ∈ d.nodes ∧ source ≠ target))
  | .deliver target message => inferInstanceAs (Decidable ((target, message) ∈ s.inFlight))
  | .restart node => inferInstanceAs (Decidable (node ∈ d.nodes))
  | .request asker responder _ =>
    inferInstanceAs (Decidable (asker ∈ d.nodes ∧ responder ∈ d.nodes))
  | .accept holder lease => inferInstanceAs (Decidable ((holder, lease) ∈ s.answers))

def Allowed (d : Deployment) (s : Fleet) (event : Event) : Prop :=
  s.clock ≤ event.time ∧ s.Enabled d event.action

instance (d : Deployment) (s : Fleet) (event : Event) : Decidable (s.Allowed d event) :=
  inferInstanceAs (Decidable (_ ∧ _))

def officeSince (d : Deployment) (s : Fleet) (node : NodeId) : Option Nat :=
  ((s.node node).ledgers.lookup d.server).bind LeaseLedger.tookOffice

def Outstanding (d : Deployment) (s : Fleet) (holder : NodeId) (lease : QuotaLease) : Prop :=
  (s.node holder).held.lookup d.server = some lease ∨ (holder, lease) ∈ s.answers

def leasesOf (d : Deployment) (s : Fleet) (holder : NodeId) : List QuotaLease :=
  ((s.node holder).held.lookup d.server).toList ++
    s.answers.filterMap fun answer => if answer.1 = holder then some answer.2 else none

theorem mem_leasesOf_iff (d : Deployment) (s : Fleet) {holder : NodeId} {lease : QuotaLease} :
    lease ∈ s.leasesOf d holder ↔ s.Outstanding d holder lease := by
  unfold leasesOf
  rw [mem_append, Option.mem_toList, mem_filterMap]
  apply or_congr Iff.rfl
  constructor
  · rintro ⟨⟨addressee, given⟩, listed, chosen⟩
    split at chosen
    · rename_i same
      cases chosen
      exact same ▸ listed
    · contradiction
  · intro listed
    exact ⟨(holder, lease), listed, by simp⟩

def totalAllowance (d : Deployment) (s : Fleet) (now : Nat) : Nat :=
  ∑ node ∈ d.nodes, ((s.node node).allowance d.server now).total

end Fleet

def Fleet.before (d : Deployment) (started : Nat) (schedule : Nat → Event)
    (position : Nat) : Fleet :=
  Run.stateAt (Fleet.step d) (Fleet.start d started) schedule position

/-- A schedule given by its first events; after them nothing but rounds of node 1. -/
def scheduleOf (events : List Event) (position : Nat) : Event :=
  events.getD position { time := (events.getLastD ⟨0, .observe 1⟩).time, action := .observe 1 }

def idleDigest (node : NodeId) (version : Nat) : VersionedDigest where
  digest :=
    { node := node, mode := .active, clientConns := 0, upstreamConns := [], tenantUsage := [] }
  version := version

/-! ### What one event can do -/

inductive NodeChange (d : Deployment) (s : Fleet) (event : Event) (node : NodeId) :
    NodeCoordinator → Prop
  | unchanged (idle : ¬ event.action.Touches node) : NodeChange d s event node (s.node node)
  | heartbeat (happened : event.action = .heartbeat node) :
      NodeChange d s event node ((s.node node).heartbeat event.time)
  | observe (happened : event.action = .observe node) :
      NodeChange d s event node ((s.node node).observe event.time)
  | deliver (message : VersionedDigest) (happened : event.action = .deliver node message) :
      NodeChange d s event node ((s.node node).gossip message event.time)
  | restart (happened : event.action = .restart node) :
      NodeChange d s event node (d.fresh node)
  | request (asker : NodeId) (want : Nat) (answered : NodeCoordinator) (lease : QuotaLease)
      (happened : event.action = .request asker node want)
      (granted : (s.node node).request d.server asker want event.time = .ok (answered, lease)) :
      NodeChange d s event node answered
  | accept (lease : QuotaLease) (happened : event.action = .accept node lease) :
      NodeChange d s event node ((s.node node).accept lease)

namespace Fleet

theorem put_node (s : Fleet) (node other : NodeId) (c : NodeCoordinator) :
    (s.put node c).node other = if other = node then c else s.node other := by
  exact Function.update_apply _ _ _ _

theorem nodeChange (d : Deployment) (s : Fleet) (event : Event) (node : NodeId) :
    NodeChange d s event node ((s.step d event).node node) := by
  -- Each action touches one node; the others fall to `unchanged`.
  rcases event with ⟨time, action⟩
  unfold step
  cases action with
  | heartbeat touched =>
    unfold act
    rw [put_node]
    split
    · rename_i same
      subst same
      exact .heartbeat rfl
    · rename_i different
      exact .unchanged (Ne.symm different)
  | observe touched =>
    unfold act
    rw [put_node]
    split
    · rename_i same
      subst same
      exact .observe rfl
    · rename_i different
      exact .unchanged (Ne.symm different)
  | send source target version => exact .unchanged id
  | deliver touched message =>
    unfold act
    rw [put_node]
    split
    · rename_i same
      subst same
      exact .deliver message rfl
    · rename_i different
      exact .unchanged (Ne.symm different)
  | restart touched =>
    unfold act
    rw [put_node]
    split
    · rename_i same
      subst same
      exact .restart rfl
    · rename_i different
      exact .unchanged (Ne.symm different)
  | request asker responder want =>
    unfold act
    dsimp only
    split
    · exact .unchanged id
    · rename_i answered lease granted
      rw [put_node]
      split
      · rename_i same
        subst same
        exact .request asker want answered lease rfl granted
      · exact .unchanged id
  | accept holder lease =>
    unfold act
    rw [put_node]
    split
    · rename_i same
      subst same
      exact .accept lease rfl
    · rename_i different
      exact .unchanged (Ne.symm different)

theorem node_step_observe (d : Deployment) (s : Fleet) {event : Event} {node : NodeId}
    (happened : event.action = .observe node) :
    (s.step d event).node node = (s.node node).observe event.time := by
  unfold step act
  rw [happened]
  rw [put_node, if_pos rfl]

theorem mem_inFlight_step {d : Deployment} {s : Fleet} {event : Event} {target : NodeId}
    {message : VersionedDigest} (flying : (target, message) ∈ (s.step d event).inFlight) :
    (target, message) ∈ s.inFlight ∨
      ∃ source version, event.action = .send source target version ∧
        message = { digest := (s.node source).digest, version := version } := by
  rcases event with ⟨time, action⟩
  unfold step act at flying
  cases action with
  | send source addressee version =>
    rcases mem_cons.mp flying with new | old
    · cases new
      exact .inr ⟨source, version, rfl, rfl⟩
    · exact .inl old
  | deliver touched delivered => exact .inl (mem_of_mem_erase flying)
  | request asker responder want =>
    dsimp only at flying
    split at flying
    · exact .inl flying
    · exact .inl flying
  | heartbeat | observe | restart | accept => exact .inl flying

theorem mem_answers_step {d : Deployment} {s : Fleet} {event : Event} {holder : NodeId}
    {lease : QuotaLease} (waiting : (holder, lease) ∈ (s.step d event).answers) :
    (holder, lease) ∈ s.answers ∨
      ∃ responder want answered, event.action = .request holder responder want ∧
        (s.node responder).request d.server holder want event.time = .ok (answered, lease) := by
  rcases event with ⟨time, action⟩
  unfold step act at waiting
  cases action with
  | request asker responder want =>
    dsimp only at waiting
    split at waiting
    · exact .inl waiting
    · rename_i answered given granted
      rcases mem_cons.mp waiting with new | old
      · cases new
        exact .inr ⟨responder, want, answered, rfl, granted⟩
      · exact .inl old
  | accept touched accepted => exact .inl (mem_of_mem_erase waiting)
  | send | deliver | heartbeat | observe | restart => exact .inl waiting

end Fleet

/-! ### Configuration never changes -/

structure Configured (d : Deployment) (node : NodeId) (c : NodeCoordinator) : Prop where
  self : c.localNode = node
  config : c.config = d.config
  capped : c.caps.lookup d.server = some d.quota
  active : c.mode = .active
  livenessSelf : c.liveness.localNode = node
  livenessConfig : c.liveness.config = d.config.membership
  ledger : ∀ ledger, c.ledgers.lookup d.server = some ledger →
    ledger.config = d.config.effectiveLease ∧ ledger.pool = d.freePool

namespace Membership

variable (m : Membership) (node : NodeId)

@[simp] theorem heard_localNode (mode : NodeMode) (now : Nat) :
    (m.heard node mode now).localNode = m.localNode := by
  unfold heard
  split
  · rfl
  · split <;> rfl

@[simp] theorem heard_config (mode : NodeMode) (now : Nat) :
    (m.heard node mode now).config = m.config := by
  unfold heard
  split
  · rfl
  · split <;> rfl

@[simp] theorem heardWithoutMode_localNode (now : Nat) :
    (m.heardWithoutMode node now).localNode = m.localNode := by
  unfold heardWithoutMode
  split
  · rfl
  · split <;> rfl

@[simp] theorem heardWithoutMode_config (now : Nat) :
    (m.heardWithoutMode node now).config = m.config := by
  unfold heardWithoutMode
  split
  · rfl
  · split <;> rfl

end Membership

namespace NodeCoordinator

theorem gossip_eq (c : NodeCoordinator) (incoming : VersionedDigest) (now : Nat) :
    c.gossip incoming now =
      { c with
        digests := (c.digests.merge incoming).1
        liveness :=
          if (c.digests.merge incoming).2 = .stale then
            c.liveness.heardWithoutMode incoming.digest.node now
          else c.liveness.heard incoming.digest.node incoming.digest.mode now } := by
  unfold gossip
  rcases c.digests.merge incoming with ⟨digests, outcome⟩
  cases outcome <;> rfl

end NodeCoordinator

namespace LeaseLedger

@[simp] theorem observeLeadership_pool (ledger : LeaseLedger) (leading : Bool)
    (now : Nat) : (ledger.observeLeadership leading now).pool = ledger.pool := by
  unfold observeLeadership
  split <;> rfl

end LeaseLedger

namespace Configured

variable {d : Deployment} {node : NodeId} {c : NodeCoordinator}

theorem fresh (d : Deployment) (node : NodeId) : Configured d node (d.fresh node) where
  self := rfl
  config := rfl
  capped := by
    exact AList.lookup_insert _
  active := rfl
  livenessSelf := rfl
  livenessConfig := rfl
  ledger := by
    intro ledger found
    contradiction

section

variable (configured : Configured d node c)
include configured

theorem heartbeat (now : Nat) : Configured d node (c.heartbeat now) :=
  { configured with
    livenessSelf := by simpa [NodeCoordinator.heartbeat] using configured.livenessSelf
    livenessConfig := by simpa [NodeCoordinator.heartbeat] using configured.livenessConfig }

theorem gossip (incoming : VersionedDigest) (now : Nat) :
    Configured d node (c.gossip incoming now) := by
  rw [NodeCoordinator.gossip_eq]
  exact
    { configured with
      livenessSelf := by
        split <;> simpa using configured.livenessSelf
      livenessConfig := by
        split <;> simpa using configured.livenessConfig }

theorem ledger_getD (view : MembershipView) :
    let ledger := (c.ledgers.lookup d.server).getD
      (LeaseLedger.new (c.splitFor d.server view).freePool c.config.effectiveLease)
    ledger.config = d.config.effectiveLease := by
  intro ledger
  cases found : c.ledgers.lookup d.server with
  | none =>
    change ((c.ledgers.lookup d.server).getD _).config = _
    rw [found]
    change c.config.effectiveLease = d.config.effectiveLease
    rw [configured.config]
  | some known =>
    change ((c.ledgers.lookup d.server).getD _).config = _
    rw [found]
    exact (configured.ledger known found).1

theorem freePool_eq (view : MembershipView) :
    (c.splitFor d.server view).freePool = d.freePool := by
  apply NodeCoordinator.freePool_splitFor configured.capped
  rw [configured.config]
  exact d.nonempty

theorem known : d.server ∈ c.caps := by
  rw [← AList.lookup_isSome, configured.capped]
  rfl

theorem observe (now : Nat) : Configured d node (c.observe now) := by
  refine { configured with ledger := ?_ }
  intro ledger found
  rw [NodeCoordinator.lookup_ledgers_observe configured.known, Option.some.injEq] at found
  subst found
  constructor
  · change (LeaseLedger.observeLeadership _ _ _).config = _
    rw [LeaseLedger.observeLeadership_config]
    exact configured.ledger_getD _
  · change (LeaseLedger.observeLeadership _ _ _).pool = _
    rw [LeaseLedger.observeLeadership_pool]
    exact configured.freePool_eq _

theorem accept (lease : QuotaLease) : Configured d node (c.accept lease) :=
  { configured with }

theorem request {holder : NodeId} {want : Nat}
    {now : Nat} {c' : NodeCoordinator} {lease : QuotaLease}
    (accepted : c.request d.server holder want now = .ok (c', lease)) :
    Configured d node c' := by
  obtain ⟨-, before, after, found, granted, rfl⟩ := NodeCoordinator.request_eq_ok accepted
  have kept := configured.ledger before found
  obtain ⟨-, -, -, rfl⟩ := LeaseLedger.grant_eq_ok granted
  refine { configured with ledger := ?_ }
  intro ledger present
  rw [AList.lookup_insert, Option.some.injEq] at present
  subst present
  exact kept

end

end Configured

theorem Fleet.configured_step {d : Deployment} {s : Fleet} (event : Event)
    (configured : ∀ node, Configured d node (s.node node)) (node : NodeId) :
    Configured d node ((s.step d event).node node) := by
  have change := s.nodeChange d event node
  generalize (s.step d event).node node = c at change
  cases change with
  | unchanged idle => exact configured node
  | heartbeat happened => exact (configured node).heartbeat event.time
  | observe happened => exact (configured node).observe event.time
  | deliver message happened => exact (configured node).gossip message event.time
  | restart happened => exact Configured.fresh d node
  | request asker want answered lease happened granted => exact (configured node).request granted
  | accept lease happened => exact (configured node).accept lease

theorem Fleet.configured_before (d : Deployment) (started : Nat) (schedule : Nat → Event)
    (position : Nat) (node : NodeId) :
    Configured d node ((Fleet.before d started schedule position).node node) := by
  induction position generalizing node with
  | zero => exact Configured.fresh d node
  | succ position ih => exact Fleet.configured_step (schedule position) ih node

end Pgprox.Cluster
