/-
One node's part in the cluster: digests, liveness, ledgers and held leases.

The coordinator never reads the clock or the network: each call is a function of the state
and of the instant it is made at.  Tenant reservations read none of the quota state and are
left out.
-/

import Pgprox.Cluster.Lease
import Pgprox.Cluster.Membership

namespace Pgprox.Cluster

/-! ### Digests -/

structure ClusterDigest where
  node : NodeId
  mode : NodeMode
  clientConns : Nat
  upstreamConns : List (ServerId × Nat)
  tenantUsage : List (TenantId × Nat)
  deriving DecidableEq

structure VersionedDigest where
  digest : ClusterDigest
  version : Nat
  deriving DecidableEq

structure DigestStore where
  latest : FiniteMap NodeId VersionedDigest
  deriving DecidableEq

inductive MergeOutcome where
  | added
  | updated
  | stale
  deriving DecidableEq

namespace DigestStore

def new : DigestStore where
  latest := ∅

def merge (store : DigestStore) (incoming : VersionedDigest) : DigestStore × MergeOutcome :=
  match store.latest.lookup incoming.digest.node with
  | some held =>
    if incoming.version ≤ held.version then (store, .stale)
    else ({ latest := store.latest.insert incoming.digest.node incoming }, .updated)
  | none => ({ latest := store.latest.insert incoming.digest.node incoming }, .added)

def forget (store : DigestStore) (node : NodeId) : DigestStore where
  latest := store.latest.erase node

end DigestStore

/-! ### Configuration -/

structure ServerQuota where
  cap : Nat
  guaranteedFraction : ℚ
  deriving DecidableEq

structure CoordinatorConfig where
  guaranteedFraction : ℚ
  fleetSize : Nat
  lease : LeaseConfig
  membership : MembershipConfig
  deriving DecidableEq

namespace CoordinatorConfig

def default : CoordinatorConfig where
  guaranteedFraction := 1 / 2
  fleetSize := 5
  lease :=
    { LeaseConfig.default with
      takeoverWait := LeaseConfig.default.ttl + MembershipConfig.default.suspectAfter }
  membership := MembershipConfig.default

/-- The lease timing in force: the wait is raised until it outlasts a lease
granted by a predecessor that had not yet lost its quorum. -/
def effectiveLease (config : CoordinatorConfig) : LeaseConfig where
  ttl := config.lease.ttl
  takeoverWait :=
    max config.lease.takeoverWait (config.lease.ttl + config.membership.suspectAfter)

theorem ttl_add_suspectAfter_le (config : CoordinatorConfig) :
    config.lease.ttl + config.membership.suspectAfter ≤ config.effectiveLease.takeoverWait :=
  Nat.le_max_right _ _

end CoordinatorConfig

/-! ### The coordinator -/

namespace DigestStore

def values (store : DigestStore) : List ClusterDigest :=
  store.latest.entries.map fun entry => entry.2.digest

def modeNumber : NodeMode → UInt64
  | .active => 1
  | .draining => 2

def viewHash (store : DigestStore) : UInt64 :=
  (store.values.map fun digest =>
    UInt64.ofNat digest.node * 0x9E3779B97F4A7C15 + modeNumber digest.mode).foldl (· + ·) 0

end DigestStore

/-- What `observe` keeps of the view: its hash, and when that last changed. -/
structure SettleWindow where
  viewHash : UInt64
  membershipChangedAt : Nat
  deriving DecidableEq

def SettleWindow.observe (window : SettleWindow) (store : DigestStore) (now : Nat) :
    SettleWindow :=
  if store.viewHash = window.viewHash then window else ⟨store.viewHash, now⟩

structure NodeCoordinator where
  localNode : NodeId
  config : CoordinatorConfig
  digests : DigestStore
  liveness : Membership
  ledgers : FiniteMap ServerId LeaseLedger
  held : FiniteMap ServerId QuotaLease
  caps : FiniteMap ServerId ServerQuota
  mode : NodeMode
  clientConns : Nat
  upstreamConns : List (ServerId × Nat)
  tenantUsage : List (TenantId × Nat)
  selfVersion : Nat
  settling : SettleWindow
  deriving DecidableEq

namespace NodeCoordinator

def new (localNode : NodeId) (config : CoordinatorConfig) (started : Nat) :
    NodeCoordinator where
  localNode := localNode
  config := config
  digests := DigestStore.new
  liveness := Membership.new localNode config.membership
  ledgers := ∅
  held := ∅
  caps := ∅
  mode := .active
  clientConns := 0
  upstreamConns := []
  tenantUsage := []
  selfVersion := 0
  -- a node that has just started has just seen its membership change
  settling := ⟨0, started⟩

def setCap (c : NodeCoordinator) (server : ServerId) (quota : ServerQuota) : NodeCoordinator :=
  { c with caps := c.caps.insert server quota }

def digest (c : NodeCoordinator) : ClusterDigest where
  node := c.localNode
  mode := c.mode
  clientConns := c.clientConns
  upstreamConns := c.upstreamConns
  tenantUsage := c.tenantUsage

def gossip (c : NodeCoordinator) (incoming : VersionedDigest) (now : Nat) :
    NodeCoordinator :=
  let node := incoming.digest.node
  match c.digests.merge incoming with
  | (digests, .stale) =>
    { c with digests := digests, liveness := c.liveness.heardWithoutMode node now }
  | (digests, _) =>
    { c with
      digests := digests
      liveness := c.liveness.heard node incoming.digest.mode now }

def heartbeat (c : NodeCoordinator) (now : Nat) : NodeCoordinator :=
  { c with
    liveness := c.liveness.heard c.localNode c.mode now
    selfVersion := c.selfVersion + 1
    digests := (c.digests.merge { digest := c.digest, version := c.selfVersion + 1 }).1 }

def membership (c : NodeCoordinator) (now : Nat) : MembershipView :=
  c.liveness.view now

/-- The divisor is the larger of the configured fleet and the members seen. -/
def splitFor (c : NodeCoordinator) (server : ServerId) (view : MembershipView) : QuotaSplit :=
  let quota := c.caps.lookup server
  let seen := clampU32 view.members.length
  split (quota.elim 0 ServerQuota.cap) (max c.config.fleetSize seen)
    (quota.elim c.config.guaranteedFraction ServerQuota.guaranteedFraction)

def hasQuorum (c : NodeCoordinator) (now : Nat) : Bool :=
  let alive := clampU32 (c.liveness.aliveCount now)
  let fleet := max c.config.fleetSize 1
  decide (fleet < saturatingMul alive 2)

/-- Being the lowest active node is not enough to lead: the node must also see
enough of the fleet to act. -/
def leading (c : NodeCoordinator) (now : Nat) : Bool :=
  (c.membership now).isLeader && c.hasQuorum now

def observeLedger (c : NodeCoordinator) (leading : Bool) (view : MembershipView)
    (now : Nat) (server : ServerId) : LeaseLedger :=
  let pool := (c.splitFor server view).freePool
  let ledger := (c.ledgers.lookup server).getD (LeaseLedger.new pool c.config.effectiveLease)
  ((ledger.setPool pool).observeLeadership leading now).reap now

def observe (c : NodeCoordinator) (now : Nat) : NodeCoordinator :=
  let view := c.membership now
  let leading := c.leading now
  let ledgers := c.caps.keys.foldl
    (fun ledgers server => ledgers.insert server (c.observeLedger leading view now server))
    c.ledgers
  let (liveness, dead) := c.liveness.reap now
  let digests := dead.foldl
    (fun digests node => if node = c.localNode then digests else digests.forget node)
    c.digests
  { c with
    ledgers := ledgers
    liveness := liveness
    digests := digests
    settling := c.settling.observe digests now }

def allowance (c : NodeCoordinator) (server : ServerId) (now : Nat) : NodeAllowance where
  server := server
  guaranteed := (c.splitFor server (c.membership now)).guaranteedPerNode
  leased := (c.held.lookup server).elim 0 fun lease => lease.count now

/-- Answer a lease request.  Without a quorum, or without a ledger in office, the
asker is told there is no leader. -/
def request (c : NodeCoordinator) (server : ServerId) (holder : NodeId) (want : Nat)
    (now : Nat) : Except QuotaError (NodeCoordinator × QuotaLease) :=
  if c.hasQuorum now = false then .error .noLeader
  else
    match c.ledgers.lookup server with
    | none => .error .noLeader
    | some ledger =>
      match ledger.grant server holder want now with
      | .error reason => .error reason
      | .ok (ledger, lease) => .ok ({ c with ledgers := c.ledgers.insert server ledger }, lease)

def accept (c : NodeCoordinator) (lease : QuotaLease) : NodeCoordinator :=
  { c with held := c.held.insert lease.server lease }

/-! ### Quotas and quorum -/

variable {c : NodeCoordinator} {server : ServerId}

section

variable {quota : ServerQuota} (capped : c.caps.lookup server = some quota)
  (fleet : 0 < c.config.fleetSize) (view : MembershipView)
include capped fleet view

theorem freePool_splitFor :
    (c.splitFor server view).freePool =
      quota.cap - guaranteedTotal quota.cap quota.guaranteedFraction := by
  have divided : max c.config.fleetSize (clampU32 view.members.length) ≠ 0 := by omega
  unfold splitFor split
  rw [capped, if_neg divided]
  rfl

theorem guaranteedPerNode_splitFor_le :
    (c.splitFor server view).guaranteedPerNode ≤
      guaranteedTotal quota.cap quota.guaranteedFraction / c.config.fleetSize := by
  have divided : max c.config.fleetSize (clampU32 view.members.length) ≠ 0 := by omega
  unfold splitFor split
  rw [capped, if_neg divided]
  exact Nat.div_le_div_left (Nat.le_max_left _ _) fleet

end

theorem fleetSize_lt_of_hasQuorum {now : Nat} (quorum : c.hasQuorum now = true) :
    c.config.fleetSize < 2 * c.liveness.aliveCount now := by
  have more := of_decide_eq_true quorum
  have clamped := clampU32_le (c.liveness.aliveCount now)
  have doubled := saturatingMul_le (clampU32 (c.liveness.aliveCount now)) 2
  omega

/-! ### What a round changes -/

theorem lookup_ledgers_observe (capped : server ∈ c.caps) (now : Nat) :
    (c.observe now).ledgers.lookup server =
      some (c.observeLedger (c.leading now) (c.membership now) now server) := by
  unfold observe
  rw [AList.lookup_foldl_insert, if_pos (AList.mem_keys.mp capped)]

theorem lookup_peers_observe (c : NodeCoordinator) (now : Nat) (node : NodeId) :
    (c.observe now).liveness.peers.lookup node =
      (c.liveness.peers.lookup node).filter fun _ => c.liveness.state node now != .dead := by
  unfold observe Membership.reap
  rw [AList.lookup_retain]

theorem request_eq_ok {c' : NodeCoordinator} {holder : NodeId} {want : Nat} {now : Nat}
    {lease : QuotaLease} (accepted : c.request server holder want now = .ok (c', lease)) :
    c.hasQuorum now = true ∧
      ∃ ledger ledger', c.ledgers.lookup server = some ledger ∧
        ledger.grant server holder want now = .ok (ledger', lease) ∧
        c' = { c with ledgers := c.ledgers.insert server ledger' } := by
  unfold request at accepted
  split at accepted
  · contradiction
  · rename_i quorum
    split at accepted
    · contradiction
    · rename_i ledger found
      split at accepted
      · contradiction
      · rename_i ledger' given granted
        simp only [Except.ok.injEq, Prod.mk.injEq] at accepted
        obtain ⟨sameNode, rfl⟩ := accepted
        exact ⟨by simpa using quorum, ledger, ledger', found, granted, sameNode.symm⟩

end NodeCoordinator

end Pgprox.Cluster
