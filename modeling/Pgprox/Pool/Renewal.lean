/-
Whether a lease in use is renewed.

Once a tick the node asks the leader for one more connection when its allowance is used up.
Asking is also the only way a lease is renewed, so a lease that is used but not used up
runs out.
-/

import Pgprox.Cluster.Coordinator
import Pgprox.Pool.Live

namespace Pgprox.Pools

open Cluster

def wantsMoreQuota (held guaranteed leased : Nat) : Option Nat :=
  if guaranteed + leased ≤ held then some (held - guaranteed + 1) else none

/-- The demand `pools_for` counts for a server, waiting callers included. -/
def heldFor (all : List (PoolKey × PoolStats)) (server : ServerId) : Nat :=
  ((poolsFor all server).map Prod.snd).sum

def connectionsFor (all : List (PoolKey × PoolStats)) (server : ServerId) : Nat :=
  ((all.filter fun entry => decide (entry.1.server = server)).map fun entry =>
    entry.2.active + entry.2.idle).sum

structure TickRecord where
  time : Nat
  connections : Nat
  held : Nat
  guaranteed : Nat
  leased : Nat
  expiresAt : Nat
  deriving DecidableEq

structure Renewing where
  node : NodeCoordinator
  ledger : LeaseLedger
  clock : Nat
  last : Option TickRecord

inductive RenewingAct where
  | tick (quota : ServerQuota) (all : List (PoolKey × PoolStats))
  | elsewhere (holder : NodeId) (want : Nat)
  | round
  | gossip (incoming : VersionedDigest)

structure RenewingEvent where
  time : Nat
  act : RenewingAct

namespace Renewing

def start (node : NodeId) (config : CoordinatorConfig) (lease : LeaseConfig) (pool : Nat) :
    Renewing where
  node := NodeCoordinator.new node config 0
  ledger := (LeaseLedger.new pool lease).observeLeadership true 0
  clock := lease.takeoverWait
  last := none

def found (server : ServerId) (node : NodeCoordinator) (all : List (PoolKey × PoolStats))
    (now : Nat) : TickRecord where
  time := now
  connections := connectionsFor all server
  held := heldFor all server
  guaranteed := (node.allowance server now).guaranteed
  leased := (node.allowance server now).leased
  expiresAt := (node.held.lookup server).elim 0 QuotaLease.expiresAt

/-- `apply_quota` for one server with a declared quota, up to the limits it sets. -/
def tick (server : ServerId) (s : Renewing) (now : Nat) (quota : ServerQuota)
    (all : List (PoolKey × PoolStats)) : Renewing :=
  let node := s.node.setCap server quota
  let record := found server node all now
  match wantsMoreQuota record.held record.guaranteed record.leased with
  | none => { s with node := node, last := some record }
  | some want =>
    match s.ledger.grant server node.localNode want now with
    | .error _ => { s with node := node, last := some record }
    | .ok (ledger, lease) =>
      { s with node := node.accept lease, ledger := ledger, last := some record }

def act (server : ServerId) (s : Renewing) (now : Nat) : RenewingAct → Renewing
  | .tick quota all => s.tick server now quota all
  | .elsewhere holder want =>
    match s.ledger.grant server holder want now with
    | .error _ => s
    | .ok (ledger, _) => { s with ledger := ledger }
  | .round => { s with ledger := s.ledger.reap now }
  | .gossip incoming => { s with node := s.node.gossip incoming now }

def step (server : ServerId) (s : Renewing) (event : RenewingEvent) : Renewing :=
  { s.act server event.time event.act with clock := event.time }

def Allowed (s : Renewing) (event : RenewingEvent) : Prop :=
  s.clock ≤ event.time ∧
    match event.act with
    | .elsewhere holder _ => holder ≠ s.node.localNode
    | _ => True

instance (s : Renewing) : (event : RenewingEvent) → Decidable (s.Allowed event)
  | ⟨_, .tick _ _⟩ => inferInstanceAs (Decidable (_ ∧ True))
  | ⟨_, .elsewhere _ _⟩ => inferInstanceAs (Decidable (_ ∧ _ ≠ _))
  | ⟨_, .round⟩ => inferInstanceAs (Decidable (_ ∧ True))
  | ⟨_, .gossip _⟩ => inferInstanceAs (Decidable (_ ∧ True))

/-! ### What a lease is worth -/

variable {now : Nat}

theorem exists_lease {node : NodeCoordinator} {server : ServerId}
    (counted : 0 < (node.allowance server now).leased) :
    ∃ lease, node.held.lookup server = some lease ∧ now < lease.expiresAt ∧
      lease.nominalCount = (node.allowance server now).leased := by
  unfold NodeCoordinator.allowance at counted ⊢
  cases holding : node.held.lookup server with
  | none => simp [holding] at counted
  | some lease =>
    rw [holding, Option.elim_some] at counted
    unfold QuotaLease.count QuotaLease.isExpired at *
    refine ⟨lease, rfl, ?_, ?_⟩ <;> grind

theorem leased_of_lookup {node : NodeCoordinator} {server : ServerId} {lease : QuotaLease}
    (holding : node.held.lookup server = some lease) (now : Nat) :
    (node.allowance server now).leased =
      if now < lease.expiresAt then lease.nominalCount else 0 := by
  unfold NodeCoordinator.allowance
  rw [holding, Option.elim_some]
  unfold QuotaLease.count QuotaLease.isExpired
  grind

variable {ledger : LeaseLedger}

theorem grant_renews (server : ServerId) {holder : NodeId} {lease : QuotaLease} (want : Nat)
    (serves : ledger.canGrant now = true) (balanced : ledger.outstanding now ≤ ledger.pool)
    (covers : ledger.Covers holder lease) (alive : now < lease.expiresAt)
    (some : 0 < lease.nominalCount) (enough : lease.nominalCount ≤ want) :
    ∃ ledger' given, ledger.grant server holder want now = .ok (ledger', given) ∧
      lease.nominalCount ≤ given.nominalCount := by
  have booked := covers.count_le now
  have worth : lease.count now = lease.nominalCount := by
    unfold QuotaLease.count QuotaLease.isExpired
    rw [decide_eq_false (Nat.not_le.mpr alive)]
    rfl
  have parts := ledger.outstanding_eq_others_add_booked holder now
  have room : ledger.pool - ledger.heldByOthers holder now ≠ 0 := by omega
  unfold LeaseLedger.grant
  rw [if_neg (by simp [serves]), if_neg room]
  refine ⟨_, _, rfl, ?_⟩
  dsimp only
  omega

/-! ### What holds through a run -/

/-- What became of the lease since the last tick: renewed if the allowance was used up, and
otherwise the one the tick found. -/
structure Kept (server : ServerId) (timing : LeaseConfig) (node : NodeCoordinator)
    (record : TickRecord) : Prop where
  renewed : 0 < record.leased → record.guaranteed + record.leased ≤ record.held →
    ∃ lease, node.held.lookup server = some lease ∧
      lease.expiresAt = record.time + timing.ttl ∧ record.leased ≤ lease.nominalCount
  standing : 0 < record.leased → record.held < record.guaranteed + record.leased →
    ∃ lease, node.held.lookup server = some lease ∧ lease.expiresAt = record.expiresAt ∧
      lease.nominalCount = record.leased

structure Steady (server : ServerId) (timing : LeaseConfig) (s : Renewing) (time : Nat) :
    Prop where
  config : s.ledger.config = timing
  serves : ∀ now, time ≤ now → s.ledger.canGrant now = true
  balanced : s.ledger.outstanding time ≤ s.ledger.pool
  covered : ∀ lease, s.node.held.lookup server = some lease → time < lease.expiresAt →
    s.ledger.Covers s.node.localNode lease
  lasts : ∀ lease, s.node.held.lookup server = some lease →
    lease.expiresAt ≤ time + timing.ttl
  kept : ∀ record, s.last = some record → Kept server timing s.node record

variable {server : ServerId} {timing : LeaseConfig} {s : Renewing}

theorem Steady.later {time : Nat} (steady : s.Steady server timing time) (order : time ≤ now) :
    s.Steady server timing now where
  config := steady.config
  serves := fun instant later => steady.serves instant (order.trans later)
  balanced := (s.ledger.outstanding_antitone order).trans steady.balanced
  covered := fun lease holding alive =>
    steady.covered lease holding (order.trans_lt alive)
  lasts := fun lease holding => by
    have bound := steady.lasts lease holding
    omega
  kept := steady.kept

theorem gossip_held (node : NodeCoordinator) (incoming : VersionedDigest) (now : Nat) :
    (node.gossip incoming now).held = node.held ∧
      (node.gossip incoming now).localNode = node.localNode := by
  unfold NodeCoordinator.gossip
  split
  · exact ⟨rfl, rfl⟩
  · exact ⟨rfl, rfl⟩

/-- A tick that was not answered leaves the lease as it was, which is right only when the
lease is not worth a renewal. -/
theorem Steady.unanswered {quota : ServerQuota} {all : List (PoolKey × PoolStats)}
    (steady : s.Steady server timing now)
    (idle : ∀ record, record = found server (s.node.setCap server quota) all now →
      0 < record.leased → record.held < record.guaranteed + record.leased) :
    Steady server timing
      { s with
        node := s.node.setCap server quota
        last := some (found server (s.node.setCap server quota) all now) } now := by
  refine { steady with kept := ?_ }
  rintro record ⟨⟩
  constructor
  · intro counted used
    exact absurd used (Nat.not_le.mpr (idle _ rfl counted))
  · intro counted _
    obtain ⟨lease, holding, _, worth⟩ := exists_lease counted
    refine ⟨lease, holding, ?_, worth⟩
    unfold found
    rw [holding, Option.elim_some]

theorem Steady.granted {holder : NodeId} {want : Nat} {given : QuotaLease}
    (steady : s.Steady server timing now)
    (answer : s.ledger.grant server holder want now = .ok (ledger, given)) :
    ledger.config = timing ∧ (∀ instant, now ≤ instant → ledger.canGrant instant = true) ∧
      ledger.outstanding now ≤ ledger.pool := by
  have balanced := LeaseLedger.outstanding_grant_le answer
  obtain ⟨-, -, -, rfl⟩ := LeaseLedger.grant_eq_ok answer
  exact ⟨steady.config, steady.serves, balanced⟩

theorem Steady.answered {quota : ServerQuota} {all : List (PoolKey × PoolStats)} {want : Nat}
    {given : QuotaLease} (steady : s.Steady server timing now)
    (answer : s.ledger.grant server s.node.localNode want now = .ok (ledger, given))
    (asked : wantsMoreQuota (heldFor all server)
      ((s.node.setCap server quota).allowance server now).guaranteed
      ((s.node.setCap server quota).allowance server now).leased = some want) :
    Steady server timing
      { s with
        node := (s.node.setCap server quota).accept given
        ledger := ledger
        last := some (found server (s.node.setCap server quota) all now) } now := by
  obtain ⟨config, serves, balanced⟩ := steady.granted answer
  unfold wantsMoreQuota at asked
  split at asked
  case isFalse => contradiction
  rename_i used
  have wanted : heldFor all server -
      ((s.node.setCap server quota).allowance server now).guaranteed + 1 = want :=
    Option.some.inj asked
  have renewal : ∀ lease, s.node.held.lookup server = some lease → now < lease.expiresAt →
      lease.nominalCount = ((s.node.setCap server quota).allowance server now).leased →
      0 < lease.nominalCount → lease.nominalCount ≤ given.nominalCount := by
    intro lease holding alive worth some
    obtain ⟨ledger', given', same, enough⟩ :=
      grant_renews server want (steady.serves now (Nat.le_refl now)) steady.balanced
        (steady.covered lease holding alive) alive some (by omega)
    rw [answer] at same
    cases same
    exact enough
  obtain ⟨-, -, givenIs, ledgerIs⟩ := LeaseLedger.grant_eq_ok answer
  have named : given.server = server := by rw [givenIs]
  have runs : given.expiresAt = now + timing.ttl := by rw [givenIs, ← steady.config]
  have holds : ((s.node.setCap server quota).accept given).held.lookup server = some given := by
    unfold NodeCoordinator.accept
    rw [named, AList.lookup_insert]
  refine ⟨config, serves, balanced, ?_, ?_, ?_⟩
  · intro lease holding _
    obtain rfl : given = lease := Option.some.inj (holds.symm.trans holding)
    rw [ledgerIs]
    exact ⟨_, AList.lookup_insert _, Nat.le_refl _, Nat.le_refl _⟩
  · intro lease holding
    obtain rfl : given = lease := Option.some.inj (holds.symm.trans holding)
    exact Nat.le_of_eq runs
  · rintro record ⟨⟩
    constructor
    · intro counted _
      obtain ⟨lease, holding, alive, worth⟩ := exists_lease counted
      refine ⟨given, holds, runs, ?_⟩
      have enough := renewal lease holding alive worth (by rw [worth]; exact counted)
      rw [worth] at enough
      exact enough
    · intro _ short
      exact absurd used (Nat.not_le.mpr short)

theorem Steady.tick (steady : s.Steady server timing now) (quota : ServerQuota)
    (all : List (PoolKey × PoolStats)) :
    (s.tick server now quota all).Steady server timing now := by
  unfold Renewing.tick
  dsimp only
  split
  · rename_i quiet
    apply steady.unanswered
    rintro record rfl _
    unfold wantsMoreQuota at quiet
    split at quiet
    · contradiction
    · rename_i short
      exact Nat.not_le.mp short
  · rename_i want asked
    split
    · rename_i reason refused
      apply steady.unanswered
      rintro record rfl counted
      -- A running lease would have been renewed, so nothing was counted on.
      exfalso
      obtain ⟨lease, holding, alive, worth⟩ := exists_lease counted
      have some : 0 < lease.nominalCount := by rw [worth]; exact counted
      have enough : lease.nominalCount ≤ want := by
        unfold wantsMoreQuota at asked
        split at asked
        · rename_i used
          have wanted := Option.some.inj asked
          unfold found at used wanted
          dsimp only at used wanted
          omega
        · contradiction
      obtain ⟨ledger, given, answer, -⟩ :=
        grant_renews server want (steady.serves now (Nat.le_refl now)) steady.balanced
          (steady.covered lease holding alive) alive some enough
      have same := refused.symm.trans answer
      contradiction
    · rename_i ledger given answer
      exact steady.answered answer asked

theorem Steady.act {act : RenewingAct} (steady : s.Steady server timing now)
    (others : ∀ holder want, act = .elsewhere holder want → holder ≠ s.node.localNode) :
    (s.act server now act).Steady server timing now := by
  cases act with
  | tick quota all => exact steady.tick quota all
  | elsewhere holder want =>
    unfold Renewing.act
    dsimp only
    split
    · exact steady
    · rename_i ledger given answer
      obtain ⟨config, serves, balanced⟩ := steady.granted answer
      refine ⟨config, serves, balanced, ?_, steady.lasts, steady.kept⟩
      intro lease holding alive
      have lasts := steady.lasts lease holding
      rw [← steady.config] at lasts
      refine (steady.covered lease holding alive).grant steady.balanced answer alive lasts ?_
      intro same
      exact absurd same (others holder want rfl)
  | round =>
    refine ⟨steady.config, steady.serves, ?_, ?_, steady.lasts, steady.kept⟩
    · exact (s.ledger.outstanding_reap_le now now).trans steady.balanced
    · intro lease holding alive
      exact (steady.covered lease holding alive).reap alive
  | gossip incoming =>
    obtain ⟨sameHeld, sameNode⟩ := gossip_held s.node incoming now
    refine ⟨steady.config, steady.serves, steady.balanced, ?_, ?_, ?_⟩
    · intro lease holding alive
      unfold Renewing.act at holding ⊢
      rw [sameHeld] at holding
      rw [sameNode]
      exact steady.covered lease holding alive
    · intro lease holding
      unfold Renewing.act at holding
      rw [sameHeld] at holding
      exact steady.lasts lease holding
    · intro record ticked
      have kept := steady.kept record ticked
      refine ⟨?_, ?_⟩
      · unfold Renewing.act
        rw [sameHeld]
        exact kept.renewed
      · unfold Renewing.act
        rw [sameHeld]
        exact kept.standing

theorem steady_of_reachable {node : NodeId} {config : CoordinatorConfig} {pool : Nat}
    (reachable : Run.Reachable (start node config timing pool) Allowed (step server) s) :
    s.Steady server timing s.clock := by
  refine reachable.invariant (P := fun state => state.Steady server timing state.clock) ?_ ?_
  · refine ⟨rfl, ?_, ?_, ?_, ?_, ?_⟩
    · intro now later
      apply decide_eq_true
      rw [Nat.zero_add]
      exact later
    · exact Nat.zero_le _
    · intro lease holding
      cases holding
    · intro lease holding
      cases holding
    · intro record ticked
      cases ticked
  · rintro before ⟨time, act⟩ steady ⟨order, others⟩
    have moved : Steady server timing (before.act server time act) time := by
      apply (steady.later order).act
      rintro holder want rfl
      exact others
    exact ⟨moved.config, moved.serves, moved.balanced, moved.covered, moved.lasts, moved.kept⟩

/-! ### Whether the lease still covers what is in use -/

/-- In the second after a tick that found a lease in use, the allowance covers the
connections the tick found exactly when they and the waiting callers used the allowance up,
or the lease of that tick has not run out. -/
theorem lease_in_use_covers_iff {node : NodeId} {config : CoordinatorConfig} {pool : Nat}
    (lasting : 2000 ≤ timing.ttl)
    (reachable : Run.Reachable (start node config timing pool) Allowed (step server) s)
    {record : TickRecord} (ticked : s.last = some record)
    (beyond : record.guaranteed < record.connections)
    (within : record.connections ≤ record.guaranteed + record.leased) {now : Nat}
    (soon : now ≤ record.time + 1000)
    (share : (s.node.allowance server now).guaranteed = record.guaranteed) :
    record.connections ≤
        (s.node.allowance server now).guaranteed + (s.node.allowance server now).leased ↔
      record.guaranteed + record.leased ≤ record.held ∨ now < record.expiresAt := by
  have kept := (steady_of_reachable reachable).kept record ticked
  have counted : 0 < record.leased := by omega
  rcases Nat.lt_or_ge record.held (record.guaranteed + record.leased) with short | used
  · obtain ⟨lease, holding, runs, worth⟩ := kept.standing counted short
    rw [leased_of_lookup holding, runs, worth]
    split
    · omega
    · omega
  · obtain ⟨lease, holding, runs, worth⟩ := kept.renewed counted used
    have alive : now < lease.expiresAt := by omega
    rw [leased_of_lookup holding, if_pos alive]
    omega

def onePool (time active waiting : Nat) : RenewingEvent where
  time := time
  act := .tick { cap := 100, guaranteedFraction := 1 / 2 }
    [(⟨⟨"db:5432"⟩, "app", "u"⟩,
      { active := active, idle := 0, waiting := waiting, limit := 20 })]

def oneShort : List RenewingEvent :=
  [onePool 9000 10 1, onePool 10000 11 0, onePool 11000 11 0, onePool 12000 11 0,
    onePool 13000 11 0, onePool 13500 11 0]

def after (events : List RenewingEvent) : Renewing :=
  events.foldl (step ⟨"db:5432"⟩) (start 2 CoordinatorConfig.default LeaseConfig.default 50)

theorem lease_in_use_runs_out :
    Run.Permitted Allowed (step ⟨"db:5432"⟩)
        (start 2 CoordinatorConfig.default LeaseConfig.default 50) oneShort ∧
      (∀ ticks ∈ [2, 3, 4, 5, 6], ∃ record ∈ (after (oneShort.take ticks)).last,
        record.connections = 11 ∧ record.guaranteed = 10 ∧ record.leased = 2) ∧
      (after oneShort).clock = 13500 ∧
        ((after oneShort).node.allowance ⟨"db:5432"⟩ 14200).guaranteed = 10 ∧
          ((after oneShort).node.allowance ⟨"db:5432"⟩ 14200).leased = 0 := by
  decide +kernel

theorem lease_in_use_covers_before_expiry :
    let used := [onePool 9000 10 1, onePool 10000 11 1, onePool 11000 11 1]
    (11 ≤ ((after used).node.allowance ⟨"db:5432"⟩ 12000).guaranteed +
        ((after used).node.allowance ⟨"db:5432"⟩ 12000).leased ↔ 10 + 3 ≤ 12 ∨ 12000 < 15000) := by
  have reached := Run.Reachable.start.foldl
    (show Run.Permitted Allowed (step ⟨"db:5432"⟩)
        (start 2 CoordinatorConfig.default LeaseConfig.default 50)
        [onePool 9000 10 1, onePool 10000 11 1, onePool 11000 11 1] by decide +kernel)
  exact lease_in_use_covers_iff (by decide) reached
    (show _ = some ⟨11000, 11, 12, 10, 3, 15000⟩ by decide +kernel) (by decide) (by decide)
    (by decide) (by decide +kernel)

end Renewing

end Pgprox.Pools
