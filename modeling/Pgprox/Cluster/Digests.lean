/-
What is read from the digests a node holds.

A store keeps each node's highest version, so it is fixed by the set of digests that
arrived, and the totals read from it do not depend on their order.
-/

import Pgprox.Cluster.Coordinator
import Pgprox.Library.LatestWins

namespace Pgprox.Cluster

open List

/-! ### Reading a store -/

namespace DigestStore

def get (store : DigestStore) (node : NodeId) : Option ClusterDigest :=
  (store.latest.lookup node).map VersionedDigest.digest

def all (store : DigestStore) : List ClusterDigest :=
  store.values.insertionSort fun a b => a.node ≤ b.node

def clusterUsage (store : DigestStore) (server : ServerId) : Nat :=
  (((store.values.flatMap ClusterDigest.upstreamConns).filter fun entry =>
    entry.1 = server).map Prod.snd).foldl saturatingAdd 0

def clusterClients (store : DigestStore) : Nat :=
  (store.values.map ClusterDigest.clientConns).foldl saturatingAdd 0

def Filed (store : DigestStore) : Prop :=
  ∀ node held, store.latest.lookup node = some held → held.digest.node = node

end DigestStore

theorem saturatingAdd_right_comm (a b c : Nat) :
    saturatingAdd (saturatingAdd a b) c = saturatingAdd (saturatingAdd a c) b := by
  unfold saturatingAdd
  omega

instance saturatingAdd_rightCommutative : RightCommutative saturatingAdd :=
  ⟨saturatingAdd_right_comm⟩

instance uint64_add_rightCommutative : RightCommutative fun a b : UInt64 => a + b :=
  ⟨fun a b c => by rw [UInt64.add_assoc, UInt64.add_comm b c, ← UInt64.add_assoc]⟩

/-! ### A store is what its lookups say -/

namespace DigestStore

variable {store store' : DigestStore}

structure Agrees (store store' : DigestStore) : Prop where
  entries : ∀ node, store.latest.lookup node = store'.latest.lookup node
  get : ∀ node, store.get node = store'.get node
  usage : ∀ server, store.clusterUsage server = store'.clusterUsage server
  clients : store.clusterClients = store'.clusterClients
  hash : store.viewHash = store'.viewHash
  all : store.all = store'.all

theorem values_perm
    (same : ∀ node, store.latest.lookup node = store'.latest.lookup node) :
    store.values.Perm store'.values :=
  (AList.perm_of_lookup_eq same).map _

theorem nodup_nodes (filed : store.Filed) : (store.values.map ClusterDigest.node).Nodup := by
  have keys : store.values.map ClusterDigest.node = store.latest.keys := by
    unfold values AList.keys
    rw [map_map]
    apply map_congr_left
    intro entry member
    exact filed entry.1 entry.2 ((AList.lookup_eq_some_iff _ _ _).mpr member)
  rw [keys]
  exact store.latest.keys_nodup

theorem all_eq_of_perm (filed : store.Filed) (perm : store.values.Perm store'.values) :
    store.all = store'.all := by
  have distinct : ∀ first ∈ store.values, ∀ second ∈ store.values,
      first.node = second.node → first = second :=
    fun first member second memberToo =>
      inj_on_of_nodup_map (nodup_nodes filed) member memberToo
  apply List.Perm.eq_of_pairwise _ (pairwise_insertionSort _ _)
    (pairwise_insertionSort _ _)
  · exact (perm_insertionSort _ _).trans (perm.trans (perm_insertionSort _ _).symm)
  · intro first second member memberToo le ge
    apply distinct first _ second _ (Nat.le_antisymm le ge)
    · exact (perm_insertionSort _ _).mem_iff.mp member
    · exact perm.mem_iff.mpr ((perm_insertionSort _ _).mem_iff.mp memberToo)

theorem agrees_of_lookup_eq (filed : store.Filed)
    (same : ∀ node, store.latest.lookup node = store'.latest.lookup node) :
    store.Agrees store' where
  entries := same
  get node := by
    unfold DigestStore.get
    rw [same node]
  usage server :=
    ((((values_perm same).flatMap_right _).filter _).map _).foldl_eq 0
  clients := ((values_perm same).map _).foldl_eq 0
  hash := ((values_perm same).map _).foldl_eq 0
  all := all_eq_of_perm filed (values_perm same)

/-! ### Merging keeps the newest -/

theorem latest_merge (store : DigestStore) (incoming : VersionedDigest) :
    (store.merge incoming).1.latest =
      LatestWins.keepLatest (fun versioned => versioned.digest.node) VersionedDigest.version
        store.latest incoming := by
  unfold merge LatestWins.keepLatest
  cases store.latest.lookup incoming.digest.node with
  | none => rfl
  | some held =>
    dsimp only
    split <;> rfl

abbrev Newest (known : VersionedDigest → Prop) (node : NodeId) : Option VersionedDigest → Prop :=
  LatestWins.Newest (fun versioned => versioned.digest.node) VersionedDigest.version known node

abbrev Determined (known : VersionedDigest → Prop) : Prop :=
  LatestWins.Determined (fun versioned => versioned.digest.node) VersionedDigest.version known

end DigestStore

namespace NodeCoordinator

def gossipAll (c : NodeCoordinator) (deliveries : List (VersionedDigest × Nat)) :
    NodeCoordinator :=
  deliveries.foldl (fun c delivery => c.gossip delivery.1 delivery.2) c

theorem digests_gossip (c : NodeCoordinator) (incoming : VersionedDigest) (now : Nat) :
    (c.gossip incoming now).digests = (c.digests.merge incoming).1 := by
  unfold gossip
  split
  · rename_i merged
    rw [merged]
  · rename_i merged
    rw [merged]

theorem latest_gossipAll (c : NodeCoordinator) (deliveries : List (VersionedDigest × Nat)) :
    (c.gossipAll deliveries).digests.latest =
      (deliveries.map Prod.fst).foldl
        (LatestWins.keepLatest (fun versioned => versioned.digest.node) VersionedDigest.version)
        c.digests.latest := by
  unfold gossipAll
  induction deliveries generalizing c with
  | nil => rfl
  | cons delivery later ih =>
    rw [foldl_cons, ih, digests_gossip, DigestStore.latest_merge, map_cons,
      foldl_cons]

def Told (c : NodeCoordinator) (deliveries : List (VersionedDigest × Nat))
    (versioned : VersionedDigest) : Prop :=
  (∃ node, c.digests.latest.lookup node = some versioned) ∨
    versioned ∈ deliveries.map Prod.fst

section

variable {c : NodeCoordinator} (filed : c.digests.Filed) (deliveries : List (VersionedDigest × Nat))
include filed deliveries

theorem newest_gossipAll (node : NodeId) :
    DigestStore.Newest (c.Told deliveries) node
      ((c.gossipAll deliveries).digests.latest.lookup node) := by
  rw [latest_gossipAll]
  exact LatestWins.newest_foldl _ (LatestWins.newest_of_filed filed) node

theorem filed_gossipAll : (c.gossipAll deliveries).digests.Filed := by
  intro node held found
  have newest := newest_gossipAll filed deliveries node
  rw [found] at newest
  exact newest.2.1

end

end NodeCoordinator

/-- Whatever the order and however often each digest is repeated, the store ends the
same, and holds for each node the digest with the highest version. -/
theorem gossip_order_free (c : NodeCoordinator) (filed : c.digests.Filed)
    (first second : List (VersionedDigest × Nat))
    (same : ∀ versioned, versioned ∈ first.map Prod.fst ↔ versioned ∈ second.map Prod.fst)
    (determined : DigestStore.Determined (c.Told first)) :
    (c.gossipAll first).digests.Agrees (c.gossipAll second).digests ∧
      ∀ node, DigestStore.Newest (c.Told first) node
        ((c.gossipAll first).digests.latest.lookup node) := by
  have newest := NodeCoordinator.newest_gossipAll filed first
  refine ⟨DigestStore.agrees_of_lookup_eq (NodeCoordinator.filed_gossipAll filed first) ?_, newest⟩
  intro node
  have newestToo := NodeCoordinator.newest_gossipAll filed second node
  apply (newest node).unique determined
  exact newestToo.congr fun versioned => or_congr_right (same versioned).symm

def reportOf (node : NodeId) (version clients : Nat) : VersionedDigest where
  digest :=
    { node := node, mode := .active, clientConns := clients, upstreamConns := [],
      tenantUsage := [] }
  version := version

theorem gossip_order_free_two_reports :
    let fresh := NodeCoordinator.new 1 CoordinatorConfig.default 0
    let early := [(reportOf 2 1 7, 0), (reportOf 2 2 9, 5)]
    let late := [(reportOf 2 2 9, 3), (reportOf 2 1 7, 3), (reportOf 2 1 7, 8)]
    (fresh.gossipAll early).digests.Agrees (fresh.gossipAll late).digests ∧
      ∀ node, DigestStore.Newest (fresh.Told early) node
        ((fresh.gossipAll early).digests.latest.lookup node) := by
  intro fresh early late
  refine gossip_order_free fresh ?_ early late ?_ ?_
  · intro node held found
    cases found
  · intro versioned
    simp only [early, late, map_cons, map_nil, mem_cons, not_mem_nil]
    tauto
  · rintro first second (⟨node, found⟩ | told) (⟨node, foundToo⟩ | toldToo) _ level
    · cases found
    · cases found
    · cases foundToo
    · simp only [early, map_cons, map_nil, mem_cons, not_mem_nil,
        or_false] at told toldToo
      rcases told with rfl | rfl <;> rcases toldToo with rfl | rfl
      · rfl
      · cases level
      · cases level
      · rfl

/-! ### What the view hash tells apart -/

namespace DigestStore

variable {store store' : DigestStore}

def idSum (store : DigestStore) : Nat :=
  (store.values.map ClusterDigest.node).sum

def modeSum (store : DigestStore) : Nat :=
  (store.values.map fun digest => (modeNumber digest.mode).toNat).sum

theorem viewHash_eq (store : DigestStore) :
    store.viewHash = UInt64.ofNat (store.idSum * 0x9E3779B97F4A7C15 + store.modeSum) := by
  have added (digests : List ClusterDigest) (total : Nat) :
      (digests.map fun digest => UInt64.ofNat digest.node * 0x9E3779B97F4A7C15 +
          modeNumber digest.mode).foldl (· + ·) (UInt64.ofNat total) =
        UInt64.ofNat (total + ((digests.map ClusterDigest.node).sum * 0x9E3779B97F4A7C15 +
          (digests.map fun digest => (modeNumber digest.mode).toNat).sum)) := by
    induction digests generalizing total with
    | nil => simp
    | cons digest later ih =>
      have next : UInt64.ofNat total +
          (UInt64.ofNat digest.node * 0x9E3779B97F4A7C15 + modeNumber digest.mode) =
            UInt64.ofNat (total +
              (digest.node * 0x9E3779B97F4A7C15 + (modeNumber digest.mode).toNat)) := by
        rw [UInt64.ofNat_add, UInt64.ofNat_add, UInt64.ofNat_mul, UInt64.ofNat_toNat]
        rfl
      simp only [map_cons, foldl_cons, sum_cons]
      rw [next, ih]
      congr 1
      ring
  have whole := added store.values 0
  rw [Nat.zero_add] at whole
  exact whole

/-- Small multiples of the constant stay away from the multiples of `2 ^ 64`: the two
pairs are its neighbouring convergents, and every integer pair is a combination of them. -/
theorem multiple_ne (d e m : ℤ) (small : |d| < 2 ^ 32) (near : |e| ≤ 2 ^ 18)
    (same : d * 0x9E3779B97F4A7C15 + e = m * 2 ^ 64) : d = 0 ∧ e = 0 := by
  rw [abs_lt] at small
  rw [abs_le] at near
  obtain ⟨x, isX⟩ : ∃ x, x = 360651927003 * m - 222895148996 * d := ⟨_, rfl⟩
  obtain ⟨y, isY⟩ : ∃ y, y = 1836311903 * d - 2971215073 * m := ⟨_, rfl⟩
  have width : d = 2971215073 * x + 360651927003 * y := by omega
  have gap : -e = -50920843 * x + 27612919 * y := by omega
  clear isX isY same
  rcases lt_trichotomy x 0 with negative | zero | positive
  · rcases lt_or_ge y 0 with below | above
    · omega
    · omega
  · omega
  · rcases lt_or_ge 0 y with above | below
    · omega
    · omega

structure Fits (store : DigestStore) : Prop where
  filed : store.Filed
  u16 : ∀ digest ∈ store.values, digest.node < 2 ^ 16

theorem Fits.sums_le (fits : store.Fits) : store.idSum < 2 ^ 32 ∧ store.modeSum ≤ 2 ^ 17 := by
  have u16 : ∀ node ∈ store.values.map ClusterDigest.node, node < 2 ^ 16 :=
    forall_mem_map.mpr fits.u16
  have few : store.values.length ≤ 2 ^ 16 := by
    have distinct := toFinset_card_of_nodup (nodup_nodes fits.filed)
    have within := Finset.card_le_card (t := Finset.range (2 ^ 16)) fun node listed =>
      Finset.mem_range.mpr (u16 node (mem_toFinset.mp listed))
    rw [distinct, length_map, Finset.card_range] at within
    exact within
  have ids : store.idSum ≤ (store.values.map ClusterDigest.node).length • 65535 :=
    sum_le_card_nsmul _ _ fun node listed => Nat.le_of_lt_succ (u16 node listed)
  have modes : store.modeSum ≤
      (store.values.map fun digest => (modeNumber digest.mode).toNat).length • 2 :=
    sum_le_card_nsmul _ _
      (forall_mem_map.mpr fun digest _ => by cases digest.mode <;> decide)
  rw [length_map, smul_eq_mul] at ids modes
  omega

theorem viewHash_eq_iff (fits : store.Fits) (fits' : store'.Fits) :
    store.viewHash = store'.viewHash ↔
      store.idSum = store'.idSum ∧ store.modeSum = store'.modeSum := by
  rw [viewHash_eq, viewHash_eq]
  constructor
  · intro same
    have level : store'.idSum * 0x9E3779B97F4A7C15 + store'.modeSum ≡
        store.idSum * 0x9E3779B97F4A7C15 + store.modeSum [MOD 2 ^ 64] := by
      have values := congrArg UInt64.toNat same
      rw [UInt64.toNat_ofNat', UInt64.toNat_ofNat'] at values
      exact values.symm
    obtain ⟨m, multiple⟩ := Nat.modEq_iff_dvd.mp level
    have ids := fits.sums_le
    have ids' := fits'.sums_le
    push_cast at multiple
    have none := multiple_ne (store.idSum - store'.idSum) (store.modeSum - store'.modeSum) m
      (abs_lt.mpr (by omega)) (abs_le.mpr (by omega)) (by linarith)
    omega
  · rintro ⟨ids, modes⟩
    rw [ids, modes]

end DigestStore

/-- Two stores have different hashes exactly when the sums of their node identifiers or of
their modes' numbers differ, and a change of the store restarts the settle window exactly
then. -/
theorem view_hash_differs_iff {store store' : DigestStore} (fits : store.Fits)
    (fits' : store'.Fits) (window : SettleWindow) (now later : Nat) :
    let sums := store.idSum ≠ store'.idSum ∨ store.modeSum ≠ store'.modeSum
    (store.viewHash ≠ store'.viewHash ↔ sums) ∧
      (sums → ((window.observe store now).observe store' later).membershipChangedAt = later) ∧
      (¬ sums → (window.observe store now).observe store' later = window.observe store now) := by
  intro sums
  have differs : store.viewHash ≠ store'.viewHash ↔ sums := by
    rw [Ne, DigestStore.viewHash_eq_iff fits fits']
    exact not_and_or
  have observed : (window.observe store now).viewHash = store.viewHash := by
    unfold SettleWindow.observe
    split
    · exact (‹store.viewHash = window.viewHash›).symm
    · rfl
  have next : (window.observe store now).observe store' later =
      if store'.viewHash = store.viewHash then window.observe store now
      else ⟨store'.viewHash, later⟩ := by
    rw [SettleWindow.observe, observed]
  refine ⟨differs, ?_, ?_⟩
  · intro apart
    rw [next, if_neg (differs.mpr apart).symm]
  · intro same
    rw [next, if_pos (not_not.mp fun apart => same (differs.mp apart)).symm]

def storeOf (nodes : List NodeId) : DigestStore :=
  nodes.foldl (fun store node => (store.merge (reportOf node 1 0)).1) DigestStore.new

theorem view_hash_agrees_one_four :
    (storeOf [1, 4]).values.map ClusterDigest.node = [4, 1] ∧
      (storeOf [2, 3]).values.map ClusterDigest.node = [3, 2] ∧
        (storeOf [1, 4]).viewHash = (storeOf [2, 3]).viewHash := by
  decide +kernel

theorem view_hash_differs_node_joins :
    (storeOf [1]).viewHash ≠ (storeOf [1, 2]).viewHash ↔
      (storeOf [1]).idSum ≠ (storeOf [1, 2]).idSum ∨
        (storeOf [1]).modeSum ≠ (storeOf [1, 2]).modeSum := by
  have fits (nodes : List NodeId) (filed : ∀ entry ∈ (storeOf nodes).latest.entries,
      entry.2.digest.node = entry.1)
      (u16 : ∀ digest ∈ (storeOf nodes).values, digest.node < 2 ^ 16) : (storeOf nodes).Fits :=
    ⟨fun node held found => filed _ ((AList.lookup_eq_some_iff _ _ _).mp found), u16⟩
  exact (view_hash_differs_iff (fits [1] (by decide +kernel) (by decide +kernel))
    (fits [1, 2] (by decide +kernel) (by decide +kernel)) ⟨0, 0⟩ 0 1).1

end Pgprox.Cluster
