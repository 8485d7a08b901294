/-
Admission: what a node opens against what it is allowed.

The allowance holds exactly as long as the limits of a server's pools add up to no more
than it and no pool is above its own limit.
-/

import Pgprox.Pool.Live

namespace Pgprox.Pools

open List

/-! ### The split adds up -/

theorem sum_modify_succ (shares : List Nat) (index : Nat) :
    (shares.modify index (· + 1)).sum = shares.sum + if index < shares.length then 1 else 0 := by
  induction shares generalizing index with
  | nil => simp
  | cons head tail ih =>
    cases index with
    | zero =>
      simp only [modify_zero_cons, sum_cons, length_cons, Nat.zero_lt_succ, if_true]
      omega
    | succ index =>
      simp only [modify_succ_cons, sum_cons, ih, length_cons, Nat.succ_lt_succ_iff]
      omega

theorem sum_handOut_le (order : List Nat) (remainder : Nat) (shares : List Nat) :
    (handOut order remainder shares).sum ≤ shares.sum + remainder := by
  induction order generalizing remainder shares with
  | nil => exact Nat.le_add_right _ _
  | cons index order ih =>
    cases remainder with
    | zero => exact le_rfl
    | succ remainder =>
      have rest := ih remainder (shares.modify index (· + 1))
      change (handOut order remainder (shares.modify index (· + 1))).sum ≤ _
      rw [sum_modify_succ] at rest
      split at rest <;> omega

theorem length_handOut (order : List Nat) (remainder : Nat) (shares : List Nat) :
    (handOut order remainder shares).length = shares.length := by
  induction order generalizing remainder shares with
  | nil => rfl
  | cons index order ih =>
    cases remainder with
    | zero => rfl
    | succ remainder =>
      change (handOut order remainder (shares.modify index (· + 1))).length = _
      rw [ih, length_modify]

/-- The shares of a server's pools never add up to more than the allowance. -/
theorem sum_sharesAcrossPools_le (guaranteed leased : Nat) (demand : List Nat) :
    (sharesAcrossPools guaranteed leased demand).sum ≤ guaranteed + leased := by
  have capped := saturatingAdd_le guaranteed leased
  unfold sharesAcrossPools
  dsimp only
  split
  · simp
  · split
    · exact Nat.zero_le _
    · refine Nat.le_trans (sum_handOut_le _ _ _) ?_
      rw [sum_replicate, smul_eq_mul]
      have whole := Nat.div_add_mod (saturatingAdd guaranteed leased) demand.length
      omega

theorem length_sharesAcrossPools (guaranteed leased : Nat) (demand : List Nat) :
    (sharesAcrossPools guaranteed leased demand).length = demand.length := by
  unfold sharesAcrossPools
  dsimp only
  split
  · exact length_replicate
  · split
    · rename_i empty
      exact empty.symm
    · rw [length_handOut]
      exact length_replicate

theorem sum_limitsFor_le (all : List (PoolKey × PoolStats)) (server : ServerId)
    (allowance : Option (Nat × Nat)) :
    ((limitsFor all server allowance).map Prod.snd).sum ≤ permitted allowance := by
  unfold limitsFor
  cases allowance with
  | none => simp [Function.comp_def]
  | some amounts =>
    rw [map_snd_zip]
    · exact sum_sharesAcrossPools_le _ _ _
    · rw [length_sharesAcrossPools, length_map, length_map]

theorem keys_limitsFor (all : List (PoolKey × PoolStats)) (server : ServerId)
    (allowance : Option (Nat × Nat)) :
    (limitsFor all server allowance).map Prod.fst = (poolsFor all server).map Prod.fst := by
  unfold limitsFor
  cases allowance with
  | none => simp [Function.comp_def]
  | some amounts =>
    rw [map_fst_zip]
    rw [length_sharesAcrossPools, length_map, length_map]

theorem mem_keys_poolsFor {all : List (PoolKey × PoolStats)} {server : ServerId}
    {key : PoolKey} :
    key ∈ (poolsFor all server).map Prod.fst ↔
      key.server = server ∧ ∃ stats, (key, stats) ∈ all := by
  unfold poolsFor
  simp only [map_map, mem_map, mem_filter]
  constructor
  · rintro ⟨⟨found, stats⟩, ⟨listed, same⟩, rfl⟩
    exact ⟨of_decide_eq_true same, stats, listed⟩
  · rintro ⟨same, stats, listed⟩
    exact ⟨(key, stats), ⟨listed, decide_eq_true same⟩, rfl⟩

/-! ### What keeps the limits within the allowance -/

namespace NodePools

def Covered (node : NodePools) : Prop :=
  ∀ server, node.limits server ≤ permitted (node.inForce server)

def RoomForPool (node : NodePools) (key : PoolKey) : Prop :=
  node.limits key.server + node.live.config.maxSize ≤ permitted (node.inForce key.server)

def WithinLimits (node : NodePools) (server : ServerId) : Prop :=
  ∀ key entry, node.live.keyed.lookup key = some entry → key.server = server →
    entry.pool.size ≤ entry.pool.limit

/-- A pool is created only where it fits, nothing is opened while a pool of the
server is above its limit, and a pass sets the limits of all the server's pools. -/
def Settled (node : NodePools) : NodeStep → Prop
  | .acquire key =>
    (node.live.keyed.lookup key = none → node.RoomForPool key) ∧
      ((node.live.entry key).pool.idle = [] →
        (node.live.entry key).pool.total < (node.live.entry key).pool.limit →
        node.WithinLimits key.server)
  | .beginWait key => node.live.keyed.lookup key = none → node.RoomForPool key
  | .applyQuota server _ =>
    ∀ key entry, node.live.keyed.lookup key = some entry → key.server = server →
      ∃ stats, (key, stats) ∈ node.reading
  | _ => True

end NodePools

theorem limitAt_of_ne {server : ServerId} {key : PoolKey} (other : key.server ≠ server)
    (entry : Keyed) : NodePools.limitAt server key entry = 0 :=
  if_neg other

variable (server : ServerId)

theorem limitAt_le (key : PoolKey) (entry : Keyed) :
    NodePools.limitAt server key entry ≤ entry.pool.limit := by
  unfold NodePools.limitAt
  split
  · exact le_rfl
  · exact Nat.zero_le _

theorem limitAt_congr {entry entry' : Keyed} (same : entry'.pool.limit = entry.pool.limit)
    (server : ServerId) (key : PoolKey) :
    NodePools.limitAt server key entry' = NodePools.limitAt server key entry := by
  unfold NodePools.limitAt
  rw [same]

theorem weigh_foldl_setLimit_of_ne (limits : List (PoolKey × Nat)) (live : LivePool)
    {server : ServerId} (others : ∀ key ∈ limits.map Prod.fst, key.server ≠ server) :
    (limits.foldl (fun live entry => live.setLimit entry.1 entry.2) live).keyed.weigh
        (NodePools.limitAt server) =
      live.keyed.weigh (NodePools.limitAt server) := by
  induction limits generalizing live with
  | nil => rfl
  | cons head tail ih =>
    rw [foldl_cons, ih]
    · have elsewhere : head.1.server ≠ server := others head.1 (by simp)
      change (live.keyed.insert head.1 _).weigh _ = _
      rw [AList.weigh_insert, AList.weigh_split live.keyed _ head.1, limitAt_of_ne elsewhere]
      cases live.keyed.lookup head.1 with
      | none => rfl
      | some entry => rw [Option.elim_some, limitAt_of_ne elsewhere]
    · intro key listed
      exact others key (mem_cons_of_mem _ listed)

theorem weigh_foldl_setLimit_le (limits : List (PoolKey × Nat)) (live : LivePool)
    (server : ServerId) :
    (limits.foldl (fun live entry => live.setLimit entry.1 entry.2) live).keyed.weigh
        (NodePools.limitAt server) ≤
      (live.keyed.weigh fun key entry =>
        if key ∈ limits.map Prod.fst then 0 else NodePools.limitAt server key entry) +
      (limits.map Prod.snd).sum := by
  induction limits generalizing live with
  | nil => simp
  | cons head tail ih =>
    rcases head with ⟨key, limit⟩
    refine Nat.le_trans (ih (live.setLimit key limit)) ?_
    change (live.keyed.insert key
      { pool := (live.entry key).pool.setLimit limit
        connections := (live.entry key).connections }).weigh _ + _ ≤ _
    rw [AList.weigh_insert]
    simp only [map_cons, sum_cons]
    have bounded := Nat.le_trans (limitAt_le server key
      { pool := (live.entry key).pool.setLimit limit
        connections := (live.entry key).connections })
      (Pool.setLimit_limit_le (live.entry key).pool limit)
    have rest : ((live.keyed.erase key).weigh fun found entry =>
        if found ∈ tail.map Prod.fst then 0 else NodePools.limitAt server found entry) =
        live.keyed.weigh fun found entry =>
          if found ∈ key :: tail.map Prod.fst then 0
          else NodePools.limitAt server found entry := by
      apply AList.weigh_congr
      intro found
      rw [AList.lookup_erase_if]
      by_cases same : found = key
      · subst same
        cases live.keyed.lookup found <;> simp
      · rw [if_neg same]
        cases live.keyed.lookup found with
        | none => rfl
        | some entry => simp only [Option.elim_some, mem_cons, same, false_or]
    split <;> omega

namespace NodePools

theorem weigh_insert_of_limit_eq {live : LivePool} {key : PoolKey} {entry entry' : Keyed}
    (present : live.keyed.lookup key = some entry)
    (same : entry'.pool.limit = entry.pool.limit) (server : ServerId) :
    (live.keyed.insert key entry').weigh (limitAt server) ≤
      live.keyed.weigh (limitAt server) :=
  AList.weigh_insert_le present (Nat.le_of_eq (limitAt_congr same server key))

variable {node : NodePools}

/-- An operation on one pool that keeps its limit keeps the sums, or creates a pool
of configured size. -/
theorem limits_withPool_le {key : PoolKey} {change : Pool → Pool}
    (keeps : ∀ pool, (change pool).limit = pool.limit) (covered : node.Covered)
    (room : node.live.keyed.lookup key = none → node.RoomForPool key) (server : ServerId) :
    (node.live.withPool key change).keyed.weigh (limitAt server) ≤
      permitted (node.inForce server) := by
  unfold LivePool.withPool
  cases found : node.live.keyed.lookup key with
  | some entry =>
    have same : (change (node.live.entry key).pool).limit = entry.pool.limit := by
      rw [keeps]
      unfold LivePool.entry
      rw [found]
      rfl
    exact (weigh_insert_of_limit_eq found same server).trans (covered server)
  | none =>
    rw [AList.weigh_insert_of_absent _ _ found]
    have fits := room found
    have created : (change (node.live.entry key).pool).limit = node.live.config.maxSize := by
      rw [keeps]
      unfold LivePool.entry
      rw [found]
      rfl
    by_cases same : key.server = server
    · subst same
      unfold limitAt
      rw [if_pos rfl]
      rw [created]
      exact fits
    · rw [limitAt_of_ne same]
      exact covered server

theorem reapEntry_limit (config : ReapConfig) (now : Nat) (entry : Keyed) :
    (LivePool.reapEntry config now entry).pool.limit = entry.pool.limit := by
  rw [LivePool.reapEntry_pool, Pool.expireInUse_limit]
  exact Pool.closeAll_induction (fun pool => pool.limit = entry.pool.limit) rfl
    fun _ _ same => same

theorem limits_reapIdle_le (live : LivePool) (config : ReapConfig) (now : Nat)
    (server : ServerId) :
    (live.reapIdle config now).keyed.weigh (limitAt server) ≤
      live.keyed.weigh (limitAt server) := by
  apply AList.weigh_mono
  intro key
  unfold LivePool.reapIdle
  rw [AList.lookup_retain, AList.lookup_mapValues]
  cases live.keyed.lookup key with
  | none => exact le_rfl
  | some entry =>
    rw [Option.map_some]
    cases kept : (!(LivePool.reapEntry config now entry).isUnused) with
    | false => simp [Option.filter, kept]
    | true =>
      simp only [Option.filter, kept]
      exact Nat.le_of_eq (limitAt_congr (reapEntry_limit config now entry) server key)

theorem covered_step (event : NodeStep) (covered : node.Covered) (enabled : node.Enabled event)
    (settled : node.Settled event) : (node.step event).Covered := by
  intro server
  unfold limits
  cases event with
  | acquire key =>
    exact limits_withPool_le Pool.acquire_limit covered settled.1 server
  | beginWait key =>
    exact limits_withPool_le (fun _ => rfl) covered settled server
  | openFailed | endWait =>
    obtain ⟨entry, found, -⟩ := enabled
    apply limits_withPool_le (fun _ => rfl) covered _ server
    intro absent
    rw [absent] at found
    contradiction
  | opened key now =>
    obtain ⟨entry, found, -⟩ := enabled
    have known : node.live.entry key = entry := by
      unfold LivePool.entry
      rw [found]
      rfl
    refine Nat.le_trans (weigh_insert_of_limit_eq found ?_ server) (covered server)
    rw [known]
  | release key id outcome now =>
    change (node.live.release key id outcome now).keyed.weigh (limitAt server) ≤ _
    unfold LivePool.release
    split
    · exact covered server
    · rename_i entry found
      refine Nat.le_trans (weigh_insert_of_limit_eq found ?_ server) (covered server)
      exact Pool.release_limit entry.pool id outcome now
  | takeConnection key id =>
    change (node.live.takeConnection key id).keyed.weigh (limitAt server) ≤ _
    unfold LivePool.takeConnection
    split
    · exact covered server
    · rename_i entry found
      exact (weigh_insert_of_limit_eq found rfl server).trans (covered server)
  | returnConnection key id =>
    change (node.live.returnConnection key id).keyed.weigh (limitAt server) ≤ _
    unfold LivePool.returnConnection
    split
    · exact covered server
    · rename_i entry found
      exact (weigh_insert_of_limit_eq found rfl server).trans (covered server)
  | readPools => exact covered server
  | reapIdle config now =>
    exact (limits_reapIdle_le node.live config now server).trans (covered server)
  | applyQuota applied allowance =>
    unfold step
    dsimp only
    rw [Function.update_apply]
    by_cases same : server = applied
    · subst same
      rw [if_pos rfl]
      refine Nat.le_trans (weigh_foldl_setLimit_le _ _ _) ?_
      -- The pass has read every pool of the server, so nothing is left out.
      have nothing : (node.live.keyed.weigh fun key entry =>
          if key ∈ (limitsFor node.reading server allowance).map Prod.fst then 0
          else limitAt server key entry) = 0 := by
        rw [AList.weigh_eq_sum_keys]
        apply Finset.sum_eq_zero
        intro key _
        cases found : node.live.keyed.lookup key with
        | none => rfl
        | some entry =>
          rw [Option.elim_some, keys_limitsFor]
          by_cases mine : key.server = server
          · exact if_pos (mem_keys_poolsFor.mpr ⟨mine, settled key entry found mine⟩)
          · rw [limitAt_of_ne mine]
            exact ite_self 0
      rw [nothing, Nat.zero_add]
      exact sum_limitsFor_le _ _ _
    · rw [if_neg same, weigh_foldl_setLimit_of_ne]
      · exact covered server
      · intro key listed
        rw [keys_limitsFor, mem_keys_poolsFor] at listed
        rw [listed.1]
        exact Ne.symm same

theorem covered_of_reachable {config : PoolConfig} {inForce : ServerId → Option (Nat × Nat)}
    (reachable : Run.Reachable (NodePools.start config inForce)
      (fun node event => node.Enabled event ∧ node.Settled event) NodePools.step node) :
    node.Covered := by
  apply reachable.invariant
  · intro server
    exact Nat.zero_le _
  · intro before event covered allowed
    exact covered_step event covered allowed.1 allowed.2

/-! ### Opening a connection -/

theorem openConnections_acquire_le {key : PoolKey}
    (answered : (node.live.acquire key).2 = .openNew) (within : node.WithinLimits key.server) :
    (node.step (.acquire key)).openConnections key.server ≤
      (node.step (.acquire key)).limits key.server := by
  obtain ⟨-, below, opens⟩ := Pool.acquire_openNew answered
  have fits := Pool.size_lt_limit below
  apply AList.weigh_mono
  intro found
  change ((node.live.keyed.insert key _).lookup found).elim 0 _ ≤ _
  change _ ≤ ((node.live.keyed.insert key _).lookup found).elim 0 _
  rw [AList.lookup_insert_if]
  by_cases same : found = key
  · subst same
    rw [if_pos rfl, Option.elim_some, Option.elim_some]
    unfold sizeAt limitAt
    rw [if_pos rfl, if_pos rfl]
    change (Pool.acquire _).1.size ≤ (Pool.acquire _).1.limit
    rw [opens]
    unfold Pool.size at fits ⊢
    dsimp only
    omega
  · rw [if_neg same]
    cases present : node.live.keyed.lookup found with
    | none => exact le_rfl
    | some entry =>
      unfold sizeAt limitAt
      split
      · rename_i mine
        exact within found entry present mine
      · exact le_rfl

end NodePools

def otherKey : PoolKey where
  server := ⟨"db-1:5432"⟩
  database := "tenant_other"
  user := "other_app"

def oneAllowed : NodePools :=
  (((NodePools.start PoolConfig.default fun _ => some (1, 0)).step (.acquire acmeKey)).step
    .readPools).step (.applyQuota acmeKey.server (some (1, 0)))

theorem oneAllowed_reachable :
    Run.Reachable (NodePools.start PoolConfig.default fun _ => some (1, 0)) NodePools.Enabled
      NodePools.step oneAllowed := by
  refine .step (.step (.step .start ?_) ?_) ?_
  · exact trivial
  · exact trivial
  · exact ⟨(acmeKey, { active := 0, idle := 0, waiting := 0, limit := 20 }), by decide, rfl⟩

end Pgprox.Pools
