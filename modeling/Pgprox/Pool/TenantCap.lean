/-
What a tenant's cap on upstream connections comes to.

The cap a grant carries is handed to the registry of clients, where only the decision to
move a client to another node reads it.  Pools are made and limited without it.
-/

import Pgprox.Pool.Admission

namespace Pgprox.Pools

open List

/-! ### How a step changes the size of a pool -/

namespace Pool

theorem length_keys (held : FiniteMap UpstreamId Connection) :
    held.keys.length = held.entries.length :=
  length_map _

/-- A pool keeps its configuration, and holds no more than before, or one more than before
and that within its limit. -/
inductive Grows (before after : Pool) : Prop
  | stays (config : after.config = before.config) (fewer : after.size ≤ before.size)
  | opens (config : after.config = before.config) (one : after.size = before.size + 1)
      (below : before.size < before.limit)

variable (pool : Pool)

theorem acquire_grows : pool.Grows pool.acquire.1 := by
  unfold acquire
  split
  · rename_i connection last
    have some : pool.idle ≠ [] := fun empty => by
      rw [empty] at last
      cases last
    have positive : 0 < pool.idle.length := length_pos_iff.mpr some
    have lent := keys_insert_length_le pool.checkedOut connection.id
      { connection with idleSince := none }
    rw [length_keys, length_keys] at lent
    refine .stays rfl ?_
    unfold size
    dsimp only
    rw [length_dropLast]
    omega
  · split
    · rename_i below
      exact .opens rfl rfl (size_lt_limit below)
    · exact .stays rfl le_rfl

theorem opened_grows {pool : Pool} (reserved : 0 < pool.opening) (now : Nat) :
    pool.Grows (pool.opened now).1 := by
  have lent := keys_insert_length_le pool.checkedOut ⟨pool.nextId⟩
    { id := ⟨pool.nextId⟩, idleSince := none, openedAt := now, expired := false }
  rw [length_keys, length_keys] at lent
  refine .stays rfl ?_
  unfold opened size
  dsimp only
  omega

theorem openFailed_grows : pool.Grows pool.openFailed := by
  refine .stays rfl ?_
  unfold openFailed size
  dsimp only
  omega

theorem release_grows (id : UpstreamId) (outcome : ReleaseOutcome) (now : Nat) :
    pool.Grows (pool.release id outcome now).1 := by
  unfold release
  split
  · exact .stays rfl le_rfl
  · rename_i connection found
    have fewer := (keys_perm_of_lookup found).length_eq
    rw [length_cons, length_keys, length_keys] at fewer
    dsimp only
    split
    · refine .stays rfl ?_
      unfold size
      dsimp only
      rw [length_append, length_singleton]
      omega
    · refine .stays rfl ?_
      unfold size
      dsimp only
      omega

theorem closeIdle_size_le (id : UpstreamId) : (pool.closeIdle id).1.size ≤ pool.size := by
  have fewer := length_filter_le (fun connection : Connection => connection.id != id) pool.idle
  unfold closeIdle size
  dsimp only
  omega

theorem expireInUse_config (maxLifetime now : Nat) :
    (pool.expireInUse maxLifetime now).config = pool.config := by
  unfold expireInUse
  split
  · rfl
  · rfl

theorem expireInUse_size (maxLifetime now : Nat) :
    (pool.expireInUse maxLifetime now).size = pool.size := by
  unfold expireInUse
  split
  · rfl
  · unfold size AList.mapValues
    rw [length_map]

end Pool

theorem LivePool.reapEntry_grows (config : ReapConfig) (now : Nat) (entry : Keyed) :
    entry.pool.Grows (reapEntry config now entry).pool := by
  rw [reapEntry_pool]
  obtain ⟨same, fewer⟩ : (Pool.closeAll entry.pool (reap entry.pool config now)).config =
      entry.pool.config ∧
      (Pool.closeAll entry.pool (reap entry.pool config now)).size ≤ entry.pool.size := by
    refine Pool.closeAll_induction (fun pool => pool.config = entry.pool.config ∧
      pool.size ≤ entry.pool.size) ⟨rfl, le_rfl⟩ fun pool id kept => ?_
    exact ⟨kept.1, Nat.le_trans (pool.closeIdle_size_le id) kept.2⟩
  refine .stays ((Pool.expireInUse_config _ _ _).trans same) ?_
  rw [Pool.expireInUse_size]
  exact fewer

/-! ### Every pool within its configured size -/

namespace LivePool

variable {live : LivePool} {key : PoolKey}

structure Bounded (live : LivePool) : Prop where
  config : ∀ key, (live.entry key).pool.config = live.config
  size : ∀ key, (live.entry key).pool.size ≤ live.config.maxSize

theorem Bounded.new (config : PoolConfig) : (LivePool.new config).Bounded where
  config _ := rfl
  size _ := Nat.zero_le _

section

variable (bounded : live.Bounded)
include bounded

theorem Bounded.grown {pool : Pool} (grows : (live.entry key).pool.Grows pool) :
    pool.config = live.config ∧ pool.size ≤ live.config.maxSize := by
  have before := bounded.size key
  have limited := (live.entry key).pool.limit_le
  rw [bounded.config key] at limited
  rcases grows with ⟨same, fewer⟩ | ⟨same, one, below⟩
  · exact ⟨same.trans (bounded.config key), by omega⟩
  · exact ⟨same.trans (bounded.config key), by omega⟩

theorem Bounded.insert {keyed : Keyed} (grows : (live.entry key).pool.Grows keyed.pool) :
    ({ live with keyed := live.keyed.insert key keyed } : LivePool).Bounded where
  config other := by
    rw [entry_insert]
    split
    · exact (bounded.grown grows).1
    · exact bounded.config other
  size other := by
    rw [entry_insert]
    split
    · exact (bounded.grown grows).2
    · exact bounded.size other

theorem Bounded.withPool {change : Pool → Pool}
    (grows : ∀ pool : Pool, pool.Grows (change pool)) : (live.withPool key change).Bounded :=
  bounded.insert (grows _)

theorem Bounded.setLimits (limits : List (PoolKey × Nat)) :
    (limits.foldl (fun live entry => live.setLimit entry.1 entry.2) live).Bounded := by
  refine List.foldlRecOn (motive := LivePool.Bounded) _ _ bounded ?_
  intro live bounded entry _
  exact bounded.withPool fun _ => .stays rfl le_rfl

theorem Bounded.release (key : PoolKey) (id : UpstreamId)
    (outcome : ReleaseOutcome) (now : Nat) : (live.release key id outcome now).Bounded := by
  unfold LivePool.release
  split
  · exact bounded
  · rename_i keyed found
    have same := entry_of_lookup found
    have grows : (live.entry key).pool.Grows (keyed.pool.release id outcome now).1 :=
      same ▸ keyed.pool.release_grows id outcome now
    exact bounded.insert grows

theorem Bounded.connections {keyed : Keyed}
    (found : live.keyed.lookup key = some keyed) (connections : Finset UpstreamId) :
    ({ live with
        keyed := live.keyed.insert key { keyed with connections := connections } } :
      LivePool).Bounded := by
  have same := entry_of_lookup found
  exact bounded.insert (same ▸ .stays rfl le_rfl)

theorem Bounded.reapIdle (config : ReapConfig) (now : Nat) :
    (live.reapIdle config now).Bounded := by
  have pools (key : PoolKey) :
      ((live.reapIdle config now).entry key).pool.config = live.config ∧
        ((live.reapIdle config now).entry key).pool.size ≤ live.config.maxSize := by
    unfold LivePool.reapIdle LivePool.entry
    rw [AList.lookup_retain, AList.lookup_mapValues]
    cases found : live.keyed.lookup key with
    | none => exact ⟨rfl, Nat.zero_le _⟩
    | some keyed =>
      have same := entry_of_lookup found
      rw [Option.map_some]
      cases kept : (!(reapEntry config now keyed).isUnused) with
      | false =>
        -- a forgotten pool reads as a new one
        simp only [Option.filter, kept]
        exact ⟨rfl, Nat.zero_le _⟩
      | true =>
        simp only [Option.filter, kept]
        have grows : (live.entry key).pool.Grows (reapEntry config now keyed).pool :=
          same ▸ reapEntry_grows config now keyed
        exact bounded.grown grows
  exact ⟨fun key => (pools key).1, fun key => (pools key).2⟩

end

end LivePool

theorem NodePools.bounded_step {node : NodePools} {event : NodeStep} (bounded : node.live.Bounded)
    (enabled : node.Enabled event) : (node.step event).live.Bounded := by
  cases event with
  | acquire key => exact bounded.withPool Pool.acquire_grows
  | opened key now =>
    obtain ⟨keyed, found, reserved⟩ := enabled
    rw [← LivePool.entry_of_lookup found] at reserved
    exact bounded.insert (Pool.opened_grows reserved now)
  | openFailed key => exact bounded.withPool Pool.openFailed_grows
  | beginWait | endWait => exact bounded.withPool fun _ => .stays rfl le_rfl
  | release key id outcome now => exact bounded.release key id outcome now
  | takeConnection key id =>
    change (node.live.takeConnection key id).Bounded
    unfold LivePool.takeConnection
    split
    · exact bounded
    · rename_i keyed found
      exact bounded.connections found _
  | returnConnection key id =>
    change (node.live.returnConnection key id).Bounded
    unfold LivePool.returnConnection
    split
    · exact bounded
    · rename_i keyed found
      exact bounded.connections found _
  | readPools => exact bounded
  | applyQuota server allowance => exact bounded.setLimits _
  | reapIdle config now => exact bounded.reapIdle config now

theorem NodePools.step_config (node : NodePools) (event : NodeStep) :
    (node.step event).live.config = node.live.config := by
  cases event with
  | release key id outcome now =>
    change (node.live.release key id outcome now).config = _
    unfold LivePool.release
    split
    · rfl
    · rfl
  | takeConnection key id =>
    change (node.live.takeConnection key id).config = _
    unfold LivePool.takeConnection
    split
    · rfl
    · rfl
  | returnConnection key id =>
    change (node.live.returnConnection key id).config = _
    unfold LivePool.returnConnection
    split
    · rfl
    · rfl
  | applyQuota server allowance =>
    refine List.foldlRecOn (motive := fun live : LivePool => live.config = node.live.config) _ _
      rfl ?_
    intro live same entry _
    exact same
  | _ => rfl

/-! ### Clients of tenants -/

structure PoolHints where
  maxUpstream : Option Nat
  deriving DecidableEq

structure Registered where
  tenant : TenantId
  budget : Nat
  holds : Option PoolKey
  deriving DecidableEq

structure TenantPools where
  pools : NodePools
  sessions : FiniteMap Nat Registered

inductive TenantStep
  | connect (conn : Nat) (tenant : TenantId) (hints : PoolHints)
  | leave (conn : Nat)
  | acquire (conn : Nat) (key : PoolKey)
  | openFailed (conn : Nat) (key : PoolKey)
  | release (conn : Nat) (key : PoolKey) (id : UpstreamId) (outcome : ReleaseOutcome) (now : Nat)
  | pools (event : NodeStep)

def NodeStep.ofClient : NodeStep → Bool
  | .acquire _ | .openFailed _ | .release .. => true
  | _ => false

namespace TenantPools

def start (config : PoolConfig) (inForce : ServerId → Option (Nat × Nat)) : TenantPools where
  pools := .start config inForce
  sessions := ∅

def setHolds (served : TenantPools) (conn : Nat) (holds : Option PoolKey) :
    FiniteMap Nat Registered :=
  match served.sessions.lookup conn with
  | none => served.sessions
  | some client => served.sessions.insert conn { client with holds := holds }

def step (served : TenantPools) : TenantStep → TenantPools
  | .connect conn tenant hints =>
    { served with
      sessions := served.sessions.insert conn
        { tenant := tenant, budget := hints.maxUpstream.getD 0, holds := none } }
  | .leave conn => { served with sessions := served.sessions.erase conn }
  | .acquire conn key =>
    { pools := served.pools.step (.acquire key)
      sessions :=
        if (served.pools.live.acquire key).2 = .wait then served.sessions
        else served.setHolds conn (some key) }
  | .openFailed conn key =>
    { pools := served.pools.step (.openFailed key)
      sessions := served.setHolds conn none }
  | .release conn key id outcome now =>
    { pools := served.pools.step (.release key id outcome now)
      sessions := served.setHolds conn none }
  | .pools event => { served with pools := served.pools.step event }

def budgetFor (served : TenantPools) (tenant : TenantId) : Nat :=
  ((served.sessions.entries.map Sigma.snd).filter fun client => client.tenant = tenant).foldl
    (fun most client => max most client.budget) 0

def openFor (served : TenantPools) (keys : Finset PoolKey) : Nat :=
  ∑ key ∈ keys, (served.pools.live.entry key).pool.size

/-- Every grant of the tenant sets the cap, its clients use the given pools and no other
client does.  A client holds one connection at a time. -/
def Allowed (tenant : TenantId) (cap : Nat) (keys : Finset PoolKey) (served : TenantPools) :
    TenantStep → Prop
  | .connect conn who hints =>
    served.sessions.lookup conn = none ∧ (who = tenant → hints.maxUpstream = some cap)
  | .leave conn => ∃ client, served.sessions.lookup conn = some client ∧ client.holds = none
  | .acquire conn key => ∃ client, served.sessions.lookup conn = some client ∧
      client.holds = none ∧ (client.tenant = tenant ↔ key ∈ keys)
  | .openFailed conn key => (∃ client, served.sessions.lookup conn = some client ∧
      client.holds = some key) ∧ served.pools.Enabled (.openFailed key)
  | .release conn key _ _ _ => ∃ client, served.sessions.lookup conn = some client ∧
      client.holds = some key
  | .pools event => event.ofClient = false ∧ served.pools.Enabled event

abbrev Reached (config : PoolConfig) (inForce : ServerId → Option (Nat × Nat))
    (tenant : TenantId) (cap : Nat) (keys : Finset PoolKey) : TenantPools → Prop :=
  Run.Reachable (start config inForce) (Allowed tenant cap keys) step

variable {config : PoolConfig} {inForce : ServerId → Option (Nat × Nat)} {tenant : TenantId}
  {cap : Nat} {keys : Finset PoolKey} {served : TenantPools}

/-! ### At most the configured size for each pool -/

theorem bounded_of_reached (reached : Reached config inForce tenant cap keys served) :
    served.pools.live.Bounded ∧ served.pools.live.config = config := by
  refine reached.invariant (P := fun served =>
    served.pools.live.Bounded ∧ served.pools.live.config = config) ⟨.new config, rfl⟩ ?_
  intro before event ⟨bounded, same⟩ allowed
  cases event with
  | connect | leave => exact ⟨bounded, same⟩
  | acquire conn key =>
    exact ⟨NodePools.bounded_step bounded trivial, (NodePools.step_config _ (.acquire key)).trans
      same⟩
  | openFailed conn key =>
    exact ⟨NodePools.bounded_step bounded allowed.2,
      (NodePools.step_config _ (.openFailed key)).trans same⟩
  | release conn key id outcome now =>
    exact ⟨NodePools.bounded_step bounded trivial,
      (NodePools.step_config _ (.release key id outcome now)).trans same⟩
  | pools event =>
    exact ⟨NodePools.bounded_step bounded allowed.2, (NodePools.step_config _ event).trans same⟩

theorem openFor_le (reached : Reached config inForce tenant cap keys served) :
    served.openFor keys ≤ keys.card * config.maxSize := by
  obtain ⟨bounded, same⟩ := bounded_of_reached reached
  refine Finset.sum_le_card_nsmul _ _ _ fun key _ => ?_
  exact same ▸ bounded.size key

/-! ### And no less -/

def crowd (config : PoolConfig) (inForce : ServerId → Option (Nat × Nat)) (tenant : TenantId)
    (cap : Nat) : List PoolKey → TenantPools
  | [] => start config inForce
  | key :: earlier =>
    ((crowd config inForce tenant cap earlier).step
      (.connect earlier.length tenant ⟨some cap⟩)).step (.acquire earlier.length key)

def opening (config : PoolConfig) (key : PoolKey) (count : Nat) : Pool :=
  { Pool.new key config with opening := count }

theorem acquire_opening {key : PoolKey} {count : Nat} (room : count < config.maxSize) :
    (opening config key count).acquire = (opening config key (count + 1), .openNew) := by
  have below : (opening config key count).total < (opening config key count).limit := by
    change saturatingAdd (saturatingAdd (clampU32 0) (clampU32 0)) count < config.maxSize
    unfold saturatingAdd clampU32
    omega
  unfold Pool.acquire
  rw [if_pos below]
  rfl

structure Crowded (config : PoolConfig) (wanted : List PoolKey) (served : TenantPools) : Prop where
  configured : served.pools.live.config = config
  pools : ∀ key, (served.pools.live.entry key).pool = opening config key (wanted.count key)
  fresh : ∀ conn, wanted.length ≤ conn → served.sessions.lookup conn = none

theorem Crowded.one_more {key : PoolKey} {earlier : List PoolKey}
    (crowded : Crowded config earlier served) (room : earlier.count key < config.maxSize) :
    Crowded config (key :: earlier)
      ((served.step (.connect earlier.length tenant ⟨some cap⟩)).step
        (.acquire earlier.length key)) where
  configured := crowded.configured
  pools other := by
    change ((served.pools.live.withPool key fun pool => pool.acquire.1).entry other).pool = _
    unfold LivePool.withPool
    rw [LivePool.entry_insert]
    by_cases same : other = key
    · subst same
      rw [if_pos rfl, count_cons_self]
      dsimp only
      rw [crowded.pools other, acquire_opening room]
    · rw [if_neg same, count_cons_of_ne (Ne.symm same)]
      exact crowded.pools other
  fresh conn later := by
    rw [length_cons] at later
    have before := crowded.fresh conn (by omega)
    have other : conn ≠ earlier.length := by omega
    have connected : (served.step (.connect earlier.length tenant ⟨some cap⟩)).sessions.lookup
        conn = none := by
      change (served.sessions.insert earlier.length _).lookup conn = none
      rw [AList.lookup_insert_ne other]
      exact before
    unfold step setHolds
    dsimp only
    split
    · exact connected
    · split
      · exact connected
      · rw [AList.lookup_insert_ne other]
        exact connected

theorem crowd_reached (wanted : List PoolKey) (mine : ∀ key ∈ wanted, key ∈ keys)
    (room : ∀ key, wanted.count key ≤ config.maxSize) :
    Reached config inForce tenant cap keys (crowd config inForce tenant cap wanted) ∧
      Crowded config wanted (crowd config inForce tenant cap wanted) := by
  induction wanted with
  | nil => exact ⟨.start, rfl, fun _ => rfl, fun _ _ => rfl⟩
  | cons key earlier ih =>
    obtain ⟨reached, crowded⟩ := ih
      (fun other among => mine other (mem_cons_of_mem _ among))
      fun other => Nat.le_trans count_le_count_cons (room other)
    have one := room key
    rw [count_cons_self] at one
    refine ⟨.step (.step reached ?_) ?_, crowded.one_more one⟩
    · exact ⟨crowded.fresh _ le_rfl, fun _ => rfl⟩
    · refine ⟨_, AList.lookup_insert _, rfl, ?_⟩
      exact iff_of_true rfl (mine key mem_cons_self)

def allOf (config : PoolConfig) (listed : List PoolKey) : List PoolKey :=
  listed.flatMap fun key => List.replicate config.maxSize key

theorem count_allOf (config : PoolConfig) {listed : List PoolKey} (nodup : listed.Nodup)
    (key : PoolKey) :
    (allOf config listed).count key = if key ∈ listed then config.maxSize else 0 := by
  induction listed with
  | nil => rfl
  | cons first later ih =>
    obtain ⟨absent, rest⟩ := nodup_cons.mp nodup
    have split : allOf config (first :: later) =
        List.replicate config.maxSize first ++ allOf config later := flatMap_cons
    rw [split, count_append, ih rest, count_replicate]
    by_cases same : first = key
    · subst same
      simp [absent]
    · simp [same, Ne.symm same]

/-- The tenant's connections stay within its cap in every run exactly when the cap is no less
than the configured size of a pool times the number of its pools: nothing else holds them. -/
theorem tenant_cap_iff_pools_fit (config : PoolConfig)
    (inForce : ServerId → Option (Nat × Nat)) (tenant : TenantId) (cap : Nat)
    (keys : Finset PoolKey) :
    (∀ served, Reached config inForce tenant cap keys served → served.openFor keys ≤ cap) ↔
      keys.card * config.maxSize ≤ cap := by
  constructor
  · intro always
    have counts := count_allOf config keys.nodup_toList
    have mine : ∀ key ∈ allOf config keys.toList, key ∈ keys := by
      intro key among
      obtain ⟨listed, wants, copies⟩ := mem_flatMap.mp among
      rw [eq_of_mem_replicate copies]
      exact Finset.mem_toList.mp wants
    have room : ∀ key, (allOf config keys.toList).count key ≤ config.maxSize := by
      intro key
      rw [counts]
      split
      · exact le_rfl
      · exact Nat.zero_le _
    obtain ⟨reached, crowded⟩ := @crowd_reached config inForce tenant cap keys _ mine room
    have full : (crowd config inForce tenant cap (allOf config keys.toList)).openFor keys =
        keys.card * config.maxSize := by
      refine Finset.sum_const_nat fun key listed => ?_
      rw [crowded.pools key, counts, if_pos (Finset.mem_toList.mpr listed)]
      exact Nat.zero_add _
    exact full ▸ always _ reached
  · exact fun fits served reached => Nat.le_trans (openFor_le reached) fits

def acme : TenantId where
  name := "acme"

def twoClients : List TenantStep :=
  [.connect 0 acme ⟨some 1⟩, .connect 1 acme ⟨some 1⟩, .acquire 0 acmeKey, .acquire 1 acmeKey]

/-- Two connections are being opened for a tenant that may have one, which the registry
knows. -/
theorem tenant_exceeds_cap :
    Reached .default (fun _ => none) acme 1 {acmeKey}
        (twoClients.foldl step (start .default fun _ => none)) ∧
      (twoClients.foldl step (start .default fun _ => none)).budgetFor acme = 1 ∧
      (twoClients.foldl step (start .default fun _ => none)).openFor {acmeKey} = 2 := by
  refine ⟨Run.Reachable.foldl .start ⟨?_, ?_, ?_, ?_, trivial⟩, by decide, by decide⟩
  · exact ⟨rfl, fun _ => rfl⟩
  · exact ⟨rfl, fun _ => rfl⟩
  · exact ⟨⟨acme, 1, none⟩, rfl, rfl, by decide⟩
  · exact ⟨⟨acme, 1, none⟩, rfl, rfl, by decide⟩

end TenantPools

end Pgprox.Pools
