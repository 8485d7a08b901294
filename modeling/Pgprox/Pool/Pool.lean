/-
One pool: the connections to one server as one database and role.

Permission to open a connection reserves a slot before the caller connects.  The limit is
set from outside and may fall below what the pool holds.
-/

import Pgprox.Core.Basic
import Pgprox.Library.FiniteMap

namespace Pgprox.Pools

structure PoolConfig where
  maxSize : Nat
  maxSize_le : maxSize ≤ u32Max

def PoolConfig.default : PoolConfig where
  maxSize := 20
  maxSize_le := by decide

structure UpstreamId where
  value : Nat
  deriving DecidableEq

inductive ReleaseOutcome where
  | discard
  | reusable
  deriving DecidableEq

structure Connection where
  id : UpstreamId
  idleSince : Option Nat
  openedAt : Nat
  expired : Bool
  deriving DecidableEq

inductive Acquired where
  | reused (id : UpstreamId)
  | openNew
  | wait
  deriving DecidableEq

structure PoolStats where
  active : Nat
  idle : Nat
  waiting : Nat
  limit : Nat
  deriving DecidableEq

structure Pool where
  config : PoolConfig
  key : PoolKey
  idle : List Connection
  checkedOut : FiniteMap UpstreamId Connection
  opening : Nat
  waiting : Nat
  limit : Nat
  nextId : Nat
  limit_le : limit ≤ config.maxSize

namespace Pool

def new (key : PoolKey) (config : PoolConfig) : Pool where
  config := config
  key := key
  idle := []
  checkedOut := ∅
  opening := 0
  waiting := 0
  limit := config.maxSize
  nextId := 1
  limit_le := le_rfl

def setLimit (pool : Pool) (limit : Nat) : Pool :=
  { pool with
    limit := min limit pool.config.maxSize
    limit_le := Nat.min_le_right _ _ }

def total (pool : Pool) : Nat :=
  saturatingAdd
    (saturatingAdd (clampU32 pool.idle.length) (clampU32 pool.checkedOut.entries.length))
    pool.opening

def retained (pool : Pool) : Nat :=
  saturatingAdd (clampU32 pool.idle.length) pool.opening

def stats (pool : Pool) : PoolStats where
  active := clampU32 pool.checkedOut.entries.length
  idle := clampU32 pool.idle.length
  waiting := pool.waiting
  limit := pool.limit

def acquire (pool : Pool) : Pool × Acquired :=
  match pool.idle.getLast? with
  | some connection =>
    ({ pool with
        idle := pool.idle.dropLast
        checkedOut := pool.checkedOut.insert connection.id
          { connection with idleSince := none } },
      .reused connection.id)
  | none =>
    if pool.total < pool.limit then ({ pool with opening := pool.opening + 1 }, .openNew)
    else (pool, .wait)

def opened (pool : Pool) (now : Nat) : Pool × UpstreamId :=
  let id : UpstreamId := ⟨pool.nextId⟩
  ({ pool with
      opening := pool.opening - 1
      nextId := pool.nextId + 1
      checkedOut := pool.checkedOut.insert id
        { id := id, idleSince := none, openedAt := now, expired := false } },
    id)

def openFailed (pool : Pool) : Pool :=
  { pool with opening := pool.opening - 1 }

def release (pool : Pool) (id : UpstreamId) (outcome : ReleaseOutcome) (now : Nat) :
    Pool × Bool :=
  match pool.checkedOut.lookup id with
  | none => (pool, false)
  | some connection =>
    let pool := { pool with checkedOut := pool.checkedOut.erase id }
    if outcome = .reusable ∧ pool.retained < pool.limit ∧ connection.expired = false then
      ({ pool with idle := pool.idle ++ [{ connection with idleSince := some now }] }, true)
    else (pool, false)

def isExpired (openedAt maxLifetime now : Nat) : Bool :=
  maxLifetime != 0 && decide (maxLifetime ≤ saturatingDurationSince now openedAt)

def expireInUse (pool : Pool) (maxLifetime now : Nat) : Pool :=
  if maxLifetime = 0 then pool
  else
    { pool with
      checkedOut := pool.checkedOut.mapValues fun _ connection =>
        if connection.expired = false ∧ isExpired connection.openedAt maxLifetime now = true then
          { connection with expired := true }
        else connection }

def beginWait (pool : Pool) : Pool :=
  { pool with waiting := saturatingAdd pool.waiting 1 }

def endWait (pool : Pool) : Pool :=
  { pool with waiting := pool.waiting - 1 }

def isUnused (pool : Pool) : Bool :=
  pool.total == 0 && pool.waiting == 0

def closeIdle (pool : Pool) (id : UpstreamId) : Pool × Bool :=
  let idle := pool.idle.filter fun connection => connection.id != id
  ({ pool with idle := idle }, idle.length != pool.idle.length)

def closeAll (pool : Pool) (ids : List UpstreamId) : Pool :=
  ids.foldl (fun pool id => (pool.closeIdle id).1) pool

theorem closeAll_induction {pool : Pool} (P : Pool → Prop) (holds : P pool)
    (step : ∀ pool id, P pool → P (pool.closeIdle id).1) {ids : List UpstreamId} :
    P (pool.closeAll ids) :=
  List.foldlRecOn ids _ holds fun pool kept id _ => step pool id kept

end Pool

/-! ### Reaping -/

structure ReapConfig where
  idleTimeout : Nat
  keepWarm : Nat
  maxLifetime : Nat
  deriving DecidableEq

def reap (pool : Pool) (config : ReapConfig) (now : Nat) : List UpstreamId :=
  let idle := (pool.idle.filterMap fun connection =>
    connection.idleSince.map fun since => (since, connection.openedAt, connection.id)).insertionSort
      fun a b => a.1 < b.1 ∨ a.1 = b.1 ∧ a.2.2.value ≤ b.2.2.value
  let candidates := idle.length - config.keepWarm
  (idle.zipIdx.filter fun entry =>
    (decide (entry.2 < candidates) &&
      decide (config.idleTimeout ≤ saturatingDurationSince now entry.1.1)) ||
      Pool.isExpired entry.1.2.1 config.maxLifetime now).map fun entry => entry.1.2.2

/-! ### How many connections a pool stands for -/

namespace Pool

def size (pool : Pool) : Nat :=
  pool.idle.length + pool.checkedOut.entries.length + pool.opening

theorem total_eq_size_of_lt {pool : Pool} (below : pool.total < u32Max) :
    pool.total = pool.size := by
  unfold total size saturatingAdd clampU32 at *
  omega

theorem acquire_openNew {pool : Pool} (answered : pool.acquire.2 = .openNew) :
    pool.idle = [] ∧ pool.total < pool.limit ∧
      pool.acquire.1 = { pool with opening := pool.opening + 1 } := by
  unfold acquire at answered ⊢
  split at answered
  · simp at answered
  · rename_i empty
    split at answered
    · rename_i below
      rw [if_pos below]
      exact ⟨List.getLast?_eq_none_iff.mp empty, below, rfl⟩
    · simp at answered

theorem size_lt_limit {pool : Pool} (below : pool.total < pool.limit) :
    pool.size < pool.limit := by
  have bounded : pool.total < u32Max :=
    Nat.lt_of_lt_of_le below (Nat.le_trans pool.limit_le pool.config.maxSize_le)
  rwa [total_eq_size_of_lt bounded] at below

variable (pool : Pool)

@[simp] theorem acquire_limit : pool.acquire.1.limit = pool.limit := by
  unfold acquire
  split
  · rfl
  · split <;> rfl

@[simp] theorem release_limit (id : UpstreamId) (outcome : ReleaseOutcome) (now : Nat) :
    (pool.release id outcome now).1.limit = pool.limit := by
  unfold release
  split
  · rfl
  · dsimp only
    split <;> rfl

@[simp] theorem expireInUse_limit (maxLifetime now : Nat) :
    (pool.expireInUse maxLifetime now).limit = pool.limit := by
  unfold expireInUse
  split <;> rfl

theorem keys_insert_length_le (lent : FiniteMap UpstreamId Connection) (id : UpstreamId)
    (connection : Connection) : (lent.insert id connection).keys.length ≤ lent.keys.length + 1 := by
  rw [AList.keys_insert]
  exact Nat.succ_le_succ List.length_erase_le

theorem keys_perm_of_lookup {lent : FiniteMap UpstreamId Connection} {id : UpstreamId}
    {connection : Connection} (found : lent.lookup id = some connection) :
    lent.keys.Perm (id :: (lent.erase id).keys) := by
  rw [AList.keys_erase]
  apply List.perm_cons_erase
  rw [← AList.mem_keys, ← AList.lookup_isSome, found]
  rfl

theorem setLimit_limit_le (limit : Nat) : (pool.setLimit limit).limit ≤ limit :=
  Nat.min_le_left _ _

end Pool

end Pgprox.Pools
