/-
Who holds which connection.

An acquire is a task that may vanish wherever it waits: while it is parked, or while it
connects.  A guard gives its connection back when it is dropped.  A pool with nothing in it
is forgotten, and the next one of its key numbers its connections from one again.
-/

import Pgprox.Pool.Live

namespace Pgprox.Pools

open List

/-! ### One pool and what is out of it -/

namespace Keyed

def idleIds (keyed : Keyed) : List UpstreamId :=
  keyed.pool.idle.map Connection.id

def lentIds (keyed : Keyed) : List UpstreamId :=
  keyed.pool.checkedOut.keys

def ids (keyed : Keyed) : List UpstreamId :=
  keyed.idleIds ++ keyed.lentIds

/-- The pool is as the guards, the acquires that connect or are parked, and the sockets
that were taken out say. -/
structure Holds (keyed : Keyed) (guards : List UpstreamId) (dialing parked : Nat)
    (out : Finset UpstreamId) : Prop where
  distinct : keyed.ids.Nodup
  lent : keyed.lentIds.Perm guards
  named : ∀ id connection, keyed.pool.checkedOut.lookup id = some connection → connection.id = id
  issued : ∀ id ∈ keyed.ids, id.value < keyed.pool.nextId
  payloads : ∀ id, id ∈ keyed.connections ↔ id ∈ keyed.ids ∧ id ∉ out
  taken : ∀ id ∈ out, id.value < keyed.pool.nextId
  opening : keyed.pool.opening = dialing
  waiting : keyed.pool.waiting ≤ parked

variable {keyed : Keyed} {guards : List UpstreamId} {dialing parked : Nat}
  {out : Finset UpstreamId} {id : UpstreamId}

theorem holds_new (key : PoolKey) (config : PoolConfig) (parked : Nat) :
    Holds { pool := Pool.new key config, connections := ∅ } [] 0 parked ∅ where
  distinct := nodup_nil
  lent := List.Perm.refl _
  named _ _ found := nomatch found
  issued _ among := nomatch among
  payloads id := by
    constructor
    · exact fun stored => absurd stored (Finset.notMem_empty id)
    · exact fun present => nomatch present.1
  taken id among := absurd among (Finset.notMem_empty id)
  opening := rfl
  waiting := Nat.zero_le _

namespace Holds

variable {others : List UpstreamId}

section

variable (holds : keyed.Holds guards dialing parked out)
include holds

theorem perm (same : guards.Perm others) :
    keyed.Holds others dialing parked out :=
  { holds with lent := holds.lent.trans same }

theorem counts (pool : Pool)
    (idle : pool.idle = keyed.pool.idle) (lent : pool.checkedOut = keyed.pool.checkedOut)
    (next : pool.nextId = keyed.pool.nextId) :
    ({ keyed with pool := pool } : Keyed).Holds guards pool.opening pool.waiting out := by
  have ids : ({ keyed with pool := pool } : Keyed).ids = keyed.ids := by
    unfold ids idleIds lentIds
    rw [idle, lent]
  constructor
  · rw [ids]
    exact holds.distinct
  · unfold lentIds
    rw [lent]
    exact holds.lent
  · rw [lent]
    exact holds.named
  · rw [ids, next]
    exact holds.issued
  · rw [ids]
    exact holds.payloads
  · rw [next]
    exact holds.taken
  · rfl
  · exact le_rfl

theorem parked_le {more : Nat} (le : parked ≤ more) : keyed.Holds guards dialing more out :=
  { holds with waiting := Nat.le_trans holds.waiting le }

theorem not_lent_of_idle {id : UpstreamId} (idle : id ∈ keyed.idleIds) : id ∉ keyed.lentIds :=
  fun lent => disjoint_of_nodup_append holds.distinct idle lent

theorem moved {after : Pool} (same : ({ keyed with pool := after } : Keyed).ids.Perm keyed.ids)
    (lent : after.checkedOut.keys.Perm others)
    (named : ∀ id connection, after.checkedOut.lookup id = some connection → connection.id = id)
    (next : after.nextId = keyed.pool.nextId) (opening : after.opening = keyed.pool.opening)
    (waiting : after.waiting = keyed.pool.waiting) :
    ({ keyed with pool := after } : Keyed).Holds others dialing parked out where
  distinct := same.nodup_iff.mpr holds.distinct
  lent := lent
  named := named
  issued id among := next ▸ holds.issued id (same.mem_iff.mp among)
  payloads id := by
    rw [same.mem_iff]
    exact holds.payloads id
  taken id among := next ▸ holds.taken id among
  opening := opening.trans holds.opening
  waiting := waiting.le.trans holds.waiting

theorem left {after : Pool} {id : UpstreamId}
    (distinct : ({ keyed with pool := after } : Keyed).ids.Nodup)
    (rest : ∀ other, other ∈ ({ keyed with pool := after } : Keyed).ids ↔
      other ∈ keyed.ids ∧ other ≠ id) (lent : after.checkedOut.keys.Perm others)
    (named : ∀ id connection, after.checkedOut.lookup id = some connection → connection.id = id)
    (next : after.nextId = keyed.pool.nextId) (opening : after.opening = keyed.pool.opening)
    (waiting : after.waiting = keyed.pool.waiting) :
    Holds { pool := after, connections := keyed.connections.erase id } others dialing parked
      out where
  distinct := distinct
  lent := lent
  named := named
  issued other among := next ▸ holds.issued other ((rest other).mp among).1
  payloads other := by
    have here : other ∈ ({ pool := after, connections := keyed.connections.erase id } : Keyed).ids ↔
        other ∈ keyed.ids ∧ other ≠ id :=
      rest other
    rw [Finset.mem_erase, holds.payloads]
    tauto
  taken other among := next ▸ holds.taken other among
  opening := opening.trans holds.opening
  waiting := waiting.le.trans holds.waiting

end

/-! Acquiring. -/

section

variable (holds : keyed.Holds guards dialing parked out)
include holds

theorem reused {id : UpstreamId} (answered : keyed.pool.acquire.2 = .reused id) :
    ({ keyed with pool := keyed.pool.acquire.1 } : Keyed).Holds (id :: guards) dialing parked
      out := by
  unfold Pool.acquire at answered ⊢
  split at answered
  · rename_i connection last
    cases answered
    obtain ⟨earlier, split⟩ := getLast?_eq_some_iff.mp last
    have idle : keyed.idleIds = earlier.map Connection.id ++ [connection.id] := by
      unfold idleIds
      rw [split, map_append]
      rfl
    have absent : connection.id ∉ keyed.pool.checkedOut.keys :=
      holds.not_lent_of_idle (idle ▸ mem_append_right _ mem_cons_self)
    have keys : (keyed.pool.checkedOut.insert connection.id
        { connection with idleSince := none }).keys =
          connection.id :: keyed.pool.checkedOut.keys := by
      rw [AList.keys_insert, erase_of_not_mem absent]
    refine holds.moved ?_ ?_ ?_ rfl rfl rfl
    · unfold ids idleIds lentIds
      rw [keys, split, dropLast_concat, map_append, append_assoc]
      rfl
    · rw [keys]
      exact holds.lent.cons _
    · intro other found lookup
      rw [AList.lookup_insert_if] at lookup
      split at lookup
      · rename_i same
        cases lookup
        exact same.symm
      · exact holds.named other found lookup
  · split at answered
    · cases answered
    · cases answered

theorem openNew (answered : keyed.pool.acquire.2 = .openNew) :
    ({ keyed with pool := keyed.pool.acquire.1 } : Keyed).Holds guards (dialing + 1) parked
      out := by
  obtain ⟨-, -, opens⟩ := Pool.acquire_openNew answered
  rw [opens, ← holds.opening]
  exact (holds.counts { keyed.pool with opening := keyed.pool.opening + 1 } rfl rfl rfl).parked_le
    holds.waiting

theorem wait (answered : keyed.pool.acquire.2 = .wait) :
    ({ keyed with pool := keyed.pool.acquire.1 } : Keyed).Holds guards dialing parked out := by
  unfold Pool.acquire at answered ⊢
  split at answered
  · cases answered
  · split at answered
    · cases answered
    · rename_i full
      rw [if_neg full]
      exact holds

end

/-! Opening. -/

theorem opened (holds : keyed.Holds guards (dialing + 1) parked out) (now : Nat) :
    Holds { pool := (keyed.pool.opened now).1
            connections := insert (keyed.pool.opened now).2 keyed.connections }
      ((keyed.pool.opened now).2 :: guards) dialing parked out := by
  have unissued : (⟨keyed.pool.nextId⟩ : UpstreamId) ∉ keyed.ids := fun among =>
    Nat.lt_irrefl _ (holds.issued _ among)
  have unlent : (⟨keyed.pool.nextId⟩ : UpstreamId) ∉ keyed.pool.checkedOut.keys := fun lent =>
    unissued (mem_append_right _ lent)
  have keys : (keyed.pool.opened now).1.checkedOut.keys =
      ⟨keyed.pool.nextId⟩ :: keyed.pool.checkedOut.keys := by
    unfold Pool.opened
    rw [AList.keys_insert, erase_of_not_mem unlent]
  have ids : ∀ connections, ({ pool := (keyed.pool.opened now).1, connections } : Keyed).ids.Perm
      (⟨keyed.pool.nextId⟩ :: keyed.ids) := by
    intro connections
    unfold Keyed.ids lentIds
    rw [keys]
    exact perm_middle
  constructor
  · exact (ids _).nodup_iff.mpr (nodup_cons.mpr ⟨unissued, holds.distinct⟩)
  · unfold lentIds
    rw [keys]
    exact holds.lent.cons _
  · intro id connection found
    change (keyed.pool.checkedOut.insert _ _).lookup id = some connection at found
    rw [AList.lookup_insert_if] at found
    split at found
    · rename_i same
      cases found
      exact same.symm
    · exact holds.named id connection found
  · intro id among
    rcases mem_cons.mp ((ids _).mem_iff.mp among) with rfl | earlier
    · exact Nat.lt_succ_self _
    · exact Nat.lt_succ_of_lt (holds.issued id earlier)
  · intro id
    rw [(ids _).mem_iff, mem_cons]
    rw [Finset.mem_insert, holds.payloads]
    have fresh : (⟨keyed.pool.nextId⟩ : UpstreamId) ∉ out := fun taken =>
      Nat.lt_irrefl _ (holds.taken _ taken)
    constructor
    · rintro (rfl | ⟨here, stays⟩)
      · exact ⟨.inl rfl, fresh⟩
      · exact ⟨.inr here, stays⟩
    · rintro ⟨rfl | here, stays⟩
      · exact .inl rfl
      · exact .inr ⟨here, stays⟩
  · intro id among
    exact Nat.lt_succ_of_lt (holds.taken id among)
  · change keyed.pool.opening - 1 = dialing
    rw [holds.opening]
    rfl
  · exact holds.waiting

theorem openFailed (holds : keyed.Holds guards (dialing + 1) parked out) :
    ({ keyed with pool := keyed.pool.openFailed } : Keyed).Holds guards dialing parked out := by
  have counted := (holds.counts keyed.pool.openFailed rfl rfl rfl).parked_le holds.waiting
  have fewer : keyed.pool.openFailed.opening = dialing := by
    change keyed.pool.opening - 1 = dialing
    rw [holds.opening]
    rfl
  exact fewer ▸ counted

/-! Waiting. -/

theorem beginWait (holds : keyed.Holds guards dialing parked out) :
    ({ keyed with pool := keyed.pool.beginWait } : Keyed).Holds guards dialing (parked + 1)
      out := by
  have counted := holds.counts keyed.pool.beginWait rfl rfl rfl
  refine holds.opening ▸ counted.parked_le ?_
  exact (saturatingAdd_le _ _).trans (Nat.add_le_add_right holds.waiting 1)

theorem endWait (holds : keyed.Holds guards dialing (parked + 1) out) :
    ({ keyed with pool := keyed.pool.endWait } : Keyed).Holds guards dialing parked out := by
  have counted := holds.counts keyed.pool.endWait rfl rfl rfl
  refine holds.opening ▸ counted.parked_le ?_
  exact Nat.sub_le_of_le_add holds.waiting

theorem limited (holds : keyed.Holds guards dialing parked out) (limit : Nat) :
    ({ keyed with pool := keyed.pool.setLimit limit } : Keyed).Holds guards dialing parked out :=
  holds.moved (.refl _) holds.lent holds.named rfl rfl rfl

/-! Letting go. -/

theorem released (holds : keyed.Holds (id :: guards) dialing parked out)
    (outcome : ReleaseOutcome) (now : Nat) :
    Holds { pool := (keyed.pool.release id outcome now).1
            connections := if (keyed.pool.release id outcome now).2 then keyed.connections
              else keyed.connections.erase id }
      guards dialing parked out := by
  have lent : id ∈ keyed.pool.checkedOut.keys := holds.lent.mem_iff.mpr mem_cons_self
  obtain ⟨connection, found⟩ := Option.isSome_iff_exists.mp
    (AList.lookup_isSome.mpr (AList.mem_keys.mpr lent))
  have named := holds.named id connection found
  have keys : (keyed.pool.checkedOut.erase id).keys.Perm guards := by
    rw [AList.keys_erase]
    have fewer := holds.lent.erase id
    rwa [erase_cons_head] at fewer
  have others : ∀ other lent, (keyed.pool.checkedOut.erase id).lookup other = some lent →
      lent.id = other := by
    intro other lent present
    rw [AList.lookup_erase_if] at present
    split at present
    · cases present
    · exact holds.named other lent present
  have apart : keyed.lentIds.Perm (id :: (keyed.pool.checkedOut.erase id).keys) := by
    rw [AList.keys_erase]
    exact perm_cons_erase lent
  unfold Pool.release
  rw [found]
  dsimp only
  split
  · refine holds.moved ?_ keys others rfl rfl rfl
    unfold ids idleIds
    rw [map_append, append_assoc]
    refine List.Perm.append_left _ ?_
    rw [named]
    exact apart.symm
  · have split : keyed.ids.Perm (id :: (keyed.idleIds ++ (keyed.pool.checkedOut.erase id).keys)) :=
      (apart.append_left _).trans perm_middle
    obtain ⟨gone, rest⟩ := nodup_cons.mp (split.nodup_iff.mp holds.distinct)
    refine holds.left rest (fun other => ?_) keys others rfl rfl rfl
    rw [split.mem_iff, mem_cons]
    constructor
    · exact fun among => ⟨.inr among, fun same => gone (same ▸ among)⟩
    · rintro ⟨same | among, differs⟩
      · exact absurd same differs
      · exact among

/-! The socket. -/

theorem took (holds : keyed.Holds guards dialing parked out) (held : id ∈ guards) :
    ({ keyed with connections := keyed.connections.erase id } : Keyed).Holds guards dialing parked
      (insert id out) :=
  { holds with
    payloads := fun other => by
      rw [Finset.mem_erase, Finset.mem_insert, holds.payloads]
      tauto
    taken := fun other among => by
      rcases Finset.mem_insert.mp among with rfl | earlier
      · exact holds.issued other (mem_append_right _ (holds.lent.mem_iff.mpr held))
      · exact holds.taken other earlier }

theorem gaveBack (holds : keyed.Holds guards dialing parked out) (held : id ∈ guards) :
    ({ keyed with connections := insert id keyed.connections } : Keyed).Holds guards dialing parked
      (out.erase id) :=
  { holds with
    payloads := fun other => by
      have here : id ∈ keyed.ids := mem_append_right _ (holds.lent.mem_iff.mpr held)
      rw [Finset.mem_insert, Finset.mem_erase, holds.payloads]
      constructor
      · rintro (rfl | ⟨present, stays⟩)
        · exact ⟨here, fun both => both.1 rfl⟩
        · exact ⟨present, fun both => stays both.2⟩
      · rintro ⟨present, free⟩
        by_cases same : other = id
        · exact .inl same
        · exact .inr ⟨present, fun taken => free ⟨same, taken⟩⟩
    taken := fun other among => holds.taken other (Finset.mem_of_mem_erase among) }

/-! Reaping. -/

section

variable (holds : keyed.Holds guards dialing parked out)
include holds

theorem closed (id : UpstreamId) :
    Holds { pool := (keyed.pool.closeIdle id).1
            connections := if (keyed.pool.closeIdle id).2 then keyed.connections.erase id
              else keyed.connections }
      guards dialing parked out := by
  have kept (connection : Connection) : (connection.id != id) = true ↔ connection.id ≠ id :=
    bne_iff_ne
  by_cases idle : id ∈ keyed.idleIds
  · have unlent := holds.not_lent_of_idle idle
    have shorter : (keyed.pool.closeIdle id).2 = true := by
      obtain ⟨connection, among, named⟩ := mem_map.mp idle
      have fewer : (keyed.pool.idle.filter fun connection => connection.id != id).length <
          keyed.pool.idle.length :=
        length_filter_lt_length_iff_exists.mpr
          ⟨connection, among, fun stays => (kept connection).mp stays named⟩
      exact bne_iff_ne.mpr (Nat.ne_of_lt fewer)
    rw [if_pos shorter]
    refine holds.left ?_ (fun other => ?_) holds.lent holds.named rfl rfl rfl
    · refine List.Nodup.sublist ?_ holds.distinct
      exact (filter_sublist.map _).append_right _
    · change other ∈ (keyed.pool.idle.filter fun connection => connection.id != id).map
        Connection.id ++ keyed.lentIds ↔ other ∈ keyed.idleIds ++ keyed.lentIds ∧ _
      rw [mem_append, mem_append]
      constructor
      · rintro (stays | lent)
        · obtain ⟨connection, among, rfl⟩ := mem_map.mp stays
          obtain ⟨present, differs⟩ := mem_filter.mp among
          exact ⟨.inl (mem_map_of_mem present), (kept connection).mp differs⟩
        · exact ⟨.inr lent, fun same => unlent (same ▸ lent)⟩
      · rintro ⟨stays | lent, differs⟩
        · obtain ⟨connection, present, rfl⟩ := mem_map.mp stays
          exact .inl (mem_map_of_mem
            (mem_filter.mpr ⟨present, (kept connection).mpr differs⟩))
        · exact .inr lent
  · have all : keyed.pool.idle.filter (fun connection => connection.id != id) = keyed.pool.idle :=
      filter_eq_self.mpr fun connection among =>
        (kept connection).mpr fun same => idle (same ▸ mem_map_of_mem among)
    have same : keyed.pool.closeIdle id = (keyed.pool, false) := by
      unfold Pool.closeIdle
      dsimp only
      rw [all, bne_self_eq_false]
    rw [same]
    exact holds

theorem expired (maxLifetime now : Nat) :
    ({ keyed with pool := keyed.pool.expireInUse maxLifetime now } : Keyed).Holds guards dialing
      parked out := by
  unfold Pool.expireInUse
  split
  · exact holds
  · refine holds.moved (List.Perm.of_eq ?_) ?_ ?_ rfl rfl rfl
    · unfold ids idleIds lentIds
      rw [AList.keys_mapValues]
    · rw [AList.keys_mapValues]
      exact holds.lent
    · intro id connection found
      rw [AList.lookup_mapValues] at found
      obtain ⟨before, present, same⟩ := Option.map_eq_some_iff.mp found
      rw [← holds.named id before present, ← same]
      split
      · rfl
      · rfl

theorem reaped (config : ReapConfig) (now : Nat) :
    (LivePool.reapEntry config now keyed).Holds guards dialing parked out := by
  refine Holds.expired ?_ config.maxLifetime now
  refine List.foldlRecOn (motive := fun kept : Keyed => kept.Holds guards dialing parked out) _ _
    holds ?_
  intro kept before id _
  exact before.closed id

theorem pruned :
    keyed.Holds guards dialing parked (out.filter fun id => id ∈ keyed.ids) :=
  { holds with
    payloads := fun id => by
      rw [holds.payloads, Finset.mem_filter]
      tauto
    taken := fun id among => holds.taken id (Finset.mem_filter.mp among).1 }

theorem unused (unused : keyed.isUnused = true) :
    guards = [] ∧ dialing = 0 := by
  obtain ⟨empty, -⟩ := Bool.and_eq_true_iff.mp (Bool.and_eq_true_iff.mp unused).1
  have nothing : keyed.pool.total = 0 := of_decide_eq_true empty
  unfold Pool.total saturatingAdd clampU32 u32Max at nothing
  have none : keyed.pool.checkedOut.entries.length = 0 := by omega
  have lent : keyed.lentIds = [] := by
    unfold lentIds AList.keys
    rw [length_eq_zero_iff.mp none]
    rfl
  refine ⟨List.Perm.eq_nil (lent ▸ holds.lent.symm), ?_⟩
  rw [← holds.opening]
  omega

end

end Holds

end Keyed

/-! ### Tasks and guards -/

inductive Task
  | asking (key : PoolKey)
  | refused (key : PoolKey)
  | opening (key : PoolKey)
  | waiting (key : PoolKey)
  deriving DecidableEq

def Task.key : Task → PoolKey
  | .asking key | .refused key | .opening key | .waiting key => key

structure Guard where
  key : PoolKey
  id : UpstreamId
  outcome : ReleaseOutcome
  inHand : Bool
  deriving DecidableEq

def Guard.connection (guard : Guard) : PoolKey × UpstreamId :=
  (guard.key, guard.id)

/-- The pools, the acquires under way, the guards that live, and which sockets of the
pools' connections were taken out and not given back. -/
structure Lending where
  live : LivePool
  tasks : List Task
  guards : List Guard
  out : Finset (PoolKey × UpstreamId)

inductive LendingStep
  | begin (key : PoolKey)
  | acquire (key : PoolKey)
  | beginWait (key : PoolKey)
  | woken (key : PoolKey)
  | opened (key : PoolKey) (now : Nat)
  | abandon (task : Task)
  | takeConnection (guard : Guard)
  | returnConnection (guard : Guard)
  | mark (guard : Guard) (outcome : ReleaseOutcome)
  | drop (guard : Guard) (now : Nat)
  | setLimit (key : PoolKey) (limit : Nat)
  | reapIdle (config : ReapConfig) (now : Nat)

def Task.undo (live : LivePool) : Task → LivePool
  | .asking _ => live
  -- asking the pool for the error to report makes the pool if there is none
  | .refused key => live.withPool key id
  | .opening key => live.withPool key Pool.openFailed
  | .waiting key => live.withPool key Pool.endWait

namespace Lending

def start (config : PoolConfig) : Lending where
  live := LivePool.new config
  tasks := []
  guards := []
  out := ∅

def acquire (lending : Lending) (key : PoolKey) : Lending :=
  let tasks := lending.tasks.erase (.asking key)
  match lending.live.acquire key with
  | (live, .reused id) =>
    { lending with
      live := live
      tasks := tasks
      guards := ⟨key, id, .discard, false⟩ :: lending.guards }
  | (live, .openNew) =>
    { lending with
      live := live
      tasks := .opening key :: tasks }
  | (live, .wait) =>
    { lending with
      live := live
      tasks := .refused key :: tasks }

def takeConnection (lending : Lending) (guard : Guard) : Lending :=
  if guard.id ∈ (lending.live.entry guard.key).connections then
    { lending with
      live := lending.live.takeConnection guard.key guard.id
      guards := { guard with inHand := true } :: lending.guards.erase guard
      out := insert guard.connection lending.out }
  else lending

def step (lending : Lending) : LendingStep → Lending
  | .begin key => { lending with tasks := .asking key :: lending.tasks }
  | .acquire key => lending.acquire key
  | .beginWait key =>
    { lending with
      live := lending.live.withPool key Pool.beginWait
      tasks := .waiting key :: lending.tasks.erase (.refused key) }
  | .woken key =>
    { lending with
      live := lending.live.withPool key Pool.endWait
      tasks := .asking key :: lending.tasks.erase (.waiting key) }
  | .opened key now =>
    { lending with
      live := lending.live.opened key now
      tasks := lending.tasks.erase (.opening key)
      guards := ⟨key, ((lending.live.entry key).pool.opened now).2, .discard, false⟩ ::
        lending.guards }
  | .abandon task =>
    { lending with
      live := task.undo lending.live
      tasks := lending.tasks.erase task }
  | .takeConnection guard => lending.takeConnection guard
  | .returnConnection guard =>
    { lending with
      live := lending.live.returnConnection guard.key guard.id
      guards := { guard with inHand := false } :: lending.guards.erase guard
      out := lending.out.erase guard.connection }
  | .mark guard outcome =>
    { lending with
      guards := { guard with outcome := outcome } :: lending.guards.erase guard }
  | .drop guard now =>
    { lending with
      live := lending.live.release guard.key guard.id guard.outcome now
      guards := lending.guards.erase guard }
  | .setLimit key limit => { lending with live := lending.live.setLimit key limit }
  | .reapIdle config now =>
    { lending with
      live := lending.live.reapIdle config now
      out := lending.out.filter fun taken =>
        taken.2 ∈ ((lending.live.reapIdle config now).entry taken.1).ids }

def Enabled (lending : Lending) : LendingStep → Prop
  | .acquire key => .asking key ∈ lending.tasks
  | .beginWait key => .refused key ∈ lending.tasks
  | .woken key => .waiting key ∈ lending.tasks
  | .opened key _ => .opening key ∈ lending.tasks
  | .abandon task => task ∈ lending.tasks
  | .takeConnection guard | .mark guard _ | .drop guard _ => guard ∈ lending.guards
  | .returnConnection guard => guard ∈ lending.guards ∧ guard.inHand = true
  | _ => True

instance (lending : Lending) (event : LendingStep) : Decidable (lending.Enabled event) := by
  unfold Enabled
  split <;> infer_instance

abbrev Reached (config : PoolConfig) : Lending → Prop :=
  Run.Reachable (start config) Enabled step

/-! ### What is out of one pool -/

def lentAt (guards : List Guard) (key : PoolKey) : List UpstreamId :=
  (guards.filter fun guard => guard.key = key).map Guard.id

def outAt (out : Finset (PoolKey × UpstreamId)) (key : PoolKey) : Finset UpstreamId :=
  (out.filter fun taken => taken.1 = key).image Prod.snd

theorem lentAt_cons (guard : Guard) (guards : List Guard) (key : PoolKey) :
    lentAt (guard :: guards) key =
      if guard.key = key then guard.id :: lentAt guards key else lentAt guards key := by
  unfold lentAt
  by_cases same : guard.key = key
  · simp [same]
  · simp [same]

theorem lentAt_perm {one two : List Guard} (same : one.Perm two) (key : PoolKey) :
    (lentAt one key).Perm (lentAt two key) :=
  (same.filter _).map _

theorem mem_outAt {out : Finset (PoolKey × UpstreamId)} {key : PoolKey} {id : UpstreamId} :
    id ∈ outAt out key ↔ (key, id) ∈ out := by
  simp [outAt]

variable {tasks : List Task}

theorem count_erase {old : Task} (among : old ∈ tasks) (task : Task) :
    (tasks.erase old).count task + (if old = task then 1 else 0) = tasks.count task := by
  rw [(perm_cons_erase among).count_eq, count_cons]
  simp

theorem count_replace {old : Task} (among : old ∈ tasks) (new task : Task) :
    (new :: tasks.erase old).count task + (if old = task then 1 else 0) =
      tasks.count task + (if new = task then 1 else 0) := by
  rw [← count_erase among task, count_cons]
  simp only [beq_iff_eq]
  omega

def Sound (lending : Lending) : Prop :=
  ∀ key, (lending.live.entry key).Holds (lentAt lending.guards key)
    (lending.tasks.count (.opening key)) (lending.tasks.count (.waiting key))
    (outAt lending.out key)

variable {lending after : Lending} {key other : PoolKey}

theorem sound_start (config : PoolConfig) : (start config).Sound :=
  fun key => Keyed.holds_new key config 0

structure SameAt (before after : Lending) (key : PoolKey) : Prop where
  entry : after.live.entry key = before.live.entry key
  guards : (lentAt before.guards key).Perm (lentAt after.guards key)
  opening : after.tasks.count (.opening key) = before.tasks.count (.opening key)
  waiting : after.tasks.count (.waiting key) = before.tasks.count (.waiting key)
  out : outAt after.out key = outAt before.out key

def HoldsAt (lending : Lending) (key : PoolKey) : Prop :=
  (lending.live.entry key).Holds (lentAt lending.guards key)
    (lending.tasks.count (.opening key)) (lending.tasks.count (.waiting key))
    (outAt lending.out key)

theorem Sound.same (sound : lending.Sound) (same : SameAt lending after key) :
    after.HoldsAt key := by
  unfold HoldsAt
  rw [same.entry, same.opening, same.waiting, same.out]
  exact (sound key).perm same.guards

theorem entry_withPool (live : LivePool) (key : PoolKey) (change : Pool → Pool) :
    (live.withPool key change).entry key =
      { live.entry key with pool := change (live.entry key).pool } := by
  unfold LivePool.withPool
  rw [LivePool.entry_insert, if_pos rfl]

theorem entry_withPool_of_ne (live : LivePool) (change : Pool → Pool) (apart : other ≠ key) :
    (live.withPool key change).entry other = live.entry other := by
  unfold LivePool.withPool
  rw [LivePool.entry_insert, if_neg apart]

theorem count_of_apart {old new task : Task} (here : old.key = key) (still : new.key = key)
    (apart : task.key ≠ key) : (new :: tasks.erase old).count task = tasks.count task := by
  have unlike {moved : Task} (about : moved.key = key) : moved ≠ task := fun same =>
    apart (same ▸ about)
  rw [count_cons_of_ne (unlike still), count_erase_of_ne (unlike here).symm]

theorem count_erase_of_apart {old task : Task} (here : old.key = key) (apart : task.key ≠ key) :
    (tasks.erase old).count task = tasks.count task :=
  count_erase_of_ne fun same : task = old => apart (same ▸ here)

section

variable (sound : lending.Sound)
include sound

theorem Sound.elsewhere {live : LivePool}
    (entries : ∀ other ≠ key, live.entry other = lending.live.entry other)
    (counts : ∀ task : Task, task.key ≠ key → tasks.count task = lending.tasks.count task)
    (apart : other ≠ key) :
    ({ lending with live := live, tasks := tasks } : Lending).HoldsAt other :=
  sound.same ⟨entries other apart, .refl _, counts _ apart, counts _ apart, rfl⟩

theorem sound_begin (key : PoolKey) :
    (lending.step (.begin key)).Sound := by
  intro other
  have unlike (task : Task) (different : .asking key ≠ task) :
      (Task.asking key :: lending.tasks).count task = lending.tasks.count task :=
    count_cons_of_ne different
  exact sound.same ⟨rfl, .refl _, unlike _ nofun, unlike _ nofun, rfl⟩

theorem sound_beginWait (among : .refused key ∈ lending.tasks) :
    (lending.step (.beginWait key)).Sound := by
  intro other
  by_cases same : other = key
  · subst same
    have opening := count_replace among (.waiting other) (.opening other)
    have waiting := count_replace among (.waiting other) (.waiting other)
    simp only [reduceCtorEq, if_false, if_true, Nat.add_zero] at opening waiting
    have holds := (sound other).beginWait
    rw [← opening, ← waiting, ← entry_withPool] at holds
    exact holds
  · exact sound.elsewhere (fun _ => entry_withPool_of_ne _ _) (fun _ => count_of_apart rfl rfl) same

theorem sound_woken (among : .waiting key ∈ lending.tasks) :
    (lending.step (.woken key)).Sound := by
  intro other
  by_cases same : other = key
  · subst same
    have opening := count_replace among (.asking other) (.opening other)
    have waiting := count_replace among (.asking other) (.waiting other)
    simp only [reduceCtorEq, if_false, Nat.add_zero] at opening waiting
    have before := sound other
    rw [← opening, ← waiting] at before
    have holds := before.endWait
    rw [← entry_withPool] at holds
    exact holds
  · exact sound.elsewhere (fun _ => entry_withPool_of_ne _ _) (fun _ => count_of_apart rfl rfl) same

theorem sound_abandon {task : Task} (among : task ∈ lending.tasks) :
    (lending.step (.abandon task)).Sound := by
  intro other
  by_cases same : other = task.key
  · have opening := count_erase among (.opening other)
    have waiting := count_erase among (.waiting other)
    have before := sound other
    rw [← opening, ← waiting] at before
    cases task with
    | asking key =>
      exact before
    | refused key =>
      obtain rfl : other = key := same
      change ((lending.live.withPool other id).entry other).Holds _ _ _ _
      rw [entry_withPool]
      exact before
    | opening key =>
      obtain rfl : other = key := same
      simp only [reduceCtorEq] at before
      have holds := before.openFailed
      rw [← entry_withPool] at holds
      exact holds
    | waiting key =>
      obtain rfl : other = key := same
      simp only [reduceCtorEq] at before
      have holds := before.endWait
      rw [← entry_withPool] at holds
      exact holds
  · refine sound.elsewhere (fun other apart => ?_) (fun _ => count_erase_of_apart rfl) same
    cases task with
    | asking key => rfl
    | refused | opening | waiting => exact entry_withPool_of_ne _ _ apart

theorem sound_setLimit (key : PoolKey) (limit : Nat) :
    (lending.step (.setLimit key limit)).Sound := by
  intro other
  by_cases same : other = key
  · subst same
    have holds := (sound other).limited limit
    rw [← entry_withPool lending.live other fun pool => pool.setLimit limit] at holds
    exact holds
  · exact sound.elsewhere (fun _ => entry_withPool_of_ne _ _) (fun _ _ => rfl) same

end

/-! Acquiring and opening. -/

theorem sound_acquire (sound : lending.Sound) (among : .asking key ∈ lending.tasks) :
    (lending.step (.acquire key)).Sound := by
  change (lending.acquire key).Sound
  have opening := count_erase among (.opening key)
  have waiting := count_erase among (.waiting key)
  have before := sound key
  rw [← opening, ← waiting] at before
  have entries (other : PoolKey) (apart : other ≠ key) :
      (lending.live.acquire key).1.entry other = lending.live.entry other :=
    entry_withPool_of_ne _ _ apart
  have here : (lending.live.acquire key).1.entry key =
      { lending.live.entry key with pool := (lending.live.entry key).pool.acquire.1 } :=
    entry_withPool _ _ _
  intro other
  unfold Lending.acquire
  have answer : lending.live.acquire key =
      ((lending.live.acquire key).1, (lending.live.entry key).pool.acquire.2) := rfl
  rw [answer]
  cases answered : (lending.live.entry key).pool.acquire.2 with
  | reused id =>
    by_cases same : other = key
    · subst same
      have holds := before.reused answered
      rw [← here] at holds
      rw [lentAt_cons, if_pos rfl]
      exact holds
    · refine sound.same ⟨entries other same, ?_, ?_, ?_, rfl⟩
      · rw [lentAt_cons, if_neg (Ne.symm same)]
      · exact count_erase_of_apart rfl same
      · exact count_erase_of_apart rfl same
  | openNew =>
    by_cases same : other = key
    · subst same
      have holds := before.openNew answered
      rw [← here] at holds
      rw [count_cons_self]
      exact holds
    · exact sound.elsewhere entries (fun _ => count_of_apart rfl rfl) same
  | wait =>
    by_cases same : other = key
    · subst same
      have holds := before.wait answered
      rw [← here] at holds
      exact holds
    · exact sound.elsewhere entries (fun _ => count_of_apart rfl rfl) same

theorem sound_opened (sound : lending.Sound) (among : .opening key ∈ lending.tasks) (now : Nat) :
    (lending.step (.opened key now)).Sound := by
  intro other
  have entry : (lending.live.opened key now).entry other =
      if other = key then
        { pool := ((lending.live.entry key).pool.opened now).1
          connections := insert ((lending.live.entry key).pool.opened now).2
            (lending.live.entry key).connections }
      else lending.live.entry other :=
    LivePool.entry_insert _ _ _ _
  by_cases same : other = key
  · subst same
    have opening := count_erase among (.opening other)
    have waiting := count_erase among (.waiting other)
    simp only [reduceCtorEq] at opening waiting
    have before := sound other
    rw [← opening, ← waiting] at before
    have holds := before.opened now
    rw [if_pos rfl] at entry
    rw [← entry] at holds
    change ((lending.live.opened other now).entry other).Holds
      (lentAt (⟨other, _, .discard, false⟩ :: lending.guards) other) _ _ _
    rw [lentAt_cons, if_pos rfl]
    exact holds
  · rw [if_neg same] at entry
    refine sound.same ⟨entry, ?_, ?_, ?_, rfl⟩
    · change (lentAt lending.guards other).Perm
        (lentAt (⟨key, _, .discard, false⟩ :: lending.guards) other)
      rw [lentAt_cons, if_neg (Ne.symm same)]
    · exact count_erase_of_apart rfl same
    · exact count_erase_of_apart rfl same

/-! What a guard does. -/

variable {guards : List Guard} {guard : Guard}

theorem lentAt_of_mem (among : guard ∈ guards) :
    (lentAt guards guard.key).Perm (guard.id :: lentAt (guards.erase guard) guard.key) := by
  have same := lentAt_perm (perm_cons_erase among) guard.key
  rwa [lentAt_cons, if_pos rfl] at same

theorem lentAt_replace {old : Guard} (among : old ∈ guards) (new : Guard)
    (same : new.connection = old.connection) (key : PoolKey) :
    (lentAt guards key).Perm (lentAt (new :: guards.erase old) key) := by
  obtain ⟨keys, ids⟩ := Prod.mk.inj same
  refine (lentAt_perm (perm_cons_erase among) key).trans (List.Perm.of_eq ?_)
  rw [lentAt_cons, lentAt_cons, keys, ids]

theorem lentAt_erase_of_ne (among : guard ∈ guards) (apart : other ≠ guard.key) :
    (lentAt guards other).Perm (lentAt (guards.erase guard) other) := by
  have same := lentAt_perm (perm_cons_erase among) other
  rwa [lentAt_cons, if_neg apart.symm] at same

theorem held_of_mem (among : guard ∈ guards) : guard.id ∈ lentAt guards guard.key :=
  (lentAt_of_mem among).mem_iff.mpr mem_cons_self

section

variable (sound : lending.Sound) (among : guard ∈ lending.guards)
include sound among

theorem Sound.lookup_of_mem :
    lending.live.keyed.lookup guard.key = some (lending.live.entry guard.key) := by
  cases found : lending.live.keyed.lookup guard.key with
  | some keyed => rw [LivePool.entry_of_lookup found]
  | none =>
    have empty : (lending.live.entry guard.key).lentIds = [] := by
      unfold LivePool.entry
      rw [found]
      rfl
    have lent := (sound guard.key).lent.mem_iff.mpr (held_of_mem among)
    rw [empty] at lent
    cases lent

theorem sound_mark (outcome : ReleaseOutcome) : (lending.step (.mark guard outcome)).Sound :=
  fun other => sound.same ⟨rfl,
    lentAt_replace among { guard with outcome := outcome } rfl other, rfl, rfl,
    rfl⟩

theorem sound_drop (now : Nat) :
    (lending.step (.drop guard now)).Sound := by
  intro other
  have entry := LivePool.entry_release (sound.lookup_of_mem among) guard.id guard.outcome now other
  by_cases same : other = guard.key
  · subst same
    rw [if_pos rfl] at entry
    have holds := ((sound guard.key).perm (lentAt_of_mem among)).released guard.outcome now
    rw [← entry] at holds
    exact holds
  · rw [if_neg same] at entry
    exact sound.same ⟨entry, lentAt_erase_of_ne among same, rfl, rfl, rfl⟩

end

variable (out : Finset (PoolKey × UpstreamId))

theorem outAt_insert (guard : Guard) :
    outAt (insert guard.connection out) guard.key = insert guard.id (outAt out guard.key) := by
  ext id
  rw [mem_outAt, Finset.mem_insert, Finset.mem_insert, mem_outAt]
  simp [Guard.connection]

theorem outAt_insert_of_ne (apart : other ≠ guard.key) :
    outAt (insert guard.connection out) other = outAt out other := by
  ext id
  rw [mem_outAt, mem_outAt]
  simp [Guard.connection, apart]

theorem outAt_erase (guard : Guard) :
    outAt (out.erase guard.connection) guard.key = (outAt out guard.key).erase guard.id := by
  ext id
  rw [mem_outAt, Finset.mem_erase, Finset.mem_erase, mem_outAt]
  simp [Guard.connection]

theorem outAt_erase_of_ne (apart : other ≠ guard.key) :
    outAt (out.erase guard.connection) other = outAt out other := by
  ext id
  rw [mem_outAt, mem_outAt]
  simp [Guard.connection, apart]

theorem sound_takeConnection (sound : lending.Sound) (among : guard ∈ lending.guards) :
    (lending.step (.takeConnection guard)).Sound := by
  change (lending.takeConnection guard).Sound
  unfold Lending.takeConnection
  split
  · intro other
    have entry := LivePool.entry_takeConnection (sound.lookup_of_mem among) guard.id other
    by_cases same : other = guard.key
    · subst same
      rw [if_pos rfl] at entry
      have holds := ((sound guard.key).took (held_of_mem among)).perm
        (lentAt_replace among { guard with inHand := true } rfl guard.key)
      rw [← entry, ← outAt_insert] at holds
      exact holds
    · rw [if_neg same] at entry
      exact sound.same ⟨entry, lentAt_replace among { guard with inHand := true } rfl other, rfl,
        rfl, outAt_insert_of_ne _ same⟩
  · exact sound

theorem sound_returnConnection (sound : lending.Sound) (among : guard ∈ lending.guards) :
    (lending.step (.returnConnection guard)).Sound := by
  intro other
  have entry := LivePool.entry_returnConnection (sound.lookup_of_mem among) guard.id other
  by_cases same : other = guard.key
  · subst same
    rw [if_pos rfl] at entry
    have holds := ((sound guard.key).gaveBack (held_of_mem among)).perm
      (lentAt_replace among { guard with inHand := false } rfl guard.key)
    rw [← entry, ← outAt_erase] at holds
    exact holds
  · rw [if_neg same] at entry
    exact sound.same ⟨entry, lentAt_replace among { guard with inHand := false } rfl other, rfl,
      rfl, outAt_erase_of_ne _ same⟩

/-! Reaping. -/

theorem outAt_filter (live : LivePool) (key : PoolKey) :
    outAt (out.filter fun taken => taken.2 ∈ (live.entry taken.1).ids) key =
      (outAt out key).filter fun id => id ∈ (live.entry key).ids := by
  ext id
  rw [mem_outAt, Finset.mem_filter, Finset.mem_filter, mem_outAt]

theorem sound_reapIdle (sound : lending.Sound) (config : ReapConfig) (now : Nat) :
    (lending.step (.reapIdle config now)).Sound := by
  intro key
  have before := sound key
  change ((lending.live.reapIdle config now).entry key).Holds _ _ _
    (outAt (lending.out.filter _) key)
  rw [outAt_filter]
  have reaped : (lending.live.reapIdle config now).keyed.lookup key =
      ((lending.live.keyed.lookup key).map (LivePool.reapEntry config now)).filter
        fun entry => !entry.isUnused := by
    unfold LivePool.reapIdle
    rw [AList.lookup_retain, AList.lookup_mapValues]
  -- a pool that is not there, or no longer, reads as a new one
  have gone (none : (lending.live.reapIdle config now).keyed.lookup key = none)
      (lent : lentAt lending.guards key = []) (dialing : lending.tasks.count (.opening key) = 0) :
      ((lending.live.reapIdle config now).entry key).Holds (lentAt lending.guards key)
        (lending.tasks.count (.opening key)) (lending.tasks.count (.waiting key))
        ((outAt lending.out key).filter fun id =>
          id ∈ ((lending.live.reapIdle config now).entry key).ids) := by
    have new : (lending.live.reapIdle config now).entry key =
        { pool := Pool.new key lending.live.config, connections := ∅ } := by
      unfold LivePool.entry
      rw [none]
      rfl
    have nothing : ({ pool := Pool.new key lending.live.config, connections := ∅ } : Keyed).ids =
        [] := rfl
    rw [new, lent, dialing, nothing, Finset.filter_false_of_mem fun _ _ => not_mem_nil]
    exact Keyed.holds_new _ _ _
  cases found : lending.live.keyed.lookup key with
  | none =>
    have new : lending.live.entry key =
        { pool := Pool.new key lending.live.config, connections := ∅ } := by
      unfold LivePool.entry
      rw [found]
      rfl
    rw [new] at before
    rw [found] at reaped
    obtain ⟨lent, dialing⟩ := before.unused rfl
    exact gone reaped lent dialing
  | some keyed =>
    rw [LivePool.entry_of_lookup found] at before
    rw [found, Option.map_some] at reaped
    have after := before.reaped config now
    cases unused : (LivePool.reapEntry config now keyed).isUnused with
    | true =>
      have forgotten : (lending.live.reapIdle config now).keyed.lookup key = none := by
        rw [reaped, Option.filter_some, unused]
        rfl
      obtain ⟨lent, dialing⟩ := after.unused unused
      exact gone forgotten lent dialing
    | false =>
      have kept : (lending.live.reapIdle config now).keyed.lookup key =
          some (LivePool.reapEntry config now keyed) := by
        rw [reaped, Option.filter_some, unused]
        rfl
      rw [LivePool.entry_of_lookup kept]
      exact after.pruned

theorem sound_of_reached {config : PoolConfig} (reached : Reached config lending) :
    lending.Sound := by
  refine reached.invariant (sound_start config) ?_
  intro before event sound enabled
  cases event with
  | begin key => exact sound_begin sound key
  | acquire key => exact sound_acquire sound enabled
  | beginWait key => exact sound_beginWait sound enabled
  | woken key => exact sound_woken sound enabled
  | opened key now => exact sound_opened sound enabled now
  | abandon task => exact sound_abandon sound enabled
  | takeConnection guard => exact sound_takeConnection sound enabled
  | returnConnection guard => exact sound_returnConnection sound enabled.1
  | mark guard outcome => exact sound_mark sound enabled outcome
  | drop guard now => exact sound_drop sound enabled now
  | setLimit key limit => exact sound_setLimit sound key limit
  | reapIdle config now => exact sound_reapIdle sound config now

/-! ### One connection, one guard -/

def IsOpen (lending : Lending) (key : PoolKey) (id : UpstreamId) : Prop :=
  id ∈ (lending.live.entry key).connections ∨
    ∃ guard ∈ lending.guards, guard.connection = (key, id) ∧ guard.inHand = true

theorem nodup_connections (each : ∀ key, (lentAt guards key).Nodup) :
    (guards.map Guard.connection).Nodup := by
  induction guards with
  | nil => exact nodup_nil
  | cons guard later ih =>
    have first := each guard.key
    rw [lentAt_cons, if_pos rfl] at first
    refine nodup_cons.mpr ⟨fun again => ?_, ih fun key => ?_⟩
    · obtain ⟨twin, among, same⟩ := mem_map.mp again
      obtain ⟨keys, ids⟩ := Prod.mk.inj same
      have lent := held_of_mem among
      rw [keys, ids] at lent
      exact (nodup_cons.mp first).1 lent
    · have all := each key
      rw [lentAt_cons] at all
      split at all
      · exact (nodup_cons.mp all).2
      · exact all

theorem Sound.lent_nodup (sound : lending.Sound) (key : PoolKey) :
    (lentAt lending.guards key).Nodup :=
  (sound key).lent.nodup_iff.mp (nodup_append.mp (sound key).distinct).2.1

theorem Sound.mem_ids_of_open (sound : lending.Sound) {id : UpstreamId}
    (opened : lending.IsOpen key id) : id ∈ (lending.live.entry key).ids := by
  rcases opened with stored | ⟨guard, among, same, -⟩
  · exact ((sound key).payloads id).mp stored |>.1
  · obtain ⟨keys, ids⟩ := Prod.mk.inj same
    have lent := held_of_mem among
    rw [keys, ids] at lent
    exact mem_append_right _ ((sound key).lent.mem_iff.mpr lent)

/-- In every run of acquires that may end anywhere, dials, takes and returns, guards dropped
either way, limits and reaping: no two guards that live hold one connection; a pool lists no
connection twice, and every open one either as idle or as lent; the sockets stored are those
of the pool's connections that were not taken out; and with no guard and no acquire left,
nothing is counted as lent, being opened or waited for. -/
theorem one_connection_one_session (config : PoolConfig) (lending : Lending)
    (reached : Reached config lending) :
    (lending.guards.map Guard.connection).Nodup ∧
      (∀ key, (lending.live.entry key).ids.Nodup ∧ ∀ id, lending.IsOpen key id →
        Xor (id ∈ (lending.live.entry key).idleIds) (id ∈ (lending.live.entry key).lentIds)) ∧
      (∀ key, (lending.live.entry key).connections =
        (lending.live.entry key).ids.toFinset \ outAt lending.out key) ∧
      (lending.guards = [] → lending.tasks = [] → ∀ key,
        (lending.live.entry key).pool.checkedOut.entries = [] ∧
          (lending.live.entry key).pool.opening = 0 ∧
          (lending.live.entry key).pool.waiting = 0) := by
  have sound := sound_of_reached reached
  refine ⟨nodup_connections sound.lent_nodup, fun key => ⟨(sound key).distinct, ?_⟩, ?_, ?_⟩
  · intro id opened
    rcases mem_append.mp (sound.mem_ids_of_open opened) with idle | lent
    · exact .inl ⟨idle, (sound key).not_lent_of_idle idle⟩
    · exact .inr ⟨lent, fun idle => (sound key).not_lent_of_idle idle lent⟩
  · intro key
    ext id
    rw [(sound key).payloads, Finset.mem_sdiff, mem_toFinset]
  · intro guards tasks key
    have holds := sound key
    rw [guards, tasks] at holds
    have none : (lending.live.entry key).lentIds = [] := List.Perm.eq_nil holds.lent
    exact ⟨map_eq_nil_iff.mp none, holds.opening, Nat.le_zero.mp holds.waiting⟩

def lentAgain : List LendingStep :=
  [.setLimit acmeKey 1, .begin acmeKey, .acquire acmeKey, .opened acmeKey 0,
    .takeConnection ⟨acmeKey, ⟨1⟩, .discard, false⟩,
    .begin acmeKey, .acquire acmeKey, .beginWait acmeKey, .abandon (.waiting acmeKey),
    .returnConnection ⟨acmeKey, ⟨1⟩, .discard, true⟩,
    .mark ⟨acmeKey, ⟨1⟩, .discard, false⟩ .reusable,
    .drop ⟨acmeKey, ⟨1⟩, .reusable, false⟩ 5, .begin acmeKey, .acquire acmeKey]

theorem lent_again_to_one :
    ((lentAgain.foldl step (start .default)).guards.map Guard.connection) = [(acmeKey, ⟨1⟩)] ∧
      ((lentAgain.foldl step (start .default)).guards.map Guard.connection).Nodup := by
  have permitted : Run.Permitted Enabled step (start .default) lentAgain := by decide +kernel
  exact ⟨by decide +kernel, (one_connection_one_session .default _
    (Run.Reachable.foldl .start permitted)).1⟩

/-- In every run the counters of a pool are those of what is out of it, and a connection is
dialled only with none idle and fewer guards and dials of the pool than its limit. -/
theorem dials_within_limit (config : PoolConfig) (lending : Lending)
    (reached : Reached config lending) (key : PoolKey) :
    let pool := (lending.live.entry key).pool
    let guards := (lending.guards.filter fun guard => guard.key = key).length
    pool.checkedOut.entries.length = guards ∧
      pool.opening = lending.tasks.count (.opening key) ∧
      pool.waiting ≤ lending.tasks.count (.waiting key) ∧
      (pool.acquire.2 = .openNew →
        pool.idle = [] ∧ guards + lending.tasks.count (.opening key) < pool.limit) := by
  have holds := sound_of_reached reached key
  have active : (lending.live.entry key).pool.checkedOut.entries.length =
      (lending.guards.filter fun guard => guard.key = key).length := by
    have same := holds.lent.length_eq
    unfold lentAt Keyed.lentIds AList.keys List.keys at same
    rwa [length_map, length_map] at same
  refine ⟨active, holds.opening, holds.waiting, fun answered => ?_⟩
  obtain ⟨empty, below, -⟩ := Pool.acquire_openNew answered
  have fits := Pool.size_lt_limit below
  rw [Pool.size, empty, active, holds.opening] at fits
  exact ⟨empty, by simpa using fits⟩

theorem dials_within_limit_lentAgain :
    ((lentAgain.foldl step (start .default)).live.entry acmeKey).pool.checkedOut.entries.length =
      1 := by
  have permitted : Run.Permitted Enabled step (start .default) lentAgain := by decide +kernel
  exact (dials_within_limit .default _ (Run.Reachable.foldl .start permitted) acmeKey).1.trans
    (by decide +kernel)

end Lending

end Pgprox.Pools
