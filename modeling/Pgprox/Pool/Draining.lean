/-
A limit lowered under open connections.

A pool over its limit shrinks to it when every connection comes back and none of them is
lent again on the way; under steady use each of them can come back, be kept and go out
again without end.
-/

import Pgprox.Pool.Lending

namespace Pgprox.Pools

open List

/-- A pool since its limit was set, with the connections that came back or were closed. -/
structure Draining where
  pool : Pool
  returned : Finset UpstreamId

inductive DrainStep where
  | acquire
  | release (id : UpstreamId) (now : Nat)
  | opened (now : Nat)
  | openFailed
  deriving DecidableEq

namespace Draining

def start (pool : Pool) (limit : Nat) : Draining where
  pool := pool.setLimit limit
  returned := ∅

def step (s : Draining) : DrainStep → Draining
  | .acquire => { s with pool := s.pool.acquire.1 }
  | .release id now =>
    { pool := (s.pool.release id .reusable now).1
      returned := if (s.pool.checkedOut.lookup id).isSome then insert id s.returned
        else s.returned }
  | .opened now => { s with pool := (s.pool.opened now).1 }
  | .openFailed => { s with pool := s.pool.openFailed }

def allows (s : Draining) : DrainStep → Bool
  | .opened _ | .openFailed => decide (0 < s.pool.opening)
  | _ => true

/-- While the pool is over its limit, no connection that came back is lent again. -/
def rests (s : Draining) : DrainStep → Bool
  | .acquire =>
    decide (s.pool.size ≤ s.pool.limit) ||
      s.pool.idle.getLast?.all fun connection => decide (connection.id ∉ s.returned)
  | _ => true

def Enabled (s : Draining) (event : DrainStep) : Prop :=
  s.allows event = true ∧ s.rests event = true

instance (s : Draining) (event : DrainStep) : Decidable (s.Enabled event) :=
  inferInstanceAs (Decidable (_ ∧ _))

end Draining

/-! ### Where a connection is -/

namespace Pool

variable {pool : Pool}

def ids (pool : Pool) : List UpstreamId :=
  pool.idle.map Connection.id ++ pool.checkedOut.keys

theorem size_eq (pool : Pool) : pool.size = pool.ids.length + pool.opening := by
  unfold size ids AList.keys List.keys
  rw [length_append, length_map, length_map]

theorem total_le_size (pool : Pool) : pool.total ≤ pool.size := by
  unfold total size saturatingAdd clampU32
  omega

inductive AcquireChange (pool : Pool) : Pool → Prop
  | reused {earlier : List Connection} {connection : Connection} :
      pool.idle = earlier ++ [connection] →
      AcquireChange pool
        { pool with
          idle := earlier
          checkedOut := pool.checkedOut.insert connection.id
            { connection with idleSince := none } }
  | openNew : pool.size < pool.limit → AcquireChange pool { pool with opening := pool.opening + 1 }
  | wait : AcquireChange pool pool

theorem acquireChange (pool : Pool) : AcquireChange pool pool.acquire.1 := by
  unfold acquire
  split
  · rename_i connection last
    obtain ⟨earlier, shape⟩ := getLast?_eq_some_iff.mp last
    have rest : pool.idle.dropLast = earlier := by rw [shape, dropLast_concat]
    rw [rest]
    exact .reused shape
  · split
    · rename_i below
      exact .openNew (size_lt_limit below)
    · exact .wait

/-- A clean release keeps the connection in a pool that retains fewer than its limit, or
drops it, or was of a connection that is not out. -/
inductive ReleaseChange (pool : Pool) (id : UpstreamId) (now : Nat) : Pool → Prop
  | kept {connection : Connection} :
      pool.checkedOut.lookup id = some connection → pool.idle.length < pool.limit →
      ReleaseChange pool id now
        { pool with
          checkedOut := pool.checkedOut.erase id
          idle := pool.idle ++ [{ connection with idleSince := some now }] }
  | dropped {connection : Connection} :
      pool.checkedOut.lookup id = some connection →
      ReleaseChange pool id now { pool with checkedOut := pool.checkedOut.erase id }
  | unknown : pool.checkedOut.lookup id = none → ReleaseChange pool id now pool

theorem releaseChange (pool : Pool) (id : UpstreamId) (now : Nat) :
    ReleaseChange pool id now (pool.release id .reusable now).1 := by
  unfold release
  cases found : pool.checkedOut.lookup id with
  | none => exact .unknown found
  | some connection =>
    dsimp only
    split
    · rename_i room
      apply ReleaseChange.kept found
      have below := room.2.1
      have bound := pool.limit_le
      have size := pool.config.maxSize_le
      unfold retained saturatingAdd clampU32 at below
      dsimp only at below
      omega
    · exact .dropped found

end Pool

/-! ### Within the limit for good -/

namespace Draining

variable {s : Draining} {event : DrainStep}

@[simp] theorem limit_step : (s.step event).pool.limit = s.pool.limit := by
  cases event with
  | acquire => exact Pool.acquire_limit _
  | release id now => exact Pool.release_limit _ _ _ _
  | opened | openFailed => rfl

theorem within_step (allowed : s.allows event = true) (within : s.pool.size ≤ s.pool.limit) :
    (s.step event).pool.size ≤ s.pool.limit := by
  rw [Pool.size_eq] at within ⊢
  unfold Pool.ids at within ⊢
  rw [length_append, length_map] at within ⊢
  cases event with
  | acquire =>
    change (s.pool.acquire.1.idle).length + s.pool.acquire.1.checkedOut.keys.length +
      s.pool.acquire.1.opening ≤ s.pool.limit
    have change := s.pool.acquireChange
    generalize s.pool.acquire.1 = after at change
    cases change with
    | @reused earlier connection shape =>
      have grown := Pool.keys_insert_length_le s.pool.checkedOut connection.id
        { connection with idleSince := none }
      have longer := congrArg List.length shape
      rw [length_append, length_singleton] at longer
      dsimp only
      omega
    | openNew below =>
      rw [Pool.size_eq] at below
      unfold Pool.ids at below
      rw [length_append, length_map] at below
      dsimp only
      omega
    | wait => exact within
  | release id now =>
    change ((s.pool.release id .reusable now).1.idle).length +
      (s.pool.release id .reusable now).1.checkedOut.keys.length +
      (s.pool.release id .reusable now).1.opening ≤ s.pool.limit
    have change := s.pool.releaseChange id now
    generalize (s.pool.release id .reusable now).1 = after at change
    cases change with
    | kept found _ =>
      have fewer := (Pool.keys_perm_of_lookup found).length_eq
      rw [length_cons] at fewer
      dsimp only
      rw [length_append, length_singleton]
      omega
    | dropped found =>
      have fewer := (Pool.keys_perm_of_lookup found).length_eq
      rw [length_cons] at fewer
      dsimp only
      omega
    | unknown _ => exact within
  | opened now =>
    have some := of_decide_eq_true allowed
    have grown := Pool.keys_insert_length_le s.pool.checkedOut ⟨s.pool.nextId⟩
      { id := ⟨s.pool.nextId⟩, idleSince := none, openedAt := now, expired := false }
    change s.pool.idle.length + (s.pool.checkedOut.insert _ _).keys.length +
      (s.pool.opening - 1) ≤ s.pool.limit
    omega
  | openFailed =>
    change s.pool.idle.length + s.pool.checkedOut.keys.length + (s.pool.opening - 1) ≤
      s.pool.limit
    omega

/-! ### Over the limit -/

/-- A pool still over its limit: it opens nothing, what came back is not out, and what
came back and was kept is within the limit. -/
structure Over (first : List UpstreamId) (s : Draining) : Prop where
  distinct : s.pool.ids.Nodup
  named : ∀ id connection, s.pool.checkedOut.lookup id = some connection → connection.id = id
  beyond : s.pool.limit < s.pool.size
  opening : s.pool.opening = 0
  known : ∀ id ∈ s.pool.ids, id ∈ first
  away : ∀ id ∈ s.returned, id ∉ s.pool.checkedOut.keys
  kept : (s.pool.idle.filter fun connection => connection.id ∈ s.returned).length ≤ s.pool.limit

variable {first : List UpstreamId}

theorem Over.acquire (excess : s.Over first) (rests : s.rests .acquire = true) :
    (s.step .acquire).Over first := by
  change Over first { s with pool := s.pool.acquire.1 }
  have change := s.pool.acquireChange
  have last : ∀ connection, s.pool.idle.getLast? = some connection →
      connection.id ∉ s.returned := by
    intro connection found
    unfold Draining.rests at rests
    rw [found, decide_eq_false (Nat.not_le.mpr excess.beyond)] at rests
    exact of_decide_eq_true rests
  generalize s.pool.acquire.1 = after at change
  cases change with
  | wait => exact excess
  | openNew below => exact absurd below (Nat.not_lt.mpr (Nat.le_of_lt excess.beyond))
  | @reused earlier connection shape =>
    have fresh : connection.id ∉ s.returned := by
      apply last
      rw [shape, getLast?_concat]
    have absent : connection.id ∉ s.pool.checkedOut.keys := by
      refine disjoint_of_nodup_append excess.distinct ?_
      rw [shape, map_append]
      exact mem_append_right _ mem_cons_self
    have same : Pool.ids
        { s.pool with
          idle := earlier
          checkedOut := s.pool.checkedOut.insert connection.id
            { connection with idleSince := none } } = s.pool.ids := by
      unfold Pool.ids
      rw [AList.keys_insert, erase_of_not_mem absent, shape, map_append,
        append_assoc]
      rfl
    have size := s.pool.size_eq
    refine ⟨?_, ?_, ?_, excess.opening, ?_, ?_, ?_⟩
    · rw [same]
      exact excess.distinct
    · intro id lent found
      rw [AList.lookup_insert_if] at found
      split at found
      · rename_i own
        cases found
        exact own.symm
      · exact excess.named id lent found
    · have before := excess.beyond
      rw [Pool.size_eq, same]
      dsimp only
      omega
    · rw [same]
      exact excess.known
    · intro id back out
      rw [AList.keys_insert, mem_cons] at out
      rcases out with rfl | earlier
      · exact fresh back
      · exact excess.away id back (mem_of_mem_erase earlier)
    · have before := excess.kept
      rw [shape, filter_append, length_append] at before
      dsimp only
      omega

theorem Over.release (excess : s.Over first) (id : UpstreamId) (now : Nat) :
    (s.step (.release id now)).pool.size ≤ s.pool.limit ∨
      (s.step (.release id now)).Over first := by
  change (s.pool.release id .reusable now).1.size ≤ s.pool.limit ∨
    Over first
      { pool := (s.pool.release id .reusable now).1
        returned := if (s.pool.checkedOut.lookup id).isSome then insert id s.returned
          else s.returned }
  have change := s.pool.releaseChange id now
  generalize (s.pool.release id .reusable now).1 = after at change
  have opening := excess.opening
  have before := excess.beyond
  rw [Pool.size_eq] at before
  have others : ∀ other lent, (s.pool.checkedOut.erase id).lookup other = some lent →
      lent.id = other := by
    intro other lent found
    rw [AList.lookup_erase_if] at found
    split at found
    · cases found
    · exact excess.named other lent found
  have gone : ∀ other ∈ insert id s.returned, other ∉ (s.pool.checkedOut.erase id).keys := by
    intro other back out
    rw [AList.keys_erase] at out
    rcases Finset.mem_insert.mp back with rfl | earlier
    · exact (List.Nodup.not_mem_erase s.pool.checkedOut.keys_nodup) out
    · exact excess.away other earlier (mem_of_mem_erase out)
  cases change with
  | unknown missing =>
    rw [missing]
    exact .inr excess
  | @kept connection found room =>
    have split := Pool.keys_perm_of_lookup found
    have own := excess.named id connection found
    have same : (Pool.ids
        { s.pool with
          checkedOut := s.pool.checkedOut.erase id
          idle := s.pool.idle ++ [{ connection with idleSince := some now }] }).Perm
            s.pool.ids := by
      unfold Pool.ids
      rw [map_append, append_assoc]
      refine List.Perm.append_left _ ?_
      rw [own]
      exact split.symm
    rw [found]
    refine .inr ⟨same.nodup_iff.mpr excess.distinct, others, ?_, opening, ?_, gone, ?_⟩
    · rw [Pool.size_eq, same.length_eq]
      omega
    · exact fun other among => excess.known other (same.mem_iff.mp among)
    · refine Nat.le_trans (length_filter_le _ _) ?_
      rw [length_append]
      exact room
  | @dropped connection found =>
    have split := Pool.keys_perm_of_lookup found
    have fewer : s.pool.ids.Perm
        (id :: Pool.ids { s.pool with checkedOut := s.pool.checkedOut.erase id }) :=
      (split.append_left _).trans perm_middle
    obtain ⟨absent, distinct⟩ := nodup_cons.mp (fewer.nodup_iff.mp excess.distinct)
    rw [found]
    rcases Nat.lt_or_ge s.pool.limit
      (Pool.size { s.pool with checkedOut := s.pool.checkedOut.erase id }) with still | enough
    · refine .inr ⟨distinct, others, still, opening, ?_, gone, ?_⟩
      · exact fun other among =>
          excess.known other (fewer.mem_iff.mpr (mem_cons_of_mem id among))
      · have unchanged : (s.pool.idle.filter fun connection =>
            connection.id ∈ insert id s.returned) =
              s.pool.idle.filter fun connection => connection.id ∈ s.returned := by
          apply filter_congr
          intro lent among
          have apart : lent.id ≠ id := by
            rintro rfl
            exact absent (mem_append_left _ (mem_map_of_mem among))
          simp [apart]
        change (s.pool.idle.filter fun connection =>
          connection.id ∈ insert id s.returned).length ≤ s.pool.limit
        rw [unchanged]
        exact excess.kept
    · exact .inl enough

theorem within_or_over {before : Draining}
    (initially : before.pool.size ≤ before.pool.limit ∨ before.Over first)
    (reachable : Run.Reachable before Enabled step s) :
    s.pool.size ≤ s.pool.limit ∨ s.Over first := by
  apply reachable.invariant (P := fun s => s.pool.size ≤ s.pool.limit ∨ s.Over first) initially
  intro s event holds enabled
  rw [limit_step]
  rcases holds with within | excess
  · exact .inl (within_step enabled.1 within)
  · cases event with
    | acquire => exact .inr (excess.acquire enabled.2)
    | release id now => exact excess.release id now
    | opened | openFailed =>
      have some := of_decide_eq_true enabled.1
      have none := excess.opening
      omega

theorem Over.false_of_returned (excess : s.Over first) (returned : ∀ id ∈ first, id ∈ s.returned) :
    False := by
  have all : ∀ id ∈ s.pool.ids, id ∈ s.returned := fun id among =>
    returned id (excess.known id among)
  have empty : s.pool.checkedOut.keys = [] := by
    apply eq_nil_iff_forall_not_mem.mpr
    intro id out
    exact excess.away id (all id (mem_append_right _ out)) out
  have kept := excess.kept
  have every : (s.pool.idle.filter fun connection => connection.id ∈ s.returned) = s.pool.idle := by
    apply filter_eq_self.mpr
    intro connection among
    exact decide_eq_true (all _ (mem_append_left _ (mem_map_of_mem among)))
  have size := excess.beyond
  have opening := excess.opening
  rw [Pool.size_eq] at size
  unfold Pool.ids at size
  rw [empty, append_nil, length_map] at size
  rw [every] at kept
  omega

end Draining

/-- With no connection being opened when the limit is set, and none lent again while the
pool is over it, the pool is within the limit once every connection it had has come
back. -/
theorem lowered_limit_drains (config : PoolConfig) {lending : Lending}
    (reached : Lending.Reached config lending) (key : PoolKey) (limit : Nat)
    (settled : (lending.live.entry key).pool.opening = 0) {s : Draining}
    (reachable : Run.Reachable (Draining.start (lending.live.entry key).pool limit)
      Draining.Enabled Draining.step s)
    (returned : ∀ id ∈ (lending.live.entry key).pool.ids, id ∈ s.returned) :
    s.pool.total ≤ limit := by
  have holds := Lending.sound_of_reached reached key
  have lowered := Pool.setLimit_limit_le (lending.live.entry key).pool limit
  have limit_eq : s.pool.limit = ((lending.live.entry key).pool.setLimit limit).limit := by
    apply reachable.invariant
      (P := fun s => s.pool.limit = ((lending.live.entry key).pool.setLimit limit).limit) rfl
    intro before event same _
    rw [Draining.limit_step]
    exact same
  have initially : (Draining.start (lending.live.entry key).pool limit).pool.size ≤
      (Draining.start (lending.live.entry key).pool limit).pool.limit ∨
        (Draining.start (lending.live.entry key).pool limit).Over
          (lending.live.entry key).pool.ids := by
    rcases Nat.lt_or_ge (Draining.start (lending.live.entry key).pool limit).pool.limit
      (Draining.start (lending.live.entry key).pool limit).pool.size with excess | within
    · refine .inr ⟨holds.distinct, holds.named, excess, settled, fun _ among => among, ?_, ?_⟩
      · exact fun id back => absurd back (Finset.notMem_empty id)
      · have none : (lending.live.entry key).pool.idle.filter
            (fun connection => connection.id ∈ (∅ : Finset UpstreamId)) = [] := by
          simp
        exact none ▸ Nat.zero_le _
    · exact .inl within
  rcases Draining.within_or_over initially reachable with within | excess
  · have total := s.pool.total_le_size
    omega
  · exact (excess.false_of_returned returned).elim

def threeOut : List LendingStep :=
  let begun := [LendingStep.begin acmeKey, .acquire acmeKey, .opened acmeKey 0]
  begun ++ begun ++ begun

def lentOut : Pool :=
  ((threeOut.foldl Lending.step (Lending.start .default)).live.entry acmeKey).pool

def inTurn : List DrainStep :=
  [.release ⟨1⟩ 1, .acquire, .release ⟨2⟩ 2, .acquire, .release ⟨3⟩ 3, .acquire]

theorem lowered_limit_never_reached :
    Run.Permitted (fun s event => s.allows event = true) Draining.step
        (Draining.start lentOut 1) inTurn ∧
      (∀ id ∈ lentOut.ids, id ∈ (inTurn.foldl Draining.step (Draining.start lentOut 1)).returned) ∧
        lentOut.opening = 0 ∧
          (inTurn.foldl Draining.step (Draining.start lentOut 1)).pool.total = 3 := by
  decide +kernel

theorem lowered_limit_drains_three_out :
    let back : List DrainStep := [.release ⟨1⟩ 1, .release ⟨2⟩ 2, .release ⟨3⟩ 3, .acquire]
    lentOut.total = 3 ∧
      (back.foldl Draining.step (Draining.start lentOut 1)).pool.total ≤ 1 := by
  intro back
  have reached : Lending.Reached .default (threeOut.foldl Lending.step (Lending.start .default)) :=
    Run.Reachable.foldl .start (by decide +kernel)
  have reachable : Run.Reachable (Draining.start lentOut 1) Draining.Enabled Draining.step
      (back.foldl Draining.step (Draining.start lentOut 1)) :=
    Run.Reachable.foldl .start (by decide +kernel)
  refine ⟨by decide +kernel, ?_⟩
  exact lowered_limit_drains .default reached acmeKey 1 (by decide +kernel) reachable
    (by decide +kernel)

end Pgprox.Pools
