/-
One leader, many holders, and answers that may come late or not at all.

The leader's book follows its answers, a holder's belief follows their delivery.  A smaller
request replaces the entry at once, and a lost answer then leaves the holder with more than
the book says.
-/

import Pgprox.Cluster.Coordinator
import Pgprox.Cluster.LedgerRun

namespace Pgprox.Cluster

open List

structure Lending where
  book : Book
  holders : NodeId → NodeCoordinator
  answers : List (NodeId × QuotaLease)
  pools : List (Nat × Nat)

inductive LendingAct where
  | setPool (pool : Nat)
  | reap
  | request (holder : NodeId) (want : Nat)
  | deliver (holder : NodeId) (lease : QuotaLease) (expiresAt : Nat)
  deriving DecidableEq

structure LendingEvent where
  time : Nat
  act : LendingAct
  deriving DecidableEq

namespace Lending

def start (config : CoordinatorConfig) (lease : LeaseConfig) (pool : Nat) : Lending where
  book := (Book.start lease pool).step ⟨0, .observeLeadership true⟩
  holders := fun node => NodeCoordinator.new node config 0
  answers := []
  pools := [(0, pool)]

def ledgerOp (server : ServerId) : LendingAct → Option LedgerOp
  | .setPool pool => some (.setPool pool)
  | .reap => some .reap
  | .request holder want => some (.grant server holder want)
  | .deliver _ _ _ => none

def answered (server : ServerId) (s : Lending) (event : LendingEvent) :
    List (NodeId × QuotaLease) :=
  match event.act with
  | .request holder want =>
    match s.book.ledger.grant server holder want event.time with
    | .ok (_, lease) => [(holder, lease)]
    | .error _ => []
  | _ => []

def bookAfter (server : ServerId) (s : Lending) (event : LendingEvent) : Book :=
  match ledgerOp server event.act with
  | some op => s.book.step ⟨event.time, op⟩
  | none => { s.book with clock := event.time }

def holdersAfter (s : Lending) : LendingAct → NodeId → NodeCoordinator
  | .deliver holder lease expiresAt =>
    Function.update s.holders holder
      ((s.holders holder).accept { lease with expiresAt := expiresAt })
  | _ => s.holders

def step (server : ServerId) (s : Lending) (event : LendingEvent) : Lending where
  book := s.bookAfter server event
  holders := s.holdersAfter event.act
  answers := s.answers ++ s.answered server event
  pools := (event.time, (s.bookAfter server event).ledger.pool) :: s.pools

/-- Only what was answered is delivered.  An answer that is never delivered is lost. -/
def admits (s : Lending) : LendingAct → Bool
  | .setPool pool => decide (pool ≤ u32Max)
  | .deliver holder lease _ => decide ((holder, lease) ∈ s.answers)
  | _ => true

def Allowed (s : Lending) (event : LendingEvent) : Prop :=
  s.book.clock ≤ event.time ∧ s.admits event.act = true

instance (s : Lending) (event : LendingEvent) : Decidable (s.Allowed event) :=
  inferInstanceAs (Decidable (_ ∧ _))

def Counts (server : ServerId) (s : Lending) (holder : NodeId) (lease : QuotaLease) : Prop :=
  (holder, lease) ∈ s.answers ∨ (s.holders holder).held.lookup server = some lease

/-- A request that can be granted asks for no less than its holder may count on, from a
pool no smaller than what is out; a delivered lease does not outlast the leader's. -/
def InFull (server : ServerId) (s : Lending) (event : LendingEvent) : Prop :=
  match event.act with
  | .request holder want =>
    s.book.ledger.canGrant event.time = true →
      s.book.ledger.heldByOthers holder event.time < s.book.ledger.pool →
        s.book.ledger.outstanding event.time ≤ s.book.ledger.pool ∧
          ∀ lease, s.Counts server holder lease → event.time < lease.expiresAt →
            lease.nominalCount ≤ want
  | .deliver _ lease expiresAt => expiresAt ≤ lease.expiresAt
  | _ => True

def InForceSince (s : Lending) (since value : Nat) : Prop :=
  value = s.book.ledger.pool ∨ ∃ time, since ≤ time ∧ (time, value) ∈ s.pools

def believed (server : ServerId) (s : Lending) (nodes : Finset NodeId) (now : Nat) : Nat :=
  ∑ node ∈ nodes, ((s.holders node).allowance server now).leased

/-! ### What one event changes -/

variable {server : ServerId} {s : Lending} {event : LendingEvent}

theorem clock_step : (s.step server event).book.clock = event.time := by
  change (s.bookAfter server event).clock = event.time
  unfold bookAfter
  split <;> rfl

variable {holder : NodeId} {lease : QuotaLease}

theorem mem_answered (listed : (holder, lease) ∈ s.answered server event) :
    ∃ want ledger, event.act = .request holder want ∧
      s.book.ledger.grant server holder want event.time = .ok (ledger, lease) := by
  unfold answered at listed
  split at listed
  · rename_i asker want asked
    split at listed
    · rename_i ledger given granted
      obtain ⟨rfl, rfl⟩ := Prod.mk.inj (mem_singleton.mp listed)
      exact ⟨want, ledger, asked, granted⟩
    · cases listed
  · cases listed

theorem counts_step (named : ∀ holder lease, (holder, lease) ∈ s.answers → lease.server = server)
    (allowed : s.Allowed event) (counts : (s.step server event).Counts server holder lease) :
    s.Counts server holder lease ∨
      (∃ want ledger, event.act = .request holder want ∧
        s.book.ledger.grant server holder want event.time = .ok (ledger, lease)) ∨
      ∃ given expiresAt, event.act = .deliver holder given expiresAt ∧
        (holder, given) ∈ s.answers ∧ lease = { given with expiresAt := expiresAt } := by
  rcases counts with listed | held
  · rcases mem_append.mp listed with earlier | new
    · exact .inl (.inl earlier)
    · exact .inr (.inl (mem_answered new))
  · obtain ⟨time, act⟩ := event
    cases act with
    | deliver asker given expiresAt =>
      have present : (asker, given) ∈ s.answers := of_decide_eq_true allowed.2
      change (Function.update s.holders asker
        ((s.holders asker).accept { given with expiresAt := expiresAt }) holder).held.lookup
          server = some lease at held
      by_cases own : holder = asker
      · subst own
        rw [Function.update_self] at held
        unfold NodeCoordinator.accept at held
        obtain rfl := named holder given present
        rw [AList.lookup_insert] at held
        exact .inr (.inr ⟨given, expiresAt, rfl, present, (Option.some.inj held).symm⟩)
      · rw [Function.update_of_ne own] at held
        exact .inl (.inr held)
    | setPool | reap | request => exact .inl (.inr held)

theorem config_bookAfter :
    (s.bookAfter server event).ledger.config = s.book.ledger.config := by
  unfold bookAfter
  split
  · exact s.book.config_act event.time _
  · rfl

theorem sound_bookAfter (sound : s.book.Sound) (allowed : s.Allowed event) :
    (s.bookAfter server event).Sound := by
  obtain ⟨time, act⟩ := event
  cases act with
  | setPool pool => exact sound.step ⟨allowed.1, allowed.2⟩
  | reap | request => exact sound.step ⟨allowed.1, rfl⟩
  | deliver holder lease expiresAt => exact sound.later allowed.1

/-! ### The book covers every belief -/

structure Backed (server : ServerId) (s : Lending) : Prop where
  sound : s.book.Sound
  named : ∀ holder lease, (holder, lease) ∈ s.answers → lease.server = server
  covered : ∀ holder lease, s.Counts server holder lease → s.book.clock < lease.expiresAt →
    s.book.ledger.Covers holder lease
  lasts : ∀ holder lease, s.Counts server holder lease →
    lease.expiresAt ≤ s.book.clock + s.book.ledger.config.ttl
  dated : ∀ holder grant, s.book.ledger.grants.lookup holder = some grant →
    ∃ time, grant.expiresAt = time + s.book.ledger.config.ttl ∧
      (time, (s.book.issues holder).pool) ∈ s.pools

theorem covers_bookAfter (covers : s.book.ledger.Covers holder lease)
    (inFull : s.InFull server event) (counts : s.Counts server holder lease)
    (alive : event.time < lease.expiresAt)
    (lasts : lease.expiresAt ≤ event.time + s.book.ledger.config.ttl) :
    (s.bookAfter server event).ledger.Covers holder lease := by
  obtain ⟨time, act⟩ := event
  cases act with
  | setPool pool => exact covers
  | reap => exact covers.reap alive
  | deliver asker given expiresAt => exact covers
  | request asker want =>
    change (s.book.act time (.grant server asker want)).ledger.Covers holder lease
    rcases s.book.act_grant time server asker want with same | ⟨ledger, given, granted, after⟩
    · rw [same]
      exact covers
    · rw [after]
      obtain ⟨can, room, -, -⟩ := LeaseLedger.grant_eq_ok granted
      obtain ⟨balanced, enough⟩ := inFull can room
      refine covers.grant balanced granted alive lasts ?_
      rintro rfl
      exact (lease.count_le_nominalCount time).trans (enough lease counts alive)

theorem covers_of_granted {ledger after : LeaseLedger} {want now : Nat}
    (granted : ledger.grant server holder want now = .ok (after, lease)) :
    after.Covers holder lease := by
  obtain ⟨-, -, -, rfl⟩ := LeaseLedger.grant_eq_ok granted
  exact ⟨_, AList.lookup_insert _, Nat.le_refl _, Nat.le_refl _⟩

theorem Backed.covered_step (backed : s.Backed server) (allowed : s.Allowed event)
    (inFull : s.InFull server event) (holder : NodeId) (lease : QuotaLease)
    (counts : (s.step server event).Counts server holder lease)
    (alive : event.time < lease.expiresAt) :
    (s.bookAfter server event).ledger.Covers holder lease := by
  have old : ∀ earlier, s.Counts server holder earlier → event.time < earlier.expiresAt →
      (s.bookAfter server event).ledger.Covers holder earlier := by
    intro earlier counted stands
    have lasts := backed.lasts holder earlier counted
    have order := allowed.1
    refine covers_bookAfter (backed.covered holder earlier counted ?_) inFull counted stands ?_
    · exact order.trans_lt stands
    · omega
  rcases counts_step backed.named allowed counts with
    counted | ⟨want, ledger, asked, granted⟩ | ⟨given, expiresAt, delivered, present, rfl⟩
  · exact old lease counted alive
  · obtain ⟨time, act⟩ := event
    obtain rfl : act = .request holder want := asked
    change (s.book.act time (.grant server holder want)).ledger.Covers holder lease
    unfold Book.act
    dsimp only at granted ⊢
    rw [granted]
    exact covers_of_granted granted
  · have earlier : expiresAt ≤ given.expiresAt := by
      unfold InFull at inFull
      rwa [delivered] at inFull
    obtain ⟨entry, found, enough, longer⟩ := old given (.inl present)
      (alive.trans_le earlier)
    exact ⟨entry, found, enough, Nat.le_trans earlier longer⟩

theorem Backed.lasts_step (backed : s.Backed server) (allowed : s.Allowed event)
    (inFull : s.InFull server event) (holder : NodeId) (lease : QuotaLease)
    (counts : (s.step server event).Counts server holder lease) :
    lease.expiresAt ≤ event.time + s.book.ledger.config.ttl := by
  have order := allowed.1
  rcases counts_step backed.named allowed counts with
    counted | ⟨want, ledger, asked, granted⟩ | ⟨given, expiresAt, delivered, present, rfl⟩
  · have before := backed.lasts holder lease counted
    omega
  · obtain ⟨-, -, rfl, -⟩ := LeaseLedger.grant_eq_ok granted
    exact le_rfl
  · have before := backed.lasts holder given (.inl present)
    have earlier : expiresAt ≤ given.expiresAt := by
      unfold InFull at inFull
      rwa [delivered] at inFull
    dsimp only
    omega

theorem Backed.dated_step (backed : s.Backed server) (holder : NodeId) (grant : Grant)
    (found : (s.bookAfter server event).ledger.grants.lookup holder = some grant) :
    ∃ time, grant.expiresAt = time + s.book.ledger.config.ttl ∧
      (time, ((s.bookAfter server event).issues holder).pool) ∈ (s.step server event).pools := by
  have kept : s.book.ledger.grants.lookup holder = some grant →
      (s.bookAfter server event).issues holder = s.book.issues holder →
      ∃ time, grant.expiresAt = time + s.book.ledger.config.ttl ∧
        (time, ((s.bookAfter server event).issues holder).pool) ∈
          (s.step server event).pools := by
    intro before same
    obtain ⟨time, dated, recorded⟩ := backed.dated holder grant before
    rw [same]
    exact ⟨time, dated, mem_cons_of_mem _ recorded⟩
  obtain ⟨time, act⟩ := event
  cases act with
  | setPool | deliver => exact kept found rfl
  | reap =>
    apply kept _ rfl
    change (s.book.ledger.grants.retain _).lookup holder = some grant at found
    rw [AList.lookup_retain] at found
    exact (Option.filter_eq_some_iff.mp found).1
  | request asker want =>
    rcases s.book.act_grant time server asker want with same | ⟨ledger, given, granted, after⟩
    · have book : s.bookAfter server ⟨time, .request asker want⟩ =
          { s.book with clock := time } := congrArg (fun b : Book => { b with clock := time }) same
      apply kept
      · rwa [book] at found
      · rw [book]
    · have book : s.bookAfter server ⟨time, .request asker want⟩ = _ :=
        congrArg (fun b : Book => { b with clock := time }) after
      obtain ⟨-, -, rfl, rfl⟩ := LeaseLedger.grant_eq_ok granted
      by_cases own : holder = asker
      · subst own
        rw [book] at found
        rw [AList.lookup_insert] at found
        cases found
        refine ⟨time, rfl, ?_⟩
        rw [book]
        dsimp only
        rw [Function.update_self]
        unfold step
        rw [book]
        exact mem_cons_self
      · apply kept
        · rw [book] at found
          rwa [AList.lookup_insert_ne own] at found
        · rw [book]
          exact Function.update_of_ne own _ _

theorem Backed.step (backed : s.Backed server) (allowed : s.Allowed event)
    (inFull : s.InFull server event) : (s.step server event).Backed server where
  sound := sound_bookAfter backed.sound allowed
  named holder lease listed := by
    rcases mem_append.mp listed with earlier | new
    · exact backed.named holder lease earlier
    · obtain ⟨want, ledger, -, granted⟩ := mem_answered new
      obtain ⟨-, -, rfl, -⟩ := LeaseLedger.grant_eq_ok granted
      rfl
  covered holder lease counts alive := by
    rw [clock_step] at alive
    exact backed.covered_step allowed inFull holder lease counts alive
  lasts holder lease counts := by
    rw [clock_step]
    change _ ≤ event.time + (s.bookAfter server event).ledger.config.ttl
    rw [config_bookAfter]
    exact backed.lasts_step allowed inFull holder lease counts
  dated holder grant found := by
    change ∃ time, grant.expiresAt = time + (s.bookAfter server event).ledger.config.ttl ∧ _
    rw [config_bookAfter]
    exact backed.dated_step holder grant found

theorem backed_start (config : CoordinatorConfig) (lease : LeaseConfig) {pool : Nat}
    (fits : pool ≤ u32Max) : (start config lease pool).Backed server where
  sound := (Book.sound_start lease fits).step ⟨Nat.le_refl 0, rfl⟩
  named _ _ listed := by cases listed
  covered _ _ counts _ := by rcases counts with listed | held <;> contradiction
  lasts _ _ counts := by rcases counts with listed | held <;> contradiction
  dated _ _ found := by cases found

/-! ### The bound -/

variable {now : Nat}

theorem Backed.believed_le_outstanding (backed : s.Backed server) (later : s.book.clock ≤ now)
    (nodes : Finset NodeId) : s.believed server nodes now ≤ s.book.ledger.outstanding now := by
  rw [LeaseLedger.outstanding_eq]
  apply AList.sum_lookup_le_weigh
  intro node _
  change ((s.holders node).held.lookup server).elim 0 (fun lease => lease.count now) ≤
    s.book.ledger.booked node now
  cases held : (s.holders node).held.lookup server with
  | none => exact Nat.zero_le _
  | some lease =>
    rw [Option.elim_some]
    rcases Nat.lt_or_ge now lease.expiresAt with alive | expired
    · apply LeaseLedger.Covers.count_le
      exact backed.covered node lease (.inr held) (later.trans_lt alive)
    · unfold QuotaLease.count QuotaLease.isExpired
      rw [if_pos (decide_eq_true expired)]
      exact Nat.zero_le _

theorem Backed.outstanding_le_inForce (backed : s.Backed server) (later : s.book.clock ≤ now) :
    ∃ value, s.InForceSince (now - s.book.ledger.config.ttl) value ∧
      s.book.ledger.outstanding now ≤ value := by
  rcases Nat.eq_zero_or_pos (s.book.ledger.outstanding now) with nothing | something
  · exact ⟨s.book.ledger.pool, .inl rfl, by omega⟩
  · obtain ⟨holder, grant, found, alive, newest⟩ := s.book.exists_newest something
    obtain ⟨time, dated, recorded⟩ := backed.dated holder grant found
    refine ⟨(s.book.issues holder).pool, .inr ⟨time, by omega, recorded⟩, ?_⟩
    exact backed.sound.outstanding_le later found newest

end Lending

/-- With one leader that keeps office, whatever is answered, delivered late or lost, the
holders together believe in no more than a pool in force within the last lifetime, as
long as requests are made and answered in full. -/
theorem lost_replies_within (config : CoordinatorConfig) (lease : LeaseConfig) {pool : Nat}
    (fits : pool ≤ u32Max) (server : ServerId) {s : Lending}
    (reachable : Run.Reachable (Lending.start config lease pool)
      (fun s event => s.Allowed event ∧ s.InFull server event) (Lending.step server) s)
    (now : Nat) (later : s.book.clock ≤ now) (nodes : Finset NodeId) :
    ∃ value, s.InForceSince (now - lease.ttl) value ∧ s.believed server nodes now ≤ value := by
  have invariant : s.Backed server ∧ s.book.ledger.config = lease := by
    apply reachable.invariant (P := fun s => s.Backed server ∧ s.book.ledger.config = lease)
    · exact ⟨Lending.backed_start config lease fits, rfl⟩
    · intro before event holds allowed
      refine ⟨holds.1.step allowed.1 allowed.2, ?_⟩
      change (before.bookAfter server event).ledger.config = lease
      rw [Lending.config_bookAfter]
      exact holds.2
  obtain ⟨backed, rfl⟩ := invariant
  obtain ⟨value, inForce, bounded⟩ := backed.outstanding_le_inForce later
  exact ⟨value, inForce, Nat.le_trans (backed.believed_le_outstanding later nodes) bounded⟩

def lostRenewal : List LendingEvent :=
  let given (count expiresAt : Nat) : QuotaLease := ⟨⟨"db:5432"⟩, count, expiresAt⟩
  [⟨5000, .request 2 7⟩, ⟨5001, .deliver 2 (given 7 10000) 10000⟩, ⟨5002, .request 2 1⟩,
    ⟨5003, .request 3 9⟩, ⟨5004, .deliver 3 (given 9 10003) 10003⟩]

theorem lost_reply_exceeds_pool :
    let start := Lending.start CoordinatorConfig.default LeaseConfig.default 10
    let s := lostRenewal.foldl (Lending.step ⟨"db:5432"⟩) start
    Run.Permitted Lending.Allowed (Lending.step ⟨"db:5432"⟩) start lostRenewal ∧
      (∀ recorded ∈ s.pools, recorded.2 = 10) ∧ s.book.ledger.pool = 10 ∧
        s.book.clock = 5004 ∧ s.believed ⟨"db:5432"⟩ {2, 3} 5004 = 16 := by
  decide +kernel

theorem Lending.inFull_request {server : ServerId} {s : Lending} {time want : Nat}
    {holder : NodeId} (within : s.book.ledger.outstanding time ≤ s.book.ledger.pool)
    (answered : ∀ answer ∈ s.answers, answer.1 = holder → answer.2.nominalCount ≤ want)
    (held : ∀ lease ∈ (s.holders holder).held.lookup server, lease.nominalCount ≤ want) :
    s.InFull server ⟨time, .request holder want⟩ := by
  refine fun _ _ => ⟨within, ?_⟩
  rintro lease (listed | counted) _
  · exact answered _ listed rfl
  · exact held _ counted

/-- Node 2 asks for more and never hears the answer, and goes on with what it had. -/
def lostIncrease : List LendingEvent :=
  let given (count expiresAt : Nat) : QuotaLease := ⟨⟨"db:5432"⟩, count, expiresAt⟩
  [⟨5000, .request 2 7⟩, ⟨5001, .deliver 2 (given 7 10000) 9999⟩, ⟨5002, .request 2 8⟩,
    ⟨5003, .request 3 2⟩, ⟨5004, .deliver 3 (given 2 10003) 10003⟩]

theorem lost_replies_within_increase :
    let s := lostIncrease.foldl (Lending.step ⟨"db:5432"⟩)
      (Lending.start CoordinatorConfig.default LeaseConfig.default 10)
    s.believed ⟨"db:5432"⟩ {2, 3} 6000 = 9 ∧
      ∃ value, s.InForceSince (6000 - LeaseConfig.default.ttl) value ∧
        s.believed ⟨"db:5432"⟩ {2, 3} 6000 ≤ value := by
  intro s
  have reachable : Run.Reachable
      (Lending.start CoordinatorConfig.default LeaseConfig.default 10)
      (fun s event => s.Allowed event ∧ s.InFull ⟨"db:5432"⟩ event)
      (Lending.step ⟨"db:5432"⟩) s := by
    refine Run.Reachable.foldl .start ⟨⟨by decide +kernel, Lending.inFull_request ?_ ?_ ?_⟩,
      ⟨by decide +kernel, ?_⟩, ⟨by decide +kernel, Lending.inFull_request ?_ ?_ ?_⟩,
      ⟨by decide +kernel, Lending.inFull_request ?_ ?_ ?_⟩, ⟨by decide +kernel, ?_⟩, trivial⟩
    · decide +kernel
    · decide +kernel
    · decide +kernel
    · change 9999 ≤ 10000
      decide
    · decide +kernel
    · decide +kernel
    · decide +kernel
    · decide +kernel
    · decide +kernel
    · decide +kernel
    · change 10003 ≤ 10003
      decide
  exact ⟨by decide +kernel,
    lost_replies_within CoordinatorConfig.default LeaseConfig.default (by decide) ⟨"db:5432"⟩
      reachable 6000 (by decide +kernel) {2, 3}⟩

end Pgprox.Cluster
