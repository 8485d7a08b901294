/-
Dividing a cap, and the leader's ledger of what it lent from the free pool.

Each node has a guaranteed share of a server's cap; what is left is lent out as
leases that expire.  The ledger is one node's book of its own grants: nothing in
it is shared with a second node that believes it leads.
-/

import Pgprox.Core.Basic
import Pgprox.Library.FiniteMap

namespace Pgprox.Cluster

/-! ### The split -/

structure QuotaSplit where
  guaranteedPerNode : Nat
  freePool : Nat
  cap : Nat
  nodes : Nat
  deriving DecidableEq

def clampFraction (guaranteedFraction : ℚ) : ℚ :=
  max 0 (min guaranteedFraction 1)

def roundHalfEven (x : ℚ) : Nat :=
  let low := ⌊x⌋.toNat
  if x - low < 1 / 2 ∨ x - low = 1 / 2 ∧ low % 2 = 0 then low else low + 1

/-- How many bits of an `f64` stand behind the point; anything under a half floors to zero. -/
def fractionBits (x : ℚ) : Nat :=
  if x < 1 then 53 else 52 - Nat.log2 ⌊x⌋.toNat

/-- `(f64::from(cap) * fraction).floor()`: the product is rounded to 53 bits first. -/
def guaranteedTotal (cap : Nat) (guaranteedFraction : ℚ) : Nat :=
  let product := (cap : ℚ) * clampFraction guaranteedFraction
  let scale : Nat := 2 ^ fractionBits product
  roundHalfEven (product * scale) / scale

/-- Divide a cap between guaranteed shares and a free pool.  The remainder of
the division goes to nobody, and the pool does not depend on the node count. -/
def split (cap nodes : Nat) (guaranteedFraction : ℚ) : QuotaSplit :=
  if nodes = 0 then
    { guaranteedPerNode := 0, freePool := cap, cap := cap, nodes := 0 }
  else
    { guaranteedPerNode := guaranteedTotal cap guaranteedFraction / nodes
      freePool := cap - guaranteedTotal cap guaranteedFraction
      cap := cap
      nodes := nodes }

theorem floor_natCast (n : Nat) : ⌊(n : ℚ)⌋.toNat = n := by
  rw [Int.floor_natCast]
  rfl

theorem roundHalfEven_natCast (n : Nat) : roundHalfEven n = n := by
  unfold roundHalfEven
  rw [floor_natCast]
  simp

theorem roundHalfEven_le {x : ℚ} {n : Nat} (below : x ≤ n) : roundHalfEven x ≤ n := by
  have low : ⌊x⌋.toNat ≤ n := by
    have floored := Int.toNat_le_toNat (Int.floor_mono below)
    rwa [floor_natCast] at floored
  unfold roundHalfEven
  dsimp only
  split
  · exact low
  · rename_i up
    refine Nat.lt_of_le_of_ne low fun same => up (.inl ?_)
    rw [same]
    linarith

theorem clampFraction_le_one (guaranteedFraction : ℚ) : clampFraction guaranteedFraction ≤ 1 :=
  max_le zero_le_one (min_le_right _ _)

theorem guaranteedTotal_le (cap : Nat) (guaranteedFraction : ℚ) :
    guaranteedTotal cap guaranteedFraction ≤ cap := by
  unfold guaranteedTotal
  dsimp only
  generalize fractionBits _ = bits
  have product : (cap : ℚ) * clampFraction guaranteedFraction * (2 ^ bits : Nat) ≤
      (cap * 2 ^ bits : Nat) := by
    rw [Nat.cast_mul]
    refine mul_le_mul_of_nonneg_right ?_ (Nat.cast_nonneg _)
    exact mul_le_of_le_one_right (Nat.cast_nonneg cap) (clampFraction_le_one _)
  calc roundHalfEven _ / 2 ^ bits ≤ cap * 2 ^ bits / 2 ^ bits :=
        Nat.div_le_div_right (roundHalfEven_le product)
    _ = cap := Nat.mul_div_cancel cap (Nat.two_pow_pos bits)

theorem guaranteedTotal_one (cap : Nat) : guaranteedTotal cap 1 = cap := by
  have whole : clampFraction 1 = 1 := by decide
  unfold guaranteedTotal
  dsimp only
  rw [whole, mul_one]
  generalize fractionBits _ = bits
  have scaled : (cap : ℚ) * (2 ^ bits : Nat) = (cap * 2 ^ bits : Nat) := (Nat.cast_mul _ _).symm
  rw [scaled, roundHalfEven_natCast]
  exact Nat.mul_div_cancel cap (Nat.two_pow_pos bits)

structure NodeAllowance where
  server : ServerId
  guaranteed : Nat
  leased : Nat
  deriving DecidableEq

def NodeAllowance.total (allowance : NodeAllowance) : Nat :=
  saturatingAdd allowance.guaranteed allowance.leased

/-! ### Leases -/

structure QuotaLease where
  server : ServerId
  nominalCount : Nat
  expiresAt : Nat
  deriving DecidableEq

namespace QuotaLease

def isExpired (lease : QuotaLease) (now : Nat) : Bool :=
  decide (lease.expiresAt ≤ now)

def count (lease : QuotaLease) (now : Nat) : Nat :=
  if lease.isExpired now then 0 else lease.nominalCount

theorem count_le_nominalCount (lease : QuotaLease) (now : Nat) :
    lease.count now ≤ lease.nominalCount := by
  unfold count
  split
  · exact Nat.zero_le _
  · exact le_rfl

theorem count_antitone (lease : QuotaLease) {now later : Nat} (order : now ≤ later) :
    lease.count later ≤ lease.count now := by
  unfold count isExpired
  grind

end QuotaLease

inductive QuotaError where
  | exhausted (server : ServerId)
  | noLeader
  deriving DecidableEq

structure LeaseConfig where
  ttl : Nat
  takeoverWait : Nat
  deriving DecidableEq

def LeaseConfig.default : LeaseConfig where
  ttl := 5000
  takeoverWait := 5000

structure Grant where
  holder : NodeId
  count : Nat
  expiresAt : Nat
  deriving DecidableEq

structure LeaseLedger where
  config : LeaseConfig
  pool : Nat
  grants : FiniteMap NodeId Grant
  tookOffice : Option Nat
  deriving DecidableEq

namespace LeaseLedger

def new (pool : Nat) (config : LeaseConfig) : LeaseLedger where
  config := config
  pool := pool
  grants := ∅
  tookOffice := none

def setPool (ledger : LeaseLedger) (pool : Nat) : LeaseLedger :=
  { ledger with pool := pool }

/-- Taking office starts the wait; losing it discards the book.  A node that was
already leading is not reset. -/
def observeLeadership (ledger : LeaseLedger) (leading : Bool) (now : Nat) : LeaseLedger :=
  match leading, ledger.tookOffice with
  | true, none => { ledger with tookOffice := some now }
  | false, some _ => { ledger with tookOffice := none, grants := ∅ }
  | _, _ => ledger

def canGrant (ledger : LeaseLedger) (now : Nat) : Bool :=
  match ledger.tookOffice with
  | none => false
  | some since => decide (since + ledger.config.takeoverWait ≤ now)

def outstanding (ledger : LeaseLedger) (now : Nat) : Nat :=
  (ledger.grants.retain fun _ grant => decide (now < grant.expiresAt)).weigh
    fun _ grant => grant.count

def reap (ledger : LeaseLedger) (now : Nat) : LeaseLedger :=
  { ledger with grants := ledger.grants.retain fun _ grant => decide (now < grant.expiresAt) }

def heldByOthers (ledger : LeaseLedger) (holder : NodeId) (now : Nat) : Nat :=
  (ledger.grants.retain fun node grant =>
    decide (node ≠ holder) && decide (now < grant.expiresAt)).weigh fun _ grant => grant.count

/-- Grant up to `want` connections.  A renewal replaces the holder's grant. -/
def grant (ledger : LeaseLedger) (server : ServerId) (holder : NodeId) (want : Nat)
    (now : Nat) : Except QuotaError (LeaseLedger × QuotaLease) :=
  if ledger.canGrant now = false then .error .noLeader
  else
    let available := ledger.pool - ledger.heldByOthers holder now
    if available = 0 then .error (.exhausted server)
    else
      let granted := min want available
      let expiresAt := now + ledger.config.ttl
      .ok
        ({ ledger with
            grants := ledger.grants.insert holder
              { holder := holder, count := granted, expiresAt := expiresAt } },
          { server := server, nominalCount := granted, expiresAt := expiresAt })

def release (ledger : LeaseLedger) (holder : NodeId) : LeaseLedger :=
  { ledger with grants := ledger.grants.erase holder }

@[simp] theorem observeLeadership_config (ledger : LeaseLedger) (leading : Bool)
    (now : Nat) : (ledger.observeLeadership leading now).config = ledger.config := by
  unfold observeLeadership
  split <;> rfl

/-! ### What the book says of one holder -/

def booked (ledger : LeaseLedger) (holder : NodeId) (now : Nat) : Nat :=
  (ledger.grants.lookup holder).elim 0 fun grant =>
    if now < grant.expiresAt then grant.count else 0

/-- The book counts a lease in full for as long as the lease is worth anything. -/
def Covers (ledger : LeaseLedger) (holder : NodeId) (lease : QuotaLease) : Prop :=
  ∃ grant, ledger.grants.lookup holder = some grant ∧
    lease.nominalCount ≤ grant.count ∧ lease.expiresAt ≤ grant.expiresAt

variable {holder : NodeId} {lease : QuotaLease}

theorem Covers.count_le {ledger : LeaseLedger} (covers : ledger.Covers holder lease) (now : Nat) :
    lease.count now ≤ ledger.booked holder now := by
  rcases covers with ⟨grant, found, enough, longer⟩
  unfold booked QuotaLease.count QuotaLease.isExpired
  grind

variable (ledger : LeaseLedger) (now : Nat)

theorem outstanding_eq :
    ledger.outstanding now =
      ledger.grants.weigh fun _ grant => if now < grant.expiresAt then grant.count else 0 := by
  apply AList.weigh_congr
  intro holder
  rw [AList.lookup_retain]
  cases ledger.grants.lookup holder with
  | none => rfl
  | some grant =>
    by_cases live : now < grant.expiresAt
    · simp [Option.filter, live]
    · simp [Option.filter, live]

theorem heldByOthers_eq (holder : NodeId) (now : Nat) :
    ledger.heldByOthers holder now =
      (ledger.grants.erase holder).weigh
        fun _ grant => if now < grant.expiresAt then grant.count else 0 := by
  apply AList.weigh_congr
  intro other
  rw [AList.lookup_retain, AList.lookup_erase_if]
  by_cases same : other = holder
  · subst same
    cases ledger.grants.lookup other <;> simp [Option.filter]
  · rw [if_neg same]
    cases ledger.grants.lookup other with
    | none => rfl
    | some grant =>
      by_cases live : now < grant.expiresAt
      · simp [Option.filter, same, live]
      · simp [Option.filter, live]

theorem outstanding_eq_others_add_booked (holder : NodeId) (now : Nat) :
    ledger.outstanding now = ledger.heldByOthers holder now + ledger.booked holder now := by
  rw [outstanding_eq, heldByOthers_eq, AList.weigh_split _ _ holder]
  rfl

theorem outstanding_antitone {now later : Nat} (order : now ≤ later) :
    ledger.outstanding later ≤ ledger.outstanding now := by
  rw [outstanding_eq, outstanding_eq]
  apply AList.weigh_mono
  intro holder
  cases ledger.grants.lookup holder with
  | none => simp
  | some grant =>
    grind

theorem outstanding_reap_le (later : Nat) :
    (ledger.reap now).outstanding later ≤ ledger.outstanding later := by
  rw [outstanding_eq, outstanding_eq]
  apply AList.weigh_mono
  intro holder
  unfold reap
  rw [AList.lookup_retain]
  cases ledger.grants.lookup holder with
  | none => rfl
  | some grant =>
    by_cases live : now < grant.expiresAt
    · simp [Option.filter, live]
    · simp [Option.filter, live]

theorem observeLeadership_grants (leading : Bool) (now : Nat) :
    (ledger.observeLeadership leading now).grants = ledger.grants ∨
      (ledger.observeLeadership leading now).grants = ∅ ∧
        (ledger.observeLeadership leading now).tookOffice = none := by
  unfold observeLeadership
  split
  · exact .inl rfl
  · exact .inr ⟨rfl, rfl⟩
  · exact .inl rfl

theorem Covers.reap {ledger : LeaseLedger} (covers : ledger.Covers holder lease) {now : Nat}
    (alive : now < lease.expiresAt) : (ledger.reap now).Covers holder lease := by
  rcases covers with ⟨grant, found, enough, longer⟩
  refine ⟨grant, ?_, enough, longer⟩
  unfold LeaseLedger.reap
  rw [AList.lookup_retain, found]
  have kept : now < grant.expiresAt := Nat.lt_of_lt_of_le alive longer
  simp [kept]

theorem sum_le_heldByOthers (holder : NodeId) (now : Nat) (nodes : Finset NodeId)
    (amount : NodeId → Nat) (others : holder ∉ nodes)
    (covered : ∀ node ∈ nodes, amount node ≤ ledger.booked node now) :
    ∑ node ∈ nodes, amount node ≤ ledger.heldByOthers holder now := by
  rw [heldByOthers_eq]
  apply AList.sum_lookup_le_weigh
  intro node listed
  have different : node ≠ holder := by
    rintro rfl
    exact others listed
  rw [AList.lookup_erase_ne different]
  exact covered node listed

theorem canGrant_eq_true {ledger : LeaseLedger} {now : Nat}
    (can : ledger.canGrant now = true) :
    ∃ since, ledger.tookOffice = some since ∧ since + ledger.config.takeoverWait ≤ now := by
  unfold canGrant at can
  split at can
  · contradiction
  · rename_i since inOffice
    exact ⟨since, inOffice, of_decide_eq_true can⟩

variable {ledger' : LeaseLedger}

theorem grant_eq_ok {ledger : LeaseLedger} {server : ServerId} {want : Nat} {now : Nat}
    (granted : ledger.grant server holder want now = .ok (ledger', lease)) :
    ledger.canGrant now = true ∧ ledger.heldByOthers holder now < ledger.pool ∧
      lease = { server := server
                nominalCount := min want (ledger.pool - ledger.heldByOthers holder now)
                expiresAt := now + ledger.config.ttl } ∧
      ledger' = { ledger with
        grants := ledger.grants.insert holder
          { holder := holder, count := lease.nominalCount, expiresAt := lease.expiresAt } } := by
  unfold grant at granted
  split at granted
  · contradiction
  · rename_i can
    dsimp only at granted
    split at granted
    · contradiction
    · simp only [Except.ok.injEq, Prod.mk.injEq] at granted
      refine ⟨by simpa using can, by omega, granted.2.symm, ?_⟩
      rw [← granted.1, ← granted.2]

theorem outstanding_grant_le {ledger : LeaseLedger} {server : ServerId} {want : Nat} {now : Nat}
    (granted : ledger.grant server holder want now = .ok (ledger', lease)) :
    ledger'.outstanding now ≤ ledger'.pool := by
  obtain ⟨-, room, rfl, rfl⟩ := grant_eq_ok granted
  rw [outstanding_eq, AList.weigh_insert, ← heldByOthers_eq]
  grind

theorem Covers.grant {ledger : LeaseLedger} {server : ServerId} {asker : NodeId} {want : Nat}
    {now : Nat} {given : QuotaLease} (covers : ledger.Covers holder lease)
    (balanced : ledger.outstanding now ≤ ledger.pool)
    (granted : ledger.grant server asker want now = .ok (ledger', given))
    (alive : now < lease.expiresAt) (lasts : lease.expiresAt ≤ now + ledger.config.ttl)
    (enough : asker = holder → lease.count now ≤ want) : ledger'.Covers holder lease := by
  obtain ⟨-, room, rfl, rfl⟩ := grant_eq_ok granted
  unfold Covers
  rw [AList.lookup_insert_if]
  by_cases same : holder = asker
  · subst same
    rw [if_pos rfl]
    refine ⟨_, rfl, ?_, lasts⟩
    have booked := covers.count_le now
    have split := outstanding_eq_others_add_booked ledger holder now
    have worth : lease.count now = lease.nominalCount := by
      unfold QuotaLease.count QuotaLease.isExpired
      rw [decide_eq_false (Nat.not_le.mpr alive)]
      rfl
    have asked := enough rfl
    dsimp only
    omega
  · rw [if_neg same]
    exact covers

end LeaseLedger

end Pgprox.Cluster
