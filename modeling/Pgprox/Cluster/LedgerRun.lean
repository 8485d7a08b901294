/-
One ledger through any sequence of its operations.

The run carries what the ledger itself does not keep: the leadership decisions, and for
each holder the number of its last grant and the pool it was made against.
-/

import Pgprox.Cluster.Lease
import Pgprox.Library.Run

namespace Pgprox.Cluster

inductive LedgerOp where
  | setPool (pool : Nat)
  | observeLeadership (leading : Bool)
  | grant (server : ServerId) (holder : NodeId) (want : Nat)
  | release (holder : NodeId)
  | reap
  deriving DecidableEq

def LedgerOp.fits : LedgerOp → Bool
  | .setPool pool => decide (pool ≤ u32Max)
  | _ => true

structure LedgerEvent where
  time : Nat
  op : LedgerOp
  deriving DecidableEq

structure Issue where
  number : Nat
  pool : Nat
  deriving DecidableEq

structure Book where
  ledger : LeaseLedger
  clock : Nat
  leading : Bool
  turned : Option Nat
  issues : NodeId → Issue
  made : Nat

namespace LeaseLedger

def live (ledger : LeaseLedger) (chosen : NodeId → Bool) (now : Nat) : Nat :=
  ledger.grants.weigh fun holder grant =>
    if chosen holder = true ∧ now < grant.expiresAt then grant.count else 0

theorem outstanding_eq_live (ledger : LeaseLedger) (now : Nat) :
    ledger.outstanding now = ledger.live (fun _ => true) now := by
  rw [outstanding_eq]
  unfold live
  simp only [true_and]

theorem live_mono {ledger after : LeaseLedger} {chosen chosen' : NodeId → Bool}
    {now later : Nat} (order : now ≤ later)
    (kept : ∀ holder grant, after.grants.lookup holder = some grant → chosen' holder = true →
      later < grant.expiresAt →
        ledger.grants.lookup holder = some grant ∧ chosen holder = true) :
    after.live chosen' later ≤ ledger.live chosen now := by
  apply AList.weigh_mono
  intro holder
  cases found : after.grants.lookup holder with
  | none => exact Nat.zero_le _
  | some grant =>
    rw [Option.elim_some]
    split
    · rename_i counted
      obtain ⟨listed, picked⟩ := kept holder grant found counted.1 counted.2
      rw [listed, Option.elim_some, if_pos ⟨picked, Nat.lt_of_le_of_lt order counted.2⟩]
    · exact Nat.zero_le _

theorem live_le_outstanding (ledger : LeaseLedger) (chosen : NodeId → Bool) (now : Nat) :
    ledger.live chosen now ≤ ledger.outstanding now := by
  rw [outstanding_eq_live]
  exact live_mono (Nat.le_refl now) fun _ _ found _ _ => ⟨found, rfl⟩

end LeaseLedger

namespace Book

def start (config : LeaseConfig) (pool : Nat) : Book where
  ledger := LeaseLedger.new pool config
  clock := 0
  leading := false
  turned := none
  issues := fun _ => { number := 0, pool := 0 }
  made := 0

def act (book : Book) (now : Nat) : LedgerOp → Book
  | .setPool pool => { book with ledger := book.ledger.setPool pool }
  | .observeLeadership leading =>
    { book with
      ledger := book.ledger.observeLeadership leading now
      leading := leading
      turned := if book.leading = false ∧ leading = true then some now else book.turned }
  | .grant server holder want =>
    match book.ledger.grant server holder want now with
    | .error _ => book
    | .ok (ledger, _) =>
      { book with
        ledger := ledger
        issues := Function.update book.issues holder
          { number := book.made + 1, pool := book.ledger.pool }
        made := book.made + 1 }
  | .release holder => { book with ledger := book.ledger.release holder }
  | .reap => { book with ledger := book.ledger.reap now }

def step (book : Book) (event : LedgerEvent) : Book :=
  { book.act event.time event.op with clock := event.time }

def Allowed (book : Book) (event : LedgerEvent) : Prop :=
  book.clock ≤ event.time ∧ event.op.fits = true

instance (book : Book) (event : LedgerEvent) : Decidable (book.Allowed event) :=
  inferInstanceAs (Decidable (_ ∧ _))

/-! ### What one operation can do -/

inductive Change (book : Book) (now : Nat) : Book → Prop
  | granted {holder : NodeId} {want : Nat} {server : ServerId} {ledger : LeaseLedger}
      {lease : QuotaLease} :
      book.ledger.grant server holder want now = .ok (ledger, lease) →
      Change book now
        { book with
          ledger := ledger
          issues := Function.update book.issues holder
            { number := book.made + 1, pool := book.ledger.pool }
          made := book.made + 1 }
  | kept {after : Book} :
      (∀ holder grant, after.ledger.grants.lookup holder = some grant →
        book.ledger.grants.lookup holder = some grant) →
      after.ledger.config = book.ledger.config →
      after.issues = book.issues → after.made = book.made →
      Change book now after

theorem lookup_observeLeadership {ledger : LeaseLedger} {leading : Bool} {now : Nat}
    {holder : NodeId} {grant : Grant}
    (found : (ledger.observeLeadership leading now).grants.lookup holder = some grant) :
    ledger.grants.lookup holder = some grant := by
  rcases ledger.observeLeadership_grants leading now with same | ⟨empty, -⟩
  · rwa [same] at found
  · rw [empty] at found
    cases found

theorem act_grant (book : Book) (now : Nat) (server : ServerId) (holder : NodeId)
    (want : Nat) :
    book.act now (.grant server holder want) = book ∨
      ∃ ledger lease, book.ledger.grant server holder want now = .ok (ledger, lease) ∧
        book.act now (.grant server holder want) =
          { book with
            ledger := ledger
            issues := Function.update book.issues holder
              { number := book.made + 1, pool := book.ledger.pool }
            made := book.made + 1 } := by
  unfold act
  dsimp only
  cases book.ledger.grant server holder want now with
  | error reason => exact .inl rfl
  | ok answer => exact .inr ⟨answer.1, answer.2, rfl, rfl⟩

theorem change_act (book : Book) (now : Nat) (op : LedgerOp) :
    Change book now (book.act now op) := by
  cases op with
  | setPool pool => exact .kept (fun _ _ found => found) rfl rfl rfl
  | observeLeadership leading =>
    exact .kept (fun _ _ found => lookup_observeLeadership found)
      (LeaseLedger.observeLeadership_config _ _ _) rfl rfl
  | grant server holder want =>
    rcases book.act_grant now server holder want with same | ⟨ledger, lease, granted, after⟩
    · rw [same]
      exact .kept (fun _ _ found => found) rfl rfl rfl
    · rw [after]
      exact .granted granted
  | release holder =>
    refine .kept ?_ rfl rfl rfl
    intro other grant found
    change (book.ledger.grants.erase holder).lookup other = some grant at found
    rw [AList.lookup_erase_if] at found
    split at found
    · cases found
    · exact found
  | reap =>
    refine .kept ?_ rfl rfl rfl
    intro other grant found
    change (book.ledger.grants.retain _).lookup other = some grant at found
    rw [AList.lookup_retain] at found
    exact (Option.filter_eq_some_iff.mp found).1

theorem config_act (book : Book) (now : Nat) (op : LedgerOp) :
    (book.act now op).ledger.config = book.ledger.config := by
  have change := book.change_act now op
  generalize book.act now op = after at change
  cases change with
  | kept _ config _ _ => exact config
  | granted granted =>
    obtain ⟨-, -, -, rfl⟩ := LeaseLedger.grant_eq_ok granted
    rfl

/-! ### The invariant -/

def upTo (book : Book) (holder other : NodeId) : Bool :=
  decide ((book.issues other).number ≤ (book.issues holder).number)

structure Sound (book : Book) : Prop where
  /-- Everything granted no later than a standing grant was within its pool. -/
  within : ∀ holder grant, book.ledger.grants.lookup holder = some grant →
    book.ledger.live (book.upTo holder) book.clock ≤ (book.issues holder).pool
  numbered : ∀ holder, (book.issues holder).number ≤ book.made
  fits : book.ledger.pool ≤ u32Max
  counted : book.ledger.outstanding book.clock ≤ u32Max
  named : ∀ holder grant, book.ledger.grants.lookup holder = some grant → grant.holder = holder
  office : book.ledger.tookOffice = if book.leading then book.turned else none
  turned : book.leading = true → book.turned.isSome

variable {after : Book}

theorem within_change {book : Book} {now : Nat} (sound : book.Sound) (later : book.clock ≤ now)
    (change : Change book now after) :
    ∀ holder grant, after.ledger.grants.lookup holder = some grant →
      after.ledger.live (after.upTo holder) now ≤ (after.issues holder).pool := by
  cases change with
  | kept kept _ issues _ =>
    intro holder grant found
    have before := sound.within holder grant (kept holder grant found)
    have same : after.upTo holder = book.upTo holder := by
      unfold upTo
      rw [issues]
    rw [issues, same]
    refine Nat.le_trans (LeaseLedger.live_mono later ?_) before
    exact fun other entry listed chosen _ => ⟨kept other entry listed, chosen⟩
  | @granted asker want server ledger lease granted =>
    intro holder grant found
    by_cases own : holder = asker
    · subst own
      -- The newest grant: everything live is counted against its own pool.
      have bound := LeaseLedger.outstanding_grant_le granted
      obtain ⟨-, -, -, rfl⟩ := LeaseLedger.grant_eq_ok granted
      dsimp only
      rw [Function.update_self]
      exact (LeaseLedger.live_le_outstanding _ _ _).trans bound
    · -- An older grant: the new entry is numbered above it.
      obtain ⟨-, -, rfl, rfl⟩ := LeaseLedger.grant_eq_ok granted
      dsimp only at found ⊢
      rw [AList.lookup_insert_ne own] at found
      have before := sound.within holder grant found
      have low := sound.numbered holder
      rw [Function.update_of_ne own]
      refine Nat.le_trans (LeaseLedger.live_mono later ?_) before
      intro other entry listed chosen _
      have number := of_decide_eq_true chosen
      dsimp only at listed number
      rw [Function.update_of_ne own] at number
      by_cases same : other = asker
      · rw [same, Function.update_self] at number
        dsimp only at number
        omega
      · rw [Function.update_of_ne same] at number
        rw [AList.lookup_insert_ne same] at listed
        exact ⟨listed, decide_eq_true number⟩

theorem counted_change {book : Book} {now : Nat} (sound : book.Sound) (later : book.clock ≤ now)
    (change : Change book now after) : after.ledger.outstanding now ≤ u32Max := by
  cases change with
  | kept kept _ _ _ =>
    have before := sound.counted
    rw [LeaseLedger.outstanding_eq_live] at before ⊢
    refine Nat.le_trans (LeaseLedger.live_mono later ?_) before
    exact fun other entry listed _ _ => ⟨kept other entry listed, rfl⟩
  | granted granted =>
    have bound := LeaseLedger.outstanding_grant_le granted
    obtain ⟨-, -, -, rfl⟩ := LeaseLedger.grant_eq_ok granted
    exact bound.trans sound.fits

theorem named_change {book : Book} {now : Nat} (sound : book.Sound)
    (change : Change book now after) :
    ∀ holder grant, after.ledger.grants.lookup holder = some grant → grant.holder = holder := by
  intro holder grant found
  cases change with
  | kept kept _ _ _ => exact sound.named holder grant (kept holder grant found)
  | granted granted =>
    obtain ⟨-, -, -, rfl⟩ := LeaseLedger.grant_eq_ok granted
    rw [AList.lookup_insert_if] at found
    split at found
    · rename_i own
      cases found
      exact own.symm
    · exact sound.named holder grant found

theorem numbered_change {book : Book} {now : Nat} (sound : book.Sound)
    (change : Change book now after) (holder : NodeId) :
    (after.issues holder).number ≤ after.made := by
  have before := sound.numbered holder
  cases change with
  | kept _ _ issues made =>
    rw [issues, made]
    exact before
  | granted =>
    dsimp only
    rw [Function.update_apply]
    split
    · exact le_rfl
    · exact Nat.le_succ_of_le before

theorem pool_act {book : Book} {now : Nat} {op : LedgerOp} (fits : book.ledger.pool ≤ u32Max)
    (small : op.fits = true) :
    (book.act now op).ledger.pool ≤ u32Max := by
  cases op with
  | setPool pool => exact of_decide_eq_true small
  | observeLeadership leading =>
    change (book.ledger.observeLeadership leading now).pool ≤ u32Max
    unfold LeaseLedger.observeLeadership
    split <;> exact fits
  | grant server holder want =>
    rcases book.act_grant now server holder want with same | ⟨ledger, lease, granted, after⟩
    · rwa [same]
    · obtain ⟨-, -, -, rfl⟩ := LeaseLedger.grant_eq_ok granted
      rw [after]
      exact fits
  | release | reap => exact fits

theorem office_act {book : Book} (now : Nat) (op : LedgerOp)
    (office : book.ledger.tookOffice = if book.leading then book.turned else none)
    (turned : book.leading = true → book.turned.isSome) :
    (book.act now op).ledger.tookOffice =
        (if (book.act now op).leading then (book.act now op).turned else none) ∧
      ((book.act now op).leading = true → (book.act now op).turned.isSome) := by
  cases op with
  | setPool | release | reap => exact ⟨office, turned⟩
  | grant server holder want =>
    rcases book.act_grant now server holder want with same | ⟨ledger, lease, granted, after⟩
    · rw [same]
      exact ⟨office, turned⟩
    · obtain ⟨-, -, -, rfl⟩ := LeaseLedger.grant_eq_ok granted
      rw [after]
      exact ⟨office, turned⟩
  | observeLeadership leading =>
    unfold act
    unfold LeaseLedger.observeLeadership
    cases was : book.leading with
    | false =>
      rw [was] at office
      cases leading with
      | false | true => simp [office]
    | true =>
      rw [was] at office
      obtain ⟨since, at_⟩ := Option.isSome_iff_exists.mp (turned was)
      cases leading with
      | false | true => simp [office, at_]

theorem Sound.step {book : Book} {event : LedgerEvent} (sound : book.Sound)
    (allowed : book.Allowed event) : (book.step event).Sound := by
  have change := book.change_act event.time event.op
  have within := within_change sound allowed.1 change
  have numbered := numbered_change sound change
  have counted := counted_change sound allowed.1 change
  have named := named_change sound change
  have office := office_act event.time event.op sound.office sound.turned
  exact
    { within := within
      numbered := numbered
      fits := pool_act sound.fits allowed.2
      counted := counted
      named := named
      office := office.1
      turned := office.2 }

theorem Sound.later {book : Book} {now : Nat} (sound : book.Sound) (later : book.clock ≤ now) :
    ({ book with clock := now } : Book).Sound := by
  have same : Change book now book := .kept (fun _ _ found => found) rfl rfl rfl
  have within := within_change sound later same
  have counted := counted_change sound later same
  exact { sound with within := within, counted := counted }

theorem sound_start (config : LeaseConfig) {pool : Nat} (fits : pool ≤ u32Max) :
    (start config pool).Sound where
  within _ _ found := by cases found
  numbered _ := Nat.le_refl 0
  fits := fits
  counted := Nat.zero_le _
  named _ _ found := by cases found
  office := rfl
  turned leads := by cases leads

theorem sound_of_reachable {config : LeaseConfig} {pool : Nat} (fits : pool ≤ u32Max)
    {book : Book} (reachable : Run.Reachable (start config pool) Allowed step book) :
    book.Sound :=
  reachable.invariant (sound_start config fits) fun _ _ sound allowed => sound.step allowed

variable {book : Book} {now : Nat}

theorem Sound.outstanding_le (sound : book.Sound) (later : book.clock ≤ now) {holder : NodeId}
    {grant : Grant} (found : book.ledger.grants.lookup holder = some grant)
    (newest : ∀ other entry, book.ledger.grants.lookup other = some entry →
      now < entry.expiresAt → (book.issues other).number ≤ (book.issues holder).number) :
    book.ledger.outstanding now ≤ (book.issues holder).pool := by
  rw [LeaseLedger.outstanding_eq_live]
  refine Nat.le_trans (LeaseLedger.live_mono later ?_) (sound.within holder grant found)
  exact fun other entry listed _ alive =>
    ⟨listed, decide_eq_true (newest other entry listed alive)⟩

theorem exists_newest (book : Book) (something : 0 < book.ledger.outstanding now) :
    ∃ holder grant, book.ledger.grants.lookup holder = some grant ∧ now < grant.expiresAt ∧
      ∀ other entry, book.ledger.grants.lookup other = some entry → now < entry.expiresAt →
        (book.issues other).number ≤ (book.issues holder).number := by
  have live : (book.ledger.grants.keys.toFinset.filter fun holder =>
      ∃ grant, book.ledger.grants.lookup holder = some grant ∧ now < grant.expiresAt).Nonempty := by
    by_contra none
    have every : ∀ holder grant, book.ledger.grants.lookup holder = some grant →
        ¬ now < grant.expiresAt := by
      intro holder grant found alive
      apply none
      refine ⟨holder, Finset.mem_filter.mpr ⟨?_, grant, found, alive⟩⟩
      rw [List.mem_toFinset, ← AList.mem_keys, ← AList.lookup_isSome, found]
      rfl
    have nothing : book.ledger.outstanding now ≤ 0 := by
      rw [LeaseLedger.outstanding_eq]
      change _ ≤ (∅ : FiniteMap NodeId Grant).weigh fun _ _ => 0
      apply AList.weigh_mono
      intro holder
      cases found : book.ledger.grants.lookup holder with
      | none => exact le_rfl
      | some grant =>
        rw [Option.elim_some, if_neg (every holder grant found)]
        exact Nat.zero_le _
    omega
  obtain ⟨holder, listed, highest⟩ :=
    Finset.exists_max_image _ (fun holder => (book.issues holder).number) live
  obtain ⟨-, grant, found, alive⟩ := Finset.mem_filter.mp listed
  refine ⟨holder, grant, found, alive, ?_⟩
  intro other entry listed alive
  apply highest other
  refine Finset.mem_filter.mpr ⟨?_, entry, listed, alive⟩
  rw [List.mem_toFinset, ← AList.mem_keys, ← AList.lookup_isSome, listed]
  rfl

theorem Sound.heldByOthers_le (sound : book.Sound) (later : book.clock ≤ now)
    (holder : NodeId) : book.ledger.heldByOthers holder now ≤ u32Max := by
  have total := book.ledger.outstanding_eq_others_add_booked holder now
  have earlier := book.ledger.outstanding_antitone later
  have counted := sound.counted
  omega

theorem Sound.grants_nodup (sound : book.Sound) :
    (book.ledger.grants.entries.map fun entry => entry.2.holder).Nodup := by
  have keys : book.ledger.grants.entries.map (fun entry => entry.2.holder) =
      book.ledger.grants.keys := by
    apply List.map_congr_left
    intro entry member
    exact sound.named entry.1 entry.2 ((AList.lookup_eq_some_iff _ _ _).mpr member)
  rw [keys]
  exact book.ledger.grants.keys_nodup

theorem Sound.since_turned (sound : book.Sound) {server : ServerId} {holder : NodeId}
    {want : Nat} {answer : LeaseLedger × QuotaLease}
    (granted : book.ledger.grant server holder want now = .ok answer) :
    book.leading = true ∧
      ∃ since, book.turned = some since ∧ since + book.ledger.config.takeoverWait ≤ now := by
  obtain ⟨can, -⟩ := LeaseLedger.grant_eq_ok granted
  obtain ⟨since, inOffice, waited⟩ := LeaseLedger.canGrant_eq_true can
  have office := sound.office
  rw [inOffice] at office
  split at office
  · rename_i leads
    exact ⟨leads, since, office.symm, waited⟩
  · cases office

end Book

/-- Through any operations at non-decreasing times: the live total is within the pool in
force at the newest grant still live, no holder has two grants, no sum leaves `u32`, and
nothing is granted within the wait after leadership last began. -/
theorem ledger_bound (config : LeaseConfig) {pool : Nat} (fits : pool ≤ u32Max) {book : Book}
    (reachable : Run.Reachable (Book.start config pool) Book.Allowed Book.step book)
    (now : Nat) (later : book.clock ≤ now) :
    (∀ holder grant, book.ledger.grants.lookup holder = some grant → now < grant.expiresAt →
        (∀ other entry, book.ledger.grants.lookup other = some entry → now < entry.expiresAt →
          (book.issues other).number ≤ (book.issues holder).number) →
        book.ledger.outstanding now ≤ (book.issues holder).pool) ∧
      (book.ledger.grants.entries.map fun entry => entry.2.holder).Nodup ∧
      (book.ledger.outstanding now ≤ u32Max ∧
        ∀ holder, book.ledger.heldByOthers holder now ≤ u32Max) ∧
      ∀ server holder want answer, book.ledger.grant server holder want now = .ok answer →
        book.leading = true ∧
          ∃ since, book.turned = some since ∧
            since + book.ledger.config.takeoverWait ≤ now := by
  have sound := Book.sound_of_reachable fits reachable
  refine ⟨?_, sound.grants_nodup, ⟨?_, sound.heldByOthers_le later⟩, ?_⟩
  · exact fun holder grant found _ newest => sound.outstanding_le later found newest
  · exact (book.ledger.outstanding_antitone later).trans sound.counted
  · exact fun server holder want answer granted => sound.since_turned granted

def shrinkingPool : List LedgerEvent :=
  [⟨0, .observeLeadership true⟩, ⟨5000, .grant ⟨"db:5432"⟩ 2 7⟩, ⟨5001, .grant ⟨"db:5432"⟩ 3 7⟩,
    ⟨5002, .setPool 8⟩, ⟨5003, .grant ⟨"db:5432"⟩ 2 9⟩]

theorem ledger_bound_shrinkingPool :
    let book := shrinkingPool.foldl Book.step (Book.start LeaseConfig.default 10)
    (book.ledger.outstanding 5004 = 8 ∧ book.issues 2 = ⟨3, 8⟩) ∧
      book.ledger.outstanding 5004 ≤ (book.issues 2).pool := by
  intro book
  refine ⟨by decide +kernel, ?_⟩
  have reachable : Run.Reachable (Book.start LeaseConfig.default 10) Book.Allowed Book.step book :=
    Run.Reachable.start.foldl (by decide +kernel)
  have bound := ledger_bound LeaseConfig.default (by decide) reachable 5004 (by decide +kernel)
  apply bound.1 2 { holder := 2, count := 5, expiresAt := 10003 } (by decide +kernel) (by decide)
  intro other entry found _
  have listed : (⟨other, entry⟩ : Sigma fun _ : NodeId => Grant) ∈ book.ledger.grants.entries :=
    (AList.lookup_eq_some_iff _ _ _).mp found
  have every : ∀ entry ∈ book.ledger.grants.entries,
      (book.issues entry.1).number ≤ (book.issues 2).number := by decide +kernel
  exact every _ listed

end Pgprox.Cluster
