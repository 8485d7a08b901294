/-
The cap across the fleet.

A lease is worth its count until it expires, whoever is in office by then, so the cap rests
on every ledger that grants knowing all leases still alive.  If any two grants that overlap
come from one term of office, the granting book covers everything outstanding.
-/

import Pgprox.Cluster.Fleet

namespace Pgprox.Cluster

def ValidSchedule (d : Deployment) (started : Nat) (schedule : Nat → Event)
    (steps : Nat) : Prop :=
  ∀ position < steps, (Fleet.before d started schedule position).Allowed d (schedule position)

/-- The responder has a quorum and has been in office since `since`, for at least
the takeover wait: it would grant. -/
structure Fleet.Granting (d : Deployment) (s : Fleet) (responder : NodeId) (now since : Nat) :
    Prop where
  quorum : (s.node responder).hasQuorum now = true
  office : s.officeSince d responder = some since
  waited : since + d.config.effectiveLease.takeoverWait ≤ now

def Fleet.grants (d : Deployment) (s : Fleet) (responder : NodeId) (now : Nat) : Bool :=
  (s.node responder).hasQuorum now &&
    ((s.node responder).ledgers.lookup d.server).elim false fun ledger => ledger.canGrant now

/-- A request that would be granted asks for no less than any live lease its
asker holds or has been sent. -/
def Fleet.RenewsInFull (d : Deployment) (s : Fleet) (event : Event) : Prop :=
  match event.action with
  | .request asker responder want =>
    s.grants d responder event.time = true →
      ∀ lease ∈ s.leasesOf d asker, lease.count event.time ≤ want
  | _ => True

instance (d : Deployment) (s : Fleet) : (event : Event) → Decidable (s.RenewsInFull d event)
  | ⟨time, .request asker responder want⟩ =>
    inferInstanceAs (Decidable (s.grants d responder time = true →
      ∀ lease ∈ s.leasesOf d asker, lease.count time ≤ want))
  | ⟨_, .heartbeat _⟩ | ⟨_, .observe _⟩ | ⟨_, .send _ _ _⟩ | ⟨_, .deliver _ _⟩
  | ⟨_, .restart _⟩ | ⟨_, .accept _ _⟩ => .isTrue trivial

/-- Grants whose leases overlap come from one node, or the later issuer took
office so late that its takeover wait outlasts the earlier lease. -/
def ExclusiveGrants (d : Deployment) (started : Nat) (schedule : Nat → Event)
    (steps : Nat) : Prop :=
  ∀ earlier later, earlier < later → later < steps →
    ∀ asker asker' issuer issuer' want want' since since',
      (schedule earlier).action = .request asker issuer want →
      (schedule later).action = .request asker' issuer' want' →
      (Fleet.before d started schedule earlier).Granting d issuer (schedule earlier).time since →
      (Fleet.before d started schedule later).Granting d issuer' (schedule later).time since' →
      issuer ≠ issuer' →
      (schedule later).time < (schedule earlier).time + d.config.lease.ttl →
      (schedule earlier).time ≤ since' + d.config.membership.suspectAfter

/-! ### Office -/

namespace Fleet

variable {d : Deployment} {s : Fleet} {event : Event}

theorem officeSince_of_ledgers_eq {node : NodeId}
    (same : ((s.step d event).node node).ledgers = (s.node node).ledgers) :
    (s.step d event).officeSince d node = s.officeSince d node := by
  unfold officeSince
  rw [same]

/-- A round decides office: without the lead it is lost, with the lead it is kept
or taken now. -/
theorem officeSince_observe {node : NodeId} (configured : Configured d node (s.node node))
    (now : Nat) :
    (((s.node node).observe now).ledgers.lookup d.server).bind LeaseLedger.tookOffice =
      if (s.node node).leading now then
        some ((s.officeSince d node).getD now)
      else none := by
  rw [NodeCoordinator.lookup_ledgers_observe configured.known]
  generalize (s.node node).leading now = leading
  unfold officeSince NodeCoordinator.observeLedger LeaseLedger.reap LeaseLedger.observeLeadership
  cases found : (s.node node).ledgers.lookup d.server with
  | none =>
    cases leading <;> rfl
  | some ledger =>
    cases leading <;> cases office : ledger.tookOffice <;>
      simp [LeaseLedger.setPool, office]

/-- Office stays as it was, ends, or begins with a round of the node itself. -/
theorem officeSince_step (event : Event) (configured : ∀ node, Configured d node (s.node node))
    (node : NodeId) :
    (s.step d event).officeSince d node = s.officeSince d node ∨
      (s.step d event).officeSince d node = none ∨
      (event.action = .observe node ∧
        (s.node node).leading event.time = true ∧
        (s.step d event).officeSince d node = some event.time) := by
  have change := s.nodeChange d event node
  generalize after_def : (s.step d event).node node = after at change
  cases change with
  | unchanged idle => exact .inl (officeSince_of_ledgers_eq (by rw [after_def]))
  | heartbeat happened => exact .inl (officeSince_of_ledgers_eq (by rw [after_def]; rfl))
  | deliver message happened =>
    exact .inl (officeSince_of_ledgers_eq (by rw [after_def, NodeCoordinator.gossip_eq]))
  | accept lease happened => exact .inl (officeSince_of_ledgers_eq (by rw [after_def]; rfl))
  | restart happened =>
    right
    left
    unfold officeSince
    rw [after_def]
    rfl
  | request asker want answered lease happened granted =>
    left
    obtain ⟨-, ledger, ledger', found, entered, same⟩ := NodeCoordinator.request_eq_ok granted
    obtain ⟨-, -, -, sameLedger⟩ := LeaseLedger.grant_eq_ok entered
    unfold officeSince
    rw [after_def, same, found]
    rw [AList.lookup_insert, Option.bind_some, Option.bind_some, sameLedger]
  | observe happened =>
    have decided := officeSince_observe (configured node) event.time
    rw [← after_def] at decided
    by_cases leads : (s.node node).leading event.time = true
    · rw [if_pos leads] at decided
      cases office : s.officeSince d node with
      | none =>
        rw [office] at decided
        exact .inr (.inr ⟨happened, leads, decided⟩)
      | some since =>
        rw [office] at decided
        exact .inl decided
    · rw [if_neg leads] at decided
      exact .inr (.inl decided)

def Balanced (d : Deployment) (s : Fleet) : Prop :=
  ∀ node ledger, (s.node node).ledgers.lookup d.server = some ledger →
    ledger.outstanding s.clock ≤ ledger.pool

theorem balanced_step (configured : ∀ node, Configured d node (s.node node))
    (balanced : s.Balanced d) (forward : s.clock ≤ event.time) : (s.step d event).Balanced d := by
  intro node ledger found
  have kept : (s.node node).ledgers.lookup d.server = some ledger →
      ledger.outstanding event.time ≤ ledger.pool := by
    intro before
    exact (ledger.outstanding_antitone forward).trans (balanced node ledger before)
  have change := s.nodeChange d event node
  generalize (s.step d event).node node = after at change found
  cases change with
  | unchanged | heartbeat => exact kept found
  | deliver message happened =>
    rw [NodeCoordinator.gossip_eq] at found
    exact kept found
  | accept lease happened => exact kept found
  | restart happened =>
    contradiction
  | request asker want answered lease happened granted =>
    obtain ⟨-, before, entered, -, grant, rfl⟩ := NodeCoordinator.request_eq_ok granted
    rw [AList.lookup_insert, Option.some.injEq] at found
    subst found
    exact LeaseLedger.outstanding_grant_le grant
  | observe happened =>
    rw [NodeCoordinator.lookup_ledgers_observe (configured node).known, Option.some.injEq] at found
    subst found
    unfold NodeCoordinator.observeLedger
    generalize pool_def :
      ((s.node node).splitFor d.server ((s.node node).membership event.time)).freePool = pool
    have pool_eq : pool = d.freePool := pool_def ▸ (configured node).freePool_eq _
    refine Nat.le_trans (LeaseLedger.outstanding_reap_le _ _ _) ?_
    change _ ≤ (LeaseLedger.observeLeadership _ _ _).pool
    rw [LeaseLedger.observeLeadership_pool]
    -- The book is the old one, an empty one, or one just opened.
    rcases LeaseLedger.observeLeadership_grants
      ((((s.node node).ledgers.lookup d.server).getD
        (LeaseLedger.new pool (s.node node).config.effectiveLease)).setPool pool)
      ((s.node node).leading event.time) event.time with same | ⟨empty, -⟩
    · rw [LeaseLedger.outstanding_eq, same, ← LeaseLedger.outstanding_eq]
      cases present : (s.node node).ledgers.lookup d.server with
      | none => exact Nat.zero_le _
      | some ledger =>
        have poolKept := ((configured node).ledger ledger present).2
        have within := Nat.le_trans (ledger.outstanding_antitone forward)
          (balanced node ledger present)
        rw [poolKept, ← pool_eq] at within
        exact within
    · rw [LeaseLedger.outstanding_eq, empty]
      exact Nat.zero_le _

/-! ### Leases and the book that covers them -/

def Covered (d : Deployment) (s : Fleet) (issuer holder : NodeId) (lease : QuotaLease) : Prop :=
  ∃ ledger, (s.node issuer).ledgers.lookup d.server = some ledger ∧ ledger.Covers holder lease

variable {lease : QuotaLease}

theorem outstanding_step {holder : NodeId} (enabled : s.Enabled d event.action)
    (outstanding : (s.step d event).Outstanding d holder lease) :
    s.Outstanding d holder lease ∨
      ∃ responder want answered, event.action = .request holder responder want ∧
        (s.node responder).request d.server holder want event.time = .ok (answered, lease) := by
  rcases outstanding with held | waiting
  · have change := s.nodeChange d event holder
    generalize (s.step d event).node holder = after at change held
    cases change with
    | unchanged | heartbeat | observe => exact .inl (.inl held)
    | deliver message happened =>
      rw [NodeCoordinator.gossip_eq] at held
      exact .inl (.inl held)
    | restart happened =>
      contradiction
    | request asker want answered given happened granted =>
      obtain ⟨-, _, _, -, -, rfl⟩ := NodeCoordinator.request_eq_ok granted
      exact .inl (.inl held)
    | accept accepted happened =>
      unfold NodeCoordinator.accept at held
      rw [AList.lookup_insert_if] at held
      split at held
      · cases held
        rw [happened] at enabled
        exact .inl (.inr enabled)
      · exact .inl (.inl held)
  · rcases mem_answers_step waiting with old | new
    · exact .inl (.inr old)
    · exact .inr new

variable {since : Nat}

theorem officeSince_eq_some {node : NodeId} (office : s.officeSince d node = some since) :
    ∃ ledger, (s.node node).ledgers.lookup d.server = some ledger ∧
      ledger.tookOffice = some since := by
  exact Option.bind_eq_some_iff.mp office

theorem covered_step {issuer holder : NodeId}
    (configured : ∀ node, Configured d node (s.node node)) (balanced : s.Balanced d)
    (forward : s.clock ≤ event.time) (covered : s.Covered d issuer holder lease)
    (stays : (s.step d event).officeSince d issuer = some since)
    (alive : event.time < lease.expiresAt)
    (lasts : lease.expiresAt ≤ event.time + d.config.lease.ttl)
    (enough : ∀ want answered given, event.action = .request holder issuer want →
      (s.node issuer).request d.server holder want event.time = .ok (answered, given) →
      lease.count event.time ≤ want) : (s.step d event).Covered d issuer holder lease := by
  obtain ⟨ledger, found, covers⟩ := covered
  have change := s.nodeChange d event issuer
  unfold Covered
  obtain ⟨staying, present, office⟩ := officeSince_eq_some stays
  generalize (s.step d event).node issuer = after at change present
  cases change with
  | unchanged | heartbeat | accept => exact ⟨ledger, found, covers⟩
  | deliver message happened =>
    rw [NodeCoordinator.gossip_eq]
    exact ⟨ledger, found, covers⟩
  | restart happened =>
    contradiction
  | request asker want answered given happened granted =>
    have asked := enough want after given
    obtain ⟨-, before, entered, sameBook, grant, rfl⟩ := NodeCoordinator.request_eq_ok granted
    rw [found, Option.some.injEq] at sameBook
    subst sameBook
    refine ⟨entered, AList.lookup_insert _, ?_⟩
    have lasting : lease.expiresAt ≤ event.time + ledger.config.ttl := by
      rw [((configured issuer).ledger ledger found).1]
      exact lasts
    have within : ledger.outstanding event.time ≤ ledger.pool :=
      Nat.le_trans (ledger.outstanding_antitone forward) (balanced issuer ledger found)
    apply covers.grant within grant alive lasting
    rintro rfl
    exact asked happened granted
  | observe happened =>
    rw [NodeCoordinator.lookup_ledgers_observe (configured issuer).known] at present ⊢
    refine ⟨_, rfl, ?_⟩
    rw [Option.some.injEq] at present
    subst present
    unfold NodeCoordinator.observeLedger at office ⊢
    dsimp only at office ⊢
    rw [found, Option.getD_some] at office ⊢
    apply LeaseLedger.Covers.reap _ alive
    -- An emptied book belongs to a node that has lost office.
    rcases LeaseLedger.observeLeadership_grants
      (ledger.setPool ((s.node issuer).splitFor d.server
        ((s.node issuer).membership event.time)).freePool)
      ((s.node issuer).leading event.time) event.time with same | ⟨-, lost⟩
    · unfold LeaseLedger.Covers
      rw [same]
      exact covers
    · change (LeaseLedger.observeLeadership _ _ _).tookOffice = some since at office
      rw [lost] at office
      contradiction

variable {responder : NodeId}

theorem Granting.grants_eq_true {now : Nat}
    (configured : Configured d responder (s.node responder))
    (granting : s.Granting d responder now since) : s.grants d responder now = true := by
  obtain ⟨ledger, found, office⟩ := officeSince_eq_some granting.office
  have waited := granting.waited
  rw [← (configured.ledger ledger found).1] at waited
  unfold grants LeaseLedger.canGrant
  rw [granting.quorum, found, Option.elim_some, office]
  exact decide_eq_true waited

theorem RenewsInFull.count_le (renews : s.RenewsInFull d event) {asker : NodeId} {want : Nat}
    (configured : Configured d responder (s.node responder))
    (happened : event.action = .request asker responder want)
    (granting : s.Granting d responder event.time since)
    (outstanding : s.Outstanding d asker lease) : lease.count event.time ≤ want := by
  unfold RenewsInFull at renews
  rw [happened] at renews
  exact renews (granting.grants_eq_true configured) lease ((s.mem_leasesOf_iff d).mpr outstanding)

theorem granting_of_request_eq_ok {asker : NodeId} {want : Nat} {now : Nat}
    {answered : NodeCoordinator} (configured : Configured d responder (s.node responder))
    (granted : (s.node responder).request d.server asker want now = .ok (answered, lease)) :
    ∃ since, s.Granting d responder now since := by
  obtain ⟨quorum, ledger, entered, found, grant, -⟩ := NodeCoordinator.request_eq_ok granted
  obtain ⟨can, -⟩ := LeaseLedger.grant_eq_ok grant
  obtain ⟨since, office, waited⟩ := LeaseLedger.canGrant_eq_true can
  rw [(configured.ledger ledger found).1] at waited
  refine ⟨since, quorum, ?_, waited⟩
  unfold officeSince
  rw [found]
  exact office

theorem covered_of_request_eq_ok {asker : NodeId} {want : Nat} {answered : NodeCoordinator}
    (happened : event.action = .request asker responder want)
    (granted : (s.node responder).request d.server asker want event.time =
      .ok (answered, lease)) : (s.step d event).Covered d responder asker lease := by
  have after : (s.step d event).node responder = answered := by
    unfold step act
    rw [happened]
    dsimp only
    rw [granted]
    rw [put_node, if_pos rfl]
  obtain ⟨-, ledger, entered, -, grant, rfl⟩ := NodeCoordinator.request_eq_ok granted
  obtain ⟨-, -, -, rfl⟩ := LeaseLedger.grant_eq_ok grant
  unfold Covered
  rw [after]
  refine ⟨_, AList.lookup_insert _, ?_⟩
  exact ⟨_, AList.lookup_insert _, Nat.le_refl _, Nat.le_refl _⟩

end Fleet

/-! ### Along a schedule -/

section Schedule

variable {d : Deployment} {started : Nat} {schedule : Nat → Event} {steps : Nat}

variable {first : Nat}

section

variable (valid : ValidSchedule d started schedule steps) {last : Nat}
include valid

theorem ValidSchedule.clock_mono (order : first ≤ last) (within : last ≤ steps) :
    (Fleet.before d started schedule first).clock ≤
      (Fleet.before d started schedule last).clock := by
  apply Run.holds_from (P := fun position =>
    (Fleet.before d started schedule first).clock ≤
      (Fleet.before d started schedule position).clock) le_rfl order
  intro position _ below ih
  exact Nat.le_trans ih (valid position (below.trans_le within)).1

theorem ValidSchedule.time_le_clock (order : first < last) (within : last ≤ steps) :
    (schedule first).time ≤ (Fleet.before d started schedule last).clock :=
  valid.clock_mono (Nat.succ_le_of_lt order) within

theorem ValidSchedule.time_mono (order : first ≤ last) (within : last < steps) :
    (schedule first).time ≤ (schedule last).time := by
  rcases Nat.eq_or_lt_of_le order with rfl | before
  · exact le_rfl
  · exact (valid.time_le_clock before within.le).trans (valid last within).1

end

variable {position : Nat}

theorem ValidSchedule.balanced (valid : ValidSchedule d started schedule steps)
    (within : position ≤ steps) : (Fleet.before d started schedule position).Balanced d := by
  apply Run.holds_from (P := fun position =>
    (Fleet.before d started schedule position).Balanced d) _ (Nat.zero_le position)
  · intro earlier _ below balanced
    exact Fleet.balanced_step (Fleet.configured_before d started schedule earlier) balanced
      (valid earlier (below.trans_le within)).1
  · intro node ledger found
    contradiction

/-- A term of office that a node did not have yet at some event begins no earlier
than that event. -/
theorem ValidSchedule.time_le_since (valid : ValidSchedule d started schedule steps) {last : Nat}
    (order : first ≤ last) (within : last ≤ steps) {node : NodeId} {since : Nat}
    (different : (Fleet.before d started schedule first).officeSince d node ≠ some since)
    (office : (Fleet.before d started schedule last).officeSince d node = some since) :
    (schedule first).time ≤ since := by
  revert office
  apply Run.holds_from (P := fun position =>
    (Fleet.before d started schedule position).officeSince d node = some since →
      (schedule first).time ≤ since) _ order
  · intro position after below ih office
    have inside : position < steps := Nat.lt_of_lt_of_le below within
    rcases Fleet.officeSince_step (schedule position)
        (Fleet.configured_before d started schedule position) node with
      same | lost | ⟨-, -, taken⟩
    · exact ih (same.symm.trans office)
    · have impossible := lost.symm.trans office
      contradiction
    · have now : (schedule position).time = since := Option.some.inj (taken.symm.trans office)
      exact now ▸ valid.time_mono after inside
  · intro office
    exact absurd office different

/-- Where an outstanding lease comes from: the request that granted it, the term
of office it was granted in, and the book that covers it for that term. -/
structure IssuedAt (d : Deployment) (started : Nat) (schedule : Nat → Event)
    (position : Nat) (holder : NodeId) (lease : QuotaLease) (granted : Nat) (issuer : NodeId)
    (since : Nat) : Prop where
  past : granted < position
  asked : ∃ want, (schedule granted).action = .request holder issuer want
  granting : (Fleet.before d started schedule granted).Granting d issuer
    (schedule granted).time since
  expires : lease.expiresAt = (schedule granted).time + d.config.lease.ttl
  covered : (Fleet.before d started schedule position).officeSince d issuer = some since →
    (Fleet.before d started schedule position).clock < lease.expiresAt →
    (Fleet.before d started schedule position).Covered d issuer holder lease

variable {lease : QuotaLease}

section

variable (valid : ValidSchedule d started schedule steps)
include valid

theorem IssuedAt.succ (within : position < steps)
    {holder : NodeId} {granted : Nat} {issuer : NodeId} {since : Nat}
    (renews : (Fleet.before d started schedule position).RenewsInFull d (schedule position))
    (outstanding : (Fleet.before d started schedule position).Outstanding d holder lease)
    (issued : IssuedAt d started schedule position holder lease granted issuer since) :
    IssuedAt d started schedule (position + 1) holder lease granted issuer since where
  past := Nat.lt_succ_of_lt issued.past
  asked := issued.asked
  granting := issued.granting
  expires := issued.expires
  covered := by
    intro office alive
    change (schedule position).time < lease.expiresAt at alive
    have forward := (valid position within).1
    have ordered := valid.time_mono (Nat.le_of_lt issued.past) within
    have configured := Fleet.configured_before d started schedule position
    have waited := issued.granting.waited
    have longer := d.config.ttl_add_suspectAfter_le
    have expires := issued.expires
    have held : (Fleet.before d started schedule position).officeSince d issuer =
        some since := by
      rcases Fleet.officeSince_step (schedule position) configured issuer with
        same | lost | ⟨-, -, taken⟩
      · exact same.symm.trans office
      · have impossible := lost.symm.trans office
        contradiction
      · -- A term that begins only now cannot have granted a lease that is still alive.
        have now : (schedule position).time = since := Option.some.inj (taken.symm.trans office)
        omega
    apply Fleet.covered_step configured (valid.balanced within.le) forward
      (issued.covered held (forward.trans_lt alive)) office alive
    · omega
    · intro want answered given happened accepted
      obtain ⟨term, granting⟩ := Fleet.granting_of_request_eq_ok (configured issuer) accepted
      exact renews.count_le (configured issuer) happened granting outstanding

theorem exists_issuedAt (renews : ∀ position < steps,
      (Fleet.before d started schedule position).RenewsInFull d (schedule position))
    (within : position ≤ steps) {holder : NodeId}
    (outstanding : (Fleet.before d started schedule position).Outstanding d holder lease) :
    ∃ granted issuer since,
      IssuedAt d started schedule position holder lease granted issuer since := by
  induction position with
  | zero =>
    rcases outstanding with held | waiting
    · contradiction
    · exact absurd waiting List.not_mem_nil
  | succ position ih =>
    have below : position < steps := within
    rcases Fleet.outstanding_step (valid position below).2 outstanding with
      old | ⟨responder, want, answered, happened, accepted⟩
    · obtain ⟨granted, issuer, since, issued⟩ := ih below.le old
      exact ⟨granted, issuer, since, issued.succ valid below (renews position below) old⟩
    · have configured := Fleet.configured_before d started schedule position
      obtain ⟨since, granting⟩ :=
        Fleet.granting_of_request_eq_ok (configured responder) accepted
      refine ⟨position, responder, since, Nat.lt_succ_self position, ⟨want, happened⟩,
        granting, ?_, ?_⟩
      · obtain ⟨-, ledger, entered, found, grant, -⟩ := NodeCoordinator.request_eq_ok accepted
        obtain ⟨-, -, rfl, -⟩ := LeaseLedger.grant_eq_ok grant
        rw [((configured responder).ledger ledger found).1]
        rfl
      · intro _ _
        exact Fleet.covered_of_request_eq_ok happened accepted

/-- If overlapping grants are exclusive, a ledger that grants knows every lease
that is still alive. -/
theorem covered_of_exclusiveGrants (renews : ∀ position < steps,
      (Fleet.before d started schedule position).RenewsInFull d (schedule position))
    (exclusive : ExclusiveGrants d started schedule steps) (within : position < steps)
    {asker responder : NodeId} {want : Nat} {since : Nat}
    (happened : (schedule position).action = .request asker responder want)
    (granting : (Fleet.before d started schedule position).Granting d responder
      (schedule position).time since) {holder : NodeId}
    (outstanding : (Fleet.before d started schedule position).Outstanding d holder lease)
    (alive : (schedule position).time < lease.expiresAt) :
    (Fleet.before d started schedule position).Covered d responder holder lease := by
  obtain ⟨granted, issuer, term, issued⟩ :=
    exists_issuedAt valid renews within.le outstanding
  have expires := issued.expires
  have waited := granting.waited
  have longer := d.config.ttl_add_suspectAfter_le
  -- Either way a second term began too late for the lease to be alive now.
  have late : ¬ (schedule granted).time ≤ since + d.config.membership.suspectAfter := by
    omega
  obtain ⟨wanted, asked⟩ := issued.asked
  by_cases same : issuer = responder
  · subst same
    by_cases sameTerm : term = since
    · subst sameTerm
      exact issued.covered granting.office (Nat.lt_of_le_of_lt (valid position within).1 alive)
    · have changed : (Fleet.before d started schedule granted).officeSince d issuer ≠
          some since := by
        rw [issued.granting.office]
        simpa using sameTerm
      have begun := valid.time_le_since (Nat.le_of_lt issued.past) within.le
        changed granting.office
      exact absurd (begun.trans (Nat.le_add_right _ _)) late
  · exact absurd (exclusive granted position issued.past within holder asker issuer responder
      wanted want term since asked happened issued.granting granting same
      (expires ▸ alive)) late

end

/-! ### The pool and the cap -/

/-- Whichever outstanding lease each node comes to hold, together they fit in the
free pool. -/
def Fleet.WithinPool (d : Deployment) (s : Fleet) : Prop :=
  ∀ chosen : NodeId → Option QuotaLease,
    (∀ node lease, chosen node = some lease → s.Outstanding d node lease) →
    ∀ now, s.clock ≤ now →
      ∑ node ∈ d.nodes, (chosen node).elim 0 (fun lease => lease.count now) ≤ d.freePool

theorem Fleet.WithinPool.step_of_not_granted {s : Fleet} {event : Event}
    (within : s.WithinPool d) (allowed : s.Allowed d event)
    (refused : ∀ asker responder want answered lease,
      event.action = .request asker responder want →
      (s.node responder).request d.server asker want event.time ≠ .ok (answered, lease)) :
    (s.step d event).WithinPool d := by
  intro chosen outstanding now later
  apply within chosen _ now (Nat.le_trans allowed.1 later)
  intro node lease picked
  rcases Fleet.outstanding_step allowed.2 (outstanding node lease picked) with
    old | ⟨responder, want, answered, happened, granted⟩
  · exact old
  · exact absurd granted (refused node responder want answered lease happened)

theorem QuotaLease.count_eq_zero {now : Nat} (expired : lease.expiresAt ≤ now) :
    lease.count now = 0 := by
  unfold QuotaLease.count QuotaLease.isExpired
  rw [decide_eq_true expired]
  rfl

theorem Fleet.withinPool_grant {s : Fleet} {event : Event}
    (configured : ∀ node, Configured d node (s.node node)) (balanced : s.Balanced d)
    (allowed : s.Allowed d event)
    {asker responder : NodeId} {want : Nat} {answered : NodeCoordinator} {given : QuotaLease}
    (happened : event.action = .request asker responder want)
    (granted : (s.node responder).request d.server asker want event.time = .ok (answered, given))
    (covered : ∀ holder lease, s.Outstanding d holder lease → event.time < lease.expiresAt →
      s.Covered d responder holder lease) :
    (s.step d event).WithinPool d := by
  intro chosen outstanding now later
  change event.time ≤ now at later
  obtain ⟨-, ledger, entered, found, grant, -⟩ := NodeCoordinator.request_eq_ok granted
  obtain ⟨-, room, given_def, -⟩ := LeaseLedger.grant_eq_ok grant
  have pool : ledger.pool = d.freePool := ((configured responder).ledger ledger found).2
  have fits : ledger.outstanding event.time ≤ ledger.pool :=
    Nat.le_trans (ledger.outstanding_antitone allowed.1) (balanced responder ledger found)
  -- The book covers, holder by holder, every lease that was outstanding before.
  have booked : ∀ holder lease, s.Outstanding d holder lease →
      lease.count event.time ≤ ledger.booked holder event.time := by
    intro holder lease old
    by_cases alive : event.time < lease.expiresAt
    · obtain ⟨book, sameBook, covers⟩ := covered holder lease old alive
      rw [found, Option.some.injEq] at sameBook
      subst sameBook
      exact covers.count_le event.time
    · rw [QuotaLease.count_eq_zero (Nat.not_lt.mp alive)]
      exact Nat.zero_le _
  have others : ∀ node ∈ d.nodes.erase asker,
      (chosen node).elim 0 (fun lease => lease.count now) ≤
        ledger.booked node event.time := by
    intro node member
    cases picked : chosen node with
    | none => exact Nat.zero_le _
    | some lease =>
      rcases Fleet.outstanding_step allowed.2 (outstanding node lease picked) with
        old | ⟨_, _, _, asked, _⟩
      · exact (lease.count_antitone later).trans (booked node lease old)
      · rw [happened] at asked
        cases asked
        exact absurd rfl (Finset.ne_of_mem_erase member)
  have own : (chosen asker).elim 0 (fun lease => lease.count now) ≤
      ledger.pool - ledger.heldByOthers asker event.time := by
    cases picked : chosen asker with
    | none => exact Nat.zero_le _
    | some lease =>
      refine Nat.le_trans (lease.count_antitone later) ?_
      rcases Fleet.outstanding_step allowed.2 (outstanding asker lease picked) with
        old | ⟨_, _, _, asked, again⟩
      · have entry := booked asker lease old
        have split := ledger.outstanding_eq_others_add_booked asker event.time
        omega
      · rw [happened] at asked
        cases asked
        rw [granted] at again
        cases again
        subst given_def
        unfold QuotaLease.count
        split
        · exact Nat.zero_le _
        · exact Nat.min_le_right _ _
  have member : asker ∈ d.nodes := by
    have acts := allowed.2
    rw [happened] at acts
    exact acts.1
  have rest := ledger.sum_le_heldByOthers asker event.time (d.nodes.erase asker) _
    (Finset.notMem_erase asker d.nodes) others
  rw [← Finset.sum_erase_add _ _ member]
  omega

theorem withinPool_of_exclusiveGrants (valid : ValidSchedule d started schedule steps)
    (renews : ∀ position < steps,
      (Fleet.before d started schedule position).RenewsInFull d (schedule position))
    (exclusive : ExclusiveGrants d started schedule steps) (within : position ≤ steps) :
    (Fleet.before d started schedule position).WithinPool d := by
  apply Run.holds_from (P := fun position =>
    (Fleet.before d started schedule position).WithinPool d) _ (Nat.zero_le position)
  · intro earlier _ below pool
    have inside : earlier < steps := Nat.lt_of_lt_of_le below within
    have configured := Fleet.configured_before d started schedule earlier
    by_cases granted : ∃ asker responder want answered lease,
        (schedule earlier).action = .request asker responder want ∧
        ((Fleet.before d started schedule earlier).node responder).request d.server asker want
          (schedule earlier).time = .ok (answered, lease)
    · obtain ⟨asker, responder, want, answered, lease, happened, accepted⟩ := granted
      obtain ⟨since, granting⟩ :=
        Fleet.granting_of_request_eq_ok (configured responder) accepted
      apply Fleet.withinPool_grant configured (valid.balanced inside.le)
        (valid earlier inside) happened accepted
      intro holder live outstanding alive
      exact covered_of_exclusiveGrants valid renews exclusive inside happened granting
        outstanding alive
    · apply pool.step_of_not_granted (valid earlier inside)
      intro asker responder want answered lease happened accepted
      exact granted ⟨asker, responder, want, answered, lease, happened, accepted⟩
  · intro chosen outstanding now _
    have nothing : ∀ node ∈ d.nodes,
        (chosen node).elim 0 (fun lease => lease.count now) = 0 := by
      intro node _
      cases picked : chosen node with
      | none => rfl
      | some lease =>
        rcases outstanding node lease picked with held | waiting
        · contradiction
        · exact absurd waiting List.not_mem_nil
    rw [Finset.sum_eq_zero nothing]
    exact Nat.zero_le _

/-- Shares are at most one part in `fleet_size` each, so leases within the pool
keep the whole fleet within the cap. -/
theorem Fleet.WithinPool.totalAllowance_le {s : Fleet} (within : s.WithinPool d)
    (configured : ∀ node, Configured d node (s.node node)) {now : Nat} (later : s.clock ≤ now) :
    s.totalAllowance d now ≤ d.quota.cap := by
  have leases := within (fun node => (s.node node).held.lookup d.server)
    (fun _ _ held => .inl held) now later
  have shares : ∀ node ∈ d.nodes,
      ((s.node node).allowance d.server now).guaranteed ≤
        guaranteedTotal d.quota.cap d.quota.guaranteedFraction / d.config.fleetSize := by
    intro node _
    have nonempty : 0 < (s.node node).config.fleetSize := by
      rw [(configured node).config]
      exact d.nonempty
    have share := NodeCoordinator.guaranteedPerNode_splitFor_le (configured node).capped
      nonempty ((s.node node).membership now)
    rw [(configured node).config] at share
    exact share
  have guaranteed : ∑ node ∈ d.nodes, ((s.node node).allowance d.server now).guaranteed ≤
      guaranteedTotal d.quota.cap d.quota.guaranteedFraction := by
    refine Nat.le_trans (Finset.sum_le_card_nsmul _ _ _ shares) ?_
    rw [d.size]
    exact Nat.mul_div_le _ _
  have capped := guaranteedTotal_le d.quota.cap d.quota.guaranteedFraction
  calc s.totalAllowance d now
      ≤ ∑ node ∈ d.nodes, (((s.node node).allowance d.server now).guaranteed +
          ((s.node node).allowance d.server now).leased) :=
        Finset.sum_le_sum fun node _ => saturatingAdd_le _ _
    _ = ∑ node ∈ d.nodes, ((s.node node).allowance d.server now).guaranteed +
          ∑ node ∈ d.nodes, ((s.node node).allowance d.server now).leased :=
        Finset.sum_add_distrib
    _ ≤ guaranteedTotal d.quota.cap d.quota.guaranteedFraction + d.freePool :=
        Nat.add_le_add guaranteed leases
    _ = d.quota.cap := by
        unfold Deployment.freePool
        omega

end Schedule

end Pgprox.Cluster
