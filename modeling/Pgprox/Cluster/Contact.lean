/-
Who has heard whom, along a schedule.

A contact is written by a delivered digest or by the node's own heartbeat, and is dropped
only when the silence has lasted `dead_after` or the node restarts.
-/

import Pgprox.Cluster.FleetCap

namespace Pgprox.Cluster

namespace Membership

theorem lookup_heard {m : Membership} {node : NodeId} {now : Nat}
    (past : ∀ contact, m.peers.lookup node = some contact → contact.heardAt ≤ now)
    (mode : NodeMode) (other : NodeId) :
    (m.heard node mode now).peers.lookup other =
      if other = node then some { mode := mode, heardAt := now } else m.peers.lookup other := by
  unfold heard
  cases found : m.peers.lookup node with
  | none => exact AList.lookup_insert_if _ _ _ _
  | some contact =>
    dsimp only
    rw [if_pos (past contact found)]
    exact AList.lookup_insert_if _ _ _ _

theorem lookup_heardWithoutMode {m : Membership} {node : NodeId} {now : Nat}
    (past : ∀ contact, m.peers.lookup node = some contact → contact.heardAt ≤ now)
    (other : NodeId) :
    (m.heardWithoutMode node now).peers.lookup other =
      if other = node then
        (m.peers.lookup node).map fun contact => { contact with heardAt := now }
      else m.peers.lookup other := by
  unfold heardWithoutMode
  cases found : m.peers.lookup node with
  | none =>
    dsimp only
    split
    · rename_i same
      rw [same, found]
      rfl
    · rfl
  | some contact =>
    dsimp only
    rw [if_pos (past contact found)]
    exact AList.lookup_insert_if _ _ _ _

end Membership

namespace DigestStore

theorem lookup_merge (store : DigestStore) (incoming : VersionedDigest) (other : NodeId)
    (different : other ≠ incoming.digest.node) :
    (store.merge incoming).1.latest.lookup other = store.latest.lookup other := by
  unfold merge
  split
  · split
    · rfl
    · exact AList.lookup_insert_ne different
  · exact AList.lookup_insert_ne different

theorem lookup_of_stale {store : DigestStore} {incoming : VersionedDigest}
    (stale : (store.merge incoming).2 = .stale) :
    (store.latest.lookup incoming.digest.node).isSome := by
  unfold merge at stale
  split at stale
  · rename_i held found
    rw [found]
    rfl
  · contradiction

theorem lookup_foldl_forget (dead : List NodeId) (self : NodeId) (store : DigestStore)
    (other : NodeId) :
    (dead.foldl (fun digests node => if node = self then digests else digests.forget node)
        store).latest.lookup other =
      if other ∈ dead ∧ other ≠ self then none else store.latest.lookup other := by
  induction dead generalizing store with
  | nil => simp
  | cons head tail ih =>
    rw [List.foldl_cons, ih]
    by_cases own : head = self
    · rw [if_pos own]
      by_cases same : other = head
      · simp [same, own]
      · simp [same]
    · rw [if_neg own]
      unfold forget
      by_cases same : other = head
      · subst same
        simp [own]
      · simp [same]

end DigestStore

namespace Fleet

def contact (s : Fleet) (node peer : NodeId) : Option Contact :=
  (s.node node).liveness.peers.lookup peer

structure Contacts (d : Deployment) (s : Fleet) : Prop where
  active : ∀ node peer c, s.contact node peer = some c → c.mode = .active
  past : ∀ node peer c, s.contact node peer = some c → c.heardAt ≤ s.clock
  member : ∀ node peer c, s.contact node peer = some c → peer ∈ d.nodes
  known : ∀ node peer, peer ≠ node → ((s.node node).digests.latest.lookup peer).isSome →
    (s.contact node peer).isSome
  flying : ∀ target message, (target, message) ∈ s.inFlight →
    message.digest.mode = .active ∧ message.digest.node ∈ d.nodes ∧
      message.digest.node ≠ target

inductive ContactChange (s : Fleet) (event : Event) (node peer : NodeId) :
    Option Contact → Prop
  | kept (other : event.action ≠ .restart node)
      (silent : ∀ message, event.action = .deliver node message → message.digest.node ≠ peer) :
      ContactChange s event node peer (s.contact node peer)
  | heartbeat (happened : event.action = .heartbeat node) (self : peer = node) :
      ContactChange s event node peer (some { mode := .active, heardAt := event.time })
  | delivered (message : VersionedDigest) (happened : event.action = .deliver node message)
      (sender : message.digest.node = peer) :
      ContactChange s event node peer (some { mode := .active, heardAt := event.time })
  | reaped (happened : event.action = .observe node)
      (dead : (s.node node).liveness.state peer event.time = .dead) :
      ContactChange s event node peer none
  | restarted (happened : event.action = .restart node) : ContactChange s event node peer none

variable {d : Deployment} {s : Fleet} {event : Event}

theorem contactChange (configured : ∀ node, Configured d node (s.node node))
    (contacts : s.Contacts d) (allowed : s.Allowed d event) (node peer : NodeId) :
    ContactChange s event node peer ((s.step d event).contact node peer) := by
  have past : ∀ other c, (s.node node).liveness.peers.lookup other = some c →
      c.heardAt ≤ event.time := by
    intro other c found
    exact (contacts.past node other c found).trans allowed.1
  have change := s.nodeChange d event node
  unfold contact
  generalize (s.step d event).node node = after at change
  cases change with
  | unchanged idle =>
    apply ContactChange.kept
    · intro restarted
      exact idle (by rw [restarted]; rfl)
    · intro message delivered
      exact absurd (by rw [delivered]; rfl) idle
  | heartbeat happened =>
    unfold NodeCoordinator.heartbeat
    rw [Membership.lookup_heard (past _), (configured node).self, (configured node).active]
    split
    · rename_i self
      exact .heartbeat happened self
    · exact .kept (by simp [happened]) (by simp [happened])
  | observe happened =>
    rw [NodeCoordinator.lookup_peers_observe]
    by_cases dead : (s.node node).liveness.state peer event.time = .dead
    · have dropped : (((s.node node).liveness.peers.lookup peer).filter fun _ =>
          (s.node node).liveness.state peer event.time != .dead) = none := by
        simp [dead]
      rw [dropped]
      exact .reaped happened dead
    · have stays : (((s.node node).liveness.peers.lookup peer).filter fun _ =>
          (s.node node).liveness.state peer event.time != .dead) =
          (s.node node).liveness.peers.lookup peer := by
        cases (s.node node).liveness.peers.lookup peer with
        | none => rfl
        | some c => simp [dead]
      rw [stays]
      exact .kept (by simp [happened]) (by simp [happened])
  | deliver message happened =>
    have arrived := allowed.2
    rw [happened] at arrived
    obtain ⟨mode, -, elsewhere⟩ := contacts.flying node message arrived
    have fromAnother (different : message.digest.node ≠ peer) : ContactChange s event node peer
        ((s.node node).liveness.peers.lookup peer) := by
      refine .kept (by simp [happened]) ?_
      rintro delivered again
      rw [happened] at again
      cases again
      exact different
    rw [NodeCoordinator.gossip_eq]
    split
    · rename_i stale
      rw [Membership.lookup_heardWithoutMode (past _)]
      split
      · rename_i same
        subst same
        -- A digest already merged leaves the contact it made.
        obtain ⟨c, found⟩ := Option.isSome_iff_exists.mp
          (contacts.known node _ elsewhere (DigestStore.lookup_of_stale stale))
        have active := contacts.active node _ c found
        change (s.node node).liveness.peers.lookup _ = some c at found
        rw [found, Option.map_some, active]
        exact .delivered message happened rfl
      · rename_i different
        exact fromAnother (Ne.symm different)
    · rw [Membership.lookup_heard (past _), mode]
      split
      · rename_i same
        exact .delivered message happened same.symm
      · rename_i different
        exact fromAnother (Ne.symm different)
  | restart happened => exact .restarted happened
  | request asker want answered lease happened granted =>
    obtain ⟨-, _, _, -, -, rfl⟩ := NodeCoordinator.request_eq_ok granted
    exact .kept (by simp [happened]) (by simp [happened])
  | accept lease happened => exact .kept (by simp [happened]) (by simp [happened])

variable {peer : NodeId}

theorem lookup_digests_observe {c : NodeCoordinator} {now : Nat} (different : peer ≠ c.localNode)
    (held : ((c.observe now).digests.latest.lookup peer).isSome)
    (contacted : (c.liveness.peers.lookup peer).isSome) :
    ((c.observe now).liveness.peers.lookup peer).isSome := by
  unfold NodeCoordinator.observe at held
  rw [DigestStore.lookup_foldl_forget] at held
  have listed : peer ∈ c.liveness.peers.keys := by
    exact AList.lookup_isSome.mp contacted
  have alive : c.liveness.state peer now ≠ .dead := by
    intro dead
    rw [if_pos ⟨List.mem_filter.mpr ⟨listed, by simp [dead]⟩, different⟩] at held
    contradiction
  rw [NodeCoordinator.lookup_peers_observe]
  obtain ⟨contact, found⟩ := Option.isSome_iff_exists.mp contacted
  rw [found]
  simp [alive]

variable {node : NodeId}

theorem contact_delivered (configured : ∀ node, Configured d node (s.node node))
    (contacts : s.Contacts d) (allowed : s.Allowed d event) {message : VersionedDigest}
    (happened : event.action = .deliver node message) :
    (s.step d event).contact node message.digest.node =
      some { mode := .active, heardAt := event.time } := by
  have change := contactChange configured contacts allowed node message.digest.node
  generalize (s.step d event).contact node message.digest.node = after at change
  cases change with
  | kept other silent => exact absurd rfl (silent message happened)
  | heartbeat | delivered => rfl
  | reaped observed dead =>
    rw [happened] at observed
    contradiction
  | restarted again =>
    rw [happened] at again
    contradiction

private theorem known_step (configured : ∀ node, Configured d node (s.node node))
    (contacts : s.Contacts d) (allowed : s.Allowed d event) (different : peer ≠ node)
    (held : (((s.step d event).node node).digests.latest.lookup peer).isSome) :
    ((s.step d event).contact node peer).isSome := by
  have change := s.nodeChange d event node
  have arrives : ∀ message, event.action = .deliver node message →
      (s.step d event).contact node message.digest.node =
        some { mode := .active, heardAt := event.time } :=
    fun message happened => contact_delivered configured contacts allowed happened
  have past : ∀ other c, (s.node node).liveness.peers.lookup other = some c →
      c.heardAt ≤ event.time := by
    intro other c found
    exact (contacts.past node other c found).trans allowed.1
  unfold contact at arrives ⊢
  generalize (s.step d event).node node = after at change held arrives
  cases change with
  | unchanged idle => exact contacts.known node peer different held
  | heartbeat happened =>
    unfold NodeCoordinator.heartbeat at held ⊢
    have own : peer ≠ (s.node node).localNode := by
      rw [(configured node).self]
      exact different
    rw [DigestStore.lookup_merge _ _ _ own] at held
    rw [Membership.lookup_heard (past _), if_neg own]
    exact contacts.known node peer different held
  | observe happened =>
    have own : peer ≠ (s.node node).localNode := by
      rw [(configured node).self]
      exact different
    apply lookup_digests_observe own held
    apply contacts.known node peer different
    unfold NodeCoordinator.observe at held
    rw [DigestStore.lookup_foldl_forget] at held
    split at held
    · contradiction
    · exact held
  | deliver message happened =>
    by_cases sender : peer = message.digest.node
    · subst sender
      rw [arrives message happened]
      rfl
    · rw [NodeCoordinator.gossip_eq] at held ⊢
      rw [DigestStore.lookup_merge _ _ _ sender] at held
      have before := contacts.known node peer different held
      split
      · rw [Membership.lookup_heardWithoutMode (past _), if_neg sender]
        exact before
      · rw [Membership.lookup_heard (past _), if_neg sender]
        exact before
  | restart happened =>
    contradiction
  | request asker want answered lease happened granted =>
    obtain ⟨-, _, _, -, -, rfl⟩ := NodeCoordinator.request_eq_ok granted
    exact contacts.known node peer different held
  | accept lease happened => exact contacts.known node peer different held

theorem contacts_step (configured : ∀ node, Configured d node (s.node node))
    (contacts : s.Contacts d) (allowed : s.Allowed d event) : (s.step d event).Contacts d where
  active := by
    intro node peer c found
    have change := contactChange configured contacts allowed node peer
    generalize (s.step d event).contact node peer = after at change found
    cases change with
    | kept other silent => exact contacts.active node peer c found
    | heartbeat | delivered => cases found; rfl
    | reaped | restarted => contradiction
  past := by
    intro node peer c found
    have change := contactChange configured contacts allowed node peer
    generalize (s.step d event).contact node peer = after at change found
    cases change with
    | kept other silent => exact (contacts.past node peer c found).trans allowed.1
    | heartbeat | delivered => cases found; exact le_rfl
    | reaped | restarted => contradiction
  member := by
    intro node peer c found
    have change := contactChange configured contacts allowed node peer
    have enabled := allowed.2
    generalize (s.step d event).contact node peer = after at change found
    cases change with
    | kept other silent => exact contacts.member node peer c found
    | heartbeat happened self =>
      rw [happened] at enabled
      exact self ▸ enabled
    | delivered message happened sender =>
      rw [happened] at enabled
      exact sender ▸ (contacts.flying node message enabled).2.1
    | reaped | restarted => contradiction
  known := by
    intro node peer different held
    exact known_step configured contacts allowed different held
  flying := by
    intro target message flying
    rcases mem_inFlight_step flying with old | ⟨source, version, happened, rfl⟩
    · exact contacts.flying target message old
    · have enabled := allowed.2
      rw [happened] at enabled
      change (s.node source).mode = _ ∧ (s.node source).localNode ∈ _ ∧
        (s.node source).localNode ≠ _
      rw [(configured source).self, (configured source).active]
      exact ⟨rfl, enabled.1, enabled.2.2⟩

theorem contacts_start (d : Deployment) (started : Nat) : (Fleet.start d started).Contacts d := by
  exact
    { active := by
        intro node peer c found
        contradiction
      past := by
        intro node peer c found
        contradiction
      member := by
        intro node peer c found
        contradiction
      known := by
        intro node peer _ held
        contradiction
      flying := by
        intro target message flying
        exact absurd flying List.not_mem_nil }

/-! ### A recent contact with a lower node -/

def HeardSince (s : Fleet) (node peer : NodeId) (since : Nat) : Prop :=
  ∃ c, s.contact node peer = some c ∧ since ≤ c.heardAt

theorem HeardSince.step (configured : ∀ node, Configured d node (s.node node))
    (contacts : s.Contacts d) (allowed : s.Allowed d event) {since : Nat}
    (heard : s.HeardSince node peer since) (running : event.action ≠ .restart node)
    (recent : event.time < since + d.config.membership.deadAfter) (begun : since ≤ event.time) :
    (s.step d event).HeardSince node peer since := by
  obtain ⟨c, found, later⟩ := heard
  have change := contactChange configured contacts allowed node peer
  unfold HeardSince
  generalize (s.step d event).contact node peer = after at change
  cases change with
  | kept other silent => exact ⟨c, found, later⟩
  | heartbeat | delivered => exact ⟨_, rfl, begun⟩
  | restarted happened => exact absurd happened running
  | reaped happened dead =>
    have past := Nat.le_trans (contacts.past node peer c found) allowed.1
    have alive : event.time < c.heardAt + (s.node node).liveness.config.deadAfter := by
      rw [(configured node).livenessConfig]
      omega
    exact absurd dead (Membership.state_ne_dead found past alive)

theorem HeardSince.leading_eq_false {now : Nat} {since : Nat}
    (configured : Configured d node (s.node node)) (contacts : s.Contacts d)
    (forward : s.clock ≤ now) (heard : s.HeardSince node peer since) (lower : peer < node)
    (recent : now < since + d.config.membership.deadAfter) : (s.node node).leading now = false := by
  obtain ⟨c, found, later⟩ := heard
  have past := Nat.le_trans (contacts.past node peer c found) forward
  have alive : now < c.heardAt + (s.node node).liveness.config.deadAfter := by
    rw [configured.livenessConfig]
    omega
  have present : ({ id := peer, mode := .active } : Member) ∈
      ((s.node node).liveness.view now).members := by
    rw [Membership.mem_view_iff]
    exact ⟨c, found, contacts.active node peer c found,
      Membership.state_ne_dead found past alive⟩
  by_contra leads
  have isLeader : ((s.node node).membership now).isLeader = true := by
    unfold NodeCoordinator.leading at leads
    grind
  have above := MembershipView.isLeader_le isLeader present rfl
  have self : ((s.node node).membership now).localNode = node := configured.livenessSelf
  rw [self] at above
  exact absurd lower (Nat.not_lt.mpr above)

end Fleet

theorem ValidSchedule.contacts {d : Deployment} {started : Nat} {schedule : Nat → Event}
    {steps : Nat} (valid : ValidSchedule d started schedule steps) {position : Nat}
    (within : position ≤ steps) : (Fleet.before d started schedule position).Contacts d := by
  induction position with
  | zero => exact Fleet.contacts_start d started
  | succ position ih =>
    exact Fleet.contacts_step (Fleet.configured_before d started schedule position)
      (ih (Nat.le_of_lt within)) (valid position within)


section Schedule

variable {d : Deployment} {started : Nat} {schedule : Nat → Event} {steps : Nat}

theorem Fleet.exists_observe_of_officeSince {position : Nat} {node : NodeId} {since : Nat}
    (office : (Fleet.before d started schedule position).officeSince d node = some since) :
    ∃ taken < position, (schedule taken).action = .observe node ∧
      (schedule taken).time = since ∧
      ((Fleet.before d started schedule taken).node node).leading since = true := by
  induction position with
  | zero => contradiction
  | succ position ih =>
    rcases Fleet.officeSince_step (schedule position)
        (Fleet.configured_before d started schedule position) node with
      same | lost | ⟨observed, leads, taken⟩
    · obtain ⟨earlier, before, rest⟩ := ih (same.symm.trans office)
      exact ⟨earlier, Nat.lt_succ_of_lt before, rest⟩
    · have impossible := lost.symm.trans office
      contradiction
    · have now : (schedule position).time = since := Option.some.inj (taken.symm.trans office)
      exact ⟨position, Nat.lt_succ_self position, observed, now, now ▸ leads⟩

theorem ValidSchedule.heardSince (valid : ValidSchedule d started schedule steps)
    {first last : Nat} (order : first ≤ last) (within : last ≤ steps) {node peer : NodeId}
    {since : Nat} (begun : since ≤ (Fleet.before d started schedule first).clock)
    (heard : (Fleet.before d started schedule first).HeardSince node peer since)
    (running : ∀ position, first ≤ position → position < last →
      (schedule position).action ≠ .restart node)
    (recent : (Fleet.before d started schedule last).clock <
      since + d.config.membership.deadAfter) :
    (Fleet.before d started schedule last).HeardSince node peer since := by
  apply Run.holds_from (P := fun position =>
    (Fleet.before d started schedule position).HeardSince node peer since) heard order
  intro position after below ih
  have inside : position < steps := Nat.lt_of_lt_of_le below within
  have time := valid.time_le_clock below within
  have clock := valid.clock_mono after inside.le
  have forward := (valid position inside).1
  exact ih.step (Fleet.configured_before d started schedule position)
    (valid.contacts inside.le) (valid position inside)
    (running position after below) (by omega) (by omega)

/-- Once a node has heard a lower one and then observed, office can only be taken
anew, after the lower node has been silent for `dead_after`. -/
theorem ValidSchedule.since_ge_of_heard (valid : ValidSchedule d started schedule steps)
    {observed last : Nat} (order : observed < last) (within : last ≤ steps)
    {node peer : NodeId} (lower : peer < node) {heardAt since : Nat}
    (begun : heardAt ≤ (Fleet.before d started schedule observed).clock)
    (heard : (Fleet.before d started schedule observed).HeardSince node peer heardAt)
    (observes : (schedule observed).action = .observe node)
    (soon : (schedule observed).time < heardAt + d.config.membership.deadAfter)
    (running : ∀ position, observed ≤ position → position < last →
      (schedule position).action ≠ .restart node)
    (office : (Fleet.before d started schedule last).officeSince d node = some since) :
    heardAt + d.config.membership.deadAfter ≤ since := by
  -- Any round of the node before that instant finds the lower node in its view.
  have idle : ∀ position, observed ≤ position → position < last →
      (schedule position).time < heardAt + d.config.membership.deadAfter →
      ((Fleet.before d started schedule position).node node).leading (schedule position).time =
        false := by
    intro position after below early
    have inside : position < steps := Nat.lt_of_lt_of_le below within
    have forward := (valid position inside).1
    have remembered := valid.heardSince after inside.le begun heard
      (fun earlier low high => running earlier low (Nat.lt_trans high below))
      (forward.trans_lt early)
    exact remembered.leading_eq_false (Fleet.configured_before d started schedule position node)
      (valid.contacts inside.le) forward lower early
  have lost : (Fleet.before d started schedule (observed + 1)).officeSince d node = none := by
    have configured := Fleet.configured_before d started schedule observed node
    have decided := Fleet.officeSince_observe configured (schedule observed).time
    rw [idle observed le_rfl order soon] at decided
    rw [← Fleet.node_step_observe d _ observes] at decided
    exact decided
  revert office
  apply Run.holds_from (P := fun position =>
    (Fleet.before d started schedule position).officeSince d node = some since →
      heardAt + d.config.membership.deadAfter ≤ since) _ (Nat.succ_le_of_lt order)
  · intro position after below ih office
    rcases Fleet.officeSince_step (schedule position)
        (Fleet.configured_before d started schedule position) node with
      same | ended | ⟨-, leads, taken⟩
    · exact ih (same.symm.trans office)
    · have impossible := ended.symm.trans office
      contradiction
    · have now : (schedule position).time = since := Option.some.inj (taken.symm.trans office)
      by_contra early
      have notLeading := idle position (Nat.le_of_succ_le after) below (by omega)
      rw [leads] at notLeading
      contradiction
  · intro office
    rw [lost] at office
    contradiction

end Schedule

end Pgprox.Cluster
