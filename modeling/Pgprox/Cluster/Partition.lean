/-
A clean partition.

From one instant on the fleet is split into groups that do not hear each other.  The
takeover wait then outlasts every lease of a predecessor, provided no node starts so shortly
before the split that a leader is cut off without ever having heard it.
-/

import Pgprox.Cluster.Contact

namespace Pgprox.Cluster

def Action.participants : Action → List NodeId
  | .heartbeat node => [node]
  | .observe node => [node]
  | .send source _ _ => [source]
  | .deliver target _ => [target]
  | .restart _ => []
  | .request asker responder _ => [asker, responder]
  | .accept holder _ => [holder]

def Event.delivers (source target : NodeId) (event : Event) : Bool :=
  match event.action with
  | .deliver addressee message => addressee == target && message.digest.node == source
  | _ => false

def Event.asksInside (group : NodeId → Nat) (event : Event) : Bool :=
  match event.action with
  | .request asker responder _ => group asker == group responder
  | _ => true

/-- From `first` on, wherever the window is open, the event recurs at least once
every `beat`.  Windows that the schedule does not reach the end of ask nothing. -/
def RecursWithin (schedule : Nat → Event) (steps beat first : Nat) (isOpen : Event → Bool)
    (occurs : Event → Bool) : Prop :=
  ∀ position < steps, first ≤ position → isOpen (schedule position) = true →
    (schedule position).time + beat < (schedule (steps - 1)).time →
    ∃ between < steps, position < between ∧ occurs (schedule between) = true ∧
      (schedule between).time ≤ (schedule position).time + beat

instance (schedule : Nat → Event) (steps beat first : Nat) (isOpen occurs : Event → Bool) :
    Decidable (RecursWithin schedule steps beat first isOpen occurs) :=
  Nat.decidableBallLT steps fun position _ =>
    first ≤ position → isOpen (schedule position) = true →
      (schedule position).time + beat < (schedule (steps - 1)).time →
      ∃ between < steps, position < between ∧ occurs (schedule between) = true ∧
        (schedule between).time ≤ (schedule position).time + beat

def Connected (group : NodeId → Nat) (beat cut : Nat) (source target : NodeId)
    (event : Event) : Bool :=
  decide (group source = group target ∨ event.time + beat < cut)

/-- Regular traffic before the split at `cut`, and inside the groups after it. -/
structure CleanPartition (d : Deployment) (schedule : Nat → Event) (steps beat cut : Nat)
    (group : NodeId → Nat) : Prop where
  brisk : 2 * beat ≤ d.config.membership.suspectAfter
  startsOnce : ∀ node ∈ d.nodes, ∀ first < steps, (schedule first).action = .restart node →
    ∀ second < steps, (schedule second).action = .restart node → first = second
  startsFirst : ∀ position < steps, ∀ node ∈ (schedule position).action.participants,
    ∃ start < position, (schedule start).action = .restart node
  heartbeats : ∀ node ∈ d.nodes, ∀ start < steps, (schedule start).action = .restart node →
    RecursWithin schedule steps beat start (fun _ => true)
      fun event => decide (event.action = .heartbeat node)
  observes : ∀ node ∈ d.nodes, ∀ start < steps, (schedule start).action = .restart node →
    RecursWithin schedule steps beat start (fun _ => true)
      fun event => decide (event.action = .observe node)
  delivers : ∀ source ∈ d.nodes, ∀ target ∈ d.nodes, source ≠ target →
    ∀ start < steps, (schedule start).action = .restart source →
    ∀ start' < steps, (schedule start').action = .restart target →
    RecursWithin schedule steps beat (max start start') (Connected group beat cut source target)
      (Event.delivers source target)
  separated : ∀ position < steps, cut ≤ (schedule position).time →
    ∀ source ∈ d.nodes, ∀ target ∈ d.nodes,
      (schedule position).delivers source target = true → group source = group target
  requestsInside : ∀ position < steps, cut ≤ (schedule position).time →
    (schedule position).asksInside group = true

def StartsSettled (d : Deployment) (schedule : Nat → Event) (steps beat cut : Nat) : Prop :=
  ∀ position < steps, ∀ node ∈ d.nodes, (schedule position).action = .restart node →
    (schedule position).time < cut → (schedule position).time + beat < cut

section Partition

variable {d : Deployment} {started : Nat} {schedule : Nat → Event} {steps beat cut : Nat}
  {group : NodeId → Nat}

theorem Event.exists_deliver_of_delivers {source target : NodeId} {event : Event}
    (delivers : event.delivers source target = true) :
    ∃ message, event.action = .deliver target message ∧ message.digest.node = source := by
  unfold Event.delivers at delivers
  split at delivers
  · rename_i addressee message happened
    simp only [Bool.and_eq_true, beq_iff_eq] at delivers
    exact ⟨message, delivers.1 ▸ happened, delivers.2⟩
  · contradiction

variable {position : Nat}

theorem RecursWithin.exists_between (valid : ValidSchedule d started schedule steps) {first : Nat}
    {isOpen occurs : Event → Bool} (recurs : RecursWithin schedule steps beat first isOpen occurs)
    {later : Nat} (after : first ≤ position) (order : position < later) (within : later < steps)
    (opened : isOpen (schedule position) = true)
    (past : (schedule position).time + beat < (schedule later).time) :
    ∃ between, position < between ∧ between < later ∧ occurs (schedule between) = true ∧
      (schedule between).time ≤ (schedule position).time + beat := by
  have ends := valid.time_mono (Nat.le_sub_one_of_lt within)
    (Nat.sub_lt (Nat.lt_of_le_of_lt (Nat.zero_le later) within) Nat.one_pos)
  obtain ⟨between, inside, follows, happens, soon⟩ :=
    recurs position (Nat.lt_trans order within) after opened (past.trans_le ends)
  refine ⟨between, follows, ?_, happens, soon⟩
  by_contra beyond
  have late := valid.time_mono (Nat.not_lt.mp beyond) inside
  omega

variable {node : NodeId}

theorem CleanPartition.not_restart (partition : CleanPartition d schedule steps beat cut group)
    (member : node ∈ d.nodes) {start : Nat} (order : start < position) (within : position < steps)
    (starts : (schedule start).action = .restart node) :
    (schedule position).action ≠ .restart node := by
  intro again
  have same := partition.startsOnce node member start (Nat.lt_trans order within) starts
    position within again
  omega

theorem ValidSchedule.heardSince_of_delivers (valid : ValidSchedule d started schedule steps)
    {delivery : Nat} (within : delivery < steps) {source target : NodeId}
    (delivers : (schedule delivery).delivers source target = true) :
    (Fleet.before d started schedule (delivery + 1)).HeardSince target source
      (schedule delivery).time := by
  obtain ⟨message, happened, rfl⟩ := Event.exists_deliver_of_delivers delivers
  have heard := Fleet.contact_delivered (Fleet.configured_before d started schedule delivery)
    (valid.contacts within.le) (valid delivery within) happened
  exact ⟨_, heard, Nat.le_refl _⟩

section

variable (partition : CleanPartition d schedule steps beat cut group)
  (valid : ValidSchedule d started schedule steps)
include partition valid

theorem CleanPartition.heardSince {source target : NodeId}
    (member : target ∈ d.nodes) {start delivery : Nat}
    (starts : (schedule start).action = .restart target) (running : start < delivery)
    (order : delivery < position) (within : position < steps)
    (delivers : (schedule delivery).delivers source target = true)
    (soon : (schedule position).time <
      (schedule delivery).time + d.config.membership.deadAfter) :
    (Fleet.before d started schedule position).HeardSince target source
      (schedule delivery).time := by
  apply valid.heardSince (Nat.succ_le_of_lt order) within.le (Nat.le_refl _)
    (valid.heardSince_of_delivers (Nat.lt_trans order within) delivers)
  · intro between low high
    exact partition.not_restart member (Nat.lt_trans running (Nat.lt_of_succ_le low))
      (Nat.lt_trans high within) starts
  · exact Nat.lt_of_le_of_lt (valid position within).1 soon

/-- Of two nodes that hear each other regularly, the higher one is out of office
two beats after both run. -/
theorem CleanPartition.not_in_office
    (lively : beat < d.config.membership.deadAfter) {low high : NodeId}
    (lowMember : low ∈ d.nodes) (highMember : high ∈ d.nodes) (lower : low < high)
    {startLow startHigh : Nat} (startsLow : (schedule startLow).action = .restart low)
    (lowRuns : startLow < steps) (startsHigh : (schedule startHigh).action = .restart high)
    (highRuns : startHigh < steps) (within : position < steps) {since : Nat}
    (office : (Fleet.before d started schedule position).officeSince d high = some since)
    (past : (schedule (max startLow startHigh)).time + 2 * beat < (schedule position).time)
    (connected : group low = group high ∨
      (schedule (max startLow startHigh)).time + beat < cut ∧ since < cut) : False := by
  generalize first_def : max startLow startHigh = first at past connected
  have startedHigh : startHigh ≤ first := first_def ▸ Nat.le_max_right _ _
  obtain ⟨taken, before, observes, time, leads⟩ := Fleet.exists_observe_of_officeSince office
  have takenInside : taken < steps := Nat.lt_trans before within
  have firstInside : first < steps := first_def ▸ Nat.max_lt.mpr ⟨lowRuns, highRuns⟩
  have order : first < position := by
    by_contra beyond
    have late := valid.time_mono (Nat.not_lt.mp beyond) firstInside
    omega
  have recurs := partition.delivers low lowMember high highMember (Nat.ne_of_lt lower)
    startLow lowRuns startsLow startHigh highRuns startsHigh
  rw [first_def] at recurs
  -- A delivery shortly before office was taken contradicts having led then.
  have contradicted : ∀ delivery, first < delivery → delivery < taken →
      (schedule delivery).delivers low high = true → since ≤ (schedule delivery).time + beat →
      False := by
    intro delivery after earlier delivers soon
    have heard := partition.heardSince valid highMember startsHigh
      (startedHigh.trans_lt after) earlier takenInside delivers (by omega)
    have idle := heard.leading_eq_false
      (Fleet.configured_before d started schedule taken high)
      (valid.contacts takenInside.le) (valid taken takenInside).1 lower (by omega)
    rw [time, leads] at idle
    contradiction
  have openFirst : Connected group beat cut low high (schedule first) = true := by
    rcases connected with same | ⟨apart, -⟩
    · exact decide_eq_true (.inl same)
    · exact decide_eq_true (.inr apart)
  rcases Nat.lt_or_ge ((schedule first).time + beat) since with late | early
  · -- Office was taken late: the last delivery before it was recent.
    have afterFirst : first < taken := by
      by_contra beyond
      have ordered := valid.time_mono (Nat.not_lt.mp beyond) firstInside
      omega
    obtain ⟨some, follows, earlier, delivers, -⟩ :=
      recurs.exists_between valid (Nat.le_refl first) afterFirst takenInside openFirst
        (by omega)
    obtain ⟨last, isLast, greatest⟩ := Finset.exists_max_image
      ((Finset.range taken).filter fun delivery =>
        first < delivery ∧ (schedule delivery).delivers low high = true) id
      ⟨some, by simp [follows, earlier, delivers]⟩
    simp only [Finset.mem_filter, Finset.mem_range] at isLast
    apply contradicted last isLast.2.1 isLast.1 isLast.2.2
    by_contra silent
    have openLast : Connected group beat cut low high (schedule last) = true := by
      rcases connected with same | ⟨-, apart⟩
      · exact decide_eq_true (.inl same)
      · exact decide_eq_true (.inr (by omega))
    obtain ⟨next, nextFollows, nextEarlier, nextDelivers, -⟩ :=
      recurs.exists_between valid (Nat.le_of_lt isLast.2.1) isLast.1 takenInside openLast
        (by omega)
    have bound := greatest next (by
      simp [nextEarlier, nextDelivers, Nat.lt_trans isLast.2.1 nextFollows])
    exact absurd nextFollows (Nat.not_lt.mpr bound)
  · -- Office was taken early: a delivery and a round after it end it in time.
    obtain ⟨delivery, follows, earlier, delivers, soon⟩ :=
      recurs.exists_between valid (Nat.le_refl first) order within openFirst (by omega)
    have deliveryInside : delivery < steps := Nat.lt_trans earlier within
    have ordered := valid.time_mono follows.le deliveryInside
    rcases Nat.lt_trichotomy delivery taken with before | same | after
    · exact contradicted delivery follows before delivers (by omega)
    · obtain ⟨message, happened, -⟩ := Event.exists_deliver_of_delivers delivers
      rw [same, observes] at happened
      contradiction
    · have round := partition.observes high highMember startHigh highRuns startsHigh
      obtain ⟨observed, roundAfter, roundBefore, isRound, roundSoon⟩ :=
        round.exists_between valid
          (startedHigh.trans (Nat.le_of_lt follows)) earlier within rfl (by omega)
      have roundInside : observed < steps := Nat.lt_trans roundBefore within
      have heard := partition.heardSince valid highMember startsHigh
        (startedHigh.trans_lt follows) roundAfter roundInside delivers (by omega)
      have anew := valid.since_ge_of_heard roundBefore within.le lower
        (valid.time_le_clock roundAfter roundInside.le) heard
        (of_decide_eq_true isRound) (by omega)
        (fun between low' high' => partition.not_restart highMember
          (Nat.lt_of_lt_of_le (startedHigh.trans_lt (Nat.lt_trans follows roundAfter))
            low') (Nat.lt_trans high' within) startsHigh) office
      omega

end

/-! ### Quorums after the split -/

section

variable (partition : CleanPartition d schedule steps beat cut group)
  (valid : ValidSchedule d started schedule steps)
include partition valid

theorem CleanPartition.group_eq_of_contact (within : position ≤ steps) {peer : NodeId}
    (member : node ∈ d.nodes) {c : Contact}
    (found : (Fleet.before d started schedule position).contact node peer = some c)
    (since : cut ≤ c.heardAt) : group peer = group node := by
  induction position generalizing c with
  | zero =>
    contradiction
  | succ position ih =>
    have below : position < steps := within
    have allowed := valid position below
    have contacts := valid.contacts below.le
    have change := Fleet.contactChange (Fleet.configured_before d started schedule position)
      contacts allowed node peer
    change Fleet.contact (Fleet.step d (Fleet.before d started schedule position)
      (schedule position)) node peer = some c at found
    generalize Fleet.contact (Fleet.step d (Fleet.before d started schedule position)
      (schedule position)) node peer = after at change found
    cases change with
    | kept other silent => exact ih below.le found since
    | heartbeat happened self => rw [self]
    | delivered message happened sender =>
      cases found
      have enabled := allowed.2
      rw [happened] at enabled
      have sent := (contacts.flying node message enabled).2.1
      have delivers : (schedule position).delivers peer node = true := by
        unfold Event.delivers
        rw [happened]
        simp [sender]
      exact partition.separated position below since peer (sender ▸ sent) node member
        delivers
    | reaped | restarted => contradiction

theorem CleanPartition.quorum_in_group (within : position < steps) (member : node ∈ d.nodes)
    (quorum : ((Fleet.before d started schedule position).node node).hasQuorum
      (schedule position).time = true)
    (past : cut + d.config.membership.suspectAfter ≤ (schedule position).time) :
    d.nodes.card < 2 * (d.nodes.filter fun peer => group peer = group node).card := by
  have configured := Fleet.configured_before d started schedule position node
  have counted := NodeCoordinator.fleetSize_lt_of_hasQuorum quorum
  rw [configured.config, ← d.size] at counted
  have bounded : ((Fleet.before d started schedule position).node node).liveness.aliveCount
      (schedule position).time ≤ (d.nodes.filter fun peer => group peer = group node).card := by
    apply Membership.aliveCount_le_card
    intro peer c found recent
    rw [configured.livenessConfig] at recent
    rw [Finset.mem_filter]
    have contacts := valid.contacts within.le
    exact ⟨contacts.member node peer c found,
      partition.group_eq_of_contact valid within.le member found (by omega)⟩
  omega

end

theorem card_filter_group_add_le (nodes : Finset NodeId) (group : NodeId → Nat)
    {left right : Nat} (different : left ≠ right) :
    (nodes.filter fun node => group node = left).card +
      (nodes.filter fun node => group node = right).card ≤ nodes.card := by
  rw [← Finset.card_union_of_disjoint]
  · apply Finset.card_le_card
    apply Finset.union_subset (Finset.filter_subset _ _) (Finset.filter_subset _ _)
  · rw [Finset.disjoint_filter]
    intro node _ first second
    exact different (first.symm.trans second)

/-! ### Grants under a clean partition -/

section

variable (partition : CleanPartition d schedule steps beat cut group)
  (valid : ValidSchedule d started schedule steps)
include partition valid

theorem CleanPartition.exists_start (within : position < steps) {since : Nat}
    (office : (Fleet.before d started schedule position).officeSince d node = some since) :
    ∃ start < position, (schedule start).action = .restart node ∧
      (schedule start).time ≤ since := by
  obtain ⟨taken, before, observes, rfl, -⟩ := Fleet.exists_observe_of_officeSince office
  have inside : taken < steps := Nat.lt_trans before within
  obtain ⟨start, earlier, starts⟩ := partition.startsFirst taken inside node
    (by rw [observes]; exact List.mem_singleton.mpr rfl)
  exact ⟨start, Nat.lt_trans earlier before, starts,
    valid.time_mono earlier.le inside⟩

theorem CleanPartition.exclusiveGrants (settled : StartsSettled d schedule steps beat cut)
    (lively : beat < d.config.membership.deadAfter) :
    ExclusiveGrants d started schedule steps := by
  intro earlier later order within asker asker' issuer issuer' want want' since since'
    asked asked' granting granting' different overlap
  by_contra apart
  have first : earlier < steps := Nat.lt_trans order within
  have ordered := valid.time_mono order.le within
  have waited := granting.waited
  have longer := d.config.ttl_add_suspectAfter_le
  have brisk := partition.brisk
  have member : issuer ∈ d.nodes := by
    have acts := (valid earlier first).2
    rw [asked] at acts
    exact acts.2
  have member' : issuer' ∈ d.nodes := by
    have acts := (valid later within).2
    rw [asked'] at acts
    exact acts.2
  obtain ⟨start, before, starts, begun⟩ := partition.exists_start valid first granting.office
  obtain ⟨start', before', starts', begun'⟩ :=
    partition.exists_start valid within granting'.office
  have runs : start < steps := Nat.lt_trans before first
  have runs' : start' < steps := Nat.lt_trans before' within
  -- Both started, and both took office, before suspicion could begin to matter.
  by_cases split : group issuer ≠ group issuer' ∧
      cut + d.config.membership.suspectAfter ≤ (schedule earlier).time
  · have majority := partition.quorum_in_group valid first member granting.quorum split.2
    have majority' := partition.quorum_in_group valid within member' granting'.quorum
      (Nat.le_trans split.2 ordered)
    have total := card_filter_group_add_le d.nodes group split.1
    omega
  · have latest : ∀ bound, (schedule start).time < bound → (schedule start').time < bound →
        (schedule (max start start')).time < bound := by
      intro bound left right
      rcases Nat.le_total start start' with low | high
      · rwa [Nat.max_eq_right low]
      · rwa [Nat.max_eq_left high]
    have connected : group issuer = group issuer' ∨
        (schedule (max start start')).time + beat < cut ∧ since < cut ∧ since' < cut := by
      by_cases same : group issuer = group issuer'
      · exact .inl same
      · right
        have room := settled start runs issuer member starts (by omega)
        have room' := settled start' runs' issuer' member' starts' (by omega)
        have early := latest (cut - beat) (by omega) (by omega)
        omega
    have early := latest ((schedule earlier).time - 2 * beat) (by omega) (by omega)
    rcases Nat.lt_or_gt_of_ne different with below | above
    · exact partition.not_in_office valid lively member member' below starts runs starts' runs'
        within granting'.office (by omega) (by omega)
    · rw [Nat.max_comm] at early connected
      exact partition.not_in_office valid lively member' member above starts' runs' starts runs
        first granting.office (by omega) (by omega)

end

end Partition

/-- In every run with regular traffic and one clean split, if no node starts within
one beat before the split and renewals ask for what is still out, the whole fleet
stays within the cap at every instant. -/
theorem totalAllowance_le_cap_of_cleanPartition (d : Deployment) (started : Nat)
    (schedule : Nat → Event) (steps beat cut : Nat) (group : NodeId → Nat)
    (valid : ValidSchedule d started schedule steps)
    (partition : CleanPartition d schedule steps beat cut group)
    (settled : StartsSettled d schedule steps beat cut)
    (lively : beat < d.config.membership.deadAfter)
    (renews : ∀ position < steps,
      (Fleet.before d started schedule position).RenewsInFull d (schedule position)) :
    ∀ position ≤ steps, ∀ now, (Fleet.before d started schedule position).clock ≤ now →
      (Fleet.before d started schedule position).totalAllowance d now ≤ d.quota.cap := by
  intro position within now later
  have exclusive := partition.exclusiveGrants valid settled lively
  have pool := withinPool_of_exclusiveGrants valid renews exclusive within
  exact pool.totalAllowance_le (Fleet.configured_before d started schedule position) later

/-! ### A start just before the split -/

/-- Three nodes whose timing is short enough to write a schedule down: suspicion
after 6, leases of 1, hence a takeover wait of 7. -/
def quickNodes : Deployment where
  nodes := {1, 2, 3}
  config :=
    { CoordinatorConfig.default with
      fleetSize := 3
      lease := { ttl := 1, takeoverWait := 7 }
      membership := { suspectAfter := 6, deadAfter := 20 } }
  server := { address := "db-1:5432" }
  quota := { cap := 100, guaranteedFraction := 1 / 2 }
  size := by decide
  nonempty := by decide

def quickLease : QuotaLease where
  server := quickNodes.server
  nominalCount := 50
  expiresAt := 8

def apartFromTwo (node : NodeId) : Nat :=
  if node = 2 then 1 else 0

def exchange (time : Nat) (source target : NodeId) : List Event :=
  [⟨time, .send source target (time + 1)⟩, ⟨time, .deliver target (idleDigest source (time + 1))⟩]

def startAll (time : Nat) : List Event :=
  [⟨time, .restart 1⟩, ⟨time, .restart 2⟩, ⟨time, .restart 3⟩]

def round (time : Nat) (exchanges : List (NodeId × NodeId)) : List Event :=
  [⟨time, .heartbeat 1⟩, ⟨time, .heartbeat 2⟩, ⟨time, .heartbeat 3⟩] ++
    exchanges.flatMap (fun pair => exchange time pair.1 pair.2) ++
    [⟨time, .observe 1⟩, ⟨time, .observe 2⟩, ⟨time, .observe 3⟩]

/-- All start at 0.  Node 2 hears node 3 but is split off at 3, within one beat,
without ever having heard node 1.  It keeps its quorum until 8. -/
def cutOffUnheard : List Event :=
  startAll 0 ++ round 0 [(3, 2), (3, 1), (1, 3)] ++ exchange 2 3 2 ++
    round 3 [(3, 1), (1, 3)] ++ round 6 [(3, 1), (1, 3)] ++
    [ ⟨7, .request 1 1 50⟩, ⟨7, .accept 1 quickLease⟩,
      ⟨7, .request 2 2 50⟩, ⟨7, .accept 2 quickLease⟩ ]

set_option maxRecDepth 8000 in
theorem cutOffUnheard_valid :
    ValidSchedule quickNodes 0 (scheduleOf cutOffUnheard) 41 := by
  unfold ValidSchedule
  decide +kernel

set_option maxRecDepth 8000 in
theorem cutOffUnheard_cleanPartition :
    CleanPartition quickNodes (scheduleOf cutOffUnheard) 41 3 3 apartFromTwo where
  brisk := by decide
  startsOnce := by decide +kernel
  startsFirst := by decide +kernel
  heartbeats := by decide +kernel
  observes := by decide +kernel
  delivers := by decide +kernel
  separated := by decide +kernel
  requestsInside := by decide +kernel

set_option maxRecDepth 8000 in
theorem cutOffUnheard_total :
    (Fleet.before quickNodes 0 (scheduleOf cutOffUnheard) 41).clock ≤ 7 ∧
      (Fleet.before quickNodes 0 (scheduleOf cutOffUnheard) 41).totalAllowance quickNodes 7 =
        148 := by
  decide +kernel

/-- A clean split is not enough: both sides lend all of the free pool. -/
theorem totalAllowance_exceeds_cap_of_start_before_split :
    ¬ ∀ (d : Deployment) (started : Nat) (schedule : Nat → Event) (steps beat cut : Nat)
      (group : NodeId → Nat), ValidSchedule d started schedule steps →
      CleanPartition d schedule steps beat cut group →
      ∀ now, (Fleet.before d started schedule steps).clock ≤ now →
        (Fleet.before d started schedule steps).totalAllowance d now ≤ d.quota.cap := by
  intro always
  have bound := always quickNodes 0 (scheduleOf cutOffUnheard) 41 3 3 apartFromTwo
    cutOffUnheard_valid cutOffUnheard_cleanPartition 7 cutOffUnheard_total.1
  rw [cutOffUnheard_total.2] at bound
  exact absurd bound (by decide)

def cutOffHeard : List Event :=
  startAll 0 ++ round 0 [(3, 1)] ++
    round 3 [(1, 2), (1, 3), (2, 1), (2, 3), (3, 1), (3, 2)] ++ round 6 [(3, 1), (1, 3)] ++
    [⟨7, .request 3 1 50⟩, ⟨7, .accept 3 quickLease⟩]

set_option maxRecDepth 8000 in
theorem cutOffHeard_valid :
    ValidSchedule quickNodes 0 (scheduleOf cutOffHeard) 41 ∧
      ∀ position < 41, (Fleet.before quickNodes 0 (scheduleOf cutOffHeard) position).RenewsInFull
        quickNodes (scheduleOf cutOffHeard position) := by
  unfold ValidSchedule
  decide +kernel

set_option maxRecDepth 8000 in
theorem cutOffHeard_cleanPartition :
    CleanPartition quickNodes (scheduleOf cutOffHeard) 41 3 4 apartFromTwo where
  brisk := by decide
  startsOnce := by decide +kernel
  startsFirst := by decide +kernel
  heartbeats := by decide +kernel
  observes := by decide +kernel
  delivers := by decide +kernel
  separated := by decide +kernel
  requestsInside := by decide +kernel

set_option maxRecDepth 8000 in
theorem totalAllowance_le_cap_cutOffHeard :
    (Fleet.before quickNodes 0 (scheduleOf cutOffHeard) 41).totalAllowance quickNodes 7 = 98 ∧
      (Fleet.before quickNodes 0 (scheduleOf cutOffHeard) 41).totalAllowance quickNodes 7 ≤
        100 :=
  ⟨by decide +kernel,
    totalAllowance_le_cap_of_cleanPartition quickNodes 0 (scheduleOf cutOffHeard) 41 3 4
      apartFromTwo cutOffHeard_valid.1 cutOffHeard_cleanPartition
      (by unfold StartsSettled; decide +kernel) (by decide) cutOffHeard_valid.2
      41 (Nat.le_refl 41) 7 (by decide +kernel)⟩

end Pgprox.Cluster
