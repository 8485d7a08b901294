/-
A lease as it travels from the leader to the node that asked.

The reply carries what was left of the lease, in whole milliseconds; the holder takes the
time of the round trip off.  Instants are nanoseconds here, on one clock for each node; the
clocks run at one rate and differ by an offset.
-/

import Pgprox.Cluster.Coordinator

namespace Pgprox

/-- `str::parse::<u16>`: decimal digits, with or without a plus sign. -/
def parsePort (text : List Char) : Option Nat :=
  let digits := if text.head? = some '+' then text.drop 1 else text
  let value := digits.foldl (fun value digit => 10 * value + (digit.toNat - '0'.toNat)) 0
  if digits ≠ [] ∧ digits.all Char.isDigit ∧ value < 2 ^ 16 then some value else none

/-- Split at the last colon; the host is not empty and the port is not zero. -/
def ServerId.parse (text : String) : Option ServerId :=
  let chars := text.toList
  let after := (chars.reverse.takeWhile (· ≠ ':')).reverse
  let host := chars.take (chars.length - after.length - 1)
  if after.length = chars.length ∨ host = [] then none
  else
    match parsePort after with
    | none => none
    | some port => if port = 0 then none else some ⟨String.ofList host ++ ":" ++ toString port⟩

namespace Cluster

def nanosPerMilli : Nat := 1000000

def u64Max : Nat := 2 ^ 64 - 1

inductive Message where
  | quotaGrant (server : String) (count ttlMs : Nat)
  | quotaRefused (reason : String)
  | unrelated
  deriving DecidableEq

def wholeMillis (duration : Nat) : Nat :=
  min (duration / nanosPerMilli) u64Max

def droppedNanos (duration : Nat) : Nat :=
  duration - wholeMillis duration * nanosPerMilli

/-- `grant`: the ledger decides at one instant, the lifetime is measured at another. -/
def grant (c : NodeCoordinator) (server : String) (holder : NodeId) (want : Nat)
    (granted measured : Nat) : NodeCoordinator × Message :=
  match ServerId.parse server with
  | none => (c, .quotaRefused "exhausted")
  | some server =>
    match c.request server holder want granted with
    | .ok (c, lease) =>
      (c, .quotaGrant lease.server.address lease.nominalCount
        (wholeMillis (saturatingDurationSince lease.expiresAt measured)))
    | .error .noLeader => (c, .quotaRefused "no_leader")
    | .error (.exhausted _) => (c, .quotaRefused "exhausted")

/-- `request_over`, from the three readings of the asker's clock: before the request is
written, after the answer is read, and when the lease is built. -/
def requestOver (server : ServerId) (sent read built : Nat) :
    Message → Option (Except QuotaError QuotaLease)
  | .quotaGrant text count ttlMs =>
    match ServerId.parse text with
    | none => none
    | some granted =>
      some (.ok
        { server := granted
          nominalCount := count
          expiresAt :=
            built + (ttlMs * nanosPerMilli - saturatingDurationSince read sent) })
  | .quotaRefused reason =>
    if reason = "exhausted" then some (.error (.exhausted server)) else some (.error .noLeader)
  | .unrelated => some (.error .noLeader)

/-! ### What the two ends agree on -/

/-- The instants of one request that was answered, in real time. -/
structure RoundTrip where
  sent : Nat
  granted : Nat
  measured : Nat
  read : Nat
  built : Nat
  sent_le : sent ≤ granted
  granted_le : granted ≤ measured
  measured_le : measured ≤ read
  read_le : read ≤ built

namespace RoundTrip

def outward (trip : RoundTrip) : Nat :=
  trip.measured - trip.sent

def building (trip : RoundTrip) : Nat :=
  trip.built - trip.read

end RoundTrip

theorem wholeMillis_mul_le (duration : Nat) : wholeMillis duration * nanosPerMilli ≤ duration := by
  have whole := Nat.div_mul_le_self duration nanosPerMilli
  have bounded : wholeMillis duration * nanosPerMilli ≤ duration / nanosPerMilli * nanosPerMilli :=
    Nat.mul_le_mul_right _ (Nat.min_le_left _ _)
  exact bounded.trans whole

theorem grant_eq_quotaGrant {c c' : NodeCoordinator} {server text : String} {holder : NodeId}
    {want granted measured count ttlMs : Nat}
    (answered : grant c server holder want granted measured = (c', .quotaGrant text count ttlMs)) :
    ∃ id lease, ServerId.parse server = some id ∧
      c.request id holder want granted = .ok (c', lease) ∧
      ttlMs = wholeMillis (saturatingDurationSince lease.expiresAt measured) ∧
      count = lease.nominalCount := by
  unfold grant at answered
  split at answered
  · simp at answered
  · rename_i id parsed
    split at answered
    · rename_i after lease accepted
      obtain ⟨rfl, -, rfl, rfl⟩ := answered
      exact ⟨id, lease, parsed, accepted, rfl, rfl⟩
    · simp at answered
    · simp at answered

theorem requestOver_eq_ok {server : ServerId} {sent read built : Nat} {message : Message}
    {lease : QuotaLease}
    (accepted : requestOver server sent read built message = some (.ok lease)) :
    ∃ text count ttlMs, message = .quotaGrant text count ttlMs ∧ lease.nominalCount = count ∧
      lease.expiresAt =
        built + (ttlMs * nanosPerMilli - saturatingDurationSince read sent) := by
  unfold requestOver at accepted
  split at accepted
  · split at accepted
    · cases accepted
    · obtain rfl := Except.ok.inj (Option.some.inj accepted)
      exact ⟨_, _, _, rfl, rfl, rfl⟩
  · split at accepted <;> cases accepted
  · cases accepted

theorem booked_of_request_eq_ok {c c' : NodeCoordinator} {server : ServerId} {holder : NodeId}
    {want now : Nat} {lease : QuotaLease}
    (accepted : c.request server holder want now = .ok (c', lease)) :
    ∃ ledger entry, c'.ledgers.lookup server = some ledger ∧
      ledger.grants.lookup holder = some entry ∧ entry.expiresAt = lease.expiresAt ∧
        entry.count = lease.nominalCount := by
  obtain ⟨-, ledger, ledger', -, granted, rfl⟩ := NodeCoordinator.request_eq_ok accepted
  obtain ⟨-, -, -, rfl⟩ := LeaseLedger.grant_eq_ok granted
  refine ⟨_, _, AList.lookup_insert _, AList.lookup_insert _, rfl, rfl⟩

/-- The arithmetic of the two ends: `remaining` is what the lease had left when measured. -/
theorem expiry_le_iff (trip : RoundTrip) (remaining : Nat) :
    trip.built + (wholeMillis remaining * nanosPerMilli - (trip.read - trip.sent)) ≤
        trip.measured + remaining ↔
      trip.built ≤ trip.measured + remaining ∧
        trip.building ≤ trip.outward + droppedNanos remaining := by
  have whole := wholeMillis_mul_le remaining
  have sent := trip.sent_le
  have granted := trip.granted_le
  have measured := trip.measured_le
  unfold RoundTrip.building RoundTrip.outward droppedNanos
  omega

/-- A lease built from a reply ends no later, in real time, than the leader's entry
exactly when it is built before that entry ends and the asker takes no longer over it
than the request took to reach the leader's measurement, up to what the reply's whole
milliseconds leave out. -/
theorem wire_lease_within_entry_iff (trip : RoundTrip) (leaderOffset askerOffset : Nat)
    {c c' : NodeCoordinator} {server : String} {holder : NodeId} {want : Nat}
    {asked : ServerId} {message : Message} {lease : QuotaLease}
    (answered : grant c server holder want (trip.granted + leaderOffset)
      (trip.measured + leaderOffset) = (c', message))
    (accepted : requestOver asked (trip.sent + askerOffset) (trip.read + askerOffset)
      (trip.built + askerOffset) message = some (.ok lease)) :
    ∃ id ledger entry, ServerId.parse server = some id ∧ c'.ledgers.lookup id = some ledger ∧
      ledger.grants.lookup holder = some entry ∧
      (lease.expiresAt + leaderOffset ≤ entry.expiresAt + askerOffset ↔
        trip.built + leaderOffset ≤ entry.expiresAt ∧
          trip.building ≤ trip.outward +
            droppedNanos (entry.expiresAt - (trip.measured + leaderOffset))) := by
  obtain ⟨text, count, ttlMs, rfl, -, expiry⟩ := requestOver_eq_ok accepted
  obtain ⟨id, given, parsed, requested, rfl, -⟩ := grant_eq_quotaGrant answered
  obtain ⟨ledger, entry, found, listed, same, -⟩ := booked_of_request_eq_ok requested
  refine ⟨id, ledger, entry, parsed, found, listed, ?_⟩
  have arithmetic := expiry_le_iff trip (entry.expiresAt - (trip.measured + leaderOffset))
  have measured := trip.measured_le
  have read := trip.read_le
  rw [expiry, ← same]
  unfold saturatingDurationSince
  rcases Nat.lt_or_ge entry.expiresAt (trip.measured + leaderOffset) with late | early
  · -- Measured after the lease had ended: nothing of it is left, on either side.
    omega
  · omega

def soleLeader : NodeCoordinator :=
  let config : CoordinatorConfig :=
    { CoordinatorConfig.default with
      fleetSize := 1
      lease := { ttl := 5000 * nanosPerMilli, takeoverWait := 8000 * nanosPerMilli }
      membership := { suspectAfter := 3000 * nanosPerMilli, deadAfter := 10000 * nanosPerMilli } }
  let quota : ServerQuota := { cap := 10, guaranteedFraction := 0 }
  let fresh := (NodeCoordinator.new 1 config 0).setCap ⟨"db:5432"⟩ quota
  ((fresh.heartbeat 0).observe 0).heartbeat (9000 * nanosPerMilli)

def shortTrip (building : Nat) : RoundTrip where
  sent := 9000 * nanosPerMilli
  granted := 9000 * nanosPerMilli + 100000
  measured := 9000 * nanosPerMilli + 100000
  read := 9000 * nanosPerMilli + 200000
  built := 9000 * nanosPerMilli + 200000 + building
  sent_le := by decide
  granted_le := by decide
  measured_le := by decide
  read_le := Nat.le_add_right _ _

def builtAndBooked (building : Nat) : Option (QuotaLease × Grant) :=
  let trip := shortTrip building
  let answer := grant soleLeader "db:5432" 2 4 trip.granted trip.measured
  match requestOver ⟨"db:5432"⟩ trip.sent trip.read trip.built answer.2 with
  | some (.ok lease) =>
    ((answer.1.ledgers.lookup ⟨"db:5432"⟩).bind fun ledger => ledger.grants.lookup 2).map
      fun entry => (lease, entry)
  | _ => none

/-- One millisecond between the readings outweighs the tenth the request took. -/
theorem wire_lease_outlives_entry :
    builtAndBooked nanosPerMilli =
      some ({ server := ⟨"db:5432"⟩, nominalCount := 4, expiresAt := 14001000000 },
        { holder := 2, count := 4, expiresAt := 14000100000 }) := by
  decide +kernel

theorem wire_lease_within_entry_quick_asker :
    let trip := shortTrip 0
    let answer := grant soleLeader "db:5432" 2 4 (trip.granted + 0) (trip.measured + 0)
    let lease : QuotaLease :=
      { server := ⟨"db:5432"⟩, nominalCount := 4, expiresAt := 14000000000 }
    requestOver ⟨"db:5432"⟩ (trip.sent + 0) (trip.read + 0) (trip.built + 0) answer.2 =
        some (.ok lease) ∧
      ∃ id ledger entry, ServerId.parse "db:5432" = some id ∧
        answer.1.ledgers.lookup id = some ledger ∧ ledger.grants.lookup 2 = some entry ∧
        (lease.expiresAt + 0 ≤ entry.expiresAt + 0 ↔
          trip.built + 0 ≤ entry.expiresAt ∧
            trip.building ≤ trip.outward +
              droppedNanos (entry.expiresAt - (trip.measured + 0))) := by
  intro trip answer lease
  have accepted : requestOver ⟨"db:5432"⟩ (trip.sent + 0) (trip.read + 0) (trip.built + 0)
      answer.2 = some (.ok lease) := by decide +kernel
  exact ⟨accepted, wire_lease_within_entry_iff trip 0 0 (Prod.mk.eta).symm accepted⟩

end Cluster

end Pgprox
