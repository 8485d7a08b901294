/-
The streaming relay of frames: all bytes pass through, and of a body only what is to be read
is held.

What has come of a frame is in the relay, so it does not matter where the stream is cut: a
push leaves to be read what the rest of the stream gives in one piece.
-/

import Pgprox.Proto.Frame

namespace Pgprox.Proto

open List

namespace Tag

def close : UInt8 := 0x43
def terminate : UInt8 := 0x58
def flush : UInt8 := 0x48
def authentication : UInt8 := 0x52
def backendKeyData : UInt8 := 0x4B
def negotiateProtocolVersion : UInt8 := 0x76
def parameterDescription : UInt8 := 0x74
def copyInResponse : UInt8 := 0x47
def copyOutResponse : UInt8 := 0x48
def copyBothResponse : UInt8 := 0x57
def copyDone : UInt8 := 0x63

end Tag

/-- The tag and the length field. -/
def headerLen : Nat := 1 + lenPrefix

structure FrameHeader where
  tag : UInt8
  bodyLen : Nat
  deriving DecidableEq

def decodeHeader (buf : List UInt8) (maxFrame : Nat) : Except DecodeError (Option FrameHeader) :=
  if buf.length < headerLen then .ok none
  else
    match checkLength (readU32 buf.tail) maxFrame with
    | .error error => .error error
    | .ok bodyLen => .ok (some ⟨buf.headD 0, bodyLen⟩)

inductive Direction
  | frontend
  | backend
  deriving DecidableEq

/-- How much of a body is to be read. -/
inductive Inspect
  | none
  | leading (bytes : Nat)
  | whole
  deriving DecidableEq

def inspectPolicy : Direction → UInt8 → Inspect
  | .backend, tag =>
    if tag ∈ [Tag.readyForQuery, Tag.authentication, Tag.parameterStatus, Tag.backendKeyData,
        Tag.commandComplete, Tag.emptyQueryResponse, Tag.parameterDescription,
        Tag.negotiateProtocolVersion, Tag.copyInResponse, Tag.copyOutResponse,
        Tag.copyBothResponse, Tag.copyDone] then .whole
    else if tag ∈ [Tag.errorResponse, Tag.noticeResponse, Tag.notificationResponse] then
      .leading (8 * 1024)
    else .none
  | .frontend, tag =>
    if tag ∈ [Tag.sync, Tag.flush, Tag.terminate, Tag.copyDone] then .whole
    else if tag ∈ [Tag.query, Tag.parse] then .leading (64 * 1024)
    else if tag ∈ [Tag.bind, Tag.execute, Tag.describe, Tag.close] then .leading (4 * 1024)
    else .none

def inspectBudget (direction : Direction) (tag : UInt8) (bodyLen maxInspect : Nat) : Nat :=
  min (match inspectPolicy direction tag with
    | .none => 0
    | .leading bytes => min bytes bodyLen
    | .whole => bodyLen) maxInspect

inductive RelayPhase
  | header
  | body (remaining : Nat)
  deriving DecidableEq

structure Completed where
  header : FrameHeader
  complete : Bool
  deriving DecidableEq

structure RelayOutcome where
  consumed : Nat
  completed : Option Completed
  deriving DecidableEq

structure FrameRelay where
  direction : Direction
  maxFrame : Nat
  maxInspect : Nat
  phase : RelayPhase
  header : Option FrameHeader
  wantInspect : Nat
  buffer : List UInt8
  headerBuf : List UInt8
  deriving DecidableEq

namespace FrameRelay

def withLimits (direction : Direction) (maxFrame maxInspect : Nat) : FrameRelay :=
  ⟨direction, maxFrame, maxInspect, .header, none, 0, [], []⟩

def buffered (relay : FrameRelay) : Nat :=
  relay.buffer.length + relay.headerBuf.length

/-- The relay behind a header. -/
def opened (relay : FrameRelay) (header : FrameHeader) : FrameRelay :=
  { relay with
    header := some header
    headerBuf := []
    wantInspect := inspectBudget relay.direction header.tag header.bodyLen relay.maxInspect
    buffer := []
    phase := if header.bodyLen = 0 then .header else .body header.bodyLen }

/-- A whole header has come, at the front of the source. -/
def readHeader (relay : FrameRelay) (source : List UInt8) (take : Nat) :
    FrameRelay × Except DecodeError RelayOutcome :=
  match decodeHeader source relay.maxFrame with
  | .error error => (relay, .error error)
  | .ok none => (relay, .ok ⟨take, none⟩)
  | .ok (some header) => (relay.opened header,
      .ok ⟨take, if header.bodyLen = 0 then some ⟨header, true⟩ else none⟩)

def pushHeader (relay : FrameRelay) (input : List UInt8) :
    FrameRelay × Except DecodeError RelayOutcome :=
  if relay.headerBuf = [] ∧ headerLen ≤ input.length then relay.readHeader input headerLen
  else
    let take := min (headerLen - relay.headerBuf.length) input.length
    let held := { relay with headerBuf := relay.headerBuf ++ input.take take }
    if held.headerBuf.length < headerLen then (held, .ok ⟨take, none⟩)
    else held.readHeader held.headerBuf take

def pushBody (relay : FrameRelay) (input : List UInt8) (remaining : Nat) :
    FrameRelay × RelayOutcome :=
  let take := min remaining input.length
  let copy := min relay.wantInspect take
  let held := { relay with
    buffer := relay.buffer ++ input.take copy
    wantInspect := relay.wantInspect - copy }
  if 0 < remaining - take then
    ({ held with phase := .body (remaining - take) }, ⟨take, none⟩)
  else
    let header := relay.header.getD ⟨0, 0⟩
    ({ held with phase := .header },
      ⟨take, some ⟨header, held.buffer.length == header.bodyLen⟩⟩)

def push (relay : FrameRelay) (input : List UInt8) :
    FrameRelay × Except DecodeError RelayOutcome :=
  if input = [] then (relay, .ok ⟨0, none⟩)
  else
    match relay.phase with
    | .header => relay.pushHeader input
    | .body remaining =>
      ((relay.pushBody input remaining).1, .ok (relay.pushBody input remaining).2)

end FrameRelay

theorem inspectBudget_le (direction : Direction) (tag : UInt8) (bodyLen maxInspect : Nat) :
    inspectBudget direction tag bodyLen maxInspect ≤ min bodyLen maxInspect := by
  unfold inspectBudget
  split <;> omega

/-! ### The stream in one piece -/

theorem decodeHeader_append {front : List UInt8} (full : headerLen ≤ front.length)
    (rest : List UInt8) (maxFrame : Nat) :
    decodeHeader (front ++ rest) maxFrame = decodeHeader front maxFrame := by
  cases front with
  | nil => exact absurd full (by decide)
  | cons tag after =>
    have field : lenPrefix ≤ after.length := by
      rw [headerLen, length_cons] at full
      omega
    unfold decodeHeader readU32
    rw [if_neg (Nat.not_lt.mpr full),
      if_neg (by rw [length_append]; omega), cons_append, tail_cons, tail_cons,
      take_append_of_le_length field]
    rfl

theorem decode_eq (stream : List UInt8) (maxFrame : Nat) :
    decode stream maxFrame =
      match decodeHeader stream maxFrame with
      | .error error => .error error
      | .ok none => .ok (.incomplete none)
      | .ok (some header) =>
        let total := headerLen + header.bodyLen
        if stream.length < total then .ok (.incomplete (some total))
        else .ok (.frame ⟨header.tag, (stream.drop headerLen).take header.bodyLen⟩ total) := by
  cases stream with
  | nil => rfl
  | cons tag after =>
    unfold decode decodeHeader
    have short : (tag :: after).length < headerLen ↔ after.length < lenPrefix := by
      rw [length_cons, headerLen]
      omega
    simp only [short]
    split_ifs
    · rfl
    · dsimp only [tail_cons]
      cases checkLength (readU32 after) maxFrame with
      | error error => rfl
      | ok bodyLen =>
        rw [headerLen, Nat.add_comm 1 lenPrefix]
        rfl

/-- The frames of a stream, and the error that ends them with the offset of the frame it is
found in. -/
def decodeAll (maxFrame offset : Nat) (stream : List UInt8) :
    List Frame × Option (DecodeError × Nat) :=
  match _ : decode stream maxFrame with
  | .error error => ([], some (error, offset))
  | .ok (.incomplete _) => ([], none)
  | .ok (.frame frame consumed) =>
    let later := decodeAll maxFrame (offset + consumed) (stream.drop consumed)
    (frame :: later.1, later.2)
termination_by stream.length
decreasing_by
  have decoded := ‹decode stream maxFrame = _›
  rw [decode_eq] at decoded
  split at decoded
  · cases decoded
  · cases decoded
  · dsimp only at decoded
    split at decoded
    · cases decoded
    · cases decoded
      rw [length_drop, headerLen] at *
      omega

theorem decodeAll_eq (maxFrame offset : Nat) (stream : List UInt8) :
    decodeAll maxFrame offset stream =
      match decodeHeader stream maxFrame with
      | .error error => ([], some (error, offset))
      | .ok none => ([], none)
      | .ok (some header) =>
        let total := headerLen + header.bodyLen
        if stream.length < total then ([], none)
        else
          let later := decodeAll maxFrame (offset + total) (stream.drop total)
          (⟨header.tag, (stream.drop headerLen).take header.bodyLen⟩ :: later.1, later.2) := by
  rw [decodeAll, decode_eq]
  cases decodeHeader stream maxFrame with
  | error error => rfl
  | ok found =>
    cases found with
    | none => rfl
    | some header =>
      dsimp only
      by_cases less : stream.length < headerLen + header.bodyLen
      · rw [if_pos less, if_pos less]
      · rw [if_neg less, if_neg less]

abbrev Reading := List (Completed × List UInt8) × Option (DecodeError × Nat)

def Reading.after (done : List (Completed × List UInt8)) (reading : Reading) : Reading :=
  (done ++ reading.1, reading.2)

/-- What the relay tells of a frame, with the part of the body it has read. -/
def Frame.completed (frame : Frame) (direction : Direction) (maxInspect : Nat) :
    Completed × List UInt8 :=
  let kept := frame.body.take
    (inspectBudget direction frame.tag frame.body.length maxInspect)
  (⟨⟨frame.tag, frame.body.length⟩, kept = frame.body⟩, kept)

theorem completed_take {rest : List UInt8} {header : FrameHeader}
    (enough : header.bodyLen ≤ rest.length) (direction : Direction) (maxInspect : Nat) :
    Frame.completed ⟨header.tag, rest.take header.bodyLen⟩ direction maxInspect =
      let kept := rest.take (inspectBudget direction header.tag header.bodyLen maxInspect)
      (⟨header, kept.length == header.bodyLen⟩, kept) := by
  have within := inspectBudget_le direction header.tag header.bodyLen maxInspect
  have body : (rest.take header.bodyLen).length = header.bodyLen := length_take_of_le enough
  have kept : (rest.take header.bodyLen).take
      (inspectBudget direction header.tag header.bodyLen maxInspect) =
        rest.take (inspectBudget direction header.tag header.bodyLen maxInspect) := by
    rw [take_take, Nat.min_eq_left (by omega)]
  unfold Frame.completed
  dsimp only
  rw [body, kept]
  congr 2
  rw [← kept, Bool.eq_iff_iff, decide_eq_true_iff, beq_iff_eq]
  have front : (rest.take header.bodyLen).take
      (inspectBudget direction header.tag header.bodyLen maxInspect) <+:
        rest.take header.bodyLen :=
    take_prefix ..
  exact ⟨fun same => by rw [same, body], fun same => front.eq_of_length (same.trans body.symm)⟩

namespace FrameRelay

variable (relay : FrameRelay)

def readAll (offset : Nat) (stream : List UInt8) : Reading :=
  let decoded := decodeAll relay.maxFrame offset stream
  (decoded.1.map (Frame.completed · relay.direction relay.maxInspect), decoded.2)

/-- What a relay that has forwarded so many bytes is going to tell of the rest. -/
def outlook (forwarded : Nat) (stream : List UInt8) : Reading :=
  match relay.phase with
  | .header => relay.readAll (forwarded - relay.headerBuf.length) (relay.headerBuf ++ stream)
  | .body remaining =>
    if stream.length < remaining then ([], none)
    else
      let header := relay.header.getD ⟨0, 0⟩
      let kept := relay.buffer ++ stream.take relay.wantInspect
      .after [(⟨header, kept.length == header.bodyLen⟩, kept)]
        (relay.readAll (forwarded + remaining) (stream.drop remaining))

def Sound : Prop :=
  match relay.phase with
  | .header => relay.headerBuf.length < headerLen ∧ relay.buffer.length ≤ relay.maxInspect
  | .body remaining => relay.headerBuf = [] ∧ 0 < remaining ∧ relay.wantInspect ≤ remaining ∧
      relay.buffer.length + relay.wantInspect ≤ relay.maxInspect

theorem Sound.buffered_le {relay : FrameRelay} (sound : relay.Sound) :
    relay.buffered ≤ relay.maxInspect + headerLen := by
  unfold Sound at sound
  unfold buffered
  split at sound
  · omega
  · rw [sound.1, length_nil]
    omega

theorem opened_sound (header : FrameHeader) : (relay.opened header).Sound := by
  have within := inspectBudget_le relay.direction header.tag header.bodyLen relay.maxInspect
  unfold Sound opened
  dsimp only
  split_ifs with empty
  · exact ⟨by decide, Nat.zero_le _⟩
  · exact ⟨rfl, by omega, by omega, by rw [length_nil]; omega⟩

theorem readAll_opened {header : FrameHeader} {stream : List UInt8}
    (read : decodeHeader stream relay.maxFrame = .ok (some header))
    (full : headerLen ≤ stream.length) (offset : Nat) :
    relay.readAll offset stream =
      .after (if header.bodyLen = 0 then [(⟨header, true⟩, [])] else [])
        ((relay.opened header).outlook (offset + headerLen) (stream.drop headerLen)) := by
  have less : (stream.drop headerLen).length < header.bodyLen ↔
      stream.length < headerLen + header.bodyLen := by
    rw [length_drop]
    omega
  unfold readAll
  rw [decodeAll_eq, read]
  dsimp only
  unfold outlook opened
  dsimp only
  by_cases empty : header.bodyLen = 0
  · obtain ⟨tag, bodyLen⟩ := header
    obtain rfl : bodyLen = 0 := empty
    have whole : Frame.completed ⟨tag, []⟩ relay.direction relay.maxInspect =
        (⟨⟨tag, 0⟩, true⟩, []) := by
      simp [Frame.completed]
    rw [if_neg (show ¬ stream.length < headerLen + 0 from Nat.not_lt.mpr full), take_zero,
      map_cons, whole]
    rfl
  · rw [if_neg empty, if_neg empty]
    dsimp only
    simp only [less]
    split_ifs with short
    · rfl
    · rw [map_cons, completed_take (Nat.not_lt.mp (less.not.mpr short)), Nat.add_assoc, drop_drop]
      rfl

end FrameRelay

/-! ### One push -/

namespace FrameRelay

variable (relay : FrameRelay) (forwarded : Nat) (input : List UInt8)

structure Told (next : FrameRelay) (outcome : RelayOutcome) : Prop where
  some : 0 < outcome.consumed
  enough : outcome.consumed ≤ input.length
  limit : next.maxInspect = relay.maxInspect
  sound : next.Sound
  within : next.headerBuf.length ≤ forwarded + outcome.consumed
  rest : ∀ later, relay.outlook forwarded (input ++ later) =
    .after (outcome.completed.toList.map (·, next.buffer))
      (next.outlook (forwarded + outcome.consumed) (input.drop outcome.consumed ++ later))

/-- What a push tells, and that it leaves the rest to be told. -/
def Keeps : FrameRelay × Except DecodeError RelayOutcome → Prop
  | (next, .error error) => next.buffered ≤ relay.maxInspect + headerLen ∧
      ∀ later, relay.outlook forwarded (input ++ later) =
        ([], some (error, forwarded - relay.headerBuf.length))
  | (next, .ok outcome) => relay.Told forwarded input next outcome

variable {relay forwarded input}

theorem keeps_readHeader {source held : List UInt8} {take : Nat} (waits : relay.phase = .header)
    (kept : relay.buffer.length ≤ relay.maxInspect) (within : relay.headerBuf.length ≤ forwarded)
    (clear : held.length ≤ headerLen) (some : 0 < take) (enough : take ≤ input.length)
    (full : relay.headerBuf.length + take = headerLen)
    (same : decodeHeader source relay.maxFrame =
      decodeHeader (relay.headerBuf ++ input.take take) relay.maxFrame) :
    relay.Keeps forwarded input ({ relay with headerBuf := held }.readHeader source take) := by
  have length : headerLen ≤ (relay.headerBuf ++ input.take take).length := by
    rw [length_append, length_take_of_le enough, full]
  have reads (later : List UInt8) : relay.outlook forwarded (input ++ later) =
      { relay with headerBuf := held }.readAll (forwarded - relay.headerBuf.length)
        ((relay.headerBuf ++ input.take take) ++ (input.drop take ++ later)) := by
    unfold outlook
    rw [waits, append_assoc, ← append_assoc (input.take take), take_append_drop]
    rfl
  have again (later : List UInt8) := (decodeHeader_append length (input.drop take ++ later)
    relay.maxFrame).trans same.symm
  unfold readHeader
  dsimp only
  cases found : decodeHeader source relay.maxFrame with
  | error error =>
    refine ⟨Nat.add_le_add kept clear, fun later => ?_⟩
    rw [reads, readAll, decodeAll_eq, again, found]
    rfl
  | ok header =>
    cases header with
    | none =>
      rw [same, decodeHeader, if_neg (Nat.not_lt.mpr length)] at found
      split at found <;> cases found
    | some header =>
      refine ⟨some, enough, rfl, opened_sound .., Nat.zero_le _, fun later => ?_⟩
      rw [reads]
      refine (readAll_opened _ ((again later).trans found)
        (by rw [length_append]; exact Nat.le_add_right_of_le length) _).trans ?_
      rw [drop_left' (by rw [length_append, length_take_of_le enough, full]),
        show forwarded - relay.headerBuf.length + headerLen = forwarded + take by omega]
      dsimp only
      split_ifs <;> rfl

theorem keeps_pushBody {remaining : Nat} (sound : relay.Sound)
    (inside : relay.phase = .body remaining) (filled : input ≠ []) :
    relay.Keeps forwarded input
      ((relay.pushBody input remaining).1, .ok (relay.pushBody input remaining).2) := by
  unfold Sound at sound
  rw [inside] at sound
  obtain ⟨clear, positive, want, room⟩ := sound
  have some := length_pos_iff.mpr filled
  have front : relay.headerBuf.length = 0 := by rw [clear, length_nil]
  unfold pushBody
  dsimp only
  split_ifs with more
  · have short : min remaining input.length = input.length := by omega
    rw [short] at more ⊢
    refine ⟨some, Nat.le_refl _, rfl, ⟨clear, more, ?_, ?_⟩, by dsimp only; omega, fun later => ?_⟩
    · dsimp only
      omega
    · dsimp only
      rw [length_append, length_take]
      omega
    · have copied : (input ++ later).take relay.wantInspect =
          input.take (min relay.wantInspect input.length) ++
            later.take (relay.wantInspect - min relay.wantInspect input.length) := by
        rw [take_append, ← take_take, take_length]
        congr 2
        omega
      have behind : (input ++ later).drop remaining = later.drop (remaining - input.length) := by
        rw [drop_append, drop_of_length_le (by omega), nil_append]
      have lacks : (input ++ later).length < remaining ↔
          later.length < remaining - input.length := by
        rw [length_append]
        omega
      unfold outlook
      rw [inside]
      dsimp only
      rw [drop_length, nil_append, copied, behind, append_assoc,
        show forwarded + input.length + (remaining - input.length) = forwarded + remaining by omega]
      simp only [lacks]
      rfl
  · have enough : min remaining input.length = remaining := by omega
    rw [enough, Nat.min_eq_left want]
    refine ⟨positive, by dsimp only; omega, rfl, ⟨by rw [front]; decide, ?_⟩, by dsimp only; omega,
      fun later => ?_⟩
    · dsimp only
      rw [length_append, length_take]
      omega
    · unfold outlook
      rw [inside]
      dsimp only
      rw [if_neg (by rw [length_append]; omega), clear,
        take_append_of_le_length (by omega), drop_append_of_le_length (by omega)]
      rfl

theorem keeps_push (sound : relay.Sound) (within : relay.headerBuf.length ≤ forwarded)
    (filled : input ≠ []) : relay.Keeps forwarded input (relay.push input) := by
  unfold push
  rw [if_neg filled]
  cases phase : relay.phase with
  | body remaining => exact keeps_pushBody sound phase filled
  | header =>
    unfold Sound at sound
    rw [phase] at sound
    obtain ⟨short, kept⟩ := sound
    have some := length_pos_iff.mpr filled
    unfold pushHeader
    dsimp only
    split
    · rename_i whole
      obtain ⟨clear, enough⟩ := whole
      refine keeps_readHeader phase kept within (Nat.le_of_lt short) (by decide) enough
        (by rw [clear]; rfl) ?_
      rw [clear, nil_append, ← decodeHeader_append (Nat.le_of_eq (length_take_of_le enough).symm)
        (input.drop headerLen), take_append_drop]
    · generalize takes : min (headerLen - relay.headerBuf.length) input.length = take
      have length : (relay.headerBuf ++ input.take take).length =
          relay.headerBuf.length + take := by
        rw [length_append, length_take_of_le (by omega)]
      split
      · rename_i less
        refine ⟨by dsimp only; omega, by dsimp only; omega, rfl, ?_, by dsimp only; omega, ?_⟩
        · unfold Sound
          rw [phase]
          exact ⟨less, kept⟩
        · intro later
          unfold outlook
          rw [phase]
          dsimp only
          rw [append_assoc, ← append_assoc (input.take take), take_append_drop, length,
            show forwarded + take - (relay.headerBuf.length + take) =
              forwarded - relay.headerBuf.length by omega]
          rfl
      · exact keeps_readHeader phase kept within (by rw [length]; omega) (by omega) (by omega)
          (by omega) rfl

end FrameRelay

/-! ### All chunks -/

structure Relayed where
  relay : FrameRelay
  forwarded : List UInt8
  /-- What was told of each frame, with the part of its body that was read. -/
  done : List (Completed × List UInt8)
  /-- The error, with the offset of the frame it was found in. -/
  failed : Option (DecodeError × Nat)
  /-- The most bytes held after any push. -/
  peak : Nat

namespace Relayed

/-- Pushes a chunk, again and again, until all of it is consumed. -/
def feed (state : Relayed) (window : List UInt8) : Relayed :=
  if window = [] then state
  else
    match state.relay.push window with
    | (relay, .error error) =>
      { state with
        relay
        failed := some (error, state.forwarded.length - state.relay.headerBuf.length)
        peak := max state.peak relay.buffered }
    | (relay, .ok outcome) =>
      if outcome.consumed = 0 then { state with relay }
      else
        { state with
          relay
          forwarded := state.forwarded ++ window.take outcome.consumed
          done := state.done ++ outcome.completed.toList.map (·, relay.buffer)
          peak := max state.peak relay.buffered }.feed (window.drop outcome.consumed)
termination_by window.length
decreasing_by
  have := length_pos_iff.mpr ‹_›
  rw [length_drop]
  omega

def start (direction : Direction) (maxFrame maxInspect : Nat) : Relayed :=
  ⟨.withLimits direction maxFrame maxInspect, [], [], none, 0⟩

def next (state : Relayed) (chunk : List UInt8) : Relayed :=
  if state.failed = none then state.feed chunk else state

/-- What has been told, and what the rest of the stream will give. -/
def promise (state : Relayed) (later : List UInt8) : Reading :=
  match state.failed with
  | some failure => (state.done, some failure)
  | none => .after state.done (state.relay.outlook state.forwarded.length later)

structure Sound (state : Relayed) (maxInspect : Nat) (stream : List UInt8) : Prop where
  forwarded : state.forwarded <+: stream
  peak : state.peak ≤ maxInspect + headerLen
  going : state.failed = none → state.forwarded = stream ∧ state.relay.maxInspect = maxInspect ∧
    state.relay.Sound ∧ state.relay.headerBuf.length ≤ state.forwarded.length

variable {maxInspect : Nat} {stream : List UInt8}

theorem feed_sound (state : Relayed) (window : List UInt8) (going : state.failed = none)
    (sound : state.Sound maxInspect stream) :
    (state.feed window).Sound maxInspect (stream ++ window) ∧
      ∀ later, (state.feed window).promise later = state.promise (window ++ later) := by
  fun_induction feed state window generalizing stream with
  | case1 state =>
    rw [append_nil]
    exact ⟨sound, fun _ => rfl⟩
  | case2 state window filled relay error pushed =>
    obtain ⟨-, rfl, intact, within⟩ := sound.going going
    have keeps := FrameRelay.keeps_push intact within filled
    rw [pushed] at keeps
    refine ⟨⟨sound.forwarded.trans (prefix_append ..), Nat.max_le.mpr ⟨sound.peak, keeps.1⟩,
      nofun⟩, fun later => ?_⟩
    unfold promise
    rw [going]
    dsimp only
    rw [keeps.2 later]
    simp [Reading.after]
  | case3 state window filled relay outcome pushed nothing =>
    obtain ⟨-, -, intact, within⟩ := sound.going going
    have keeps := FrameRelay.keeps_push intact within filled
    rw [pushed] at keeps
    exact absurd nothing (Nat.ne_of_gt keeps.some)
  | case4 state window filled relay outcome pushed some ih =>
    obtain ⟨whole, limit, intact, within⟩ := sound.going going
    have keeps := FrameRelay.keeps_push intact within filled
    rw [pushed] at keeps
    have length : (state.forwarded ++ window.take outcome.consumed).length =
        state.forwarded.length + outcome.consumed := by
      rw [length_append, length_take_of_le keeps.enough]
    have step : Sound { state with
        relay
        forwarded := state.forwarded ++ window.take outcome.consumed
        done := state.done ++ outcome.completed.toList.map (·, relay.buffer)
        peak := max state.peak relay.buffered }
          maxInspect (stream ++ window.take outcome.consumed) := by
      have limit : relay.maxInspect = maxInspect := keeps.limit.trans limit
      rw [← whole]
      exact ⟨prefix_rfl, Nat.max_le.mpr ⟨sound.peak, limit ▸ keeps.sound.buffered_le⟩,
        fun _ => ⟨rfl, limit, keeps.sound, keeps.within.trans (Nat.le_of_eq length.symm)⟩⟩
    obtain ⟨kept, same⟩ := ih going step
    rw [append_assoc, take_append_drop] at kept
    refine ⟨kept, fun later => ?_⟩
    rw [same]
    unfold promise
    rw [going]
    dsimp only
    rw [keeps.rest, length]
    simp [Reading.after, append_assoc]

theorem foldl_next (chunks : List (List UInt8)) {state : Relayed}
    (sound : state.Sound maxInspect stream) :
    (chunks.foldl next state).Sound maxInspect (stream ++ chunks.flatten) ∧
      (chunks.foldl next state).promise [] = state.promise chunks.flatten := by
  induction chunks generalizing state stream with
  | nil =>
    rw [flatten_nil, append_nil]
    exact ⟨sound, rfl⟩
  | cons chunk later ih =>
    have step : (state.next chunk).Sound maxInspect (stream ++ chunk) ∧
        (state.next chunk).promise later.flatten = state.promise (chunk ++ later.flatten) := by
      unfold next
      split_ifs with going
      · obtain ⟨kept, same⟩ := feed_sound state chunk going sound
        exact ⟨kept, same _⟩
      · refine ⟨⟨sound.forwarded.trans (prefix_append ..), sound.peak,
          fun none => absurd none going⟩, ?_⟩
        obtain ⟨failure, failed⟩ := Option.ne_none_iff_exists'.mp going
        unfold promise
        rw [failed]
    rw [foldl_cons, flatten_cons, ← append_assoc, ← step.2]
    exact ih step.1

/-- At the end of the stream nothing more is told. -/
theorem promise_nil {state : Relayed} (sound : state.Sound maxInspect stream) :
    state.promise [] = (state.done, state.failed) := by
  unfold promise
  cases failed : state.failed with
  | some failure => rfl
  | none =>
    obtain ⟨-, -, within, -⟩ := sound.going failed
    have silent : state.relay.outlook state.forwarded.length [] = ([], none) := by
      unfold FrameRelay.Sound at within
      unfold FrameRelay.outlook
      split at within
      · rw [append_nil, FrameRelay.readAll, decodeAll_eq, decodeHeader, if_pos within.1]
        rfl
      · exact if_pos within.2.1
    dsimp only
    rw [silent, Reading.after, append_nil]

end Relayed

/-- However the stream is cut, the relay tells what the stream gives in one piece. -/
theorem relay_chunk_free (direction : Direction) (maxFrame maxInspect : Nat)
    (chunks : List (List UInt8)) :
    let run := chunks.foldl Relayed.next (.start direction maxFrame maxInspect)
    let whole := decodeAll maxFrame 0 chunks.flatten
    run.done = whole.1.map (Frame.completed · direction maxInspect) ∧
      run.failed = whole.2 ∧
      run.forwarded <+: chunks.flatten ∧
      (run.failed = none → run.forwarded = chunks.flatten) ∧
      run.peak ≤ maxInspect + headerLen := by
  have start : (Relayed.start direction maxFrame maxInspect).Sound maxInspect [] :=
    ⟨prefix_rfl, Nat.zero_le _, fun _ => ⟨rfl, rfl, ⟨show 0 < headerLen by decide, Nat.zero_le _⟩,
      Nat.le_refl _⟩⟩
  obtain ⟨sound, told⟩ := Relayed.foldl_next chunks start
  rw [Relayed.promise_nil sound] at told
  rw [nil_append] at sound
  exact ⟨congrArg Prod.fst told, congrArg Prod.snd told, sound.forwarded,
    fun none => (sound.going none).1, sound.peak⟩

theorem decodeAll_written (frames : List SentFrame) {last : SentFrame} {piece missing : List UInt8}
    (cut : piece ++ missing = last.bytes) (more : missing ≠ []) (offset : Nat) :
    decodeAll defaultMaxFrame offset (frames.flatMap (·.bytes) ++ piece) =
      (frames.map SentFrame.toFrame, none) := by
  induction frames generalizing offset with
  | nil =>
    obtain ⟨needed, short⟩ := last.decode_of_strict_prefix cut more
    rw [decodeAll]
    split <;> simp_all
  | cons frame later ih =>
    rw [flatMap_cons, append_assoc, decodeAll]
    have first := frame.decode_bytes_append (later.flatMap (·.bytes) ++ piece)
    split <;> simp_all

/-- Frames that are written one behind another and cut anywhere come out of the relay one by
one, and nothing is told of a last one that has not all arrived. -/
theorem relay_reads_written (direction : Direction) (maxInspect : Nat) (frames : List SentFrame)
    {last : SentFrame} {piece missing : List UInt8} (cut : piece ++ missing = last.bytes)
    (more : missing ≠ []) {chunks : List (List UInt8)}
    (stream : chunks.flatten = frames.flatMap (·.bytes) ++ piece) :
    let run := chunks.foldl Relayed.next (.start direction defaultMaxFrame maxInspect)
    run.done = frames.map (·.completed direction maxInspect) ∧ run.failed = none ∧
      run.forwarded = chunks.flatten := by
  have start : (Relayed.start direction defaultMaxFrame maxInspect).Sound maxInspect [] :=
    ⟨prefix_rfl, Nat.zero_le _, fun _ => ⟨rfl, rfl, ⟨show 0 < headerLen by decide, Nat.zero_le _⟩,
      Nat.le_refl _⟩⟩
  obtain ⟨sound, told⟩ := Relayed.foldl_next chunks start
  rw [Relayed.promise_nil sound, stream] at told
  have whole := congrArg (Prod.map (List.map (Frame.completed · direction maxInspect)) id)
    (decodeAll_written frames cut more 0)
  obtain ⟨done, none⟩ := Prod.mk.inj (told.trans whole)
  exact ⟨done.trans map_map, none, (sound.going none).1⟩

theorem relay_reads_written_in_halves :
    let sync : SentFrame := ⟨⟨Tag.sync, []⟩, by decide⟩
    ([[0x53, 0, 0], [0, 4, 0x53]].foldl Relayed.next (.start .frontend defaultMaxFrame 16)).done =
      [sync.completed .frontend 16] :=
  (@relay_reads_written .frontend 16 [⟨⟨Tag.sync, []⟩, by decide⟩] ⟨⟨Tag.sync, []⟩, by decide⟩
    [0x53] [0, 0, 0, 4] rfl (cons_ne_nil _ _) [[0x53, 0, 0], [0, 4, 0x53]] rfl).1

end Pgprox.Proto
