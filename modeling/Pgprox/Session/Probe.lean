/-
The position probe: what the proxy asks the primary after a write.

`primaryLsn` is the loop of `primary_lsn` over the bytes a wire has buffered.  It stops at
the first frame that decides the probe, with whatever stands behind that frame still in the
buffer.
-/

import Pgprox.Proto.Frame

namespace Pgprox.Session

open Proto List

abbrev Lsn := Nat

def hexDigit (c : Char) : Option Nat :=
  if '0' ≤ c ∧ c ≤ '9' then some (c.toNat - '0'.toNat)
  else if 'a' ≤ c ∧ c ≤ 'f' then some (c.toNat - 'a'.toNat + 10)
  else if 'A' ≤ c ∧ c ≤ 'F' then some (c.toNat - 'A'.toNat + 10)
  else none

/-- `u64::from_str_radix(half, 16)`, which also takes a leading plus sign. -/
def parseHalf (half : Text) : Option Nat :=
  let digits := match half with
    | '+' :: later => later
    | _ => half
  if digits = [] then none
  else digits.foldlM (fun number c => do
    let digit ← hexDigit c
    if number * 16 + digit < 2 ^ 64 then some (number * 16 + digit) else none) 0

/-- `Lsn::from_str`.  The shift drops what does not fit. -/
def parseLsn (text : Text) : Option Lsn :=
  match text.span (· ≠ '/') with
  | (_, []) => none
  | (hi, _ :: lo) =>
    if hi = [] ∨ lo = [] ∨ '/' ∈ lo then none
    else do
      let high ← parseHalf hi
      let low ← parseHalf lo
      some ((high * 2 ^ 32 % 2 ^ 64) ||| low)

def textFields : Nat → List UInt8 → Option (List (Option Text))
  | 0, _ => some []
  | count + 1, bytes =>
    if bytes.length < 4 then none
    else
      let len := readI32 (bytes.take 4)
      let after := bytes.drop 4
      if len < 0 then (textFields count after).map (none :: ·)
      else if after.length < len.toNat then none
      else do
        let value ← fromUtf8 (after.take len.toNat)
        let later ← textFields count (after.drop len.toNat)
        some (some value :: later)

/-- `text_row`: a `DataRow` body as text, `none` where a column is null. -/
def textRow (body : List UInt8) : Option (List (Option Text)) :=
  if body.length < 2 then none
  else textFields (readI16 (body.take 2)).toNat (body.drop 2)

abbrev Row := Option (List (Option Text))

inductive ProbeStep
  | next (row : Row)
  | failed (why : String)
  | ready
  deriving DecidableEq

def onProbeFrame (row : Row) (frame : Frame) : ProbeStep :=
  if frame.tag = Tag.dataRow then
    match textRow frame.body with
    | some fields => .next (some fields)
    | none => .failed "the primary sent an unreadable row"
  else if frame.tag = Tag.errorResponse then .failed "the primary refused the position query"
  else if frame.tag = Tag.readyForQuery then .ready
  else .next row

def positionOf (row : Row) : Except String Lsn :=
  match row.bind List.head? with
  | some (some text) =>
    match parseLsn text with
    | some lsn => .ok lsn
    | none => .error ("the primary reported an unparseable LSN: " ++ String.ofList text)
  | _ => .error "the primary reported no position"

inductive ProbeStage
  | reading (row : Row)
  | done (result : Except String Lsn)

/-- The loop of `primary_lsn` over the buffered bytes.  Each frame takes bytes off the
buffer, so as many rounds as there are bytes are enough. -/
def primaryLsnWithin : Nat → Row → List UInt8 → ProbeStage × List UInt8
  | 0, row, buffered => (.reading row, buffered)
  | fuel + 1, row, buffered =>
    match decode buffered defaultMaxFrame with
    | .error error => (.done (.error ("frame: " ++ error.text)), buffered)
    | .ok (.incomplete _) => (.reading row, buffered)
    | .ok (.frame frame consumed) =>
      match onProbeFrame row frame with
      | .next row => primaryLsnWithin fuel row (buffered.drop consumed)
      | .failed why => (.done (.error why), buffered.drop consumed)
      | .ready => (.done (positionOf row), buffered.drop consumed)

def primaryLsn (row : Row) (buffered : List UInt8) : ProbeStage × List UInt8 :=
  primaryLsnWithin (buffered.length + 1) row buffered

/-! ### What the probe reads past, and where it stops -/

def Passed (frame : Frame) : Prop :=
  frame.tag ≠ Tag.errorResponse ∧ frame.tag ≠ Tag.readyForQuery ∧
    (frame.tag = Tag.dataRow → textRow frame.body ≠ none)

instance (frame : Frame) : Decidable (Passed frame) :=
  inferInstanceAs (Decidable (_ ∧ _))

theorem onProbeFrame_of_passed {frame : Frame} (passed : Passed frame) (row : Row) :
    ∃ later, onProbeFrame row frame = .next later := by
  obtain ⟨accepted, unready, readable⟩ := passed
  unfold onProbeFrame
  by_cases data : frame.tag = Tag.dataRow
  · obtain ⟨fields, read⟩ := Option.ne_none_iff_exists'.mp (readable data)
    exact ⟨some fields, by rw [if_pos data, read]⟩
  · exact ⟨row, by rw [if_neg data, if_neg accepted, if_neg unready]⟩

theorem onProbeFrame_of_not_passed {frame : Frame} (stops : ¬ Passed frame) (row : Row) :
    onProbeFrame row frame = .ready ∨ ∃ why, onProbeFrame row frame = .failed why := by
  unfold onProbeFrame
  by_cases data : frame.tag = Tag.dataRow
  · have unreadable : textRow frame.body = none := by
      by_contra readable
      exact stops ⟨by rw [data]; decide, by rw [data]; decide, fun _ => readable⟩
    exact .inr ⟨_, by rw [if_pos data, unreadable]⟩
  · by_cases refused : frame.tag = Tag.errorResponse
    · exact .inr ⟨_, by rw [if_neg data, if_pos refused]⟩
    · by_cases ready : frame.tag = Tag.readyForQuery
      · exact .inl (by rw [if_neg data, if_neg refused, if_pos ready])
      · exact absurd ⟨refused, ready, fun row => absurd row data⟩ stops

def wireBytes (frames : List SentFrame) : List UInt8 :=
  frames.flatMap fun frame => frame.bytes

@[simp] theorem wireBytes_nil : wireBytes [] = [] := rfl

@[simp] theorem wireBytes_cons (frame : SentFrame) (later : List SentFrame) :
    wireBytes (frame :: later) = frame.bytes ++ wireBytes later := rfl

@[simp] theorem wireBytes_append (first later : List SentFrame) :
    wireBytes (first ++ later) = wireBytes first ++ wireBytes later :=
  flatMap_append

theorem bytes_ne_nil (frame : Frame) : frame.bytes ≠ [] :=
  cons_ne_nil _ _

variable {frames : List SentFrame}

theorem wireBytes_eq_nil : wireBytes frames = [] ↔ frames = [] := by
  cases frames with
  | nil => simp
  | cons frame later => simp [bytes_ne_nil]

def AllPassed (frames : List SentFrame) : Prop :=
  ∀ frame ∈ frames, Passed frame.toFrame

variable {later : List SentFrame}

theorem allPassed_append {first : List SentFrame} :
    AllPassed (first ++ later) ↔ AllPassed first ∧ AllPassed later :=
  forall_mem_append

/-- What the probe makes of a buffer that holds the front of a stream of frames. -/
inductive ProbeReads : List SentFrame → List UInt8 → ProbeStage × List UInt8 → Prop
  | waits {passed later : List SentFrame} {piece : List UInt8} (row : Row)
      (all : AllPassed passed)
      (short : ∃ needed, decode piece defaultMaxFrame = .ok (.incomplete needed)) :
      ProbeReads (passed ++ later) (wireBytes passed ++ piece) (.reading row, piece)
  | stops {passed later : List SentFrame} {frame : SentFrame} {piece : List UInt8}
      (result : Except String Lsn)
      (all : AllPassed passed) (ends : ¬ Passed frame.toFrame) :
      ProbeReads (passed ++ frame :: later) (wireBytes passed ++ (frame.bytes ++ piece))
        (.done result, piece)

variable {piece : List UInt8}

theorem ProbeReads.waitsHere (row : Row)
    (short : ∃ needed, decode piece defaultMaxFrame = .ok (.incomplete needed)) :
    ProbeReads frames piece (.reading row, piece) :=
  @ProbeReads.waits [] frames piece row nofun short

theorem ProbeReads.stopsHere {frame : SentFrame} (result : Except String Lsn)
    (ends : ¬ Passed frame.toFrame) :
    ProbeReads (frame :: later) (frame.bytes ++ piece) (.done result, piece) :=
  @ProbeReads.stops [] later frame piece result nofun ends

variable {buffered : List UInt8}

theorem ProbeReads.cons {frame : SentFrame} (passed : Passed frame.toFrame)
    {result : ProbeStage × List UInt8} (reads : ProbeReads frames buffered result) :
    ProbeReads (frame :: frames) (frame.bytes ++ buffered) result := by
  cases reads with
  | waits row all short =>
    rw [← append_assoc, ← wireBytes_cons, ← cons_append]
    exact .waits row (forall_mem_cons.mpr ⟨passed, all⟩) short
  | stops result all ends =>
    rw [← append_assoc, ← wireBytes_cons, ← cons_append]
    exact .stops result (forall_mem_cons.mpr ⟨passed, all⟩) ends

variable {unread : List UInt8}

theorem front_of_stream {frame : SentFrame}
    (cut : buffered ++ unread = wireBytes (frame :: later)) :
    (∃ missing, missing ≠ [] ∧ buffered ++ missing = frame.bytes) ∨
      ∃ behind, buffered = frame.bytes ++ behind ∧ behind ++ unread = wireBytes later := by
  rw [wireBytes_cons] at cut
  rcases append_eq_append_iff.mp cut with ⟨missing, whole, rest⟩ | ⟨behind, whole, rest⟩
  · by_cases more : missing = []
    · rw [more, append_nil] at whole
      rw [more, nil_append] at rest
      exact .inr ⟨[], by rw [whole, append_nil], rest⟩
    · exact .inl ⟨missing, more, whole.symm⟩
  · exact .inr ⟨behind, whole, rest.symm⟩

theorem primaryLsnWithin_reads :
    ∀ {fuel : Nat} (row : Row) {buffered unread : List UInt8},
      buffered ++ unread = wireBytes frames → buffered.length < fuel →
        ProbeReads frames buffered (primaryLsnWithin fuel row buffered) := by
  induction frames with
  | nil =>
    intro fuel row buffered unread cut enough
    obtain ⟨rfl, rfl⟩ := append_eq_nil_iff.mp cut
    cases fuel with
    | zero => exact absurd enough (Nat.not_lt_zero _)
    | succ fuel => exact .waitsHere row ⟨none, rfl⟩
  | cons frame later ih =>
    intro fuel row buffered unread cut enough
    cases fuel with
    | zero => exact absurd enough (Nat.not_lt_zero _)
    | succ fuel =>
      unfold primaryLsnWithin
      rcases front_of_stream cut with ⟨missing, more, whole⟩ | ⟨behind, rfl, rest⟩
      · obtain ⟨needed, piece⟩ := frame.decode_of_strict_prefix whole more
        rw [piece]
        exact .waitsHere row ⟨needed, piece⟩
      · rw [frame.decode_bytes_append]
        dsimp only
        rw [drop_left]
        have fewer : behind.length < fuel := by
          rw [length_append, frame.length_bytes] at enough
          omega
        by_cases passes : Passed frame.toFrame
        · obtain ⟨next, reads⟩ := onProbeFrame_of_passed passes row
          rw [reads]
          exact (ih next rest fewer).cons passes
        · rcases onProbeFrame_of_not_passed passes row with ready | ⟨why, failed⟩
          · rw [ready]
            exact .stopsHere _ passes
          · rw [failed]
            exact .stopsHere _ passes

theorem primaryLsn_reads (cut : buffered ++ unread = wireBytes frames) (row : Row) :
    ProbeReads frames buffered (primaryLsn row buffered) :=
  primaryLsnWithin_reads row cut (Nat.lt_succ_self _)

/-! ### Bytes behind a `ReadyForQuery` -/

def behindReadyWithin : Nat → List UInt8 → List UInt8
  | 0, _ => []
  | fuel + 1, buffered =>
    match decode buffered defaultMaxFrame with
    | .ok (.frame frame consumed) =>
      if frame.tag = Tag.readyForQuery then buffered.drop consumed
      else behindReadyWithin fuel (buffered.drop consumed)
    | _ => []

def behindReady (buffered : List UInt8) : List UInt8 :=
  behindReadyWithin (buffered.length + 1) buffered

variable {passed : List SentFrame}

theorem behindReadyWithin_wireBytes_append (all : AllPassed passed) :
    ∀ {fuel : Nat} {later : List UInt8}, (wireBytes passed ++ later).length < fuel →
      ∃ left, later.length < left ∧
        behindReadyWithin fuel (wireBytes passed ++ later) = behindReadyWithin left later := by
  induction passed with
  | nil =>
    intro fuel later enough
    exact ⟨fuel, enough, rfl⟩
  | cons frame rest ih =>
    intro fuel later enough
    rw [wireBytes_cons, append_assoc] at enough ⊢
    cases fuel with
    | zero => exact absurd enough (Nat.not_lt_zero _)
    | succ fuel =>
      obtain ⟨first, others⟩ := forall_mem_cons.mp all
      have fewer : (wireBytes rest ++ later).length < fuel := by
        rw [length_append, frame.length_bytes] at enough
        omega
      obtain ⟨left, room, same⟩ := ih others fewer
      refine ⟨left, room, ?_⟩
      rw [← same]
      conv_lhs => unfold behindReadyWithin
      rw [frame.decode_bytes_append]
      dsimp only
      rw [if_neg first.2.1, drop_left]

theorem behindReady_of_waits (all : AllPassed passed)
    (short : ∃ needed, decode piece defaultMaxFrame = .ok (.incomplete needed)) :
    behindReady (wireBytes passed ++ piece) = [] := by
  obtain ⟨needed, incomplete⟩ := short
  obtain ⟨left, -, same⟩ := behindReadyWithin_wireBytes_append all
    (Nat.lt_succ_self (wireBytes passed ++ piece).length)
  unfold behindReady
  rw [same]
  cases left with
  | zero => rfl
  | succ left =>
    unfold behindReadyWithin
    rw [incomplete]

theorem behindReady_of_ready {ready : SentFrame} (all : AllPassed passed)
    (tag : ready.tag = Tag.readyForQuery) :
    behindReady (wireBytes passed ++ (ready.bytes ++ piece)) = piece := by
  obtain ⟨left, room, same⟩ := behindReadyWithin_wireBytes_append all
    (Nat.lt_succ_self (wireBytes passed ++ (ready.bytes ++ piece)).length)
  unfold behindReady
  rw [same]
  cases left with
  | zero => exact absurd room (Nat.not_lt_zero _)
  | succ left =>
    unfold behindReadyWithin
    rw [ready.decode_bytes_append]
    dsimp only
    rw [if_pos tag, drop_left]

theorem behindReady_of_allPassed (all : AllPassed frames)
    (cut : buffered ++ unread = wireBytes frames) : behindReady buffered = [] := by
  have reads := primaryLsn_reads cut none
  generalize primaryLsn none buffered = result at reads
  cases reads with
  | waits row passed short => exact behindReady_of_waits passed short
  | stops result passed ends => exact absurd (all _ (by simp)) ends

end Pgprox.Session
