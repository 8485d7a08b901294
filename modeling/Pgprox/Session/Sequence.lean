/-
Holding back an extended-query sequence so that the cache can answer it.

At most one `Parse`, one `Bind`, at most one `Describe` of the portal that was bound and one
`Execute` of it, then the `Sync`.  Every other frame gives the sequence up.
-/

import Pgprox.Proto.Bind
import Pgprox.Proto.SessionState

namespace Pgprox.Session

open Proto List

def maxHeldBytes : Nat := 64 * 1024

inductive Held
  | withheld
  | complete
  | send
  deriving DecidableEq

/-- What the caller knows about a frame: the SQL of its statement, and whether a sequence
may begin at it. -/
structure Facts where
  sql : Option Text
  mayBegin : Bool
  deriving DecidableEq

inductive Step
  | nothing
  | parsed
  | bound
  | executed
  deriving DecidableEq

structure HeldSequence where
  frames : List Frame
  sql : Option Text
  params : List UInt8
  resultFormats : List UInt8
  portal : Text
  step : Step
  described : Bool
  deriving DecidableEq

/-- The parameter run and the result formats of a `Bind`, empty where they cannot be read. -/
def keyMaterial (body : List UInt8) : List UInt8 × List UInt8 :=
  match bindParameters ⟨Tag.bind, body⟩ with
  | .ok read => (read.raw, read.resultFormats)
  | .error _ => ([], [])

def begins : FrontendMessage → Bool
  | .parse .. | .bind .. => true
  | _ => false

structure Incoming where
  message : FrontendMessage
  frame : Frame

namespace HeldSequence

def new : HeldSequence where
  frames := []
  sql := none
  params := []
  resultFormats := []
  portal := []
  step := .nothing
  described := false

def isEmpty (held : HeldSequence) : Bool :=
  held.frames.isEmpty

def clear (_held : HeldSequence) : HeldSequence :=
  .new

def heldBytes (held : HeldSequence) : Nat :=
  (held.frames.map fun frame => frame.body.length + 5).sum

def mayHold (held : HeldSequence) (message : FrontendMessage) (facts : Facts) : Bool :=
  match message with
  | .parse .. => held.isEmpty && held.step = .nothing && facts.sql.isSome
  | .bind .. =>
    (held.step = .nothing || held.step = .parsed) && facts.sql.isSome &&
      (held.sql = none || facts.sql = held.sql)
  | .describe target name =>
    target = .portal && held.step = .bound && !held.described && name = held.portal
  | .execute portal maxRows => held.step = .bound && maxRows = 0 && portal = held.portal
  | _ => false

def record (held : HeldSequence) (message : FrontendMessage) (facts : Facts)
    (body : List UInt8) : HeldSequence :=
  match message with
  | .parse .. => { held with step := .parsed, sql := facts.sql }
  | .bind portal _ _ =>
    { held with
      step := .bound
      sql := facts.sql
      portal
      params := (keyMaterial body).1
      resultFormats := (keyMaterial body).2 }
  | .describe .. => { held with described := true }
  | .execute .. => { held with step := .executed }
  | _ => held

def feed (held : HeldSequence) (incoming : Incoming) (facts : Facts) : HeldSequence × Held :=
  if held.isEmpty && !(facts.mayBegin && begins incoming.message) then (held, .send)
  else if !held.isEmpty && incoming.message = .sync then
    (held, if held.step = .executed then .complete else .send)
  else if !held.mayHold incoming.message facts then (held, .send)
  else if maxHeldBytes < held.heldBytes + incoming.frame.body.length + 5 then (held, .send)
  else
    let recorded := held.record incoming.message facts incoming.frame.body
    ({ recorded with frames := held.frames ++ [incoming.frame] }, .withheld)

variable {held next : HeldSequence} {incoming : Incoming} {facts : Facts}

theorem feed_withheld (fed : held.feed incoming facts = (next, .withheld)) :
    held.mayHold incoming.message facts = true ∧
      next = { held.record incoming.message facts incoming.frame.body with
        frames := held.frames ++ [incoming.frame] } := by
  unfold feed at fed
  split at fed
  · cases fed
  · split at fed
    · split at fed <;> cases fed
    · split at fed
      · cases fed
      · rename_i fits
        split at fed
        · cases fed
        · exact ⟨by simpa using fits, (Prod.mk.inj fed).1.symm⟩

theorem feed_begins (fed : held.feed incoming facts = (next, .withheld))
    (empty : held.isEmpty = true) : facts.mayBegin = true := by
  unfold feed at fed
  split at fed
  · cases fed
  · rename_i begun
    rw [empty, Bool.true_and, Bool.not_eq_true', Bool.not_eq_false, Bool.and_eq_true] at begun
    exact begun.1

theorem extended_of_mayHold {message : FrontendMessage} (fits : held.mayHold message facts = true) :
    message.startsExtendedSequence = true := by
  cases message with
  | parse | bind | describe | execute => rfl
  | _ => cases fits

theorem feed_complete (fed : held.feed incoming facts = (next, .complete)) :
    next = held ∧ held.step = .executed ∧ incoming.message = .sync ∧ held.isEmpty = false := by
  unfold feed at fed
  split at fed
  · cases fed
  · split at fed
    · rename_i ends
      simp only [Bool.and_eq_true, Bool.not_eq_true', decide_eq_true_eq] at ends
      split at fed
      · rename_i executed
        exact ⟨(Prod.mk.inj fed).1.symm, executed, ends.2, ends.1⟩
      · cases fed
    · split at fed
      · cases fed
      · split at fed <;> cases fed

end HeldSequence

/-! ### Answering out of a stored payload -/

inductive Unservable
  | noRowDescription
  | malformed
  | nothingRan
  deriving DecidableEq

def belongsInPayload (tag : UInt8) : Bool :=
  tag = Tag.rowDescription || tag = Tag.dataRow || tag = Tag.commandComplete ||
    tag = Tag.emptyQueryResponse

/-- The loop of `split` from a frame boundary on: whether it is the first frame, and whether
a completion has been read.  Every frame takes bytes. -/
def splitWithin : Nat → Bool → Bool → List UInt8 → Except Unservable (Option Frame × List Frame)
  | _, _, completed, [] => if completed then .ok (none, []) else .error .malformed
  | 0, _, _, _ :: _ => .error .malformed
  | fuel + 1, first, completed, tag :: after =>
    if completed || after.length < lenPrefix then .error .malformed
    else
      let len := readU32 after
      if len < lenPrefix then .error .malformed
      else if after.length < len || !belongsInPayload tag then .error .malformed
      else
        let frame : Frame := ⟨tag, (after.take len).drop lenPrefix⟩
        if tag = Tag.rowDescription then
          if first then do
            let (_, rows) ← splitWithin fuel false completed (after.drop len)
            return (some frame, rows)
          else .error .malformed
        else do
          let completes := tag = Tag.commandComplete || tag = Tag.emptyQueryResponse
          let (description, rows) ← splitWithin fuel false completes (after.drop len)
          return (description, frame :: rows)

def split (payload : List UInt8) : Except Unservable (Option Frame × List Frame) :=
  splitWithin payload.length true false payload

def statusByte : TxStatus → UInt8
  | .idle => 0x49
  | .inTransaction => 0x54
  | .failed => 0x45

def readyForQuery (status : TxStatus) : Frame where
  tag := Tag.readyForQuery
  body := [statusByte status]

def owedFor (description : Option Frame) (rows : List Frame) (frame : Frame) : List Frame :=
  if frame.tag = Tag.parse then [⟨Tag.parseComplete, []⟩]
  else if frame.tag = Tag.bind then [⟨Tag.bindComplete, []⟩]
  else if frame.tag = Tag.describe then description.toList
  else if frame.tag = Tag.execute then rows
  else []

def HeldSequence.assemble (held : HeldSequence) (payload : List UInt8) :
    Except Unservable (List Frame) :=
  if held.step ≠ .executed then .error .nothingRan
  else do
    let (description, rows) ← split payload
    if held.described && description.isNone then .error .noRowDescription
    else return held.frames.flatMap (owedFor description rows) ++ [readyForQuery .idle]

def assembleSimple (payload : List UInt8) : Except Unservable (List Frame) := do
  let (description, rows) ← split payload
  match description with
  | none => .error .noRowDescription
  | some description => return description :: rows ++ [readyForQuery .idle]

/-! ### What is put together -/

theorem splitWithin_nil {fuel : Nat} {first completed : Bool} {result : Option Frame × List Frame}
    (done : splitWithin fuel first completed [] = .ok result) : result = (none, []) := by
  unfold splitWithin at done
  cases completed with
  | true => exact (Except.ok.inj done).symm
  | false => cases done

theorem splitWithin_tags {fuel : Nat} :
    ∀ {first completed : Bool} {payload : List UInt8} {result : Option Frame × List Frame},
      splitWithin fuel first completed payload = .ok result →
        ∀ frame ∈ result.1.toList ++ result.2, belongsInPayload frame.tag = true := by
  induction fuel with
  | zero =>
    intro first completed payload result done
    cases payload with
    | nil =>
      rw [splitWithin_nil done]
      exact nofun
    | cons _ _ => cases done
  | succ fuel ih =>
    intro first completed payload result done
    cases payload with
    | nil =>
      rw [splitWithin_nil done]
      exact nofun
    | cons tag after =>
      unfold splitWithin at done
      split at done
      · cases done
      · dsimp only at done
        split at done
        · cases done
        · split at done
          · cases done
          · rename_i fits
            have belongs : belongsInPayload tag = true := by
              simp only [Bool.or_eq_true, Bool.not_eq_true', not_or] at fits
              simpa using fits.2
            split at done
            · split at done
              · obtain ⟨⟨_, rows⟩, rest, same⟩ := bind_eq_ok done
                rw [← Except.ok.inj same]
                exact forall_mem_cons.mpr ⟨belongs, fun frame listed =>
                  ih rest frame (mem_append_right _ listed)⟩
              · cases done
            · obtain ⟨⟨description, rows⟩, rest, same⟩ := bind_eq_ok done
              rw [← Except.ok.inj same]
              intro frame listed
              rcases mem_append.mp listed with front | behind
              · exact ih rest frame (mem_append_left _ front)
              · rcases mem_cons.mp behind with rfl | later
                · exact belongs
                · exact ih rest frame (mem_append_right _ later)

/-- An answer out of the cache ends with the one `ReadyForQuery` it has. -/
def EndsReady (frames : List Frame) : Prop :=
  ∃ body, frames = body ++ [readyForQuery .idle] ∧ ∀ frame ∈ body, frame.tag ≠ Tag.readyForQuery

theorem ne_ready_of_belongs {tag : UInt8} (belongs : belongsInPayload tag = true) :
    tag ≠ Tag.readyForQuery := by
  rintro rfl
  cases belongs

theorem assembleSimple_ends {payload : List UInt8} {frames : List Frame}
    (done : assembleSimple payload = .ok frames) : EndsReady frames := by
  obtain ⟨⟨description, rows⟩, splits, rest⟩ := bind_eq_ok done
  have tags := splitWithin_tags splits
  cases description with
  | none => cases rest
  | some description =>
    refine ⟨description :: rows, (Except.ok.inj rest).symm, fun frame listed => ?_⟩
    exact ne_ready_of_belongs (tags frame listed)

theorem HeldSequence.assemble_ends {held : HeldSequence} {payload : List UInt8}
    {frames : List Frame} (done : held.assemble payload = .ok frames) : EndsReady frames := by
  unfold HeldSequence.assemble at done
  split at done
  · cases done
  · obtain ⟨⟨description, rows⟩, splits, rest⟩ := bind_eq_ok done
    have tags := splitWithin_tags splits
    dsimp only at rest
    split at rest
    · cases rest
    · refine ⟨_, (Except.ok.inj rest).symm, fun frame listed => ?_⟩
      obtain ⟨asked, -, owed⟩ := mem_flatMap.mp listed
      unfold owedFor at owed
      split at owed
      · rw [mem_singleton.mp owed]
        exact nofun
      · split at owed
        · rw [mem_singleton.mp owed]
          exact nofun
        · split at owed
          · exact ne_ready_of_belongs (tags frame (mem_append_left _ owed))
          · split at owed
            · exact ne_ready_of_belongs (tags frame (mem_append_right _ owed))
            · cases owed

end Pgprox.Session
