/-
Reading the server's answer.

The answer waits on the connection.  The proxy reads it up to a `ReadyForQuery`, and leaves
out the completions of frames of its own.
-/

import Pgprox.Library.Suppress
import Pgprox.Serve.RelayLoop

namespace Pgprox.Serve

open Proto Pools Session List

def isCompletion : BackendMessage → Bool
  | .parseComplete | .closeComplete => true
  | _ => false

def isReady : BackendMessage → Bool
  | .readyForQuery _ => true
  | _ => false

structure Pumped where
  pumping : Pumping
  forwarded : List BackendMessage
  unread : List BackendMessage

namespace Pumping

def received (pumping : Pumping) (message : BackendMessage) : Pumping :=
  { pumping with owed := pumping.owed.received message }

/-- Reads up to a `ReadyForQuery`, or for a `Flush` until nothing is owed.  The answers
here do not start a copy. -/
def pump (flushing : Bool) (pumping : Pumping) : List BackendMessage → Pumped
  | [] => ⟨pumping, [], []⟩
  | message :: later =>
    match pumping.swallowOne message with
    | some swallowed =>
      let heard := swallowed.received message
      if flushing && heard.owed.settled then ⟨heard, [], later⟩
      else heard.pump flushing later
    | none =>
      let heard := pumping.received message
      if isReady message || (flushing && heard.owed.settled) then ⟨heard, [message], later⟩
      else
        let rest := heard.pump flushing later
        { rest with forwarded := message :: rest.forwarded }

theorem swallowOne_eq (pumping : Pumping) (message : BackendMessage) :
    pumping.swallowOne message =
      if isCompletion message = true ∧ 0 < pumping.swallow then
        some { pumping with swallow := pumping.swallow - 1 }
      else none := by
  cases message <;> simp [swallowOne, isCompletion]

theorem pump_cons (pumping : Pumping) {answer : BackendMessage} (inside : isReady answer = false)
    (later : List BackendMessage) :
    (pumping.pump false (answer :: later)).forwarded =
      (pumping.pump false [answer]).forwarded ++
        ((pumping.pump false [answer]).pumping.pump false later).forwarded := by
  rw [pump, pump]
  cases pumping.swallowOne answer with
  | some => rfl
  | none =>
    rw [inside]
    rfl

theorem pump_cons_hidden {pumping : Pumping} {answer : BackendMessage}
    (completes : isCompletion answer = true) (hides : 0 < pumping.swallow)
    (later : List BackendMessage) :
    (pumping.pump false (answer :: later)).forwarded =
      (Pumping.pump false
        (Pumping.received { pumping with swallow := pumping.swallow - 1 } answer)
        later).forwarded := by
  rw [pump, swallowOne_eq, if_pos ⟨completes, hides⟩]
  rfl

theorem pump_cons_seen {pumping : Pumping} {answer : BackendMessage}
    (seen : ¬ (isCompletion answer = true ∧ 0 < pumping.swallow))
    (inside : isReady answer = false) (later : List BackendMessage) :
    (pumping.pump false (answer :: later)).forwarded =
      answer :: ((pumping.received answer).pump false later).forwarded := by
  rw [pump, swallowOne_eq, if_neg seen]
  dsimp only
  rw [inside]
  rfl

/-- Up to the first `ReadyForQuery` the client sees all but as many completions as the
proxy has to hide. -/
theorem pump_forwarded (pumping : Pumping) {answers : List BackendMessage} (status : TxStatus)
    (before : ∀ answer ∈ answers, isReady answer = false) :
    (pumping.pump false (answers ++ [.readyForQuery status])).forwarded =
      answers.suppress isCompletion pumping.swallow ++ [.readyForQuery status] := by
  induction answers generalizing pumping with
  | nil =>
    rw [suppress_nil]
    rfl
  | cons answer later ih =>
    have inside := before answer mem_cons_self
    have rest := fun pumping => ih pumping fun next among =>
      before next (mem_cons_of_mem _ among)
    rw [cons_append]
    cases completes : isCompletion answer with
    | false =>
      rw [pump_cons_seen (by simp [completes]) inside, rest,
        suppress_cons_of_neg completes]
      rfl
    | true =>
      cases count : pumping.swallow with
      | zero =>
        have spent : (pumping.received answer).swallow = 0 := count
        rw [pump_cons_seen (by simp [count]) inside, rest, spent, suppress_zero,
          suppress_zero]
        rfl
      | succ swallow =>
        rw [pump_cons_hidden completes (by simp [count]), rest,
          suppress_cons_of_pos completes]
        simp [received, count]

end Pumping

def clientFrames (outputs : List Output) : List BackendMessage :=
  outputs.filterMap fun
    | .toClient frame => some frame
    | _ => none

theorem clientFrames_append (first later : List Output) :
    clientFrames (first ++ later) = clientFrames first ++ clientFrames later :=
  filterMap_append

theorem Live.release_pumping (live : Live) (position : Option Nat) :
    (live.release position).1.pumping = live.pumping ∧
      clientFrames (live.release position).2 = [] := by
  unfold Live.release
  dsimp only
  cases live.upstream with
  | none | some => exact ⟨rfl, rfl⟩

/-- One turn of the pump is what the loop does with one frame of the answer. -/
theorem Live.takeAnswer_eq_pump (live : Live) (flushing : Bool) (message : BackendMessage)
    (position : Option Nat) (noCopy : message ≠ .copyInResponse)
    (noCopyBoth : message ≠ .copyBothResponse) :
    (live.takeAnswer flushing message position).1.pumping =
        (live.pumping.pump flushing [message]).pumping ∧
      clientFrames (live.takeAnswer flushing message position).2 =
        (live.pumping.pump flushing [message]).forwarded := by
  unfold Live.takeAnswer
  dsimp only [Pumping.pump]
  cases swallowed : live.pumping.swallowOne message with
  | some pumping =>
    dsimp only
    constructor
    · split <;> split <;> rfl
    · split <;> rfl
  | none =>
    unfold Live.forwardAnswer
    dsimp only
    split
    · exact absurd rfl noCopy
    · exact absurd rfl noCopyBoth
    · split
      · obtain ⟨kept, quiet⟩ := Live.release_pumping
          { live with
            relay := (live.relay.onServer _).1
            pumping := live.pumping.received _
            phase := .reading } position
        exact ⟨kept, congrArg _ quiet⟩
      · exact ⟨rfl, rfl⟩
    · rw [ite_self]
      constructor
      · split <;> rfl
      · split <;> rfl

end Pgprox.Serve
