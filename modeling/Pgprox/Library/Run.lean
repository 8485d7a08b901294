/-
Runs of a deterministic system under a schedule of events.

The state at a position is what the events before it make of the start.  `Reachable` forgets
positions and keeps only that every event taken was allowed where it was taken; `History`
also keeps the events.
-/

import Mathlib

universe u v

namespace Run

variable {σ : Type u} {ε : Type v}

def stateAt (step : σ → ε → σ) (start : σ) (schedule : Nat → ε) : Nat → σ
  | 0 => start
  | position + 1 => step (stateAt step start schedule position) (schedule position)

/-- What holds at one position and survives every event from there on holds at
every later one.  The property may speak about the position itself. -/
theorem holds_from {P : Nat → Prop} {first last : Nat}
    (initially : P first) (order : first ≤ last)
    (preserved : ∀ position, first ≤ position → position < last → P position →
      P (position + 1)) :
    P last := by
  induction last with
  | zero =>
    have same : first = 0 := Nat.le_zero.mp order
    exact same ▸ initially
  | succ position ih =>
    rcases Nat.lt_or_ge position first with before | after
    · have same : first = position + 1 := Nat.le_antisymm order before
      exact same ▸ initially
    · apply preserved position after (Nat.lt_succ_self position)
      apply ih after
      intro earlier low high
      exact preserved earlier low (Nat.lt_succ_of_lt high)

inductive Reachable (start : σ) (allowed : σ → ε → Prop) (step : σ → ε → σ) : σ → Prop
  | start : Reachable start allowed step start
  | step {state : σ} {event : ε} :
      Reachable start allowed step state → allowed state event →
        Reachable start allowed step (step state event)

variable {state : σ} {allowed : σ → ε → Prop} {step : σ → ε → σ}

theorem Reachable.invariant {start : σ} {P : σ → Prop}
    (reachable : Reachable start allowed step state) (initially : P start)
    (preserved : ∀ before event, P before → allowed before event → P (step before event)) :
    P state := by
  induction reachable with
  | start => exact initially
  | step _ permitted ih => exact preserved _ _ ih permitted

theorem Reachable.mono {start : σ} {wider : σ → ε → Prop}
    (reachable : Reachable start allowed step state)
    (weaker : ∀ before event, allowed before event → wider before event) :
    Reachable start wider step state := by
  induction reachable with
  | start => exact .start
  | step _ permitted ih => exact .step ih (weaker _ _ permitted)

def Permitted (allowed : σ → ε → Prop) (step : σ → ε → σ) : σ → List ε → Prop
  | _, [] => True
  | state, event :: later =>
    allowed state event ∧ Permitted allowed step (step state event) later

instance Permitted.decidable (allowed : σ → ε → Prop) (step : σ → ε → σ)
    [∀ state event, Decidable (allowed state event)] :
    (state : σ) → (events : List ε) → Decidable (Permitted allowed step state events)
  | _, [] => inferInstanceAs (Decidable True)
  | state, event :: later =>
    have := Permitted.decidable allowed step (step state event) later
    inferInstanceAs (Decidable (_ ∧ _))

theorem permitted_cons {event : ε} {later : List ε} :
    Permitted allowed step state (event :: later) ↔
      allowed state event ∧ Permitted allowed step (step state event) later :=
  Iff.rfl

theorem Reachable.foldl {start : σ} (reachable : Reachable start allowed step state)
    {events : List ε} (permitted : Permitted allowed step state events) :
    Reachable start allowed step (events.foldl step state) := by
  induction events generalizing state with
  | nil => exact reachable
  | cons event later ih => exact ih (reachable.step permitted.1) permitted.2

/-- What allowed events keep, and what the first other event makes of it for good. -/
theorem foldl_permitted_or {P Q : σ → Prop}
    (keeps : ∀ before event, P before → allowed before event → P (step before event))
    (breaks : ∀ before event, P before → ¬ allowed before event → Q (step before event))
    (stays : ∀ before event, Q before → Q (step before event)) (holds : P state) (events : List ε) :
    Permitted allowed step state events ∧ P (events.foldl step state) ∨
      ¬ Permitted allowed step state events ∧ Q (events.foldl step state) := by
  induction events generalizing state with
  | nil => exact .inl ⟨trivial, holds⟩
  | cons event later ih =>
    rw [List.foldl_cons]
    by_cases permitted : allowed state event
    · rcases ih (keeps state event holds permitted) with ⟨rest, still⟩ | ⟨rest, broken⟩
      · exact .inl ⟨⟨permitted, rest⟩, still⟩
      · exact .inr ⟨fun both => rest both.2, broken⟩
    · refine .inr ⟨fun both => permitted both.1, ?_⟩
      have broken := breaks state event holds permitted
      clear ih holds permitted
      generalize step state event = next at broken
      induction later generalizing next with
      | nil => exact broken
      | cons event later ih => exact ih _ (stays next event broken)

inductive History (start : σ) (allowed : σ → ε → Prop) (step : σ → ε → σ) :
    List ε → σ → Prop
  | nil : History start allowed step [] start
  | snoc {events : List ε} {state : σ} {event : ε} :
      History start allowed step events state → allowed state event →
        History start allowed step (events ++ [event]) (step state event)

theorem History.invariant {start : σ} {events : List ε} {P : List ε → σ → Prop}
    (history : History start allowed step events state) (initially : P [] start)
    (preserved : ∀ taken before event, P taken before → allowed before event →
      P (taken ++ [event]) (step before event)) : P events state := by
  induction history with
  | nil => exact initially
  | snoc _ permitted ih => exact preserved _ _ _ ih permitted

end Run
