/-
One round of the replica poller.

The probes run at once, and their answers are collected in the order of the replicas.  An
answer is stamped when it is collected, which is no sooner than every probe before it has
ended.
-/

import Pgprox.Route.Router

namespace Pgprox.Route

open List (foldl_append foldl_cons foldl_nil range_succ getElem?_set_self getElem?_set_ne)

namespace Replicas

def observe (replicas : Replicas) (index : Nat) (observation : Observation) : Replicas :=
  { replicas with observations := replicas.observations.set index (some observation) }

def observeFailure (replicas : Replicas) (index : Nat) : Replicas :=
  { replicas with observations := replicas.observations.set index none }

end Replicas

inductive Outcome
  | answer (replayed : Nat) (inRecovery : Bool)
  | failure
  | panic
  deriving DecidableEq

structure ProbeRun where
  took : Nat
  outcome : Outcome
  deriving DecidableEq

structure Round where
  now : Nat
  replicas : Replicas
  answered : Nat

section

variable (began : Nat) (probe : Nat → ProbeRun)

def Round.collect (round : Round) (index : Nat) : Round :=
  let now := max round.now (began + (probe index).took)
  match (probe index).outcome with
  | .answer replayed inRecovery =>
    ⟨now, round.replicas.observe index ⟨replayed, inRecovery, now⟩, round.answered + 1⟩
  | .failure => ⟨now, round.replicas.observeFailure index, round.answered⟩
  | .panic => ⟨now, round.replicas, round.answered⟩

def collected (replicas : Replicas) (count : Nat) : Round :=
  (List.range count).foldl (Round.collect began probe) ⟨began, replicas, 0⟩

def pollOnce (replicas : Replicas) : Round :=
  collected began probe replicas replicas.observations.length

variable (replicas : Replicas)

theorem collected_succ (count : Nat) : collected began probe replicas (count + 1) =
    (collected began probe replicas count).collect began probe count := by
  rw [collected, range_succ, foldl_append, foldl_cons, foldl_nil, ← collected]

theorem collect_now (round : Round) (index : Nat) :
    (round.collect began probe index).now = max round.now (began + (probe index).took) := by
  unfold Round.collect
  dsimp only
  split <;> rfl

/-- The clock stands at the end of the slowest probe so far. -/
theorem collected_now_le_iff (count bound : Nat) :
    (collected began probe replicas count).now ≤ began + bound ↔
      ∀ index < count, (probe index).took ≤ bound := by
  induction count with
  | zero => simp [collected]
  | succ count ih =>
    rw [collected_succ, collect_now, Nat.max_le, ih, Nat.forall_lt_succ_right,
      Nat.add_le_add_iff_left]

theorem collect_other (round : Round) {index other : Nat} (apart : index ≠ other) :
    (round.collect began probe index).replicas.observations[other]? =
      round.replicas.observations[other]? := by
  unfold Round.collect
  dsimp only
  split
  · exact getElem?_set_ne apart
  · exact getElem?_set_ne apart
  · rfl

theorem collected_later {count index : Nat} (later : count ≤ index) :
    (collected began probe replicas count).replicas.observations[index]? =
      replicas.observations[index]? := by
  induction count with
  | zero => rfl
  | succ count ih =>
    rw [collected_succ, collect_other began probe _ (by omega), ih (by omega)]

theorem collected_earlier {count index : Nat} (earlier : index < count) :
    (collected began probe replicas count).replicas.observations[index]? =
      (collected began probe replicas (index + 1)).replicas.observations[index]? := by
  induction count with
  | zero => exact absurd earlier (Nat.not_lt_zero _)
  | succ count ih =>
    rcases Nat.lt_succ_iff_lt_or_eq.mp earlier with before | rfl
    · rw [collected_succ, collect_other began probe _ (by omega), ih before]
    · rfl

theorem collected_length (count : Nat) :
    (collected began probe replicas count).replicas.observations.length =
      replicas.observations.length := by
  induction count with
  | zero => rfl
  | succ count ih =>
    rw [collected_succ, ← ih]
    unfold Round.collect
    dsimp only
    split
    · exact List.length_set
    · exact List.length_set
    · rfl

/-- An answer carries the instant its probe ended, and a probe that gave none leaves no
observation. -/
def Timely (observation : Option Observation) (index : Nat) : Prop :=
  observation = match (probe index).outcome with
    | .answer replayed inRecovery => some ⟨replayed, inRecovery, began + (probe index).took⟩
    | .failure | .panic => none

/-- An answer is stamped in time when no probe before it ran longer; a probe that panicked
leaves what was there before the round. -/
theorem poll_timely_iff (index : Fin replicas.observations.length) :
    (∃ observation, (pollOnce began probe replicas).replicas.observations[index.val]? =
        some observation ∧ Timely began probe observation index) ↔
      match (probe index).outcome with
      | .answer _ _ => ∀ earlier < index.val, (probe earlier).took ≤ (probe index).took
      | .failure => True
      | .panic => replicas.observations[index] = none := by
  have within : index.val <
      (collected began probe replicas index).replicas.observations.length := by
    rw [collected_length]
    exact index.isLt
  have own : (pollOnce began probe replicas).replicas.observations[index.val]? = _ :=
    collected_earlier began probe replicas index.isLt
  rw [own, collected_succ]
  unfold Round.collect Timely
  cases (probe index).outcome with
  | answer replayed inRecovery =>
    have slowest := collected_now_le_iff began probe replicas index (probe index).took
    dsimp only [Replicas.observe]
    rw [getElem?_set_self within, ← slowest]
    simp
  | failure =>
    dsimp only [Replicas.observeFailure]
    rw [getElem?_set_self within]
    simp
  | panic =>
    dsimp only
    rw [collected_later began probe replicas le_rfl]
    simp

end

def slowFirst : Nat → ProbeRun
  | 0 => ⟨5, .failure⟩
  | _ => ⟨1, .answer 7 true⟩

theorem poll_ages_answer : ((pollOnce 100 slowFirst ⟨1, [none, none]⟩).replicas.observations =
      [none, some ⟨7, true, 105⟩]) ∧
    (pollOnce 100 (fun _ => ⟨1, .panic⟩) ⟨1, [some ⟨7, true, 90⟩]⟩).replicas.observations =
      [some ⟨7, true, 90⟩] := by decide

end Pgprox.Route
