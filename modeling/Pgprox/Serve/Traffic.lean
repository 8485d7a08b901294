/-
What one client frame puts on the wire.

The loop may answer the frame itself, refuse the session, or send frames on a connection:
frames of its own that prepare a statement and then the client's frame under the
connection's name for it.
-/

import Pgprox.Serve.RelayLoop

namespace Pgprox.Serve

open Proto Pools Route Session List

/-! ### Frames by what they ask for -/

def asksReady : FrontendMessage → Bool
  | .query _ | .functionCall | .sync => true
  | _ => false

variable {message : FrontendMessage}

theorem asksReady_of_extended (extended : message.startsExtendedSequence = true) :
    asksReady message = false := by
  cases message with
  | query | sync | functionCall => cases extended
  | _ => rfl

theorem extended_iff_owed :
    message.startsExtendedSequence = true ↔ ∃ owed, Owed.of message = some owed := by
  cases message <;> simp [FrontendMessage.startsExtendedSequence, Owed.of]

/-- The frame the loop sends for a client's frame: the same one, or the same with another
statement name. -/
def Renames (message onward : FrontendMessage) : Prop :=
  onward = message ∨
    message.startsExtendedSequence = true ∧ onward.startsExtendedSequence = true ∧
      Owed.of onward = Owed.of message

variable {onward : FrontendMessage}

theorem Renames.asksReady (renames : Renames message onward) :
    asksReady onward = asksReady message := by
  rcases renames with rfl | ⟨one, two, -⟩
  · rfl
  · rw [asksReady_of_extended one, asksReady_of_extended two]

theorem Renames.owed (renames : Renames message onward) : Owed.of onward = Owed.of message := by
  rcases renames with rfl | ⟨-, -, same⟩
  · rfl
  · exact same

theorem renames_of_observe {session memory : SessionMemory}
    (accepted : observe session message = some (memory, onward)) : Renames message onward := by
  obtain ⟨mapped, named, same⟩ := Option.map_eq_some_iff.mp accepted
  obtain ⟨-, rfl⟩ := Prod.mk.inj same
  unfold mapStatementName at named
  split at named
  · split at named
    · cases named
      exact .inl rfl
    · cases named
      exact .inr ⟨rfl, rfl, rfl⟩
  · split at named
    · cases named
      exact .inl rfl
    · obtain ⟨prepared, -, rfl⟩ := Option.map_eq_some_iff.mp named
      exact .inr ⟨rfl, rfl, rfl⟩
  · split at named
    · cases named
      exact .inl rfl
    · obtain ⟨prepared, -, rfl⟩ := Option.map_eq_some_iff.mp named
      exact .inr ⟨rfl, rfl, rfl⟩
  · split at named
    · cases named
      exact .inl rfl
    · obtain ⟨prepared, -, rfl⟩ := Option.map_eq_some_iff.mp named
      exact .inr ⟨rfl, rfl, rfl⟩
  · cases named
    exact .inl rfl

/-! ### Frames of the proxy's own -/

def Prepares (frame : FrontendMessage) : Prop :=
  (∃ name, frame = .close .statement name) ∨ ∃ name sql, frame = .parse name sql

/-- The frames sent before a client's frame: each closes or prepares a statement and is of
another kind than the client's frame, and they come only before one that names a statement. -/
structure Injected (message : FrontendMessage) (frames : List FrontendMessage) : Prop where
  prepares : ∀ frame ∈ frames, Prepares frame
  apart : ∀ frame ∈ frames, Owed.of frame ≠ Owed.of message
  named : statementName message = none → frames = []

theorem Injected.nil (message : FrontendMessage) : Injected message [] :=
  ⟨nofun, nofun, fun _ => rfl⟩

theorem Injected.extended {frames : List FrontendMessage} (own : Injected message frames) :
    ∀ frame ∈ frames, frame.startsExtendedSequence = true := by
  intro frame listed
  rcases own.prepares frame listed with ⟨name, rfl⟩ | ⟨name, sql, rfl⟩
  · rfl
  · rfl

theorem Injected.idle {frames : List FrontendMessage} (own : Injected message frames) :
    ∀ frame ∈ frames, Owed.of frame ≠ some .execute := by
  intro frame listed
  rcases own.prepares frame listed with ⟨name, rfl⟩ | ⟨name, sql, rfl⟩
  · exact nofun
  · exact nofun

theorem Injected.alone {frames : List FrontendMessage} (own : Injected message frames)
    (renames : Renames message onward) (plain : message.startsExtendedSequence = false) :
    frames = [] ∧ onward = message ∧
      ∀ owed : Outstanding, (owed.sent message).owed = owed.owed := by
  refine ⟨own.named ?_, renames.resolve_right fun both => ?_, fun owed => ?_⟩
  · cases message with
    | parse | bind => cases plain
    | _ => rfl
  · cases plain.symm.trans both.1
  · unfold Outstanding.sent
    cases kind : Owed.of message with
    | none => exact append_nil _
    | some owes => cases plain.symm.trans (extended_iff_owed.mpr ⟨owes, kind⟩)

variable {record : ConnectionStatements}

theorem mem_evictFor {global : GlobalName} {frame : FrontendMessage}
    (listed : frame ∈ (evictFor record global).2) : ∃ name, frame = .close .statement name := by
  unfold evictFor at listed
  split at listed
  · obtain ⟨victim, -, rfl⟩ := mem_map.mp listed
    exact ⟨_, rfl⟩
  · cases listed

variable {updated : ConnectionStatements} {session : SessionStatements}
  {injected : List FrontendMessage}

section

variable {swallow : Nat}
  (ready : readyStatement record session message = (updated, .prepared injected swallow))
include ready

theorem mem_readyStatement {frame : FrontendMessage} (listed : frame ∈ injected) :
    (∃ name, frame = .close .statement name) ∨
      isParse message = false ∧ ∃ name sql, frame = .parse name sql := by
  unfold readyStatement at ready
  split at ready
  · cases ready
  · split at ready
    · cases ready
    · split at ready
      · unfold readyUnnamed prepareUnnamed at ready
        dsimp only at ready
        split at ready
        · rename_i owed
          cases ready
          simp only [Bool.not_eq_true', Bool.or_eq_false_iff] at owed
          exact .inr ⟨owed.1, _, _, mem_singleton.mp listed⟩
        · cases ready
      · unfold readyNamed at ready
        split at ready
        · split at ready
          · cases ready
          · cases ready
            exact .inl (mem_evictFor listed)
        · rename_i binds
          split at ready
          · cases ready
            cases listed
          · cases ready
            rcases mem_append.mp listed with closed | parsed
            · exact .inl (mem_evictFor closed)
            · exact .inr ⟨Bool.eq_false_iff.mpr binds, _, _, mem_singleton.mp parsed⟩

theorem injected_of_ready :
    Injected message injected where
  prepares := fun _ listed => (mem_readyStatement ready listed).imp_right And.right
  apart := by
    intro frame listed
    have named : statementName message ≠ none := by
      intro unnamed
      unfold readyStatement at ready
      rw [unnamed] at ready
      cases ready
    rcases mem_readyStatement ready listed with ⟨name, rfl⟩ | ⟨binds, name, sql, rfl⟩
    · cases message with
      | parse | bind => exact nofun
      | _ => exact absurd rfl named
    · cases message with
      | parse _ _ => cases binds
      | bind _ _ _ => exact nofun
      | _ => exact absurd rfl named
  named := by
    intro unnamed
    unfold readyStatement at ready
    rw [unnamed] at ready
    cases ready

theorem swallow_of_ready :
    swallow = injected.length := by
  unfold readyStatement at ready
  split at ready
  · cases ready
  · split at ready
    · cases ready
    · split at ready
      · unfold readyUnnamed prepareUnnamed at ready
        dsimp only at ready
        split at ready
        · cases ready
          rfl
        · cases ready
      · unfold readyNamed at ready
        split at ready
        · split at ready
          · cases ready
          · cases ready
            rfl
        · split at ready
          · cases ready
            rfl
          · cases ready
            rw [length_append, length_singleton]

end

theorem sendUpstream_frames (session : SessionStatements) (record : ConnectionStatements)
    (message onward : FrontendMessage) :
    ((sendUpstream session record message onward).forwarded = false ∧
      (sendUpstream session record message onward).upstream = []) ∨
    ((sendUpstream session record message onward).forwarded = true ∧
      ∃ injected, Injected message injected ∧
        (sendUpstream session record message onward).upstream = injected ++ [onward]) := by
  unfold sendUpstream
  dsimp only
  split
  · exact .inr ⟨rfl, [], .nil message, rfl⟩
  · rename_i ready
    exact .inr ⟨rfl, _, injected_of_ready ready, rfl⟩
  · exact .inl ⟨rfl, rfl⟩

theorem sendUpstream_kept {statements : SessionStatements} {record : ConnectionStatements}
    {message onward : FrontendMessage}
    (kept : (sendUpstream statements record message onward).forwarded = false) :
    ∃ name sql prepared, message = .parse name sql ∧ name ≠ [] ∧
      statements.get name = some prepared ∧ record.holds prepared.global = true := by
  unfold sendUpstream at kept
  dsimp only at kept
  split at kept
  · cases kept
  · cases kept
  · rename_i updated ready
    unfold readyStatement at ready
    split at ready
    · cases ready
    · rename_i name named
      split at ready
      · cases ready
      · rename_i prepared found
        split at ready
        · unfold readyUnnamed at ready
          dsimp only at ready
          split at ready <;> cases ready
        · rename_i filled
          unfold readyNamed at ready
          split at ready
          · rename_i parses
            split at ready
            · rename_i has
              cases message with
              | parse other sql =>
                cases named
                refine ⟨_, sql, prepared, rfl, filled, forgetFor_get found, ?_⟩
                change (observeStatement statements record sql).2.holds _ = true at has
                unfold observeStatement at has
                split at has
                · cases has
                · exact has
              | _ => cases parses
            · cases ready
          · split at ready <;> cases ready

/-! ### The frames of one decision -/

def sentFrames (outputs : List Output) : List FrontendMessage :=
  outputs.filterMap fun
    | .toServer _ frame => some frame
    | _ => none

def isBorrowed : Output → Bool
  | .borrowed _ => true
  | _ => false

def Live.told (live : Live) (message : FrontendMessage) : Nat :=
  match observe live.session message with
  | some (memory, _) => (resume memory live.statementTimeout).length
  | none => 0

def framesSent (told : Nat) (outputs : List Output) : List FrontendMessage :=
  if outputs.any isBorrowed then (sentFrames outputs).drop told else sentFrames outputs

theorem sentFrames_toServer (id : Nat) (frames : List FrontendMessage) :
    sentFrames (frames.map (Output.toServer id)) = frames := by
  unfold sentFrames
  rw [filterMap_map]
  exact filterMap_some

theorem not_isBorrowed_toServer (id : Nat) (frames : List FrontendMessage) :
    (frames.map (Output.toServer id)).any isBorrowed = false := by
  induction frames with
  | nil => rfl
  | cons frame later ih => exact ih

theorem sentFrames_borrowed (id : Nat) (told : List Text) (outputs : List Output) :
    sentFrames (.borrowed id :: told.map (fun sql => .toServer id (.query sql)) ++ outputs) =
      told.map .query ++ sentFrames outputs := by
  induction told with
  | nil => rfl
  | cons sql later ih => exact congrArg (.query sql :: ·) ih

def phaseAfter (phase : Phase) (message : FrontendMessage) (owed : Outstanding) : Phase :=
  if awaitsMore message then phase
  else if message = .flush ∧ owed.settled then phase
  else .pumping (message = .flush)

inductive Taken (phase : Phase) (pumping : Pumping) (message : FrontendMessage) (next : Live) :
    List FrontendMessage → Prop
  | answered (stays : next.phase = phase) (same : next.pumping = pumping) :
      Taken phase pumping message next []
  | forwarded {injected : List FrontendMessage} {onward : FrontendMessage}
      (own : Injected message injected) (renames : Renames message onward)
      (owed : next.pumping.owed = pumping.owed.sent message)
      (goes : next.phase = phaseAfter phase message next.pumping.owed) :
      Taken phase pumping message next (injected ++ [onward])

variable (live : Live)

theorem sendOn_taken (upstream : Upstreamed) (renames : Renames message onward) :
    (live.sendOn upstream message onward).2.any isBorrowed = false ∧
      Taken live.phase live.pumping message (live.sendOn upstream message onward).1
        (sentFrames (live.sendOn upstream message onward).2) := by
  unfold Live.sendOn
  rcases sendUpstream_frames live.session.statements upstream.record message onward with
    ⟨kept, -⟩ | ⟨gone, injected, own, shape⟩
  · rw [if_neg (by simp [kept])]
    exact ⟨rfl, .answered rfl rfl⟩
  · rw [if_pos gone]
    rw [shape, sentFrames_toServer]
    refine ⟨not_isBorrowed_toServer _ _, .forwarded own renames ?_ ?_⟩
    · unfold Live.afterSending
      split
      · rfl
      · split
        · rfl
        · rfl
    · unfold Live.afterSending phaseAfter
      split
      · rfl
      · split
        · rfl
        · rfl

theorem sendOn_swallow (upstream : Upstreamed) (message onward : FrontendMessage) :
    (live.sendOn upstream message onward).1.pumping.swallow =
      live.pumping.swallow + ((sentFrames (live.sendOn upstream message onward).2).length - 1) := by
  have sends : (sendUpstream live.session.statements upstream.record message onward).swallow =
      (sendUpstream live.session.statements upstream.record message onward).upstream.length -
        1 := by
    unfold sendUpstream
    dsimp only
    split
    · rfl
    · rename_i ready
      rw [swallow_of_ready ready, length_append, length_singleton, Nat.add_sub_cancel]
    · rfl
  unfold Live.sendOn
  dsimp only
  split
  · rw [sentFrames_toServer, ← sends]
    unfold Live.afterSending
    split
    · rfl
    · split
      · rfl
      · rfl
  · rfl

/-- One client frame read between answers: the session ends, the loop answers the frame, or
it sends the frame, on the connection in hand or on one it has just acquired. -/
theorem takeFrame_sends (message : FrontendMessage) (replicas : Replicas) (now : Nat)
    (lent : Option Upstreamed) :
    (live.takeFrame message replicas now lent).1.phase = .closed ∨
      ((live.takeFrame message replicas now lent).1.phase = live.phase ∧
        (live.takeFrame message replicas now lent).1.pumping = live.pumping ∧
        framesSent (live.told message) (live.takeFrame message replicas now lent).2 = []) ∨
      ∃ (sender : Live) (upstream : Upstreamed) (onward : FrontendMessage),
        Renames message onward ∧ sender.phase = live.phase ∧ sender.pumping = live.pumping ∧
        (live.takeFrame message replicas now lent).1 =
          (sender.sendOn upstream message onward).1 ∧
        framesSent (live.told message) (live.takeFrame message replicas now lent).2 =
          sentFrames (sender.sendOn upstream message onward).2 := by
  unfold Live.takeFrame Live.told
  cases accepted : observe live.session message with
  | none => exact .inl rfl
  | some pair =>
    obtain ⟨memory, onward⟩ := pair
    have renames := renames_of_observe accepted
    dsimp only
    cases (live.relay.onClient message replicas now).2.action with
    | close => exact .inl rfl
    | answer routed =>
      refine .inr (.inl ⟨rfl, rfl, ?_⟩)
      cases routed <;> rfl
    | send target acquire =>
      cases acquire with
      | true =>
        cases lent with
        | none => exact .inl rfl
        | some taken =>
          refine .inr (.inr ⟨
            { live with
              relay := (live.relay.onClient message replicas now).1.acquired target
              session := memory, serving := target, upstream := some taken },
            taken, onward, renames, rfl, rfl, rfl, ?_⟩)
          change framesSent _ (.borrowed taken.id ::
            (resume memory live.statementTimeout).map _ ++ _) = _
          unfold framesSent
          rw [if_pos (by rfl), sentFrames_borrowed, drop_left' (length_map _)]
      | false =>
        cases current : live.upstream with
        | none =>
          exact .inl rfl
        | some upstream =>
          simp only [Live.act]
          refine .inr (.inr ⟨_, upstream, onward, renames, ?_, ?_, rfl, ?_⟩)
          · rfl
          · rfl
          · unfold framesSent
            rw [(sendOn_taken _ upstream renames).1]
            rfl

theorem takeFrame_taken (message : FrontendMessage) (replicas : Replicas) (now : Nat)
    (lent : Option Upstreamed) :
    (live.takeFrame message replicas now lent).1.phase = .closed ∨
      Taken live.phase live.pumping message (live.takeFrame message replicas now lent).1
        (framesSent (live.told message) (live.takeFrame message replicas now lent).2) := by
  rcases takeFrame_sends live message replicas now lent with
    closed | ⟨phase, pumping, silent⟩ | ⟨sender, upstream, onward, renames, phase, pumping, sent,
      frames⟩
  · exact .inl closed
  · rw [silent]
    exact .inr (.answered phase pumping)
  · rw [sent, frames, ← phase, ← pumping]
    exact .inr (sendOn_taken sender upstream renames).2

theorem takeFrame_swallow (message : FrontendMessage) (replicas : Replicas) (now : Nat)
    (lent : Option Upstreamed) :
    (live.takeFrame message replicas now lent).1.phase = .closed ∨
      (live.takeFrame message replicas now lent).1.pumping.swallow =
        live.pumping.swallow + ((framesSent (live.told message)
          (live.takeFrame message replicas now lent).2).length - 1) := by
  rcases takeFrame_sends live message replicas now lent with
    closed | ⟨-, pumping, silent⟩ | ⟨sender, upstream, onward, -, -, pumping, sent, frames⟩
  · exact .inl closed
  · rw [pumping, silent]
    exact .inr rfl
  · rw [sent, frames, ← pumping]
    exact .inr (sendOn_swallow sender upstream message onward)

theorem takeAnswer_phase (flushing : Bool) (message : BackendMessage) (position : Option Nat) :
    (live.takeAnswer flushing message position).1.phase = .closed ∨
      (live.takeAnswer flushing message position).1.phase = live.phase ∨
      (live.takeAnswer flushing message position).1.phase = .copying flushing ∨
      (live.takeAnswer flushing message position).1.phase = .reading ∧
        (flushing = true ∨ ∃ status, message = .readyForQuery status) := by
  rcases live.takeAnswer_cases flushing message position with
    ⟨pumping, phase, outputs, took, -, next⟩ | ⟨status, pumping, rfl, -, took⟩
  · rw [took]
    exact .inr next
  · rw [took]
    unfold Live.release
    cases live.upstream with
    | none => exact .inl rfl
    | some upstream => exact .inr (.inr (.inr ⟨rfl, .inr ⟨status, rfl⟩⟩))

end Pgprox.Serve
