/-
When a connection goes back to the pool.

The frames sent on the connection in hand are kept in a log, those sent while a copy is open
apart from the others, with a mark for every `ReadyForQuery` read from it.
-/

import Pgprox.Serve.PinnedSession
import Pgprox.Serve.Traffic

namespace Pgprox.Serve

open Proto Pools Route Session List

def endsSequence : FrontendMessage → Bool
  | .query _ | .sync => true
  | _ => false

/-! ### The log of a connection -/

inductive Traffic
  | sent (frame : FrontendMessage)
  /-- The server drops what does not belong to the copy, so such a frame asks for nothing. -/
  | copied (frame : FrontendMessage)
  | ready
  deriving DecidableEq

def Traffic.asks : Traffic → Bool
  | .sent frame => asksReady frame
  | _ => false

def asked (log : List Traffic) : Nat :=
  log.countP Traffic.asks

def readied (log : List Traffic) : Nat :=
  log.countP (· = .ready)

/-- Every frame of an extended-query sequence sent outside a copy is followed by a frame that
`ends` accepts and whose own `ReadyForQuery` has been read. -/
def Answered (ends : FrontendMessage → Bool) (log : List Traffic) : Prop :=
  ∀ before frame after, log = before ++ .sent frame :: after →
    frame.startsExtendedSequence = true →
      ∃ between last later, after = between ++ .sent last :: later ∧ ends last = true ∧
        asked (before ++ .sent frame :: between ++ [.sent last]) ≤ readied log

structure Logged where
  live : Live
  log : List Traffic

/-- The log after an event: a connection acquired for the frame starts an empty one. -/
def Live.logged (live : Live) (log : List Traffic) (event : LoopEvent) : List Traffic :=
  let outputs := (live.step event).2
  match event with
  | .client message _ _ _ =>
    match live.phase with
    | .copying _ => log ++ (sentFrames outputs).map .copied
    | _ =>
      (if outputs.any isBorrowed then [] else log) ++
        (framesSent (live.told message) outputs).map .sent
  | .server (.readyForQuery _) _ =>
    match live.phase with
    | .pumping _ => log ++ [.ready]
    | _ => log
  | _ => log

namespace Logged

def start (mode : PoolMode) (statementTimeout : Option Nat) (settings : List (Text × Text)) :
    Logged where
  live := .start mode statementTimeout settings
  log := []

def step (state : Logged) (event : LoopEvent) : Logged where
  live := (state.live.step event).1
  log := state.live.logged state.log event

/-- The server answers what it was asked. -/
def Allowed (state : Logged) : LoopEvent → Prop
  | .server (.readyForQuery _) _ => readied state.log < asked state.log
  | _ => True

abbrev Reached (mode : PoolMode) (statementTimeout : Option Nat)
    (settings : List (Text × Text)) (state : Logged) : Prop :=
  Run.Reachable (start mode statementTimeout settings) Allowed step state

end Logged

/-! ### Questions and answers -/

@[simp] theorem asked_append (one two : List Traffic) :
    asked (one ++ two) = asked one + asked two :=
  countP_append

@[simp] theorem readied_append (one two : List Traffic) :
    readied (one ++ two) = readied one + readied two :=
  countP_append

@[simp] theorem readied_sent (frames : List FrontendMessage) :
    readied (frames.map .sent) = 0 := by
  induction frames with
  | nil => rfl
  | cons frame later ih => exact ih

theorem asked_sent_of_extended {frames : List FrontendMessage}
    (extended : ∀ frame ∈ frames, frame.startsExtendedSequence = true) :
    asked (frames.map .sent) = 0 := by
  unfold asked
  rw [countP_eq_zero]
  intro traffic listed
  obtain ⟨frame, member, rfl⟩ := mem_map.mp listed
  simp [Traffic.asks, asksReady_of_extended (extended frame member)]

/-- The last frame that asks, and nothing of an extended-query sequence behind it. -/
def EndsAsked (log : List Traffic) : Prop :=
  ∃ earlier last later, log = earlier ++ .sent last :: later ∧ asksReady last = true ∧
    ∀ frame, .sent frame ∈ later → frame.startsExtendedSequence = false

variable {log : List Traffic}

theorem answered_of_endsAsked (ends : EndsAsked log) (even : asked log ≤ readied log + 1) :
    Answered asksReady (log ++ [.ready]) := by
  obtain ⟨earlier, last, later, rfl, asks, quiet⟩ := ends
  intro before frame after shape extended
  have different : frame ≠ last := by
    rintro rfl
    rw [asksReady_of_extended extended] at asks
    cases asks
  -- The frame stands before the last one that asks: behind it there is none of its kind.
  rw [append_assoc, cons_append] at shape
  rcases append_eq_append_iff.mp shape with ⟨past, rfl, rest⟩ | ⟨between, rfl, rest⟩
  · exfalso
    cases past with
    | nil => exact different (Traffic.sent.inj (List.cons.inj rest).1).symm
    | cons first more =>
      have listed : Traffic.sent frame ∈ later ++ [.ready] := by
        rw [(List.cons.inj rest).2]
        exact mem_append_right _ mem_cons_self
      rcases mem_append.mp listed with inside | marker
      · rw [quiet frame inside] at extended
        cases extended
      · cases mem_singleton.mp marker
  · cases between with
    | nil => exact absurd (Traffic.sent.inj (List.cons.inj rest).1) different
    | cons first between =>
      cases rest
      refine ⟨between, last, later ++ [.ready], rfl, asks, ?_⟩
      rw [readied_append, show readied [.ready] = 1 from rfl]
      refine Nat.le_trans ?_ even
      rw [append_cons _ (.sent last) later, asked_append _ later]
      exact Nat.le_add_right _ _

def Balance (phase : Phase) (log : List Traffic) : Prop :=
  phase = .closed ∨ asked log = readied log ∨
    (phase = .pumping false ∨ phase = .copying false) ∧
      asked log = readied log + 1 ∧ EndsAsked log

theorem Taken.balance {phase : Phase} {pumping : Pumping} {message : FrontendMessage}
    {next : Live} {frames : List FrontendMessage}
    (taken : Taken phase pumping message next frames) (even : asked log = readied log) :
    Balance next.phase (log ++ frames.map .sent) := by
  cases taken with
  | answered stays same =>
    refine .inr (.inl ?_)
    rw [map_nil, append_nil]
    exact even
  | forwarded own renames owed goes =>
    rename_i injected onward
    have asks := renames.asksReady
    have last : asked ([onward].map .sent) = if asksReady message then 1 else 0 := by
      rw [← asks]
      exact countP_singleton
    have quiet := asked_sent_of_extended own.extended
    rw [map_append, ← append_assoc]
    cases asking : asksReady message with
    | false =>
      rw [asking] at last
      refine .inr (.inl ?_)
      rw [asked_append, asked_append, readied_append, readied_append, readied_sent,
        readied_sent, quiet, last, even]
      rfl
    | true =>
      rw [asking] at last
      refine .inr (.inr ⟨.inl ?_, ?_, ?_⟩)
      · rw [goes]
        cases message with
        | query | functionCall | sync => rfl
        | _ => cases asking
      · rw [asked_append, asked_append, readied_append, readied_append, readied_sent,
          readied_sent, quiet, last, even]
        rfl
      · exact ⟨_, onward, [], rfl, asks.trans asking, nofun⟩

theorem EndsAsked.copied (ends : EndsAsked log) (frame : FrontendMessage) :
    EndsAsked (log ++ [.copied frame]) := by
  obtain ⟨earlier, last, later, rfl, asks, quiet⟩ := ends
  refine ⟨earlier, last, later ++ [.copied frame], by simp, asks, ?_⟩
  intro behind listed
  rcases mem_append.mp listed with inside | final
  · exact quiet behind inside
  · cases mem_singleton.mp final

namespace Logged

/-! ### Along a run -/

structure Balanced (state : Logged) : Prop where
  holding : state.live.Holding
  balance : Balance state.live.phase state.log

variable {state : Logged}

theorem Balanced.even (balanced : state.Balanced) (reading : state.live.phase = .reading) :
    asked state.log = readied state.log := by
  rcases balanced.balance with closed | even | ⟨open_, -⟩
  · rw [reading] at closed
    cases closed
  · exact even
  · rw [reading] at open_
    rcases open_ with pumping | copying
    · cases pumping
    · cases copying

theorem Balanced.client (balanced : state.Balanced) (message : FrontendMessage)
    (replicas : Replicas) (now : Nat) (lent : Option Upstreamed) :
    (state.step (.client message replicas now lent)).Balanced := by
  refine ⟨balanced.holding.step _, ?_⟩
  unfold step Live.logged Live.step
  dsimp only
  cases phase : state.live.phase with
  | reading =>
    dsimp only
    rcases takeFrame_taken state.live message replicas now lent with closed | taken
    · exact .inl closed
    · apply taken.balance
      split
      · rfl
      · exact balanced.even phase
  | copying flushing =>
    dsimp only
    unfold Live.takeCopyFrame
    cases current : state.live.upstream with
    | none => exact .inl rfl
    | some upstream =>
      change Balance (if message = .copyData then .copying flushing else .pumping flushing)
        (state.log ++ [.copied message])
      have one : asked [.copied message] = 0 := rfl
      have none_ : readied [.copied message] = 0 := rfl
      rcases balanced.balance with closed | even | ⟨open_, odd, ends⟩
      · rw [phase] at closed
        cases closed
      · refine .inr (.inl ?_)
        rw [asked_append, readied_append, one, none_, even]
      · refine .inr (.inr ⟨?_, ?_, ?_⟩)
        · rw [phase] at open_
          rcases open_ with pumping | copying
          · cases pumping
          · cases copying
            split
            · exact .inr rfl
            · exact .inl rfl
        · rw [asked_append, readied_append, one, none_, odd]
        · exact ends.copied message
  | pumping flushing =>
    change Balance state.live.phase (state.log ++ [])
    rw [append_nil]
    exact balanced.balance
  | closed => exact .inl phase

theorem logged_of_not_pumping {live : Live} {log : List Traffic} {message : BackendMessage}
    {position : Option Nat} (elsewhere : ∀ flushing, live.phase ≠ .pumping flushing) :
    live.logged log (.server message position) = log := by
  cases message with
  | readyForQuery status =>
    unfold Live.logged
    dsimp only
    split
    · rename_i flushing pumping
      exact absurd pumping (elsewhere flushing)
    · rfl
  | _ => rfl

theorem Balanced.server (balanced : state.Balanced) (message : BackendMessage)
    (position : Option Nat) (allowed : state.Allowed (.server message position)) :
    (state.step (.server message position)).Balanced := by
  refine ⟨balanced.holding.step _, ?_⟩
  unfold step Live.step
  dsimp only
  cases phase : state.live.phase with
  | pumping flushing =>
    dsimp only
    by_cases ready : ∃ status, message = .readyForQuery status
    · obtain ⟨status, rfl⟩ := ready
      have due : readied state.log < asked state.log := allowed
      have logged : state.live.logged state.log (.server (.readyForQuery status) position) =
          state.log ++ [.ready] := by
        simp [Live.logged, phase]
      rw [logged]
      refine .inr (.inl ?_)
      rw [asked_append, readied_append]
      change asked state.log + 0 = readied state.log + 1
      rcases balanced.balance with closed | even | ⟨-, odd, -⟩
      · rw [phase] at closed
        cases closed
      · omega
      · exact odd
    · have logged : state.live.logged state.log (.server message position) = state.log := by
        cases message with
        | readyForQuery status => exact absurd ⟨status, rfl⟩ ready
        | _ => rfl
      rw [logged]
      have balance := balanced.balance
      rw [phase] at balance
      rcases takeAnswer_phase state.live flushing message position with
        closed | same | copying | ⟨reading, why⟩
      · exact .inl closed
      · rw [same, phase]
        exact balance
      · rw [copying]
        rcases balance with closed | even | ⟨open_, odd, ends⟩
        · cases closed
        · exact .inr (.inl even)
        · obtain rfl : flushing = false := by simpa using open_
          exact .inr (.inr ⟨.inr rfl, odd, ends⟩)
      · obtain rfl := why.resolve_right ready
        rcases balance with closed | even | ⟨open_, -⟩
        · cases closed
        · exact .inr (.inl even)
        · simp at open_
  | reading | copying | closed =>
    rw [logged_of_not_pumping (by rw [phase]; exact nofun)]
    exact balanced.balance

theorem Balanced.step (balanced : state.Balanced) {event : LoopEvent}
    (allowed : state.Allowed event) : (state.step event).Balanced := by
  cases event with
  | client message replicas now lent => exact balanced.client message replicas now lent
  | server message position => exact balanced.server message position allowed
  | lost => exact ⟨balanced.holding.step _, .inl rfl⟩

theorem Reached.balanced {mode : PoolMode} {statementTimeout : Option Nat}
    {settings : List (Text × Text)} (reached : Reached mode statementTimeout settings state) :
    state.Balanced := by
  apply reached.invariant
  · exact ⟨Live.holding_start mode statementTimeout settings, .inr (.inl rfl)⟩
  · intro before event balanced allowed
    exact balanced.step allowed

end Logged

theorem Live.release_relay (live : Live) (position : Option Nat) :
    (live.release position).1.relay.pin = live.relay.pin ∧
      (live.release position).1.relay.session = live.relay.session := by
  unfold Live.release
  cases live.upstream with
  | none => exact ⟨rfl, rfl⟩
  | some upstream =>
    dsimp only
    split
    · split
      · exact ⟨rfl, rfl⟩
      · exact ⟨rfl, rfl⟩
    · exact ⟨rfl, rfl⟩

theorem Live.returned_of_step {live : Live} {event : LoopEvent} {id : Nat}
    (returned : .returned id ∈ (live.step event).2) :
    ∃ flushing position, live.phase = .pumping flushing ∧
      event = .server (.readyForQuery .idle) position ∧
      (live.step event).1.relay.pin.isPinned = false ∧
      (live.step event).1.relay.session.copy = none := by
  cases event with
  | client message replicas now lent =>
    exact absurd returned (live.step_client_not_returned message replicas now lent id)
  | lost => cases returned
  | server message position =>
    cases phase : live.phase with
    | reading | copying | closed => simp [Live.step, phase] at returned
    | pumping flushing =>
      refine ⟨flushing, position, rfl, ?_⟩
      simp only [Live.step, phase] at returned ⊢
      rcases live.takeAnswer_cases flushing message position with
        ⟨pumping, next, outputs, took, only, -⟩ | ⟨status, pumping, rfl, released, took⟩
      · rw [took] at returned
        cases only _ returned
      · have idle := Relay.idle_of_release released
        rw [Relay.onServer_session] at idle
        obtain rfl : status = .idle := idle
        rw [took]
        obtain ⟨pin, session⟩ := Live.release_relay _ position
        refine ⟨rfl, ?_, ?_⟩
        · rw [pin]
          unfold Relay.onServer at released
          simp only [Bool.and_eq_true, Bool.not_eq_true'] at released
          exact released.2
        · rw [session]
          simp [SessionState.onBackend]

def afterEvents (events : List LoopEvent) : Logged :=
  events.foldl Logged.step (.start .transaction none [])

def afterParse (last : FrontendMessage) : Logged :=
  afterEvents [.client (.parse [] "SELECT 1".toList) noReplica 0 (some (connection 1)),
    .client last noReplica 0 none]

theorem afterParse_reached (last : FrontendMessage) :
    Logged.Reached .transaction none [] (afterParse last) :=
  .step (.step .start trivial) trivial

def copyQuery : FrontendMessage :=
  .query "COPY t FROM STDIN".toList

def parseInCopy : Logged :=
  afterEvents [.client copyQuery noReplica 0 (some (connection 1)), .server .copyInResponse none,
    .client (.parse [] "SELECT 1".toList) noReplica 0 none, .server (.errorResponse []) none]

def readyIdle : LoopEvent :=
  .server (.readyForQuery .idle) none

def queried (text : String) : FrontendMessage :=
  .query text.toList

def rollbackInCopy : Logged :=
  afterEvents [.client (queried "BEGIN") noReplica 0 (some (connection 1)),
    .server (.readyForQuery .inTransaction) none, .client copyQuery noReplica 0 none,
    .server .copyInResponse none, .client (queried "ROLLBACK") noReplica 0 none,
    .server (.errorResponse []) none, .server (.readyForQuery .failed) none,
    .client (.parse [] "SELECT 1".toList) noReplica 0 none, .client .sync noReplica 0 none]

theorem not_answered_after_function_call :
    ¬ Answered endsSequence ((afterParse .functionCall).step readyIdle).log := by
  intro answered
  have log : ((afterParse .functionCall).step readyIdle).log =
      [.sent (.parse [] "SELECT 1".toList), .sent .functionCall, .ready] := by
    decide +kernel
  obtain ⟨between, last, later, shape, ends, -⟩ := answered [] _ _ log rfl
  have listed : Traffic.sent last ∈ [.sent .functionCall, .ready] := by
    rw [shape]
    exact mem_append_right _ mem_cons_self
  rcases mem_cons.mp listed with same | marker
  · rw [Traffic.sent.inj same] at ends
    cases ends
  · cases mem_singleton.mp marker

end Pgprox.Serve
