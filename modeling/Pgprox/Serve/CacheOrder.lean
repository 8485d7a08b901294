/-
The order of requests with the result cache on.

No frame is lost, repeated or overtaken, along every run in which the proxy answers no
`Query` of its own in the middle of a sequence and a sequence stays on one connection.
-/

import Pgprox.Serve.CacheTurn

namespace Pgprox.Serve

open Sql Proto Pools Route Session Cache Topologies
open List hiding lex

namespace Ordered

section Steps

variable {context : CacheContext} {state : Ordered}

section

variable (sound : state.Sound)
include sound

theorem Sound.answering {flushing : Bool} (phase : state.caching.live.phase = .pumping flushing ∨
      state.caching.live.phase = .copying flushing) : state.caching.waiting = [] := by
  by_contra some
  obtain ⟨-, -, reading | closed⟩ := sound.free some
  · rw [reading] at phase
    rcases phase with same | same <;> cases same
  · rw [closed] at phase
    rcases phase with same | same <;> cases same

theorem Sound.onward (none : state.caching.waiting = []) {next : Live}
    {pending : List (Nat × Nat)} (holding : next.Holding)
    (open_ : next.phase ≠ .closed → state.caching.live.phase ≠ .closed)
    (supported : next.phase ≠ .closed → ∀ sent ∈ pending,
      next.upstream.map Upstreamed.id = some sent.1)
    (opened : Lasts next.phase → pending ≠ [] → inSequence state.frames = true) :
    Sound { state with
      caching := { state.caching with live := next }
      pending } :=
  { sound with
    holding
    ordered := fun here => sound.ordered (open_ here)
    fit := by
      rw [none]
      exact nofun
    free := fun some => absurd none some
    supported
    opened := fun lasts some => opened lasts (some.resolve_right fun held => held none) }

theorem Sound.closed :
    Sound { state with
      caching := { state.caching with
        live := { state.caching.live with phase := .closed } } } :=
  { sound with
    holding := sound.holding.close
    ordered := fun here => absurd rfl here
    free := fun some => ⟨(sound.free some).1, (sound.free some).2.1, .inr rfl⟩
    supported := fun here => absurd rfl here
    opened := fun lasts => absurd lasts not_lasts_closed }

theorem Sound.copied {flushing : Bool}
    (copying : state.caching.live.phase = .copying flushing) {incoming : Incoming}
    (plain : asksReady incoming.message = false) :
    (state.copied incoming
      (state.caching.live.takeCopyFrame flushing incoming.message)).Sound := by
  have none := sound.answering (.inr copying)
  have aligned := sound.aligned
  have bytes := sound.bytes
  rw [none] at aligned
  have places := length_eq_zero_iff.mp aligned
  rw [places, map_nil, eq_comm, map_eq_nil_iff] at bytes
  have same (next : Live × List Output) : state.copied incoming next =
      state.heard incoming (⟨next.1, state.caching.held, []⟩,
        [.passed incoming.message next.2]) := by
    unfold Ordered.copied heard
    dsimp only
    rw [places, none, nil_append, handle, handle_nil, append_nil]
    exact congrArg (fun withheld => Ordered.mk _ _ [] withheld _ _)
      (append_nil state.withheld).symm
  have handled (outputs : List Output) : handle (state.places ++ [state.frames.length])
      [.passed incoming.message outputs] =
        (fateOf outputs).toList.map (⟨state.frames.length, ·⟩) := by
    rw [places, nil_append, handle, handle_nil, append_nil]
  have kept := sound.holding.takeCopyFrame flushing incoming.message
  rw [same]
  unfold Live.takeCopyFrame at kept ⊢
  split at kept
  · refine sound.after (running_of_copying copying) (handled _) rfl rfl bytes kept
      nil_prefix (fun here => absurd rfl here)
      (fun _ listed => absurd listed not_mem_nil) (fun here => absurd rfl here) ?_
    exact fun lasts => absurd lasts not_lasts_closed
  · rename_i upstream current
    have sentOf_one : sentOf [⟨state.frames.length, .sent upstream.id incoming.message⟩] =
        if owesAnswer incoming.message then [(upstream.id, state.frames.length)] else [] := by
      unfold sentOf
      cases owes : owesAnswer incoming.message <;> simp [owes]
    have numbers : [(⟨state.frames.length, .sent upstream.id incoming.message⟩ : Handling)].map
        Handling.number = state.places ++ [state.frames.length] := by
      rw [places]
      rfl
    refine sound.after (running_of_copying copying) (handled _) rfl rfl bytes kept
      ⟨[], (append_nil _).trans numbers⟩ (fun _ => numbers) ?_ ?_ ?_
    · intro handling listed there
      obtain rfl := mem_singleton.mp listed
      exact absurd there sound.not_withheld
    · intro _ sent listed
      change sent ∈ state.pending ++ sentOf [⟨_, .sent upstream.id incoming.message⟩] at listed
      rw [sentOf_one] at listed
      rcases mem_append.mp listed with earlier | just
      · exact sound.supported (running_of_copying copying) sent earlier
      · split at just
        · rw [mem_singleton.mp just]
          rw [current]
          rfl
        · cases just
    · intro lasts some
      change state.pending ++ sentOf [⟨_, .sent upstream.id incoming.message⟩] ≠ [] at some
      rw [sentOf_one, owesAnswer, plain] at some
      rw [inSequence_append, if_neg (by rw [plain]; exact Bool.false_ne_true)]
      cases extended : incoming.message.startsExtendedSequence with
      | true => exact Bool.or_true _
      | false =>
        rw [extended, Bool.or_false, if_neg Bool.false_ne_true, append_nil] at some
        rw [sound.opened ?_ (.inl some)]
        · rfl
        · rw [copying]
          split at lasts
          · exact lasts
          · rcases lasts with same | same | same
            · cases same
            · exact .inr (.inr (congrArg Phase.copying (Phase.pumping.inj same)))
            · cases same

theorem Sound.readied {flushing : Bool}
    (pumping : state.caching.live.phase = .pumping flushing) (status : TxStatus)
    (position : Option Nat) :
    (state.readied
      (state.caching.live.takeAnswer flushing (.readyForQuery status) position).1).Sound := by
  have present : state.caching.live.upstream.isSome :=
    sound.holding.answering (by rw [pumping]; exact nofun) (by rw [pumping]; exact nofun)
  have idle : state.pending.filter (fun sent =>
      state.caching.live.upstream.map Upstreamed.id ≠ some sent.1) = [] := by
    rw [filter_eq_nil_iff]
    intro sent listed
    simpa using sound.supported (by rw [pumping]; exact nofun) sent listed
  refine sound.onward (sound.answering (.inl pumping))
    (sound.holding.takeAnswer present flushing _ position) ?_ ?_ ?_
  · rw [pumping]
    exact fun _ => nofun
  · rw [idle]
    exact fun _ => nofun
  · rw [idle]
    exact fun _ some => absurd rfl some

end

theorem takeAnswer_upstream (live : Live) (flushing : Bool) {message : BackendMessage}
    (plain : ∀ status, message ≠ .readyForQuery status) (position : Option Nat) :
    (live.takeAnswer flushing message position).1.upstream = live.upstream := by
  rcases live.takeAnswer_cases flushing message position with
    ⟨pumping, phase, outputs, took, -⟩ | ⟨status, pumping, ready, -⟩
  · rw [took]
  · exact absurd ready (plain status)

section

variable (sound : state.Sound)
include sound

theorem Sound.plainAnswer {flushing : Bool}
    (pumping : state.caching.live.phase = .pumping flushing) {message : BackendMessage}
    (plain : ∀ status, message ≠ .readyForQuery status) (position : Option Nat) :
    Sound { state with
      caching := { state.caching with
        live := (state.caching.live.takeAnswer flushing message position).1 } } := by
  have present : state.caching.live.upstream.isSome :=
    sound.holding.answering (by rw [pumping]; exact nofun) (by rw [pumping]; exact nofun)
  refine sound.onward (sound.answering (.inl pumping))
    (sound.holding.takeAnswer present flushing message position) ?_ ?_ ?_
  · rw [pumping]
    exact fun _ => nofun
  · intro _
    rw [takeAnswer_upstream _ _ plain]
    exact sound.supported (by rw [pumping]; exact nofun)
  · intro lasts some
    refine sound.opened ?_ (.inl some)
    rw [pumping]
    rcases takeAnswer_phase state.caching.live flushing message position with
      closed | same | copying | ⟨-, why⟩
    · rw [closed] at lasts
      exact absurd lasts not_lasts_closed
    · rwa [same, pumping] at lasts
    · rw [copying] at lasts
      rcases lasts with same | same | same
      · cases same
      · cases same
      · exact .inr (.inl (congrArg Phase.pumping (Phase.copying.inj same)))
    · obtain rfl := why.resolve_right fun ⟨status, ready⟩ => plain status ready
      exact .inr (.inl rfl)

theorem Sound.client (incoming : Incoming) (replicas : Replicas)
    (now : Nat) (lend : Nat → Option Upstreamed) (stored : CacheKey → Option (List UInt8))
    (allowed : state.Allowed context (.client incoming replicas now lend stored)) :
    (state.step context (.client incoming replicas now lend stored)).Sound ∧
      ∀ messages answer, .served messages answer ∈ (state.caching.step context
          (.client incoming replicas now lend stored)).2 →
        state.pending = [] ∧ state.handled.map Handling.number =
          List.range (state.frames.length + 1 - messages.length) := by
  unfold Allowed at allowed
  unfold Ordered.step Caching.step
  cases phase : state.caching.live.phase with
  | reading =>
    rw [phase] at allowed
    obtain ⟨queries, keeps, fresh⟩ := allowed
    exact sound.took phase queries keeps fresh
      (Caching.takeFrame_took context state.caching incoming replicas now lend stored)
  | copying flushing =>
    rw [phase] at allowed
    refine ⟨sound.copied phase allowed, fun messages answer listed => ?_⟩
    cases mem_singleton.mp listed
  | pumping | closed =>
    refine ⟨?_, fun messages answer listed => ?_⟩
    · unfold Caching.inLoop Live.step
      rw [phase]
      exact sound
    · cases mem_singleton.mp listed

theorem Sound.server (message : BackendMessage) (position : Option Nat) :
    (state.step context (.server message position)).Sound := by
  by_cases pumped : ∃ flushing, state.caching.live.phase = .pumping flushing
  · obtain ⟨flushing, phase⟩ := pumped
    cases message with
    | readyForQuery status =>
      unfold Ordered.step
      rw [phase]
      exact sound.readied phase status position
    | _ =>
      change Sound { state with
        caching := { state.caching with
          live := (state.caching.live.step (.server _ position)).1 } }
      rw [Live.step_server phase]
      exact sound.plainAnswer phase (fun status ready => by cases ready) position
  · have elsewhere (flushing : Bool) : state.caching.live.phase ≠ .pumping flushing :=
      fun phase => pumped ⟨flushing, phase⟩
    have same : state.step context (.server message position) = { state with
        caching := { state.caching with
          live := (state.caching.live.step (.server message position)).1 } } := by
      cases message with
      | readyForQuery status =>
        unfold Ordered.step
        cases phase : state.caching.live.phase with
        | pumping flushing => exact absurd phase (elsewhere flushing)
        | _ => rfl
      | _ => rfl
    rw [same, Live.step_server_elsewhere elsewhere]
    exact sound

theorem Sound.step {event : CachedEvent} (allowed : state.Allowed context event) :
    (state.step context event).Sound ∧
      ∀ messages answer, .served messages answer ∈ (state.caching.step context event).2 →
        state.pending = [] ∧ state.handled.map Handling.number =
          List.range (state.frames.length + 1 - messages.length) := by
  cases event with
  | client incoming replicas now lend stored =>
    exact sound.client incoming replicas now lend stored allowed
  | server message position =>
    refine ⟨sound.server message position, fun messages answer listed => ?_⟩
    cases mem_singleton.mp listed
  | lost =>
    refine ⟨sound.closed, fun messages answer listed => ?_⟩
    cases mem_singleton.mp listed

/-- With a connection whenever one is asked for, no frame but a `Terminate` or one that
cannot be decoded ends the session. -/
theorem Sound.stays_open (reading : state.caching.live.phase = .reading)
    {incoming : Incoming} {replicas : Replicas} {now : Nat} {lend : Nat → Option Upstreamed}
    {stored : CacheKey → Option (List UInt8)}
    (allowed : state.Allowed context (.client incoming replicas now lend stored))
    (lends : ∀ index, (lend index).isSome = true)
    (decodes : (observe state.caching.live.session incoming.message).isSome = true)
    (stays : incoming.message ≠ .terminate) :
    (state.caching.step context (.client incoming replicas now lend stored)).1.live.phase ≠
      .closed := by
  have shape : state.caching.step context (.client incoming replicas now lend stored) =
      state.caching.takeFrame context incoming replicas now lend stored := by
    unfold Caching.step
    rw [reading]
  unfold Allowed at allowed
  rw [reading] at allowed
  obtain ⟨-, keeps, fresh⟩ := allowed
  have lent (index : Nat) : lend index ≠ none := Option.isSome_iff_ne_none.mp (lends index)
  have took := Caching.takeFrame_took context state.caching incoming replicas now lend stored
  rw [shape]
  generalize state.caching.takeFrame context incoming replicas now lend stored = result at took
  cases took with
  | refused unknown =>
    rw [unknown] at decodes
    cases decodes
  | hit | withheld | completed =>
    rw [reading]
    exact nofun
  | @forwarded memory onward observed given =>
    unfold Caching.forward
    rcases @Sound.clear state replicas now lend sound reading memory incoming.message
        (fun frame => maps_observe observed) keeps fresh with ⟨-, none, -⟩ | ⟨done, busy, clear⟩
    · exact absurd none (lent 0)
    · rw [if_neg (by rw [clear.phase]; exact nofun)]
      obtain ⟨-, passed⟩ := @passOn_passed _ clear.holding incoming.message onward replicas now
        (lend state.caching.waiting.length) busy clear.keeps
      generalize fateOf _ = fate at passed
      cases passed with
      | closed phase why =>
        rcases why with ends | missing
        · exact absurd ends stays
        · exact absurd missing (lent _)
      | routed phase =>
        rw [phase, clear.phase]
        exact nofun
      | sent goes kept phase =>
        rw [phase, clear.phase]
        unfold phaseAfter
        split
        · exact nofun
        · split <;> exact nofun
      | prepared parses phase =>
        rw [phase, clear.phase]
        exact nofun

end

end Steps

/-- Frames are held back only while the session has no connection and the server owes it
nothing. -/
theorem held_without_connection {context : CacheContext} {mode : PoolMode}
    {statementTimeout : Option Nat} {settings : List (Text × Text)} {state : Ordered}
    (reached : Reached context mode statementTimeout settings state)
    (waits : state.caching.waiting ≠ []) :
    state.caching.live.upstream = none ∧ state.pending = [] := by
  have sound : state.Sound := by
    apply reached.invariant
    · exact sound_start mode statementTimeout settings
    · exact fun _ _ sound allowed => (sound.step allowed).1
  obtain ⟨free, idle, -⟩ := sound.free waits
  rw [sound.holding.held] at free
  exact ⟨Option.map_eq_none_iff.mp free, idle⟩

/-! ### A sequence given up, and a `Query` that overtakes one -/

def along (events : List CachedEvent) : Ordered :=
  events.foldl (step acme) (start .transaction none [])

def storedAnswer : CacheKey → Option (List UInt8) :=
  fun _ => some [0x54, 0, 0, 0, 6, 0, 0, 0x43, 0, 0, 0, 5, 0]

def askedOf (message : FrontendMessage) (tag : UInt8) : CachedEvent :=
  .client ⟨message, ⟨tag, []⟩⟩ noReplica 0 (fun _ => some (connection 1)) storedAnswer

def executeSends : CachedEvent :=
  clientSends (.execute [] 0) Tag.execute [0, 0, 0, 0, 0]

/-- A frame that is no `Query` and keeps to the connection, which has none of the statements
held. -/
def admits (state : Ordered) : CachedEvent → Bool
  | .client incoming replicas now lend _ =>
    state.caching.live.phase = .reading && (match incoming.message with
      | .query _ => false
      | _ => true) &&
    keepsConnection replicas now (!state.pending.isEmpty) state.caching.live.relay
      (state.caching.waiting ++ [incoming.message]) &&
    (lend 0).all fun taken => state.caching.waiting.all fun message => match message with
      | .parse _ sql => !taken.record.holds (GlobalName.forSql sql)
      | _ => true
  | _ => true

theorem allowed_of_admits (state : Ordered) (event : CachedEvent)
    (admitted : state.admits event = true) : state.Allowed acme event := by
  cases event with
  | client incoming replicas now lend stored =>
    simp only [admits, Bool.and_eq_true, decide_eq_true_eq] at admitted
    obtain ⟨⟨⟨reading, other⟩, keeps⟩, free⟩ := admitted
    unfold Allowed
    rw [reading]
    refine ⟨fun sql query => ?_, keeps, fun name sql listed _ taken lent => ?_⟩
    · rw [query] at other
      cases other
    · rw [lent] at free
      simpa using all_eq_true.mp free _ listed
  | server | lost => trivial

/-- Both sequences are let in frame by frame, and the `Sync` that ends the second is answered
out of the cache with the three frames held before it. -/
theorem sequences_admitted :
    let admitted := Run.Permitted (fun state event => admits state event = true) (step acme)
      (start .transaction none [])
    let executed := along [parseSends "SELECT 1", bindSends, executeSends]
    (admitted [parseSends "SELECT 1"] ∧
        (along [parseSends "SELECT 1"]).caching.waiting ≠ []) ∧
      admitted [parseSends "SELECT 1", syncSends] ∧
      admitted [parseSends "SELECT 1", bindSends, executeSends] ∧
      executed.admits (askedOf .sync Tag.sync) = true ∧
      (executed.caching.step acme (askedOf .sync Tag.sync)).2.any (fun deed => match deed with
        | .served messages _ => messages.length = 4
        | _ => false) = true := by
  decide +kernel

theorem reached_along {events : List CachedEvent}
    (admitted : Run.Permitted (fun state event => admits state event = true) (step acme)
      (start .transaction none []) events) :
    Reached acme .transaction none [] (along events) :=
  (Run.Reachable.start.foldl admitted).mono allowed_of_admits

theorem held_without_connection_parse :
    (along [parseSends "SELECT 1"]).caching.live.upstream = none :=
  (held_without_connection (reached_along sequences_admitted.1.1) sequences_admitted.1.2).1

end Ordered

end Pgprox.Serve
