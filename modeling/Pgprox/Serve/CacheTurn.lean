/-
One frame of the client's, with the result cache on.

What stands beside the loop stays in step with it when a frame is held, answered out of the
cache, or sent on behind the frames that were held.
-/

import Pgprox.Serve.HeldFrames

namespace Pgprox.Serve

open Sql Proto Pools Route Session Cache Topologies
open List hiding lex

namespace Ordered

/-! ### Along a run -/

/-- The phases that are left for `reading` without a `ReadyForQuery`. -/
def Lasts (phase : Phase) : Prop :=
  phase = .reading ∨ phase = .pumping true ∨ phase = .copying true

structure Sound (state : Ordered) : Prop where
  holding : state.caching.live.Holding
  aligned : state.places.length = state.caching.waiting.length
  lines : ∀ pair ∈ state.places.zip state.caching.waiting,
    ∃ incoming, state.frames[pair.1]? = some incoming ∧ incoming.message = pair.2
  /-- What is held are the client's own bytes. -/
  bytes : state.places.map (fun number => (state.frames[number]?).map Incoming.frame) =
    state.caching.held.frames.map some
  placed : ∀ number ∈ state.places, number < state.frames.length
  ordered : state.caching.live.phase ≠ .closed →
    state.handled.map Handling.number ++ state.places = List.range state.frames.length
  early : state.handled.map Handling.number <+: List.range state.frames.length
  fates : ∀ handling ∈ state.handled, handling.number ∈ state.withheld →
    handling.fate = .cached ∨ ∃ incoming name connection,
      state.frames[handling.number]? = some incoming ∧
        handling.fate = .sent connection (renamed name incoming.message)
  numbered : ∀ number ∈ state.withheld, number < state.frames.length
  fit : ∀ message ∈ state.caching.waiting, Holdable message ∧
    Maps state.caching.live.session.statements message
  one : ∀ message ∈ state.caching.waiting.tail, isParse message = false
  free : state.caching.waiting ≠ [] → state.caching.live.relay.held = none ∧
    state.pending = [] ∧
      (state.caching.live.phase = .reading ∨ state.caching.live.phase = .closed)
  supported : state.caching.live.phase ≠ .closed → ∀ sent ∈ state.pending,
    state.caching.live.upstream.map Upstreamed.id = some sent.1
  opened : Lasts state.caching.live.phase → state.pending ≠ [] ∨ state.caching.waiting ≠ [] →
    inSequence state.frames = true

theorem sound_start (mode : PoolMode) (statementTimeout : Option Nat)
    (settings : List (Text × Text)) : (start mode statementTimeout settings).Sound where
  holding := Live.holding_start mode statementTimeout settings
  aligned := rfl
  lines := nofun
  bytes := rfl
  placed := nofun
  ordered := fun _ => rfl
  early := prefix_refl _
  fates := nofun
  numbered := nofun
  fit := nofun
  one := nofun
  free := fun some => absurd rfl some
  supported := fun _ => nofun
  opened := fun _ some => some.elim (absurd rfl) (absurd rfl)

theorem inSequence_append (frames : List Incoming) (incoming : Incoming) :
    inSequence (frames ++ [incoming]) = if asksReady incoming.message then false
      else inSequence frames || incoming.message.startsExtendedSequence := by
  unfold inSequence
  rw [foldl_append]
  rfl

theorem grown {frames : List Incoming} {number : Nat} {found : Incoming}
    (there : frames[number]? = some found) (incoming : Incoming) :
    (frames ++ [incoming])[number]? = some found := by
  rw [getElem?_append_left]
  · exact there
  · exact (List.getElem?_eq_some_iff.mp there).1

section Took

variable {context : CacheContext} {state : Ordered} {incoming : Incoming} {replicas : Replicas}
  {now : Nat} {lend : Nat → Option Upstreamed} {stored : CacheKey → Option (List UInt8)}

section

variable (sound : state.Sound)
include sound

theorem Sound.lines_grown (incoming : Incoming) :
    ∀ pair ∈ state.places.zip state.caching.waiting,
      ∃ found, (state.frames ++ [incoming])[pair.1]? = some found ∧ found.message = pair.2 := by
  intro pair listed
  obtain ⟨found, there, same⟩ := sound.lines pair listed
  exact ⟨found, grown there incoming, same⟩

theorem Sound.bytes_grown (incoming : Incoming) :
    state.places.map (fun number => ((state.frames ++ [incoming])[number]?).map Incoming.frame) =
      state.caching.held.frames.map some := by
  rw [← sound.bytes]
  refine map_congr_left fun number listed => ?_
  rw [getElem?_append_left (sound.placed number listed)]

theorem Sound.empty (none : state.caching.held.isEmpty = true) :
    state.caching.waiting = [] := by
  have bytes := sound.bytes
  rw [List.isEmpty_iff.mp none, map_nil, map_eq_nil_iff] at bytes
  have aligned := sound.aligned
  rw [bytes] at aligned
  exact length_eq_zero_iff.mp aligned.symm

theorem Sound.filled (some : state.caching.held.isEmpty = false) :
    state.caching.waiting ≠ [] := by
  intro none
  have aligned := sound.aligned
  rw [none] at aligned
  have bytes := sound.bytes
  rw [length_eq_zero_iff.mp aligned, map_nil, eq_comm, map_eq_nil_iff] at bytes
  rw [HeldSequence.isEmpty, bytes] at some
  cases some

theorem Sound.early_grown :
    state.handled.map Handling.number <+: List.range (state.frames.length + 1) := by
  rw [range_succ]
  exact sound.early.trans (prefix_append _ _)

end

def Settled (frames : List Incoming) (handling : Handling) : Prop :=
  handling.fate = .cached ∨ ∃ found name connection, frames[handling.number]? = some found ∧
    handling.fate = .sent connection (renamed name found.message)

section

variable (sound : state.Sound)
include sound

theorem Sound.fates_grown {incoming : Incoming} {done : List Handling}
    (now : ∀ handling ∈ done, handling.number ∈ state.withheld →
      Settled (state.frames ++ [incoming]) handling) :
    ∀ handling ∈ state.handled ++ done, handling.number ∈ state.withheld →
      Settled (state.frames ++ [incoming]) handling := by
  refine forall_mem_append.mpr ⟨fun handling listed held => ?_, now⟩
  rcases sound.fates handling listed held with cached | ⟨found, name, connection, there, fate⟩
  · exact .inl cached
  · exact .inr ⟨found, name, connection, grown there incoming, fate⟩

/-- The number of the frame just read is of no frame that was held. -/
theorem Sound.not_withheld : state.frames.length ∉ state.withheld :=
  fun held => Nat.lt_irrefl _ (sound.numbered _ held)

theorem Sound.numbered_grown :
    ∀ number ∈ state.withheld, number < state.frames.length + 1 :=
  fun number held => Nat.lt_succ_of_lt (sound.numbered number held)

theorem Sound.placed_grown :
    ∀ number ∈ state.places, number < state.frames.length + 1 :=
  fun number listed => Nat.lt_succ_of_lt (sound.placed number listed)

theorem Sound.places_take (number : Nat) :
    (state.places ++ [number]).take state.caching.waiting.length = state.places := by
  rw [← sound.aligned]
  exact take_left

theorem Sound.refused (reason : Refusal) :
    (state.heard incoming
      ({ state.caching with live := { state.caching.live with phase := .closed } },
        [.passed incoming.message [.refused reason]])).Sound := by
  have silent : handle (state.places ++ [state.frames.length])
      [.passed incoming.message [.refused reason]] = [] := by
    cases state.places <;> rfl
  unfold heard
  dsimp only
  rw [silent, sound.places_take, append_nil]
  exact
    { holding := sound.holding.close
      aligned := sound.aligned
      lines := sound.lines_grown incoming
      bytes := sound.bytes_grown incoming
      placed := length_append ▸ sound.placed_grown
      ordered := fun opened => absurd rfl opened
      early := length_append ▸ sound.early_grown
      fates := (append_nil state.withheld).symm ▸ (append_nil state.handled) ▸
        sound.fates_grown nofun
      numbered := (append_nil state.withheld).symm ▸ length_append ▸
        sound.numbered_grown
      fit := sound.fit
      one := sound.one
      free := fun some => ⟨(sound.free some).1, (append_nil state.pending).trans
        (sound.free some).2.1, .inr rfl⟩
      supported := fun opened => absurd rfl opened
      opened := fun lasts => by rcases lasts with same | same | same <;> cases same }

end

theorem maps_observe {session memory : SessionMemory} {message onward frame : FrontendMessage}
    (observed : observe session message = some (memory, onward))
    (maps : Maps session.statements frame) : Maps memory.statements frame := by
  obtain ⟨mapped, named, same⟩ := Option.map_eq_some_iff.mp observed
  obtain ⟨rfl, -⟩ := Prod.mk.inj same
  rw [mapStatementName_statements named]
  cases message with
  | parse name sql => exact maps.parse name sql
  | _ => exact maps

theorem maps_self {session memory : SessionMemory} {message onward : FrontendMessage}
    (observed : observe session message = some (memory, onward)) :
    Maps memory.statements message := by
  refine maps_observe observed ?_
  obtain ⟨mapped, named, -⟩ := Option.map_eq_some_iff.mp observed
  exact Option.isSome_iff_exists.mpr ⟨mapped, named⟩

theorem Sound.after (sound : state.Sound) (open_ : state.caching.live.phase ≠ .closed)
    {next : Caching} {deeds : List Deed} {done : List Handling}
    (handled : handle (state.places ++ [state.frames.length]) deeds = done)
    (quiet : deeds.any holds = false) (none : next.waiting = []) (cleared : next.held.frames = [])
    (holding : next.live.Holding)
    (numbers : done.map Handling.number <+: state.places ++ [state.frames.length])
    (all : next.live.phase ≠ .closed →
      done.map Handling.number = state.places ++ [state.frames.length])
    (fates : ∀ handling ∈ done, handling.number ∈ state.withheld →
      Settled (state.frames ++ [incoming]) handling)
    (supported : next.live.phase ≠ .closed → ∀ sent ∈ state.pending ++ sentOf done,
      next.live.upstream.map Upstreamed.id = some sent.1)
    (opened : Lasts next.live.phase → state.pending ++ sentOf done ≠ [] →
      inSequence (state.frames ++ [incoming]) = true) :
    (state.heard incoming (next, deeds)).Sound := by
  have ordered := sound.ordered open_
  have range : List.range (state.frames ++ [incoming]).length =
      state.handled.map Handling.number ++ (state.places ++ [state.frames.length]) := by
    rw [length_append, ← append_assoc, ordered]
    exact range_succ
  unfold heard
  dsimp only
  rw [handled, none, quiet, if_neg nofun, append_nil]
  constructor
  · exact holding
  · exact (congrArg List.length none).symm
  · exact nofun
  · exact (congrArg (List.map some) cleared).symm
  · exact nofun
  · intro here
    rw [range, map_append, all here]
    exact append_nil _
  · rw [range, map_append]
    exact (prefix_append_right_inj _).mpr numbers
  · exact sound.fates_grown fates
  · rw [length_append]
    exact sound.numbered_grown
  · rw [none]
    exact nofun
  · rw [none]
    exact nofun
  · exact fun some => absurd none some
  · exact supported
  · intro lasts some
    exact opened lasts (some.resolve_right fun held => held none)

theorem holding_memory {live : Live} (holding : live.Holding) (memory : SessionMemory) :
    { live with session := memory }.Holding :=
  ⟨holding.held, holding.inTransaction, holding.answering⟩

section

variable (sound : state.Sound) (reading : state.caching.live.phase = .reading)
include sound reading

theorem Sound.between (between : inSequence state.frames = false) :
    state.pending = [] ∧ state.caching.waiting = [] := by
  by_contra some
  have opened := sound.opened (.inl reading)
  rw [between] at opened
  refine Bool.false_ne_true (opened ?_)
  rwa [Classical.not_and_iff_not_or_not] at some

theorem Sound.served
    {memory : SessionMemory} {held : HeldSequence} {messages : List FrontendMessage}
    {frames : List Frame} (cleared : held.frames = []) (idle : state.pending = [])
    (whole : messages.length = state.places.length + 1) :
    (state.heard incoming
      (⟨{ state.caching.live with session := memory }, held, []⟩,
        [.served messages frames])).Sound := by
  have handled : handle (state.places ++ [state.frames.length]) [.served messages frames] =
      (state.places ++ [state.frames.length]).map (⟨·, .cached⟩) := by
    rw [handle, handle_nil, append_nil, whole, length_append, length_singleton,
      Nat.sub_self, drop_zero]
  have numbers : ((state.places ++ [state.frames.length]).map
      fun number => (⟨number, .cached⟩ : Handling)).map Handling.number =
        state.places ++ [state.frames.length] := by
    rw [map_map]
    exact map_id _
  have silent : sentOf ((state.places ++ [state.frames.length]).map
      fun number => (⟨number, .cached⟩ : Handling)) = [] := by
    unfold sentOf
    rw [filterMap_map, filterMap_eq_nil_iff]
    exact fun _ _ => rfl
  refine sound.after (running_of_reading reading) handled rfl rfl cleared
    (holding_memory sound.holding memory)
    ⟨[], (append_nil _).trans numbers⟩ (fun _ => numbers) ?_ ?_ ?_
  · intro handling listed _
    obtain ⟨number, -, rfl⟩ := mem_map.mp listed
    exact .inl rfl
  · rw [silent, idle]
    exact fun _ _ listed => absurd listed not_mem_nil
  · rw [silent, idle]
    exact fun _ some => absurd rfl some

theorem Sound.withheld {memory : SessionMemory} {onward : FrontendMessage} {held : HeldSequence}
    (observed : observe state.caching.live.session incoming.message = some (memory, onward))
    (fed : withhold context.serves context.grant state.caching.live.relay memory
      state.caching.held incoming = (held, .withheld)) :
    (state.heard incoming
      (⟨{ state.caching.live with session := memory }, held,
          state.caching.waiting ++ [incoming.message]⟩,
        [.withheld incoming.message])).Sound := by
  obtain ⟨fits, rfl⟩ := HeldSequence.feed_withheld fed
  have extended := HeldSequence.extended_of_mayHold fits
  have running := running_of_reading reading
  have begins (empty : state.caching.held.isEmpty = true) :=
    cacheable_of_mayBegin (HeldSequence.feed_begins fed empty)
  have free : state.caching.live.relay.held = none ∧ state.pending = [] := by
    by_cases empty : state.caching.held.isEmpty = true
    · have free := (begins empty).1
      refine ⟨free, eq_nil_iff_forall_not_mem.mpr fun sent listed => ?_⟩
      have there := sound.supported running sent listed
      have held := sound.holding.held
      rw [free] at held
      cases current : state.caching.live.upstream with
      | none =>
        rw [current] at there
        cases there
      | some upstream =>
        rw [current] at held
        cases held
    · have some := sound.filled (Bool.eq_false_iff.mpr empty)
      exact ⟨(sound.free some).1, (sound.free some).2.1⟩
  have starts (parses : isParse incoming.message = true) :
      state.caching.held.isEmpty = true := by
    cases message : incoming.message with
    | parse name sql =>
      rw [message] at fits
      simp only [HeldSequence.mayHold, Bool.and_eq_true] at fits
      exact fits.1.1
    | _ =>
      rw [message] at parses
      cases parses
  have holdable : Holdable incoming.message := by
    cases message : incoming.message with
    | parse name sql =>
      obtain ⟨-, read, carried, cacheable⟩ := begins (starts (by rw [message]; rfl))
      rw [message] at carried
      cases carried
      exact plain_of_readOnly (readOnly_of_cacheableNow cacheable)
    | describe target name =>
      rw [message] at fits
      cases target with
      | portal => trivial
      | statement => cases fits
    | bind | execute => trivial
    | _ =>
      rw [message] at fits
      cases fits
  have places : (state.places ++ [state.frames.length]).take
      (state.caching.waiting ++ [incoming.message]).length =
        state.places ++ [state.frames.length] := by
    rw [length_append, ← sound.aligned]
    exact take_of_length_le (Nat.le_of_eq length_append)
  have silent : handle (state.places ++ [state.frames.length])
      [.withheld incoming.message] = [] := by
    cases state.places <;> rfl
  have last : (state.frames ++ [incoming])[state.frames.length]? = some incoming := by
    rw [getElem?_append_right le_rfl, Nat.sub_self]
    rfl
  unfold heard
  dsimp only
  rw [places, silent, append_nil]
  constructor
  · exact holding_memory sound.holding memory
  · rw [length_append, length_append, sound.aligned]
    rfl
  · rw [zip_append sound.aligned]
    refine forall_mem_append.mpr ⟨sound.lines_grown incoming, ?_⟩
    exact forall_mem_singleton.mpr ⟨incoming, last, rfl⟩
  · rw [map_append, sound.bytes_grown incoming, map_append, map_singleton, last]
    rfl
  · rw [length_append]
    refine forall_mem_append.mpr ⟨sound.placed_grown, ?_⟩
    exact forall_mem_singleton.mpr (Nat.lt_succ_self _)
  · intro _
    rw [← append_assoc, sound.ordered running, length_append]
    exact range_succ.symm
  · rw [length_append]
    exact sound.early_grown
  · intro handling listed held
    refine @Sound.fates_grown state sound incoming [] (forall_mem_nil _) handling
      (mem_append_left _ listed) ?_
    refine (mem_append.mp held).resolve_right fun just => ?_
    have earlier := mem_range.mp (sound.early.subset (mem_map_of_mem listed))
    rw [mem_singleton.mp just] at earlier
    exact Nat.lt_irrefl _ earlier
  · rw [length_append]
    refine forall_mem_append.mpr ⟨sound.numbered_grown, ?_⟩
    exact forall_mem_singleton.mpr (Nat.lt_succ_self _)
  · refine forall_mem_append.mpr ⟨?_, ?_⟩
    · intro message listed
      exact ⟨(sound.fit message listed).1, maps_observe observed (sound.fit message listed).2⟩
    · exact forall_mem_singleton.mpr ⟨holdable, maps_self observed⟩
  · cases waits : state.caching.waiting with
    | nil => exact forall_mem_nil _
    | cons first later =>
      have one := sound.one
      rw [waits] at one
      refine forall_mem_append.mpr ⟨one, forall_mem_singleton.mpr ?_⟩
      rw [Bool.eq_false_iff]
      intro parses
      rw [sound.empty (starts parses)] at waits
      cases waits
  · intro _
    exact ⟨free.1, (append_nil state.pending).trans free.2, .inl reading⟩
  · rw [free.2]
    exact fun _ => forall_mem_nil _
  · intro _ _
    rw [inSequence_append, asksReady_of_extended extended, if_neg Bool.false_ne_true, extended,
      Bool.or_true]

end

structure Cleared (state : Ordered) (replicas : Replicas) (now : Nat)
    (message : FrontendMessage) (next : Live) (deeds : List Deed) (done : List Handling)
    (busy : Bool) : Prop where
  phase : next.phase = .reading
  holding : next.Holding
  handled : ∀ more later,
    handle (state.places ++ more) (deeds ++ later) = done ++ handle more later
  numbers : done.map Handling.number = state.places
  fates : ∀ handling ∈ done, ∃ message name connection,
    (handling.number, message) ∈ state.places.zip state.caching.waiting ∧
      handling.fate = .sent connection (renamed name message)
  supported : ∀ sent ∈ state.pending ++ sentOf done,
    next.upstream.map Upstreamed.id = some sent.1
  waits : state.pending ++ sentOf done ≠ [] → busy = true
  keeps : keepsConnection replicas now busy next.relay [message] = true

theorem Sound.clear (sound : state.Sound) (reading : state.caching.live.phase = .reading)
    {memory : SessionMemory} {message : FrontendMessage}
    (maps : ∀ frame, Maps state.caching.live.session.statements frame →
      Maps memory.statements frame)
    (keeps : keepsConnection replicas now (!state.pending.isEmpty) state.caching.live.relay
      (state.caching.waiting ++ [message]) = true)
    (fresh : ∀ name sql, .parse name sql ∈ state.caching.waiting → name ≠ [] →
      ∀ taken, lend 0 = some taken → taken.record.holds (GlobalName.forSql sql) = false) :
    ((Live.replayHeld replicas now lend 0 { state.caching.live with session := memory }
          state.caching.waiting).1.phase = .closed ∧ lend 0 = none ∧
        ∀ more, handle (state.places ++ more) (Live.replayHeld replicas now lend 0
          { state.caching.live with session := memory } state.caching.waiting).2 = []) ∨
      ∃ done busy, Cleared state replicas now message
        (Live.replayHeld replicas now lend 0 { state.caching.live with session := memory }
          state.caching.waiting).1
        (Live.replayHeld replicas now lend 0 { state.caching.live with session := memory }
          state.caching.waiting).2 done busy := by
  by_cases some : state.caching.waiting = []
  · right
    have places : state.places = [] := by
      have aligned := sound.aligned
      rw [some] at aligned
      exact length_eq_zero_iff.mp aligned
    rw [some] at keeps ⊢
    refine ⟨[], !state.pending.isEmpty, reading, holding_memory sound.holding memory, ?_,
      places.symm, nofun, ?_, ?_, keeps⟩
    · intro more later
      rw [places]
      rfl
    · rw [show sentOf [] = [] from rfl, append_nil]
      exact sound.supported (running_of_reading reading)
    · rw [show sentOf [] = [] from rfl, append_nil]
      intro waits
      rw [isEmpty_eq_false_iff.mpr waits]
      rfl
  · obtain ⟨free, idle, -⟩ := sound.free some
    rw [idle] at keeps
    rcases @replayHeld_went state.caching.waiting [message] replicas now lend
        { state.caching.live with session := memory } state.places some reading
        (holding_memory sound.holding memory) free
        (fun frame listed => ⟨(sound.fit frame listed).1, maps frame (sound.fit frame listed).2⟩)
        sound.one fresh keeps sound.aligned with
      closed | ⟨connection, done, resent, goes, all⟩
    · exact .inl closed
    · refine .inr ⟨done, true, all.phase, all.holding, all.handled, resent.numbers_eq, ?_, ?_,
        fun _ => rfl, all.keeps⟩
      · intro handling listed
        obtain ⟨message, name, there, fate⟩ := resent.fates handling listed
        exact ⟨message, name, connection, there, fate⟩
      · rw [idle]
        intro sent listed
        rw [goes, resent.sent sent listed]

theorem not_lasts_closed : ¬ Lasts .closed := by
  rintro (same | same | same) <;> cases same

theorem not_lasts_of_asks {message : FrontendMessage} (asks : asksReady message = true)
    (owed : Outstanding) : ¬ Lasts (phaseAfter .reading message owed) := by
  cases message with
  | query | functionCall | sync => rintro (same | same | same) <;> cases same
  | _ => cases asks

section

variable (sound : state.Sound) (reading : state.caching.live.phase = .reading)
include sound reading

theorem Sound.inside
    {next : Live} {message : FrontendMessage} {deeds : List Deed} {done : List Handling}
    {busy : Bool} (clear : Cleared state replicas now message next deeds done busy)
    (some : state.pending ++ sentOf done ≠ []) : inSequence state.frames = true := by
  refine sound.opened (.inl reading) ?_
  by_contra neither
  rw [not_or, not_not, not_not] at neither
  have places := sound.aligned
  rw [neither.2, length_nil, length_eq_zero_iff, ← clear.numbers,
    map_eq_nil_iff] at places
  rw [neither.1, places] at some
  exact some rfl

theorem Sound.passed {onward : FrontendMessage} (renames : Renames incoming.message onward)
    (routes : ∀ sql, incoming.message = .query sql → inSequence state.frames = true →
      parseRouteAssignment sql = none)
    {live next : Live} {deeds : List Deed} {done : List Handling} {busy : Bool}
    (clear : Cleared state replicas now incoming.message live deeds done busy)
    {lent : Option Upstreamed} {held : HeldSequence}
    {outputs : List Output} (cleared : held.frames = []) (holding : next.Holding)
    (quiet : deeds.any holds = false)
    (passed : Passed live incoming.message onward lent busy next (fateOf outputs)) :
    (state.heard incoming
      (⟨next, held, []⟩, deeds ++ [.passed incoming.message outputs])).Sound := by
  have handled : handle (state.places ++ [state.frames.length])
      (deeds ++ [.passed incoming.message outputs]) =
        done ++ (fateOf outputs).toList.map (⟨state.frames.length, ·⟩) := by
    rw [clear.handled, handle, handle_nil, append_nil]
  have silent : (deeds ++ [Deed.passed incoming.message outputs]).any holds =
      false := by
    rw [any_append, quiet]
    rfl
  have numbers (fate : Fate) :
      (done ++ [(⟨state.frames.length, fate⟩ : Handling)]).map Handling.number =
        state.places ++ [state.frames.length] := by
    rw [map_append, clear.numbers]
    rfl
  have fates (just : List Handling) (here : ∀ handling ∈ just,
      handling.number = state.frames.length) :
      ∀ handling ∈ done ++ just, handling.number ∈ state.withheld →
        Settled (state.frames ++ [incoming]) handling := by
    refine forall_mem_append.mpr ⟨fun handling listed _ => ?_, fun handling listed there => ?_⟩
    · obtain ⟨message, name, connection, line, fate⟩ := clear.fates handling listed
      obtain ⟨found, there, same⟩ := sound.lines_grown incoming _ line
      exact .inr ⟨found, name, connection, there, same ▸ fate⟩
    · rw [here handling listed] at there
      exact absurd there sound.not_withheld
  have answered : sentOf (done ++ [(⟨state.frames.length, .answered⟩ : Handling)]) =
      sentOf done := by
    unfold sentOf
    rw [filterMap_append]
    exact append_nil _
  generalize fateOf outputs = fate at handled passed
  cases passed with
  | closed phase why =>
    refine sound.after (running_of_reading reading) handled silent rfl cleared holding
      ?_ ?_ ?_ ?_ ?_
    · rw [Option.toList_none, map_nil, append_nil, clear.numbers]
      exact prefix_append _ _
    · exact fun opened => absurd phase opened
    · exact fates _ fun _ listed => absurd listed not_mem_nil
    · exact fun opened => absurd phase opened
    · intro lasts
      rw [phase] at lasts
      exact absurd lasts not_lasts_closed
  | @routed phase same sql carried assigns =>
    refine sound.after (running_of_reading reading) handled silent rfl cleared holding
      ⟨[], (append_nil _).trans (numbers _)⟩ (fun _ => numbers _)
      (fates _ (forall_mem_singleton.mpr rfl)) ?_ ?_
    · intro _ sent listed
      change sent ∈ state.pending ++ sentOf (done ++ [⟨_, .answered⟩]) at listed
      rw [answered] at listed
      rw [same]
      exact clear.supported sent listed
    · intro _ some
      change state.pending ++ sentOf (done ++ [⟨_, .answered⟩]) ≠ [] at some
      rw [answered] at some
      rw [inSequence_append]
      cases message : incoming.message with
      | query text =>
        rw [message] at carried
        cases carried
        rw [routes _ message (sound.inside reading clear some)] at assigns
        cases assigns
      | parse name text => exact Bool.or_true _
      | _ =>
        rw [message] at carried
        cases carried
  | @sent connection goes kept owed phase =>
    have more : sentOf (done ++ [(⟨state.frames.length, .sent connection onward⟩ : Handling)]) =
        sentOf done ++ if owesAnswer onward then [(connection, state.frames.length)] else [] := by
      unfold sentOf
      cases owes : owesAnswer onward <;> simp [owes]
    refine sound.after (running_of_reading reading) handled silent rfl cleared holding
      ⟨[], (append_nil _).trans (numbers _)⟩ (fun _ => numbers _)
      (fates _ (forall_mem_singleton.mpr rfl)) ?_ ?_
    · intro _ sent listed
      change sent ∈ state.pending ++ sentOf (done ++ [⟨_, .sent connection onward⟩]) at listed
      rw [more, ← append_assoc] at listed
      rcases mem_append.mp listed with earlier | just
      · have there := clear.supported sent earlier
        rw [kept (clear.waits (ne_nil_of_mem earlier))] at there
        exact goes.trans there
      · split at just
        · rw [mem_singleton.mp just]
          exact goes
        · cases just
    · intro lasts some
      change state.pending ++ sentOf (done ++ [⟨_, .sent connection onward⟩]) ≠ [] at some
      rw [phase, clear.phase] at lasts
      rw [inSequence_append]
      cases asking : asksReady incoming.message with
      | true => exact absurd lasts (not_lasts_of_asks asking owed)
      | false =>
        cases extended : incoming.message.startsExtendedSequence with
        | true => exact Bool.or_true _
        | false =>
          have same : onward = incoming.message := by
            refine renames.resolve_right fun other => ?_
            rw [extended] at other
            cases other.1
          rw [more, same, owesAnswer, asking, extended, Bool.or_false,
            if_neg Bool.false_ne_true, append_nil] at some
          rw [sound.inside reading clear some]
          rfl
  | @prepared parses phase connection goes kept =>
    refine sound.after (running_of_reading reading) handled silent rfl cleared holding
      ⟨[], (append_nil _).trans (numbers _)⟩ (fun _ => numbers _)
      (fates _ (forall_mem_singleton.mpr rfl)) ?_ ?_
    · intro _ sent listed
      change sent ∈ state.pending ++ sentOf (done ++ [⟨_, .answered⟩]) at listed
      rw [answered] at listed
      have there := clear.supported sent listed
      rw [kept (clear.waits (ne_nil_of_mem listed))] at there
      exact goes.trans there
    · intro _ _
      rw [inSequence_append]
      cases message : incoming.message with
      | parse name text => exact Bool.or_true _
      | _ =>
        rw [message] at parses
        cases parses

theorem Sound.forward {memory : SessionMemory} {onward : FrontendMessage}
    (maps : ∀ frame, Maps state.caching.live.session.statements frame →
      Maps memory.statements frame)
    (renames : Renames incoming.message onward)
    (routes : ∀ sql, incoming.message = .query sql → inSequence state.frames = true →
      parseRouteAssignment sql = none)
    (keeps : keepsConnection replicas now (!state.pending.isEmpty) state.caching.live.relay
      (state.caching.waiting ++ [incoming.message]) = true)
    (fresh : ∀ name sql, .parse name sql ∈ state.caching.waiting → name ≠ [] →
      ∀ taken, lend 0 = some taken → taken.record.holds (GlobalName.forSql sql) = false) :
    (state.heard incoming
      ({ state.caching with live := { state.caching.live with session := memory } }.forward
        incoming.message onward replicas now lend)).Sound := by
  have cleared : (if state.caching.held.isEmpty then state.caching.held
      else state.caching.held.clear).frames = [] := by
    split
    · rename_i empty
      exact List.isEmpty_iff.mp empty
    · rfl
  obtain ⟨kept, only⟩ := @replayHeld_deeds state.caching.waiting replicas now lend 0
    { state.caching.live with session := memory } (holding_memory sound.holding memory)
  have quiet : (Live.replayHeld replicas now lend 0
      { state.caching.live with session := memory } state.caching.waiting).2.any holds =
        false := by
    rw [any_eq_false]
    intro deed listed
    rcases only deed listed with ⟨_, _, _, _, rfl⟩ | ⟨_, rfl⟩ <;> exact nofun
  unfold Caching.forward
  rcases sound.clear reading maps keeps fresh with ⟨closed, -, silent⟩ | ⟨done, busy, clear⟩
  · rw [if_pos closed]
    refine sound.after (running_of_reading reading) (silent _) quiet rfl cleared kept nil_prefix
      ?_ nofun ?_ ?_
    · exact fun opened => absurd closed opened
    · exact fun opened => absurd closed opened
    · intro lasts
      rw [closed] at lasts
      exact absurd lasts not_lasts_closed
  · rw [if_neg (by rw [clear.phase]; exact nofun)]
    obtain ⟨holding, passed⟩ := @passOn_passed _ clear.holding incoming.message onward replicas now
      (lend state.caching.waiting.length) busy clear.keeps
    exact sound.passed reading renames routes clear cleared holding quiet passed

theorem Sound.took
    (queries : ∀ sql, incoming.message = .query sql → inSequence state.frames = true →
      parseRouteAssignment sql = none ∧
        ∀ memory onward, observe state.caching.live.session incoming.message =
          some (memory, onward) → Caching.simpleHit context
            { state.caching.live with session := memory } incoming.message stored = none)
    (keeps : keepsConnection replicas now (!state.pending.isEmpty) state.caching.live.relay
      (state.caching.waiting ++ [incoming.message]) = true)
    (fresh : ∀ name sql, .parse name sql ∈ state.caching.waiting → name ≠ [] →
      ∀ taken, lend 0 = some taken → taken.record.holds (GlobalName.forSql sql) = false)
    {result : Caching × List Deed}
    (took : Caching.Took context state.caching incoming replicas now lend stored result) :
    (state.heard incoming result).Sound ∧
      ∀ messages answer, .served messages answer ∈ result.2 → state.pending = [] ∧
        state.handled.map Handling.number =
          List.range (state.frames.length + 1 - messages.length) := by
  have ordered := sound.ordered (running_of_reading reading)
  cases took with
  | refused unknown =>
    refine ⟨sound.refused _, fun messages answer listed => ?_⟩
    cases mem_singleton.mp listed
  | @hit memory onward sql payload frames observed query cacheable assembled found =>
    have between : inSequence state.frames = false := by
      rw [Bool.eq_false_iff]
      intro inside
      have missed := (queries _ query inside).2 _ _ observed
      rw [found] at missed
      cases missed
    obtain ⟨idle, none⟩ := sound.between reading between
    have aligned := sound.aligned
    have bytes := sound.bytes
    rw [none] at aligned
    have places := length_eq_zero_iff.mp aligned
    rw [places, map_nil, eq_comm, map_eq_nil_iff] at bytes
    rw [places, append_nil] at ordered
    refine ⟨?_, fun messages answer listed => ?_⟩
    · rw [none]
      exact sound.served reading bytes idle (by rw [places]; rfl)
    · obtain ⟨rfl, -⟩ := Deed.served.inj (mem_singleton.mp listed)
      exact ⟨idle, ordered⟩
  | withheld observed fed =>
    refine ⟨sound.withheld reading observed fed, fun messages answer listed => ?_⟩
    cases mem_singleton.mp listed
  | completed observed fed assembled =>
    obtain ⟨rfl, -, -, filled⟩ := HeldSequence.feed_complete fed
    obtain ⟨-, idle, -⟩ := sound.free (sound.filled filled)
    have whole : (state.caching.waiting ++ [incoming.message]).length =
        state.places.length + 1 := by
      rw [length_append, sound.aligned]
      rfl
    refine ⟨sound.served reading rfl idle whole, fun messages answer listed => ?_⟩
    obtain ⟨rfl, -⟩ := Deed.served.inj (mem_singleton.mp listed)
    refine ⟨idle, ?_⟩
    have count := congrArg List.length ordered
    rw [length_append, length_map, length_range] at count
    calc state.handled.map Handling.number
        = (state.handled.map Handling.number ++ state.places).take state.handled.length := by
          rw [take_left' (length_map _)]
      _ = List.range (state.frames.length + 1 -
            (state.caching.waiting ++ [incoming.message]).length) := by
          rw [ordered, take_range]
          congr 1
          omega
  | @forwarded memory onward observed given =>
    refine ⟨sound.forward reading (fun frame => maps_observe observed)
      (renames_of_observe observed) (fun sql query inside => (queries sql query inside).1)
      keeps fresh, fun messages answer listed => ?_⟩
    have only := (@replayHeld_deeds state.caching.waiting replicas now lend 0
      { state.caching.live with session := memory } (holding_memory sound.holding memory)).2
    unfold Caching.forward at listed
    dsimp only at listed
    exfalso
    split at listed
    · rcases only _ listed with ⟨_, _, same⟩ | ⟨_, same⟩ <;> cases same
    · rcases mem_append.mp listed with earlier | last
      · rcases only _ earlier with ⟨_, _, same⟩ | ⟨_, same⟩ <;> cases same
      · cases mem_singleton.mp last

end

end Took

end Ordered

end Pgprox.Serve
