/-
Frames held back, and sent after all.

Every frame the loop reads is numbered.  Beside the loop stand the numbers of the frames
that are held, what became of each frame, in the order it was dealt with, and which frames
the server has been sent since it last said that it was ready.
-/

import Pgprox.Serve.OnwardFrame

namespace Pgprox.Serve

open Sql Proto Pools Route Session Cache Topologies
open List hiding lex

theorem running_of_reading {phase : Phase} (reading : phase = .reading) : phase ≠ .closed := by
  rintro rfl
  cases reading

theorem running_of_copying {phase : Phase} {flushing : Bool} (copying : phase = .copying flushing) :
    phase ≠ .closed := by
  rintro rfl
  cases copying

/-! ### What becomes of a frame -/

inductive Fate
  | cached
  | sent (connection : Nat) (onward : FrontendMessage)
  | answered
  deriving DecidableEq

structure Handling where
  number : Nat
  fate : Fate
  deriving DecidableEq

def fateOf (outputs : List Output) : Option Fate :=
  match outputs.getLast? with
  | some (.toServer connection frame) => some (.sent connection frame)
  | some (.toClient _) => some .answered
  | _ => none

def handle : List Nat → List Deed → List Handling
  | numbers, .served messages _ :: later =>
    (numbers.drop (numbers.length - messages.length)).map (⟨·, .cached⟩) ++
      handle numbers later
  | number :: numbers, .passed _ outputs :: later =>
    (fateOf outputs).toList.map (⟨number, ·⟩) ++ handle numbers later
  | _ :: numbers, .skipped _ :: later => handle numbers later
  | _, _ => []

def owesAnswer (message : FrontendMessage) : Bool :=
  asksReady message || message.startsExtendedSequence

def sentOf (done : List Handling) : List (Nat × Nat) :=
  done.filterMap fun handling =>
    match handling.fate with
    | .sent connection onward =>
      if owesAnswer onward then some (connection, handling.number) else none
    | _ => none

def inSequence (frames : List Incoming) : Bool :=
  frames.foldl (fun started incoming =>
    if asksReady incoming.message then false
    else started || incoming.message.startsExtendedSequence) false

/-- Whether the frames, one after the other, go out on one connection: on the one in hand if
there is something to wait for on it. -/
def keepsConnection (replicas : Replicas) (now : Nat) : Bool → Relay → List FrontendMessage → Bool
  | _, _, [] => true
  | busy, relay, message :: later =>
    let decided := relay.onClient message replicas now
    match decided.2.action with
    | .send target acquire =>
      !(busy && acquire) && keepsConnection replicas now true
        (if acquire then decided.1.acquired target else decided.1) later
    | _ => keepsConnection replicas now busy decided.1 later

structure Ordered where
  caching : Caching
  frames : List Incoming
  places : List Nat
  withheld : List Nat
  handled : List Handling
  pending : List (Nat × Nat)

namespace Ordered

def start (mode : PoolMode) (statementTimeout : Option Nat) (settings : List (Text × Text)) :
    Ordered where
  caching := .start mode statementTimeout settings
  frames := []
  places := []
  withheld := []
  handled := []
  pending := []

def holds : Deed → Bool
  | .withheld .. => true
  | _ => false

def heard (state : Ordered) (incoming : Incoming) (result : Caching × List Deed) : Ordered :=
  let number := state.frames.length
  let done := handle (state.places ++ [number]) result.2
  { caching := result.1
    frames := state.frames ++ [incoming]
    places := (state.places ++ [number]).take result.1.waiting.length
    withheld := state.withheld ++ if result.2.any holds then [number] else []
    handled := state.handled ++ done
    pending := state.pending ++ sentOf done }

def copied (state : Ordered) (incoming : Incoming) (next : Live × List Output) : Ordered :=
  let done := (fateOf next.2).toList.map (⟨state.frames.length, ·⟩)
  { state with
    caching := { state.caching with live := next.1 }
    frames := state.frames ++ [incoming]
    handled := state.handled ++ done
    pending := state.pending ++ sentOf done }

def readied (state : Ordered) (next : Live) : Ordered :=
  { state with
    caching := { state.caching with live := next }
    pending := state.pending.filter fun sent =>
      state.caching.live.upstream.map Upstreamed.id ≠ some sent.1 }

def step (context : CacheContext) (state : Ordered) (event : CachedEvent) : Ordered :=
  match event, state.caching.live.phase with
  | .client incoming replicas now lend stored, .reading =>
    state.heard incoming (state.caching.takeFrame context incoming replicas now lend stored)
  | .client incoming _ _ _ _, .copying flushing =>
    state.copied incoming (state.caching.live.takeCopyFrame flushing incoming.message)
  | .server (.readyForQuery status) position, .pumping flushing =>
    state.readied
      (state.caching.live.takeAnswer flushing (.readyForQuery status) position).1
  | event, _ => { state with caching := (state.caching.step context event).1 }

/-- A `Query` that the proxy answers itself does not come in the middle of an extended
sequence; the frames of a sequence go out on one connection; a connection that a held
`Parse` is sent on does not have the statement; and a copy is not interrupted by a frame
that asks. -/
def Allowed (context : CacheContext) (state : Ordered) : CachedEvent → Prop
  | .client incoming replicas now lend stored =>
    match state.caching.live.phase with
    | .reading =>
      (∀ sql, incoming.message = .query sql → inSequence state.frames = true →
        parseRouteAssignment sql = none ∧
          ∀ memory onward, observe state.caching.live.session incoming.message =
            some (memory, onward) → Caching.simpleHit context
              { state.caching.live with session := memory } incoming.message stored = none) ∧
      keepsConnection replicas now (!state.pending.isEmpty) state.caching.live.relay
        (state.caching.waiting ++ [incoming.message]) = true ∧
      ∀ name sql, .parse name sql ∈ state.caching.waiting → name ≠ [] →
        ∀ taken, lend 0 = some taken → taken.record.holds (GlobalName.forSql sql) = false
    | .copying _ => asksReady incoming.message = false
    | _ => True
  | _ => True

abbrev Reached (context : CacheContext) (mode : PoolMode) (statementTimeout : Option Nat)
    (settings : List (Text × Text)) (state : Ordered) : Prop :=
  Run.Reachable (start mode statementTimeout settings) (Allowed context) (step context) state

end Ordered

/-! ### Statements that may be held -/

theorem not_opener {word : List Char} {keyword : String}
    (reads : matchesAny word readFirstWords = true)
    (other : matchesAny keyword.toList readFirstWords = false) :
    eqIgnoreAsciiCase word keyword = false := by
  by_contra same
  have lowered : toAsciiLowercase word = toAsciiLowercase keyword.toList := by
    simpa [eqIgnoreAsciiCase] using same
  have moved : matchesAny word readFirstWords = matchesAny keyword.toList readFirstWords := by
    unfold matchesAny eqIgnoreAsciiCase
    rw [lowered]
  rw [moved, other] at reads
  cases reads

theorem readOnly_of_cacheableNow {relay : Relay} {sql : Text}
    (may : cacheableNow relay sql = true) : classify sql = .readOnly := by
  by_contra other
  unfold cacheableNow cacheable at may
  rw [if_pos other] at may
  cases may

/-- A statement that only reads assigns no route and forgets no statement. -/
theorem plain_of_readOnly {sql : Text} (reads : classify sql = .readOnly) :
    parseRouteAssignment sql = none ∧ deallocatesEverything sql = false := by
  unfold parseRouteAssignment deallocatesEverything
  cases opens : Sql.next sql with
  | none => exact ⟨rfl, rfl⟩
  | some read =>
    obtain ⟨token, after⟩ := read
    cases token with
    | word word =>
      have opener := opener_of_readOnly reads opens
      dsimp only
      rw [@not_opener word "reset" opener (by decide +kernel),
        @not_opener word "set" opener (by decide +kernel),
        @not_opener word "discard" opener (by decide +kernel),
        @not_opener word "deallocate" opener (by decide +kernel)]
      exact ⟨rfl, rfl⟩
    | _ => exact ⟨rfl, rfl⟩

def Holdable : FrontendMessage → Prop
  | .parse _ sql => parseRouteAssignment sql = none ∧ deallocatesEverything sql = false
  | .bind .. | .describe .portal _ | .execute .. => True
  | _ => False

theorem Holdable.extended {message : FrontendMessage} (holdable : Holdable message) :
    message.startsExtendedSequence = true := by
  cases message with
  | parse | bind | describe | execute => rfl
  | _ => cases holdable

theorem Holdable.sends {message : FrontendMessage} (holdable : Holdable message) (relay : Relay)
    (replicas : Replicas) (now : Nat) :
    ∃ target acquire, (relay.onClient message replicas now).2.action = .send target acquire := by
  cases decided : (relay.onClient message replicas now).2.action with
  | send target acquire => exact ⟨target, acquire, rfl⟩
  | answer routed =>
    obtain ⟨sql, carried, assigns⟩ := onClient_answer decided
    cases message with
    | parse name parsed =>
      cases carried
      rw [holdable.1] at assigns
      cases assigns
    | query _ => cases holdable
    | _ => cases carried
  | close =>
    have stays : message ≠ .terminate := by
      rintro rfl
      cases holdable
    cases carried : message.sql? with
    | none =>
      rw [onClient_action_of_no_sql carried stays] at decided
      cases decided
    | some sql =>
      unfold Relay.onClient at decided
      rw [if_neg stays] at decided
      rw [carried] at decided
      unfold Relay.routeStatement at decided
      dsimp only at decided
      split at decided
      · cases decided
      · cases decided

/-! ### A frame on its way out -/

theorem sendOn_fate (live : Live) (upstream : Upstreamed) (message onward : FrontendMessage) :
    (∃ front last, (live.sendOn upstream message onward).2 = front ++ [last]) ∧
      fateOf (live.sendOn upstream message onward).2 =
        some (if (sendUpstream live.session.statements upstream.record message onward).forwarded
          then .sent upstream.id onward else .answered) := by
  unfold Live.sendOn
  dsimp only
  rcases sendUpstream_frames live.session.statements upstream.record message onward with
    ⟨kept, -⟩ | ⟨gone, injected, -, shape⟩
  · rw [kept]
    exact ⟨⟨[], _, rfl⟩, rfl⟩
  · rw [gone, if_pos rfl, if_pos rfl, shape]
    rw [map_append]
    refine ⟨⟨_, _, rfl⟩, ?_⟩
    unfold fateOf
    rw [map_singleton, getLast?_concat]

theorem fateOf_append (front : List Output) {outputs : List Output}
    (some : ∃ before last, outputs = before ++ [last]) :
    fateOf (front ++ outputs) = fateOf outputs := by
  obtain ⟨before, last, rfl⟩ := some
  unfold fateOf
  rw [← append_assoc, getLast?_concat, getLast?_concat]

theorem sendOn_went (live : Live) (upstream : Upstreamed) (message onward : FrontendMessage) :
    (live.sendOn upstream message onward).1.upstream.map Upstreamed.id = some upstream.id ∧
      (live.sendOn upstream message onward).1.relay = live.relay ∧
      (live.sendOn upstream message onward).1.phase =
        if (sendUpstream live.session.statements upstream.record message onward).forwarded then
          phaseAfter live.phase message (live.pumping.owed.sent message)
        else live.phase := by
  unfold Live.sendOn
  dsimp only
  split
  · unfold Live.afterSending phaseAfter
    split
    · exact ⟨rfl, rfl, rfl⟩
    · split
      · exact ⟨rfl, rfl, rfl⟩
      · exact ⟨rfl, rfl, rfl⟩
  · exact ⟨rfl, rfl, rfl⟩

structure Went (live next : Live) (message onward : FrontendMessage) (target : RouteTarget)
    (acquire : Bool) (lent : Option Upstreamed) (fate : Option Fate) (upstream : Upstreamed) :
    Prop where
  chosen : (if acquire then lent else live.upstream) = some upstream
  connection : next.upstream.map Upstreamed.id = some upstream.id
  relay : next.relay = if acquire then live.relay.acquired target else live.relay
  statements : next.session.statements =
    (forgetFor live.session.statements upstream.record message).1
  fate : fate =
    some (if (sendUpstream live.session.statements upstream.record message onward).forwarded
      then .sent upstream.id onward else .answered)
  phase : next.phase =
    if (sendUpstream live.session.statements upstream.record message onward).forwarded then
      phaseAfter live.phase message (live.pumping.owed.sent message)
    else live.phase

theorem act_went (live : Live) (message onward : FrontendMessage) (lent : Option Upstreamed)
    (target : RouteTarget) (acquire : Bool) :
    (live.act message onward lent (.send target acquire)).1.phase = .closed ∧
        fateOf (live.act message onward lent (.send target acquire)).2 = none ∧
        (if acquire then lent else live.upstream) = none ∨
      ∃ upstream, Went live (live.act message onward lent (.send target acquire)).1 message
        onward target acquire lent
        (fateOf (live.act message onward lent (.send target acquire)).2) upstream := by
  cases acquire with
  | true =>
    cases lent with
    | none => exact .inl ⟨rfl, rfl, rfl⟩
    | some taken =>
      right
      obtain ⟨connection, relay, phase⟩ := sendOn_went
        { live with
          relay := live.relay.acquired target
          serving := target
          upstream := some taken } taken message onward
      obtain ⟨ends, fate⟩ := sendOn_fate
        { live with
          relay := live.relay.acquired target
          serving := target
          upstream := some taken } taken message onward
      refine ⟨taken, rfl, connection, relay, sendOn_statements .., ?_, phase⟩
      exact (fateOf_append _ ends).trans fate
  | false =>
    cases current : live.upstream with
    | none =>
      left
      simp only [Live.act, current]
      exact ⟨rfl, rfl, rfl⟩
    | some upstream =>
      right
      simp only [Live.act, current]
      obtain ⟨connection, relay, phase⟩ := sendOn_went live upstream message onward
      exact ⟨upstream, current, connection, relay, sendOn_statements ..,
        (sendOn_fate ..).2, phase⟩

/-! ### Held frames sent after all -/

def Maps (statements : SessionStatements) (message : FrontendMessage) : Prop :=
  (mapStatementName statements message).isSome = true

theorem Maps.parse {statements : SessionStatements} {message : FrontendMessage}
    (maps : Maps statements message) (name sql : Text) :
    Maps (statements.parse name sql) message := by
  have known {asked : Text} (found : (statements.get asked).isSome = true) :
      ((statements.parse name sql).get asked).isSome = true := by
    rw [SessionStatements.get_parse_if]
    split
    · rfl
    · exact found
  have chosen {asked : Text} {one other : SessionStatements × FrontendMessage}
      {build build' : PreparedStatement → SessionStatements × FrontendMessage}
      (found : (if asked = [] then some one else (statements.get asked).map build).isSome = true) :
      (if asked = [] then some other
        else ((statements.parse name sql).get asked).map build').isSome = true := by
    split at found
    · rename_i unnamed
      rw [if_pos unnamed]
      rfl
    · rename_i named
      rw [if_neg named, Option.isSome_map]
      rw [Option.isSome_map] at found
      exact known found
  cases message with
  | parse other parsed =>
    unfold Maps
    rw [mapStatementName_parse]
    rfl
  | bind portal statement arguments => exact chosen maps
  | describe target statement =>
    cases target with
    | portal => rfl
    | statement => exact chosen maps
  | close target statement =>
    cases target with
    | portal => rfl
    | statement => exact chosen maps
  | _ => rfl

theorem Holdable.forgetFor {message : FrontendMessage} (holdable : Holdable message)
    (statements : SessionStatements) (record : ConnectionStatements) :
    (forgetFor statements record message).1 = statements := by
  cases message with
  | parse name sql =>
    change (observeStatement statements record sql).1 = statements
    rw [observeStatement, if_neg (by rw [holdable.2]; exact nofun)]
  | bind | execute => rfl
  | describe target name =>
    cases target with
    | portal => rfl
    | statement => cases holdable
  | _ => cases holdable

structure Replay (live next : Live) (decided : Relay) (target : RouteTarget) (acquire : Bool)
    (connection : Nat) : Prop where
  phase : next.phase = .reading
  goes : next.upstream.map Upstreamed.id = some connection
  kept : acquire = false → live.upstream.map Upstreamed.id = some connection
  relay : next.relay = if acquire then decided.acquired target else decided
  maps : ∀ frame, Maps live.session.statements frame → Maps next.session.statements frame

section Replay

variable {live : Live} {message : FrontendMessage} {replicas : Replicas} {now : Nat}

theorem holding_heard (holding : live.Holding) (memory : SessionMemory) :
    { live with
      relay := (live.relay.onClient message replicas now).1
      session := memory }.Holding where
  held := by
    rw [Relay.onClient_held]
    exact holding.held
  inTransaction := by
    rw [Relay.onClient_txStatus]
    exact holding.inTransaction
  answering := holding.answering

theorem upstream_of_stays (holding : live.Holding) {target : RouteTarget} {acquire : Bool}
    (action : (live.relay.onClient message replicas now).2.action = .send target acquire)
    (stays : acquire = false) : live.upstream.isSome = true := by
  have held := acquire_of_send action
  rw [stays, eq_comm, decide_eq_false_iff_not, not_not, holding.held] at held
  obtain ⟨upstream, present, -⟩ := Option.map_eq_some_iff.mp held
  rw [present]
  rfl

theorem replayFrame_went (reading : live.phase = .reading) (holding : live.Holding)
    (holdable : Holdable message) (maps : Maps live.session.statements message)
    {lent : Option Upstreamed}
    (fresh : ∀ name sql, message = .parse name sql → name ≠ [] → live.relay.held = none ∧
      ∀ taken, lent = some taken → taken.record.holds (GlobalName.forSql sql) = false) :
    ∃ outputs target acquire,
      (live.replayFrame message replicas now lent).2 = .passed message outputs ∧
      (live.relay.onClient message replicas now).2.action = .send target acquire ∧
      (live.replayFrame message replicas now lent).1.Holding ∧
      ((live.replayFrame message replicas now lent).1.phase = .closed ∧
          fateOf outputs = none ∧ acquire = true ∧ lent = none ∨
        ∃ connection name, fateOf outputs = some (.sent connection (renamed name message)) ∧
          Replay live (live.replayFrame message replicas now lent).1
            (live.relay.onClient message replicas now).1 target acquire connection) := by
  obtain ⟨⟨statements, onward⟩, named⟩ := Option.isSome_iff_exists.mp maps
  obtain ⟨target, acquire, action⟩ := holdable.sends live.relay replicas now
  have shape : live.replayFrame message replicas now lent =
      (({ live with
          relay := (live.relay.onClient message replicas now).1
          session := { live.session with statements } }.act message onward lent
            (.send target acquire)).1,
        .passed message
          ({ live with
            relay := (live.relay.onClient message replicas now).1
            session := { live.session with statements } }.act message onward lent
              (.send target acquire)).2) := by
    unfold Live.replayFrame
    rw [named]
    dsimp only
    rw [action]
  rw [shape]
  refine ⟨_, target, acquire, rfl, action,
    Live.holding_act (holding_heard holding _) .., ?_⟩
  rcases act_went
      { live with
        relay := (live.relay.onClient message replicas now).1
        session := { live.session with statements } } message onward lent target acquire with
    ⟨closed, none, missing⟩ | ⟨upstream, went⟩
  · left
    refine ⟨closed, none, ?_⟩
    cases acquire with
    | true => exact ⟨rfl, missing⟩
    | false =>
      have present := upstream_of_stays holding action rfl
      change live.upstream = Option.none at missing
      rw [missing] at present
      cases present
  · right
    obtain ⟨name, rfl⟩ := renamed_of_map named
    have gone : (sendUpstream statements upstream.record message
        (renamed name message)).forwarded = true := by
      by_contra kept
      obtain ⟨statement, sql, prepared, rfl, filled, found, has⟩ :=
        sendUpstream_kept (Bool.eq_false_iff.mpr kept)
      obtain ⟨free, lacks⟩ := fresh statement sql rfl filled
      have acquires := acquire_of_send action
      rw [free] at acquires
      subst acquires
      rw [mapStatementName_statements named, SessionStatements.get_parse_if, if_pos rfl] at found
      rw [← Option.some.inj found] at has
      exact Bool.false_ne_true ((lacks upstream went.chosen).symm.trans has)
    refine ⟨upstream.id, name, ?_, ?_, went.connection, ?_, went.relay, ?_⟩
    · rw [went.fate]
      exact congrArg some (if_pos gone)
    · rw [went.phase]
      refine (if_pos gone).trans ?_
      unfold phaseAfter
      rw [if_pos (awaitsMore_of_extended holdable.extended)]
      exact reading
    · rintro rfl
      have chosen := went.chosen
      change live.upstream = some upstream at chosen
      rw [chosen]
      rfl
    · intro frame known
      rw [went.statements]
      rw [holdable.forgetFor, mapStatementName_statements named]
      split
      · exact known.parse ..
      · exact known

end Replay

@[simp] theorem handle_nil (numbers : List Nat) : handle numbers [] = [] := by
  cases numbers <;> rfl

inductive Resent (connection : Nat) :
    List Nat → List FrontendMessage → List Handling → Prop
  | nil : Resent connection [] [] []
  | cons {number : Nat} {numbers : List Nat} {message : FrontendMessage}
      {waiting : List FrontendMessage} {done : List Handling} (name : Text)
      (later : Resent connection numbers waiting done) :
      Resent connection (number :: numbers) (message :: waiting)
        (⟨number, .sent connection (renamed name message)⟩ :: done)

structure ReplayedAll (replicas : Replicas) (now : Nat) (rest : List FrontendMessage)
    (numbers : List Nat) (deeds : List Deed) (done : List Handling) (next : Live) : Prop where
  phase : next.phase = .reading
  holding : next.Holding
  handled : ∀ more later, handle (numbers ++ more) (deeds ++ later) = done ++ handle more later
  keeps : keepsConnection replicas now true next.relay rest = true

def ResentAll (replicas : Replicas) (now : Nat) (lend : Nat → Option Upstreamed)
    (rest : List FrontendMessage) (connection index : Nat) (live : Live) (numbers : List Nat)
    (waiting : List FrontendMessage) : Prop :=
  ∃ done, Resent connection numbers waiting done ∧
    (Live.replayHeld replicas now lend index live waiting).1.upstream.map Upstreamed.id =
      some connection ∧
    ReplayedAll replicas now rest numbers (Live.replayHeld replicas now lend index live waiting).2
      done (Live.replayHeld replicas now lend index live waiting).1

section ReplayHeld

variable {waiting rest : List FrontendMessage} {replicas : Replicas} {now : Nat}
  {lend : Nat → Option Upstreamed} {connection : Nat} {live : Live} {numbers : List Nat}

theorem ResentAll.cons {index number : Nat} {message : FrontendMessage} {name : Text}
    {outputs : List Output}
    (deed : (live.replayFrame message replicas now (lend index)).2 =
      .passed message outputs)
    (fate : fateOf outputs = some (.sent connection (renamed name message)))
    (reading : (live.replayFrame message replicas now (lend index)).1.phase = .reading)
    (later : ResentAll replicas now lend rest connection (index + 1)
      (live.replayFrame message replicas now (lend index)).1 numbers waiting) :
    ResentAll replicas now lend rest connection index live (number :: numbers)
      (message :: waiting) := by
  obtain ⟨done, resent, goes, all⟩ := later
  unfold ResentAll Live.replayHeld
  rw [if_neg (by rw [reading]; intro closed; cases closed)]
  refine ⟨_, .cons name resent, goes, all.phase, all.holding, ?_, all.keeps⟩
  intro more later
  rw [deed, cons_append, cons_append, handle, fate, all.handled]
  rfl

theorem replayHeld_stays :
    ∀ {index : Nat} {live : Live} {numbers : List Nat}, live.phase = .reading → live.Holding →
      (∀ message ∈ waiting, Holdable message ∧ Maps live.session.statements message ∧
        isParse message = false) →
      live.upstream.map Upstreamed.id = some connection →
      keepsConnection replicas now true live.relay (waiting ++ rest) = true →
      numbers.length = waiting.length →
      ResentAll replicas now lend rest connection index live numbers waiting := by
  induction waiting with
  | nil =>
    intro index live numbers reading holding _ present keeps aligned
    obtain rfl := length_eq_zero_iff.mp aligned
    exact ⟨[], .nil, present, reading, holding, fun _ _ => rfl, keeps⟩
  | cons message waiting ih =>
    intro index live numbers reading holding fit present keeps aligned
    cases numbers with
    | nil => cases aligned
    | cons number numbers =>
      obtain ⟨⟨holdable, maps, other⟩, below⟩ := forall_mem_cons.mp fit
      obtain ⟨outputs, target, acquire, deed, action, kept, outcome⟩ :=
        @replayFrame_went live message replicas now reading holding holdable maps (lend index)
          (by rintro name sql rfl; cases other)
      rw [cons_append, keepsConnection, action] at keeps
      obtain ⟨stays, onward⟩ := Bool.and_eq_true_iff.mp keeps
      obtain rfl : acquire = false := by simpa using stays
      rcases outcome with ⟨-, -, acquires, -⟩ | ⟨there, name, fate, replayed⟩
      · cases acquires
      · obtain rfl : there = connection :=
          Option.some.inj ((replayed.kept rfl).symm.trans present)
        rw [← (show _ = (live.relay.onClient message replicas now).1 from replayed.relay)]
          at onward
        exact .cons deed fate replayed.phase (ih replayed.phase kept
          (fun frame listed => ⟨(below frame listed).1,
            replayed.maps frame (below frame listed).2.1, (below frame listed).2.2⟩)
          replayed.goes onward (Nat.succ.inj aligned))

/-- The held frames go out in order, all of them, or the first finds no connection. -/
theorem replayHeld_went
    (some : waiting ≠ []) (reading : live.phase = .reading) (holding : live.Holding)
    (free : live.relay.held = none)
    (fit : ∀ message ∈ waiting, Holdable message ∧ Maps live.session.statements message)
    (one : ∀ message ∈ waiting.tail, isParse message = false)
    (fresh : ∀ name sql, .parse name sql ∈ waiting → name ≠ [] →
      ∀ taken, lend 0 = .some taken → taken.record.holds (GlobalName.forSql sql) = false)
    (keeps : keepsConnection replicas now false live.relay (waiting ++ rest) = true)
    (aligned : numbers.length = waiting.length) :
    ((Live.replayHeld replicas now lend 0 live waiting).1.phase = .closed ∧ lend 0 = none ∧
        ∀ more, handle (numbers ++ more) (Live.replayHeld replicas now lend 0 live waiting).2 =
          []) ∨
      ∃ connection, ResentAll replicas now lend rest connection 0 live numbers waiting := by
  cases waiting with
  | nil => exact absurd rfl some
  | cons message waiting =>
    cases numbers with
    | nil => cases aligned
    | cons number numbers =>
      obtain ⟨⟨holdable, maps⟩, below⟩ := forall_mem_cons.mp fit
      obtain ⟨outputs, target, acquire, deed, action, kept, outcome⟩ :=
        @replayFrame_went live message replicas now reading holding holdable maps (lend 0)
          (fun name sql same filled => ⟨free,
            fresh name sql (same ▸ mem_cons_self) filled⟩)
      rw [cons_append, keepsConnection, action] at keeps
      have onward := (Bool.and_eq_true_iff.mp keeps).2
      rcases outcome with ⟨closed, silent, -, missing⟩ | ⟨connection, name, fate, replayed⟩
      · left
        unfold Live.replayHeld
        rw [if_pos closed]
        refine ⟨closed, missing, fun more => ?_⟩
        rw [deed, cons_append, handle, silent]
        rfl
      · right
        rw [← replayed.relay] at onward
        exact ⟨connection, .cons deed fate replayed.phase (replayHeld_stays replayed.phase kept
          (fun frame listed => ⟨(below frame listed).1,
            replayed.maps frame (below frame listed).2, one frame listed⟩)
          replayed.goes onward (Nat.succ.inj aligned))⟩

end ReplayHeld

theorem replayHeld_deeds {waiting : List FrontendMessage} (replicas : Replicas) (now : Nat)
    (lend : Nat → Option Upstreamed) :
    ∀ {index : Nat} {live : Live}, live.Holding →
      (Live.replayHeld replicas now lend index live waiting).1.Holding ∧
        ∀ deed ∈ (Live.replayHeld replicas now lend index live waiting).2,
          (∃ message outputs, deed = .passed message outputs) ∨
            ∃ message, deed = .skipped message := by
  induction waiting with
  | nil => exact fun holding => ⟨holding, nofun⟩
  | cons message waiting ih =>
    intro index live holding
    have first : (live.replayFrame message replicas now (lend index)).1.Holding ∧
        ((∃ frame outputs,
            (live.replayFrame message replicas now (lend index)).2 =
              .passed frame outputs) ∨
          ∃ frame, (live.replayFrame message replicas now (lend index)).2 =
            .skipped frame) := by
      unfold Live.replayFrame
      split
      · exact ⟨holding.close, .inl ⟨_, _, rfl⟩⟩
      · dsimp only
        split
        · exact ⟨Live.holding_act (holding_heard holding _) .., .inl ⟨_, _, rfl⟩⟩
        · exact ⟨holding_heard holding _, .inr ⟨_, rfl⟩⟩
    unfold Live.replayHeld
    dsimp only
    split
    · exact ⟨first.1, forall_mem_singleton.mpr first.2⟩
    · obtain ⟨kept, later⟩ := @ih (index + 1) _ first.1
      exact ⟨kept, forall_mem_cons.mpr ⟨first.2, later⟩⟩

section Resent

variable {connection : Nat} {numbers : List Nat} {waiting : List FrontendMessage}
  {done : List Handling}

theorem Resent.numbers_eq (resent : Resent connection numbers waiting done) :
    done.map Handling.number = numbers := by
  induction resent with
  | nil => rfl
  | cons name later ih => exact congrArg _ ih

theorem Resent.fates (resent : Resent connection numbers waiting done) :
    ∀ handling ∈ done, ∃ message name, (handling.number, message) ∈ numbers.zip waiting ∧
      handling.fate = .sent connection (renamed name message) := by
  induction resent with
  | nil => exact nofun
  | cons name later ih =>
    refine forall_mem_cons.mpr ⟨⟨_, name, mem_cons_self, rfl⟩, ?_⟩
    intro handling listed
    obtain ⟨message, under, there, fate⟩ := ih handling listed
    exact ⟨message, under, mem_cons_of_mem _ there, fate⟩

theorem mem_sentOf {sent : Nat × Nat} (listed : sent ∈ sentOf done) :
    ∃ handling ∈ done, ∃ onward, handling.fate = .sent sent.1 onward ∧
      owesAnswer onward = true := by
  obtain ⟨handling, there, found⟩ := mem_filterMap.mp listed
  refine ⟨handling, there, ?_⟩
  split at found
  · rename_i connection onward fate
    split at found
    · rename_i owes
      cases found
      exact ⟨onward, fate, owes⟩
    · cases found
  · cases found

theorem Resent.sent (resent : Resent connection numbers waiting done) :
    ∀ sent ∈ sentOf done, sent.1 = connection := by
  intro sent listed
  obtain ⟨handling, there, onward, fate, -⟩ := mem_sentOf listed
  obtain ⟨message, name, -, other⟩ := resent.fates handling there
  rw [fate] at other
  exact (Fate.sent.inj other).1

end Resent

/-! ### The frame itself -/

inductive Passed (live : Live) (message onward : FrontendMessage) (lent : Option Upstreamed)
    (busy : Bool) (next : Live) : Option Fate → Prop
  | closed (phase : next.phase = .closed) (why : message = .terminate ∨ lent = none) :
      Passed live message onward lent busy next none
  | routed (phase : next.phase = live.phase) (same : next.upstream = live.upstream) {sql : Text}
      (carried : message.sql? = some sql)
      (assigns : (parseRouteAssignment sql).isSome = true) :
      Passed live message onward lent busy next (some .answered)
  | sent {connection : Nat} (goes : next.upstream.map Upstreamed.id = some connection)
      (kept : busy = true → live.upstream.map Upstreamed.id = some connection)
      {owed : Outstanding} (phase : next.phase = phaseAfter live.phase message owed) :
      Passed live message onward lent busy next (some (.sent connection onward))
  | prepared (parses : isParse message = true) (phase : next.phase = live.phase)
      {connection : Nat} (goes : next.upstream.map Upstreamed.id = some connection)
      (kept : busy = true → live.upstream.map Upstreamed.id = some connection) :
      Passed live message onward lent busy next (some .answered)

theorem passOn_passed {live : Live} (holding : live.Holding) {message onward : FrontendMessage}
    {replicas : Replicas} {now : Nat} {lent : Option Upstreamed} {busy : Bool}
    (keeps : keepsConnection replicas now busy live.relay [message] = true) :
    (live.passOn message onward replicas now lent).1.Holding ∧
      Passed live message onward lent busy (live.passOn message onward replicas now lent).1
        (fateOf (live.passOn message onward replicas now lent).2) := by
  refine ⟨Live.holding_act (holding_heard holding live.session) .., ?_⟩
  unfold Live.passOn
  unfold keepsConnection at keeps
  dsimp only at keeps ⊢
  cases decided : (live.relay.onClient message replicas now).2.action with
  | close =>
    refine .closed rfl (.inl ?_)
    by_contra stays
    unfold Relay.onClient at decided
    rw [if_neg stays] at decided
    split at decided
    · cases decided
    · unfold Relay.routeStatement at decided
      dsimp only at decided
      split at decided <;> cases decided
  | answer routed =>
    obtain ⟨sql, carried, assigns⟩ := onClient_answer decided
    cases routed <;> exact .routed rfl rfl carried assigns
  | send target acquire =>
    rw [decided] at keeps
    have stays := (Bool.and_eq_true_iff.mp keeps).1
    rcases act_went { live with relay := (live.relay.onClient message replicas now).1 } message
        onward lent target acquire with ⟨closed, none, missing⟩ | ⟨upstream, went⟩
    · rw [none]
      refine .closed closed (.inr ?_)
      cases acquire with
      | true => exact missing
      | false =>
        have present := upstream_of_stays holding decided rfl
        change live.upstream = Option.none at missing
        rw [missing] at present
        cases present
    · have kept (waits : busy = true) :
          live.upstream.map Upstreamed.id = some upstream.id := by
        rw [waits] at stays
        obtain rfl : acquire = false := by simpa using stays
        have chosen := went.chosen
        change live.upstream = some upstream at chosen
        rw [chosen]
        rfl
      rw [went.fate]
      cases gone : (sendUpstream live.session.statements upstream.record message
          onward).forwarded with
      | true =>
        have phase : _ = phaseAfter live.phase message (live.pumping.owed.sent message) :=
          went.phase.trans (if_pos gone)
        exact .sent went.connection kept phase
      | false =>
        obtain ⟨name, sql, -, rfl, -⟩ := sendUpstream_kept gone
        refine .prepared rfl (went.phase.trans ?_) went.connection kept
        exact if_neg (by rw [gone]; exact nofun)

end Pgprox.Serve
