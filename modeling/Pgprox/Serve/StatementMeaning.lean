/-
What a statement name means.

Beside the loop stand the frames it has read, for every held frame the frames that were read
before it, and every frame that was passed on with what was put on the wires for it.
-/

import Pgprox.Serve.CachedLoop

namespace Pgprox.Serve

open Proto Pools Route Session Cache Topologies List

/-! ### What is sent -/

theorem sendOn_statements (live : Live) (upstream : Upstreamed) (message onward : FrontendMessage) :
    (live.sendOn upstream message onward).1.session.statements =
      (forgetFor live.session.statements upstream.record message).1 := by
  rw [← sendUpstream_session _ _ message onward]
  unfold Live.sendOn
  dsimp only
  split
  · unfold Live.afterSending
    split
    · rfl
    · split
      · rfl
      · rfl
  · rfl

theorem act_statements (live : Live) (message onward : FrontendMessage) (lent : Option Upstreamed)
    (action : ClientAction) {name : Text} {prepared : PreparedStatement}
    (found : (live.act message onward lent action).1.session.statements.get name =
      some prepared) :
    live.session.statements.get name = some prepared := by
  have sent (live : Live) (upstream : Upstreamed)
      (found : (live.sendOn upstream message onward).1.session.statements.get name =
        some prepared) :
      live.session.statements.get name = some prepared := by
    rw [sendOn_statements] at found
    exact forgetFor_get found
  cases action with
  | close | answer => exact found
  | send target acquire =>
    cases acquire with
    | true =>
      cases lent with
      | none => exact found
      | some taken =>
        exact sent
          { live with
            relay := live.relay.acquired target
            serving := target
            upstream := some taken } taken found
    | false =>
      cases current : live.upstream with
      | none =>
        simp only [Live.act, current] at found
        exact found
      | some upstream =>
        simp only [Live.act, current] at found
        exact sent _ _ found

/-! ### Frames on the wires -/

/-- A frame that was passed on, the frames read before it, and what went out for it. -/
structure Passing where
  before : List FrontendMessage
  message : FrontendMessage
  outputs : List Output

def wireName (statement sql : Text) : Text :=
  if statement = [] then [] else (GlobalName.forSql sql).text

/-- A `Bind` goes out under the name of the SQL last parsed as the statement, and a `Parse` in
front of it prepares that SQL.  The unnamed statement keeps its name. -/
def meansLatest (statement : Text) (before : List FrontendMessage) : Output → Bool
  | .toServer _ (.bind _ name _) =>
    if statement = [] then name = []
    else (lastParse statement before).map (wireName statement) = some name
  | .toServer _ (.parse name sql) =>
    lastParse statement before = some sql ∧ name = wireName statement sql
  | _ => true

def Passing.right (passing : Passing) : Bool :=
  match passing.message with
  | .bind _ statement _ => passing.outputs.all (meansLatest statement passing.before)
  | _ => true

/-- The frames passed on in a list of deeds.  `befores` are the frames before each held frame
and before the frame just read. -/
def passedOn : List (List FrontendMessage) → List Deed → List Passing
  | befores, .withheld _ :: later | befores, .served _ _ :: later => passedOn befores later
  | before :: befores, .passed message outputs :: later =>
    ⟨before, message, outputs⟩ :: passedOn befores later
  | _ :: befores, .skipped _ :: later => passedOn befores later
  | _, _ => []

@[simp] theorem passedOn_nil (befores : List (List FrontendMessage)) :
    passedOn befores [] = [] := by
  cases befores <;> rfl

structure Named where
  caching : Caching
  received : List FrontendMessage
  behind : List (List FrontendMessage)
  passings : List Passing

namespace Named

def start (mode : PoolMode) (statementTimeout : Option Nat) (settings : List (Text × Text)) :
    Named where
  caching := .start mode statementTimeout settings
  received := []
  behind := []
  passings := []

def step (context : CacheContext) (state : Named) (event : CachedEvent) : Named :=
  let next := state.caching.step context event
  match event, state.caching.live.phase with
  | .client incoming .., .reading =>
    let befores := state.behind ++ [state.received]
    ⟨next.1, state.received ++ [incoming.message], befores.take next.1.waiting.length,
      state.passings ++ passedOn befores next.2⟩
  | .client incoming .., .copying _ =>
    ⟨next.1, state.received ++ [incoming.message], state.behind, state.passings⟩
  | _, _ => ⟨next.1, state.received, state.behind, state.passings⟩

/-- A name that a held frame uses is not parsed with other SQL, and nothing is parsed in the
middle of a copy. -/
def Allowed (state : Named) : CachedEvent → Prop
  | .client incoming .. =>
    match state.caching.live.phase, incoming.message with
    | .reading, .parse name sql =>
      (∃ held ∈ state.caching.waiting, statementName held = some name) →
        lastParse name state.received = some sql
    | .copying _, message => isParse message = false
    | _, _ => True
  | _ => True

abbrev Reached (context : CacheContext) (mode : PoolMode) (statementTimeout : Option Nat)
    (settings : List (Text × Text)) (state : Named) : Prop :=
  Run.Reachable (start mode statementTimeout settings) Allowed (step context) state

end Named

/-! ### Held frames -/

/-- A held frame still means what it meant: its `Parse` is the last one of its name, and its
`Bind` finds what it found. -/
def Meant (frames : List FrontendMessage) (sql : Option Text) :
    FrontendMessage × List FrontendMessage → Prop
  | (.parse name parsed, _) => lastParse name frames = some parsed
  | (.bind _ name _, before) => lastParse name before = lastParse name frames ∧
      lastParse name before = sql
  | _ => True

section

variable {frames before : List FrontendMessage} {sql : Option Text} {message : FrontendMessage}
  (meant : Meant frames sql (message, before))
include meant

theorem Meant.parse :
    ∀ name parsed, message = .parse name parsed → lastParse name frames = some parsed := by
  rintro name parsed rfl
  exact meant

theorem Meant.bind :
    ∀ portal name arguments, message = .bind portal name arguments →
      lastParse name before = lastParse name frames := by
  rintro portal name arguments rfl
  exact meant.1

end

theorem Meant.append {frames : List FrontendMessage} {sql : Option Text}
    {pair : FrontendMessage × List FrontendMessage} (meant : Meant frames sql pair)
    {message : FrontendMessage}
    (allowed : ∀ name parsed, message = .parse name parsed → statementName pair.1 = some name →
      lastParse name frames = some parsed) :
    Meant (frames ++ [message]) sql pair := by
  have same {name : Text} (uses : statementName pair.1 = some name) :
      lastParse name (frames ++ [message]) = lastParse name frames := by
    rw [lastParse_append_singleton]
    cases message with
    | parse statement parsed =>
      dsimp only
      split
      · rename_i same
        subst same
        exact (allowed statement parsed rfl uses).symm
      · rfl
    | _ => rfl
  obtain ⟨held, before⟩ := pair
  cases held with
  | parse name parsed => exact (same rfl).trans meant
  | bind portal name arguments => exact ⟨meant.1.trans (same rfl).symm, meant.2⟩
  | _ => trivial

section Outputs

variable {statements mapped : SessionStatements} {frames before : List FrontendMessage}
  {message onward : FrontendMessage} {portal name arguments : Text}
  (same : lastParse name before = lastParse name frames)
include same

theorem meansLatest_onward (known : Known statements frames)
    (named : mapStatementName statements (.bind portal name arguments) = some (mapped, onward))
    (connection : Nat) : meansLatest name before (.toServer connection onward) = true := by
  rw [mapStatementName_bind] at named
  split at named
  · rename_i unnamed
    obtain ⟨-, rfl⟩ := Prod.mk.inj (Option.some.inj named)
    simp [meansLatest, unnamed]
  · rename_i filled
    obtain ⟨prepared, found, pair⟩ := Option.map_eq_some_iff.mp named
    obtain ⟨-, rfl⟩ := Prod.mk.inj pair
    simp [meansLatest, wireName, filled, same, known name prepared found, prepared.named]

theorem meansLatest_parse {prepared : PreparedStatement} (known : Known statements frames)
    (found : statements.get name = some prepared) (connection : Nat) :
    meansLatest name before
      (.toServer connection (.parse (wireName name prepared.sql) prepared.sql)) = true := by
  simp [meansLatest, same, known name prepared found]

theorem sendOn_right {live : Live} (known : Known live.session.statements frames)
    (goes : ∀ connection, meansLatest name before (.toServer connection onward) = true)
    (upstream : Upstreamed) :
    (live.sendOn upstream (.bind portal name arguments) onward).2.all
      (meansLatest name before) = true := by
  unfold Live.sendOn
  cases found : live.session.statements.get name with
  | none =>
    rw [sendUpstream_bind_missing found]
    simp [goes]
  | some prepared =>
    have parses := fun connection => meansLatest_parse same known found connection
    by_cases unnamed : name = []
    · subst unnamed
      rw [sendUpstream_bind_unnamed found]
      have bare : wireName [] prepared.sql = [] := rfl
      rw [bare] at parses
      split
      · simp [goes]
      · simp [goes, parses]
    · have global : wireName name prepared.sql = prepared.global.text := by
        rw [wireName, if_neg unnamed, prepared.named]
      rw [global] at parses
      cases held : upstream.record.holds prepared.global with
      | true =>
        rw [sendUpstream_bind_held unnamed found held]
        simp [goes]
      | false =>
        rw [sendUpstream_bind_new unnamed found held]
        have closes : ∀ frame ∈ (evictFor upstream.record prepared.global).2,
            meansLatest name before (.toServer upstream.id frame) = true := by
          intro frame listed
          obtain ⟨closed, rfl⟩ := mem_evictFor listed
          rfl
        simpa [goes, parses] using closes

end Outputs

theorem act_right {live : Live} {frames before : List FrontendMessage}
    {message onward : FrontendMessage} (known : Known live.session.statements frames)
    (same : ∀ portal name arguments, message = .bind portal name arguments →
      lastParse name before = lastParse name frames ∧
        ∀ connection, meansLatest name before (.toServer connection onward) = true)
    (lent : Option Upstreamed) (action : ClientAction) :
    (Passing.mk before message (live.act message onward lent action).2).right = true := by
  cases message with
  | bind portal name arguments =>
    obtain ⟨latest, goes⟩ := same portal name arguments rfl
    have told (id : Nat) (sqls : List Text) :
        (sqls.map fun sql => Output.toServer id (.query sql)).all (meansLatest name before) =
          true := by
      simp [meansLatest]
    cases action with
    | close => rfl
    | answer routed => cases routed <;> rfl
    | send target acquire =>
      cases acquire with
      | true =>
        cases lent with
        | none => rfl
        | some taken =>
          have sent := @sendOn_right frames before onward portal name arguments latest
            { live with
              relay := live.relay.acquired target
              serving := target
              upstream := some taken } known goes taken
          change (Output.borrowed taken.id :: _ ++ _).all _ = true
          rw [cons_append, all_cons, all_append, told, sent]
          rfl
      | false =>
        unfold Live.act
        cases live.upstream with
        | none => rfl
        | some upstream => exact sendOn_right latest known goes upstream
  | _ => rfl

theorem passOn_right {live : Live} {frames before : List FrontendMessage}
    {message onward : FrontendMessage} (known : Known live.session.statements frames)
    (same : ∀ portal name arguments, message = .bind portal name arguments →
      lastParse name before = lastParse name frames ∧
        ∀ connection, meansLatest name before (.toServer connection onward) = true)
    (replicas : Replicas) (now : Nat) (lent : Option Upstreamed) :
    (Passing.mk before message (live.passOn message onward replicas now lent).2).right = true :=
  @act_right { live with relay := (live.relay.onClient message replicas now).1 } frames before
    message onward known same lent _

structure Replayed (frames before : List FrontendMessage) (next : Live) (deed : Deed) : Prop where
  known : Known next.session.statements frames
  right : ∀ befores, ∀ passing ∈ passedOn (before :: befores) [deed], passing.right = true
  one : ∀ befores later, passedOn (before :: befores) (deed :: later) =
    passedOn (before :: befores) [deed] ++ passedOn befores later

theorem replayed_passed {frames before : List FrontendMessage} {next : Live}
    {message : FrontendMessage} {outputs : List Output}
    (known : Known next.session.statements frames)
    (right : (Passing.mk before message outputs).right = true) :
    Replayed frames before next (.passed message outputs) where
  known := known
  right befores := by
    rw [passedOn, passedOn_nil]
    exact forall_mem_singleton.mpr right
  one befores later := by
    rw [passedOn, passedOn, passedOn_nil]
    rfl

theorem replayFrame_replayed {frames before : List FrontendMessage} {sql : Option Text}
    {live : Live} {message : FrontendMessage} (known : Known live.session.statements frames)
    (meant : Meant frames sql (message, before)) (replicas : Replicas) (now : Nat)
    (lent : Option Upstreamed) :
    Replayed frames before (live.replayFrame message replicas now lent).1
      (live.replayFrame message replicas now lent).2 := by
  unfold Live.replayFrame
  split
  · refine replayed_passed known ?_
    cases message <;> rfl
  · rename_i statements onward named
    have kept := known.map named meant.parse
    dsimp only
    split
    · refine replayed_passed
        (kept.mono fun name prepared found => act_statements _ _ _ _ _ found) ?_
      refine @act_right { live with
          relay := (live.relay.onClient message replicas now).1
          session := { live.session with statements } } frames before message onward kept ?_ lent _
      intro portal name arguments binds
      have latest := meant.bind portal name arguments binds
      rw [binds] at named
      exact ⟨latest, meansLatest_onward latest known named⟩
    · exact ⟨kept, fun _ => by simp [passedOn], fun _ _ => by simp [passedOn]⟩

theorem replayHeld_right {frames : List FrontendMessage} {sql : Option Text}
    {waiting : List FrontendMessage} (replicas : Replicas) (now : Nat)
    (lend : Nat → Option Upstreamed) :
    ∀ {behind : List (List FrontendMessage)} {index : Nat} {live : Live},
      behind.length = waiting.length → Known live.session.statements frames →
      (∀ pair ∈ waiting.zip behind, Meant frames sql pair) →
      Known (Live.replayHeld replicas now lend index live waiting).1.session.statements frames ∧
        ∀ rest, (∀ passing ∈ passedOn (behind ++ rest)
            (Live.replayHeld replicas now lend index live waiting).2, passing.right = true) ∧
          ((Live.replayHeld replicas now lend index live waiting).1.phase ≠ .closed →
            ∀ later, passedOn (behind ++ rest)
                ((Live.replayHeld replicas now lend index live waiting).2 ++ later) =
              passedOn (behind ++ rest)
                (Live.replayHeld replicas now lend index live waiting).2 ++
                passedOn rest later) := by
  induction waiting with
  | nil =>
    intro behind index live aligned known _
    obtain rfl := length_eq_zero_iff.mp aligned
    refine ⟨known, fun rest => ⟨?_, fun _ later => ?_⟩⟩
    · rw [Live.replayHeld, passedOn_nil]
      exact fun _ listed => absurd listed not_mem_nil
    · rw [Live.replayHeld, passedOn_nil]
      rfl
  | cons message waiting ih =>
    intro behind index live aligned known meant
    cases behind with
    | nil => cases aligned
    | cons before behind =>
      obtain ⟨here, below⟩ := forall_mem_cons.mp meant
      have first := replayFrame_replayed known here replicas now (lend index)
      unfold Live.replayHeld
      dsimp only
      split
      · rename_i closed
        exact ⟨first.known, fun rest => ⟨first.right _, fun opened => absurd closed opened⟩⟩
      · obtain ⟨kept, found⟩ := @ih behind (index + 1)
          (live.replayFrame message replicas now (lend index)).1
          (Nat.succ.inj aligned) first.known below
        refine ⟨kept, fun rest => ⟨?_, fun opened later => ?_⟩⟩
        · rw [cons_append, first.one]
          exact forall_mem_append.mpr ⟨first.right _, (found rest).1⟩
        · rw [cons_append, cons_append, first.one _ (_ ++ later),
            (found rest).2 opened later, ← append_assoc, ← first.one]

namespace Named

def isBind : FrontendMessage → Bool
  | .bind .. => true
  | _ => false

structure Sound (state : Named) : Prop where
  known : Known state.caching.live.session.statements state.received
  aligned : state.behind.length = state.caching.waiting.length
  meant : ∀ pair ∈ state.caching.waiting.zip state.behind,
    Meant state.received state.caching.held.sql pair
  empty : state.caching.held.isEmpty = true → state.caching.waiting = []
  bound : ∀ message ∈ state.caching.waiting, isBind message = true →
    state.caching.held.step ≠ .nothing ∧ state.caching.held.step ≠ .parsed
  right : ∀ passing ∈ state.passings, passing.right = true

theorem sound_start (mode : PoolMode) (statementTimeout : Option Nat)
    (settings : List (Text × Text)) : (start mode statementTimeout settings).Sound where
  known := nofun
  aligned := rfl
  meant := nofun
  empty := fun _ => rfl
  bound := nofun
  right := nofun

def heard (state : Named) (message : FrontendMessage) (result : Caching × List Deed) : Named where
  caching := result.1
  received := state.received ++ [message]
  behind := (state.behind ++ [state.received]).take result.1.waiting.length
  passings := state.passings ++ passedOn (state.behind ++ [state.received]) result.2

section Took

variable {context : CacheContext} {state : Named} {incoming : Incoming} {replicas : Replicas}
  {now : Nat} {lend : Nat → Option Upstreamed} {stored : CacheKey → Option (List UInt8)}

theorem Sound.behind_take (sound : state.Sound) :
    (state.behind ++ [state.received]).take state.caching.waiting.length = state.behind := by
  rw [← sound.aligned]
  exact take_left

theorem Sound.cleared (sound : state.Sound) {message : FrontendMessage} {next : Caching}
    {deeds : List Deed} (none : next.waiting = [])
    (known : Known next.live.session.statements (state.received ++ [message]))
    (right : ∀ passing ∈ passedOn (state.behind ++ [state.received]) deeds,
      passing.right = true) :
    (state.heard message (next, deeds)).Sound where
  known := known
  aligned := by
    unfold heard
    rw [none]
    rfl
  meant := by
    unfold heard
    rw [none]
    exact nofun
  empty := fun _ => none
  bound := by
    unfold heard
    rw [none]
    exact nofun
  right := forall_mem_append.mpr ⟨sound.right, right⟩

theorem Sound.aside (sound : state.Sound) {message : FrontendMessage} {live : Live}
    {deeds : List Deed} (known : Known live.session.statements (state.received ++ [message]))
    (meant : ∀ pair ∈ state.caching.waiting.zip state.behind,
      Meant (state.received ++ [message]) state.caching.held.sql pair)
    (right : ∀ passing ∈ passedOn (state.behind ++ [state.received]) deeds,
      passing.right = true) :
    (state.heard message ({ state.caching with live }, deeds)).Sound := by
  unfold heard
  rw [sound.behind_take]
  exact ⟨known, sound.aligned, meant, sound.empty, sound.bound,
    forall_mem_append.mpr ⟨sound.right, right⟩⟩

theorem Sound.meant_append (sound : state.Sound) {message : FrontendMessage}
    (allowed : ∀ name sql, message = .parse name sql →
      (∃ held ∈ state.caching.waiting, statementName held = some name) →
        lastParse name state.received = some sql) :
    ∀ pair ∈ state.caching.waiting.zip state.behind,
      Meant (state.received ++ [message]) state.caching.held.sql pair := by
  intro pair listed
  refine (sound.meant pair listed).append fun name sql parses uses => ?_
  exact allowed name sql parses ⟨pair.1, (of_mem_zip listed).1, uses⟩

section

variable (sound : state.Sound) {facts : Facts}
  (fits : state.caching.held.mayHold incoming.message facts = true)
include sound fits

theorem Sound.meant_record :
    ∀ pair ∈ state.caching.waiting.zip state.behind,
      Meant (state.received ++ [incoming.message])
        (state.caching.held.record incoming.message facts incoming.frame.body).sql pair := by
  intro pair listed
  have meant := sound.meant pair listed
  have waits := (of_mem_zip listed).1
  have kept (other : isParse incoming.message = false) :
      Meant (state.received ++ [incoming.message]) state.caching.held.sql pair := by
    refine meant.append fun name parsed same => ?_
    rw [same] at other
    cases other
  cases message : incoming.message with
  | parse name sql =>
    rw [message] at fits
    simp only [HeldSequence.mayHold, Bool.and_eq_true] at fits
    rw [sound.empty fits.1.1] at waits
    cases waits
  | bind portal name arguments =>
    rw [message] at fits kept
    obtain ⟨held, before⟩ := pair
    cases held with
    | bind _ _ _ =>
      have past := sound.bound _ waits rfl
      simp [HeldSequence.mayHold, past.1, past.2] at fits
    | parse _ _ => exact kept rfl
    | _ => trivial
  | describe | execute =>
    rw [message] at kept
    exact kept rfl
  | _ =>
    rw [message] at fits
    cases fits

theorem Sound.bound_record :
    ∀ message ∈ state.caching.waiting ++ [incoming.message], isBind message = true →
      (state.caching.held.record incoming.message facts incoming.frame.body).step ≠ .nothing ∧
        (state.caching.held.record incoming.message facts incoming.frame.body).step ≠
          .parsed := by
  cases message : incoming.message with
  | parse name sql =>
    rw [message] at fits
    simp only [HeldSequence.mayHold, Bool.and_eq_true] at fits
    rw [sound.empty fits.1.1]
    refine forall_mem_singleton.mpr fun binds => ?_
    cases binds
  | describe target name =>
    refine forall_mem_append.mpr ⟨sound.bound, forall_mem_singleton.mpr fun binds => ?_⟩
    cases binds
  | bind | execute =>
    intro _ _ _
    constructor <;> (intro same; cases same)
  | _ =>
    rw [message] at fits
    cases fits

end

theorem meant_held {held : HeldSequence} {received : List FrontendMessage}
    {session : SessionMemory} {serves : TenantId → Bool} {grant : Grant} {relay : Relay}
    {message : FrontendMessage} {body : List UInt8}
    (fits : held.mayHold message (factsFor serves grant relay message session) = true)
    (known : Known session.statements (received ++ [message])) :
    Meant (received ++ [message])
      (held.record message (factsFor serves grant relay message session) body).sql
      (message, received) := by
  cases message with
  | parse name sql =>
    change lastParse name (received ++ [.parse name sql]) = some sql
    rw [lastParse_append_singleton]
    exact if_pos rfl
  | bind portal name arguments =>
    have same : lastParse name (received ++ [.bind portal name arguments]) =
        lastParse name received := lastParse_append_of_not_parse rfl ..
    simp only [HeldSequence.mayHold, Bool.and_eq_true] at fits
    refine ⟨same.symm, ?_⟩
    change _ = (factsFor serves grant relay (.bind portal name arguments) session).sql
    rw [factsFor_sql fits.1.2]
    have found := fits.1.2
    rw [factsFor_sql fits.1.2, statementSql, Option.isSome_map] at found
    obtain ⟨prepared, kept⟩ := Option.isSome_iff_exists.mp found
    rw [statementSql, kept, ← same]
    exact known name prepared kept
  | _ => trivial

theorem Sound.withheld (sound : state.Sound) {memory : SessionMemory} {onward : FrontendMessage}
    {held : HeldSequence}
    (observed : observe state.caching.live.session incoming.message = some (memory, onward))
    (fed : withhold context.serves context.grant state.caching.live.relay memory
      state.caching.held incoming = (held, .withheld)) :
    (state.heard incoming.message
      (⟨{ state.caching.live with session := memory }, held,
          state.caching.waiting ++ [incoming.message]⟩,
        [.withheld incoming.message])).Sound := by
  obtain ⟨fits, rfl⟩ := HeldSequence.feed_withheld fed
  have known := sound.known.observe observed
  have behind : (state.behind ++ [state.received]).take
      (state.caching.waiting ++ [incoming.message]).length = state.behind ++ [state.received] := by
    rw [length_append, ← sound.aligned]
    exact take_of_length_le (Nat.le_of_eq length_append)
  constructor
  · exact known
  · unfold heard
    rw [behind, length_append, length_append, sound.aligned]
    rfl
  · unfold heard
    rw [behind, zip_append sound.aligned.symm]
    refine forall_mem_append.mpr ⟨?_, forall_mem_singleton.mpr ?_⟩
    · exact sound.meant_record fits
    · exact meant_held fits known
  · intro none
    exact absurd none (by simp [HeldSequence.isEmpty, heard])
  · exact sound.bound_record fits
  · refine forall_mem_append.mpr ⟨sound.right, ?_⟩
    rw [passedOn, passedOn_nil]
    exact nofun

theorem Sound.forward (sound : state.Sound) {memory : SessionMemory} {onward : FrontendMessage}
    (allowed : ∀ name sql, incoming.message = .parse name sql →
      (∃ held ∈ state.caching.waiting, statementName held = some name) →
        lastParse name state.received = some sql)
    (observed : observe state.caching.live.session incoming.message = some (memory, onward)) :
    (state.heard incoming.message
      ({ state.caching with live := { state.caching.live with session := memory } }.forward
        incoming.message onward replicas now lend)).Sound := by
  have known := sound.known.observe observed
  obtain ⟨kept, found⟩ := @replayHeld_right (state.received ++ [incoming.message])
    state.caching.held.sql state.caching.waiting replicas now lend state.behind 0
    { state.caching.live with session := memory } sound.aligned known
    (sound.meant_append allowed)
  obtain ⟨right, behind⟩ := found [state.received]
  unfold Caching.forward
  dsimp only
  split
  · exact sound.cleared rfl kept right
  · rename_i opened
    refine sound.cleared rfl (kept.mono fun name prepared => ?_) ?_
    · exact act_statements _ _ _ _ _
    · rw [behind opened]
      refine forall_mem_append.mpr ⟨right, ?_⟩
      rw [passedOn, passedOn_nil, forall_mem_singleton]
      apply passOn_right kept
      intro portal name arguments message
      have same : lastParse name state.received =
          lastParse name (state.received ++ [incoming.message]) := by
        rw [message]
        exact (lastParse_append_of_not_parse rfl ..).symm
      obtain ⟨mapped, named, pair⟩ := Option.map_eq_some_iff.mp observed
      obtain ⟨-, rfl⟩ := Prod.mk.inj pair
      rw [message] at named
      exact ⟨same, meansLatest_onward rfl sound.known named⟩

theorem Sound.took (sound : state.Sound)
    (allowed : ∀ name sql, incoming.message = .parse name sql →
      (∃ held ∈ state.caching.waiting, statementName held = some name) →
        lastParse name state.received = some sql)
    {result : Caching × List Deed}
    (took : Caching.Took context state.caching incoming replicas now lend stored result) :
    (state.heard incoming.message result).Sound := by
  cases took with
  | refused unknown =>
    have other : isParse incoming.message = false := by
      cases message : incoming.message with
      | parse name sql =>
        rw [message, observe, mapStatementName_parse] at unknown
        cases unknown
      | _ => rfl
    refine sound.aside ?_ (sound.meant_append allowed) ?_
    · intro name prepared found
      rw [lastParse_append_of_not_parse other]
      exact sound.known name prepared found
    · have refused (before : List FrontendMessage) :
          (Passing.mk before incoming.message [.refused .unknownStatement]).right = true := by
        cases message : incoming.message <;> rfl
      cases state.behind <;> simpa [passedOn] using refused _
  | hit observed query cacheable assembled found =>
    refine sound.aside (sound.known.observe observed) (sound.meant_append allowed) ?_
    rw [passedOn, passedOn_nil]
    exact nofun
  | withheld observed fed => exact sound.withheld observed fed
  | completed observed fed assembled =>
    refine sound.cleared rfl (sound.known.observe observed) ?_
    rw [passedOn, passedOn_nil]
    exact nofun
  | forwarded observed given => exact sound.forward allowed observed

end Took

theorem Sound.client {context : CacheContext} {state : Named} (sound : state.Sound)
    (incoming : Incoming) (replicas : Replicas) (now : Nat) (lend : Nat → Option Upstreamed)
    (stored : CacheKey → Option (List UInt8))
    (allowed : state.Allowed (.client incoming replicas now lend stored)) :
    (state.step context (.client incoming replicas now lend stored)).Sound := by
  unfold Allowed at allowed
  unfold step Caching.step
  dsimp only at allowed ⊢
  cases phase : state.caching.live.phase with
  | reading =>
    rw [phase] at allowed
    refine sound.took ?_
      (Caching.takeFrame_took context state.caching incoming replicas now lend stored)
    intro name sql parses uses
    rw [parses] at allowed
    exact allowed uses
  | copying flushing =>
    rw [phase] at allowed
    have session : (state.caching.inLoop
        (.client incoming.message replicas now (lend 0))).1.live.session =
          state.caching.live.session := by
      unfold Caching.inLoop Live.step
      rw [phase]
      dsimp only
      unfold Live.takeCopyFrame
      split
      · rfl
      · rfl
    refine ⟨?_, sound.aligned, ?_, sound.empty, sound.bound, sound.right⟩
    · rw [session]
      intro name prepared found
      rw [lastParse_append_of_not_parse allowed]
      exact sound.known name prepared found
    · refine sound.meant_append fun name sql parses => ?_
      rw [parses] at allowed
      cases allowed
  | pumping | closed =>
    unfold Caching.inLoop Live.step
    rw [phase]
    exact sound

theorem takeAnswer_memory (live : Live) (flushing : Bool) (message : BackendMessage)
    (position : Option Nat) :
    (live.takeAnswer flushing message position).1.session = live.session := by
  rcases live.takeAnswer_cases flushing message position with
    ⟨pumping, phase, outputs, took, -⟩ | ⟨status, pumping, -, -, took⟩
  · rw [took]
  · rw [took]
    unfold Live.release
    dsimp only
    split
    · rfl
    · rfl

theorem Sound.server {context : CacheContext} {state : Named} (sound : state.Sound)
    (message : BackendMessage) (position : Option Nat) :
    (state.step context (.server message position)).Sound := by
  have session : (state.caching.live.step (.server message position)).1.session =
      state.caching.live.session := by
    unfold Live.step
    dsimp only
    split
    · exact takeAnswer_memory ..
    · rfl
  refine ⟨?_, sound.aligned, sound.meant, sound.empty, sound.bound, sound.right⟩
  change Known (state.caching.live.step (.server message position)).1.session.statements _
  rw [session]
  exact sound.known

theorem Reached.sound {context : CacheContext} {mode : PoolMode} {statementTimeout : Option Nat}
    {settings : List (Text × Text)} {state : Named}
    (reached : Reached context mode statementTimeout settings state) : state.Sound := by
  apply reached.invariant
  · exact sound_start mode statementTimeout settings
  · intro before event sound allowed
    cases event with
    | client incoming replicas now lend stored =>
      exact sound.client incoming replicas now lend stored allowed
    | server message position => exact sound.server message position
    | lost =>
      exact ⟨sound.known, sound.aligned, sound.meant, sound.empty, sound.bound, sound.right⟩

/-- Of the store a `Sync` can change the step by one entry only: that under the key of the SQL
last parsed as the statement of a held `Bind`. -/
theorem Sound.asks_latest {context : CacheContext} {state : Named} (sound : state.Sound)
    {incoming : Incoming} (sync : incoming.message = .sync) {portal name arguments : Text}
    {before : List FrontendMessage}
    (held : (.bind portal name arguments, before) ∈ state.caching.waiting.zip state.behind)
    {one two : CacheKey → Option (List UInt8)}
    (agree : ∀ sql, lastParse name before = some sql →
      one (keyFor context.grant sql state.caching.held.params state.caching.held.resultFormats
          state.caching.live.session) =
        two (keyFor context.grant sql state.caching.held.params state.caching.held.resultFormats
          state.caching.live.session))
    (replicas : Replicas) (now : Nat) (lend : Nat → Option Upstreamed) :
    state.caching.takeFrame context incoming replicas now lend one =
      state.caching.takeFrame context incoming replicas now lend two := by
  have observed : observe state.caching.live.session incoming.message =
      some (state.caching.live.session, .sync) := by
    rw [sync]
    rfl
  have simple (stored : CacheKey → Option (List UInt8)) :
      Caching.simpleHit context state.caching.live incoming.message stored = none := by
    rw [sync]
    rfl
  have latest : lastParse name before = state.caching.held.sql := (sound.meant _ held).2
  unfold Caching.takeFrame
  rw [observed]
  dsimp only
  rw [simple one, simple two]
  dsimp only
  split
  · rfl
  · rename_i next fed
    obtain ⟨rfl, -⟩ := HeldSequence.feed_complete fed
    have hits : Caching.heldHit context state.caching.live.session state.caching.held one =
        Caching.heldHit context state.caching.live.session state.caching.held two := by
      unfold Caching.heldHit
      cases found : state.caching.held.sql with
      | none => rfl
      | some sql =>
        have entry := agree sql (latest.trans found)
        simp only [Option.bind_eq_bind, Option.bind_some, entry]
    rw [hits]
  · rfl

def along (events : List CachedEvent) : Named :=
  events.foldl (step acme) (start .transaction none [])

theorem allowed_of_not_parse {state : Named} {message : FrontendMessage} {tag : UInt8}
    {body : List UInt8} (other : isParse message = false) :
    state.Allowed (clientSends message tag body) := by
  unfold Allowed clientSends
  dsimp only
  split
  · cases other
  · exact other
  · trivial

end Named

end Pgprox.Serve
