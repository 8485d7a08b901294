/-
The loop with the result cache on.

Frames of an extended sequence are held back until the `Sync` completes the sequence or
another frame gives it up; held frames then go upstream, in order, before that frame.  What
the store holds and what the pool lends are the environment's.
-/

import Pgprox.Serve.CacheKey
import Pgprox.Serve.OneConnection
import Pgprox.Serve.Traffic

namespace Pgprox.Serve

open Proto Pools Route Session Cache Topologies

structure CacheContext where
  serves : TenantId → Bool
  grant : Grant

structure Caching where
  live : Live
  held : HeldSequence
  waiting : List FrontendMessage

inductive Deed
  | withheld (message : FrontendMessage)
  | served (messages : List FrontendMessage) (frames : List Frame)
  /-- Decided by the relay. -/
  | passed (message : FrontendMessage) (outputs : List Output)
  | skipped (message : FrontendMessage)
  | looped (outputs : List Output)

inductive CachedEvent
  | client (incoming : Incoming) (replicas : Replicas) (now : Nat)
      (lend : Nat → Option Upstreamed) (stored : CacheKey → Option (List UInt8))
  | server (message : BackendMessage) (position : Option Nat)
  | lost

/-! ### Held frames on their way upstream -/

def Live.passOn (live : Live) (message onward : FrontendMessage) (replicas : Replicas) (now : Nat)
    (lent : Option Upstreamed) : Live × List Output :=
  let decided := live.relay.onClient message replicas now
  { live with relay := decided.1 }.act message onward lent decided.2.action

def Live.replayFrame (live : Live) (message : FrontendMessage) (replicas : Replicas) (now : Nat)
    (lent : Option Upstreamed) : Live × Deed :=
  match mapStatementName live.session.statements message with
  | none =>
    let refused := live.refuse .unknownStatement
    (refused.1, .passed message refused.2)
  | some (statements, onward) =>
    let decided := live.relay.onClient message replicas now
    let heard : Live :=
      { live with relay := decided.1, session := { live.session with statements } }
    match decided.2.action with
    | .send target acquire =>
      let sent := heard.act message onward lent (.send target acquire)
      (sent.1, .passed message sent.2)
    | _ => (heard, .skipped message)

/-- The session may end on the way, and then the frames left are not sent. -/
def Live.replayHeld (replicas : Replicas) (now : Nat) (lend : Nat → Option Upstreamed) :
    Nat → Live → List FrontendMessage → Live × List Deed
  | _, live, [] => (live, [])
  | index, live, message :: later =>
    let replayed := live.replayFrame message replicas now (lend index)
    if replayed.1.phase = .closed then (replayed.1, [replayed.2])
    else
      let rest := replayHeld replicas now lend (index + 1) replayed.1 later
      (rest.1, replayed.2 :: rest.2)

/-! ### What the relay decides -/

theorem onClient_answer {relay : Relay} {message : FrontendMessage} {replicas : Replicas}
    {now : Nat} {routed : Routed}
    (answers : (relay.onClient message replicas now).2.action = .answer routed) :
    ∃ sql, message.sql? = some sql ∧ (parseRouteAssignment sql).isSome = true := by
  unfold Relay.onClient at answers
  split at answers
  · cases answers
  · split at answers
    · cases answers
    · rename_i sql carried
      refine ⟨sql, carried, ?_⟩
      rw [Option.isSome_iff_ne_none]
      intro none
      unfold Relay.routeStatement at answers
      dsimp only at answers
      split at answers
      · cases answers
      · rename_i other
        obtain ⟨target, sent⟩ := SessionRouter.route_of_statement none _ _ _ _
        exact other target sent

theorem awaitsMore_of_extended {message : FrontendMessage}
    (extended : message.startsExtendedSequence = true) : awaitsMore message = true := by
  cases message with
  | parse | bind | execute | describe | close => rfl
  | _ => cases extended

namespace Caching

def start (mode : PoolMode) (statementTimeout : Option Nat) (settings : List (Text × Text)) :
    Caching where
  live := .start mode statementTimeout settings
  held := .new
  waiting := []

def simpleHit (context : CacheContext) (live : Live) (message : FrontendMessage)
    (stored : CacheKey → Option (List UInt8)) : Option (List Frame) := do
  let key ← cacheKey context.serves context.grant message live.session live.relay
  let payload ← stored key
  (assembleSimple payload).toOption

def heldHit (context : CacheContext) (session : SessionMemory) (held : HeldSequence)
    (stored : CacheKey → Option (List UInt8)) : Option (List Frame) := do
  let sql ← held.sql
  let payload ← stored (keyFor context.grant sql held.params held.resultFormats session)
  (held.assemble payload).toOption

def forward (caching : Caching) (message onward : FrontendMessage) (replicas : Replicas)
    (now : Nat) (lend : Nat → Option Upstreamed) : Caching × List Deed :=
  let replayed := Live.replayHeld replicas now lend 0 caching.live caching.waiting
  let cleared : Caching :=
    ⟨replayed.1, if caching.held.isEmpty then caching.held else caching.held.clear, []⟩
  if replayed.1.phase = .closed then (cleared, replayed.2)
  else
    let sent := replayed.1.passOn message onward replicas now (lend caching.waiting.length)
    ({ cleared with live := sent.1 }, replayed.2 ++ [.passed message sent.2])

def takeFrame (context : CacheContext) (caching : Caching) (incoming : Incoming)
    (replicas : Replicas) (now : Nat) (lend : Nat → Option Upstreamed)
    (stored : CacheKey → Option (List UInt8)) : Caching × List Deed :=
  match observe caching.live.session incoming.message with
  | none =>
    let refused := caching.live.refuse .unknownStatement
    ({ caching with live := refused.1 }, [.passed incoming.message refused.2])
  | some (memory, onward) =>
    let heard : Caching := { caching with live := { caching.live with session := memory } }
    match simpleHit context heard.live incoming.message stored with
    | some frames => (heard, [.served [incoming.message] frames])
    | none =>
      match withhold context.serves context.grant heard.live.relay memory heard.held
          incoming with
      | (held, .withheld) =>
        (⟨heard.live, held, heard.waiting ++ [incoming.message]⟩,
          [.withheld incoming.message])
      | (held, .complete) =>
        match heldHit context memory held stored with
        | some frames =>
          (⟨heard.live, held.clear, []⟩,
            [.served (heard.waiting ++ [incoming.message]) frames])
        | none => heard.forward incoming.message onward replicas now lend
      | (_, .send) => heard.forward incoming.message onward replicas now lend

def inLoop (caching : Caching) (event : LoopEvent) : Caching × List Deed :=
  let next := caching.live.step event
  ({ caching with live := next.1 }, [.looped next.2])

def step (context : CacheContext) (caching : Caching) (event : CachedEvent) :
    Caching × List Deed :=
  match event with
  | .client incoming replicas now lend stored =>
    match caching.live.phase with
    | .reading => caching.takeFrame context incoming replicas now lend stored
    | _ => caching.inLoop (.client incoming.message replicas now (lend 0))
  | .server message position => caching.inLoop (.server message position)
  | .lost => caching.inLoop .lost

/-! ### What a frame can lead to -/

inductive Took (context : CacheContext) (caching : Caching) (incoming : Incoming)
    (replicas : Replicas) (now : Nat) (lend : Nat → Option Upstreamed)
    (stored : CacheKey → Option (List UInt8)) : Caching × List Deed → Prop
  | refused (unknown : observe caching.live.session incoming.message = none) :
      Took context caching incoming replicas now lend stored
        ({ caching with live := { caching.live with phase := .closed } },
          [.passed incoming.message [.refused .unknownStatement]])
  | hit {memory : SessionMemory} {onward : FrontendMessage} {sql : Text} {payload : List UInt8}
      {frames : List Frame}
      (observed : observe caching.live.session incoming.message = some (memory, onward))
      (query : incoming.message = .query sql)
      (cacheable : cacheableNow caching.live.relay sql = true)
      (assembled : assembleSimple payload = .ok frames)
      (found : simpleHit context { caching.live with session := memory } incoming.message
        stored = some frames) :
      Took context caching incoming replicas now lend stored
        ({ caching with live := { caching.live with session := memory } },
          [.served [incoming.message] frames])
  | withheld {memory : SessionMemory} {onward : FrontendMessage} {held : HeldSequence}
      (observed : observe caching.live.session incoming.message = some (memory, onward))
      (fed : withhold context.serves context.grant caching.live.relay memory caching.held
        incoming = (held, .withheld)) :
      Took context caching incoming replicas now lend stored
        (⟨{ caching.live with session := memory }, held, caching.waiting ++ [incoming.message]⟩,
          [.withheld incoming.message])
  | completed {memory : SessionMemory} {onward : FrontendMessage} {held : HeldSequence}
      {payload : List UInt8} {frames : List Frame}
      (observed : observe caching.live.session incoming.message = some (memory, onward))
      (fed : withhold context.serves context.grant caching.live.relay memory caching.held
        incoming = (held, .complete))
      (assembled : held.assemble payload = .ok frames) :
      Took context caching incoming replicas now lend stored
        (⟨{ caching.live with session := memory }, held.clear, []⟩,
          [.served (caching.waiting ++ [incoming.message]) frames])
  | forwarded {memory : SessionMemory} {onward : FrontendMessage}
      (observed : observe caching.live.session incoming.message = some (memory, onward))
      (given : (withhold context.serves context.grant caching.live.relay memory caching.held
        incoming).2 ≠ .withheld) :
      Took context caching incoming replicas now lend stored
        ({ caching with live := { caching.live with session := memory } }.forward
          incoming.message onward replicas now lend)

theorem ok_of_toOption {ε α : Type} {result : Except ε α} {value : α}
    (some : result.toOption = some value) : result = .ok value := by
  cases result with
  | error _ => cases some
  | ok built => exact congrArg _ (Option.some.inj some)

variable {context : CacheContext}

theorem simpleHit_inv {live : Live} {message : FrontendMessage}
    {stored : CacheKey → Option (List UInt8)} {frames : List Frame}
    (found : simpleHit context live message stored = some frames) :
    ∃ sql payload, message = .query sql ∧ cacheableNow live.relay sql = true ∧
      assembleSimple payload = .ok frames := by
  obtain ⟨key, keyed, rest⟩ := Option.bind_eq_some_iff.mp found
  obtain ⟨payload, -, assembled⟩ := Option.bind_eq_some_iff.mp rest
  unfold cacheKey at keyed
  split at keyed
  · rename_i sql
    split at keyed
    · rename_i may
      exact ⟨sql, payload, rfl, (Bool.and_eq_true_iff.mp may).2, ok_of_toOption assembled⟩
    · cases keyed
  · cases keyed

theorem heldHit_inv {session : SessionMemory} {held : HeldSequence}
    {stored : CacheKey → Option (List UInt8)} {frames : List Frame}
    (found : heldHit context session held stored = some frames) :
    ∃ payload, held.assemble payload = .ok frames := by
  obtain ⟨sql, -, rest⟩ := Option.bind_eq_some_iff.mp found
  obtain ⟨payload, -, assembled⟩ := Option.bind_eq_some_iff.mp rest
  exact ⟨payload, ok_of_toOption assembled⟩

theorem takeFrame_took (context : CacheContext) (caching : Caching) (incoming : Incoming)
    (replicas : Replicas) (now : Nat) (lend : Nat → Option Upstreamed)
    (stored : CacheKey → Option (List UInt8)) :
    Took context caching incoming replicas now lend stored
      (caching.takeFrame context incoming replicas now lend stored) := by
  unfold takeFrame
  split
  · rename_i unknown
    exact .refused unknown
  · rename_i memory onward observed
    dsimp only
    split
    · rename_i frames found
      obtain ⟨sql, payload, query, cacheable, assembled⟩ := simpleHit_inv found
      exact .hit observed query cacheable assembled found
    · split
      · rename_i held fed
        exact .withheld observed fed
      · rename_i held fed
        split
        · rename_i frames found
          obtain ⟨payload, assembled⟩ := heldHit_inv found
          exact .completed observed fed assembled
        · exact .forwarded observed (by rw [fed]; exact nofun)
      · rename_i fed
        exact .forwarded observed (by rw [fed]; exact nofun)

def after (context : CacheContext) (caching : Caching) (events : List CachedEvent) : Caching :=
  events.foldl (fun caching event => (caching.step context event).1) caching

/-! ### A tenant that has not opted in -/

theorem takeFrame_off (off : context.serves context.grant.tenant = false) {live : Live}
    (reading : live.phase = .reading) (incoming : Incoming) (replicas : Replicas) (now : Nat)
    (lend : Nat → Option Upstreamed) (stored : CacheKey → Option (List UInt8)) :
    takeFrame context ⟨live, .new, []⟩ incoming replicas now lend stored =
      (⟨(live.takeFrame incoming.message replicas now (lend 0)).1, .new, []⟩,
        [.passed incoming.message
          (live.takeFrame incoming.message replicas now (lend 0)).2]) := by
  have facts (message : FrontendMessage) (memory : SessionMemory) :
      factsFor context.serves context.grant live.relay message memory = ⟨none, false⟩ := by
    rw [factsFor, if_neg (by rw [off]; exact Bool.false_ne_true)]
  have miss (live : Live) : simpleHit context live incoming.message stored = none := by
    unfold simpleHit cacheKey
    rw [off]
    split
    · rfl
    · rfl
  unfold takeFrame Live.takeFrame
  cases observe live.session incoming.message with
  | none => rfl
  | some pair =>
    dsimp only
    rw [miss, withhold, facts]
    refine if_neg ?_
    rw [Live.replayHeld, reading]
    intro closed
    cases closed

def plain : CachedEvent → LoopEvent
  | .client incoming replicas now lend _ => .client incoming.message replicas now (lend 0)
  | .server message position => .server message position
  | .lost => .lost

def outputs : Deed → List Output
  | .passed _ outputs | .looped outputs => outputs
  | _ => []

theorem step_off (off : context.serves context.grant.tenant = false) (live : Live)
    (event : CachedEvent) :
    (step context ⟨live, .new, []⟩ event).1 = ⟨(live.step (plain event)).1, .new, []⟩ ∧
      (step context ⟨live, .new, []⟩ event).2.flatMap outputs = (live.step (plain event)).2 := by
  have looped (event : LoopEvent) :
      [.looped (live.step event).2].flatMap outputs = (live.step event).2 :=
    List.append_nil _
  cases event with
  | client incoming replicas now lend stored =>
    unfold step plain
    dsimp only
    split
    · rename_i reading
      rw [takeFrame_off off reading, Live.step, reading]
      exact ⟨rfl, List.append_nil _⟩
    · exact ⟨rfl, looped _⟩
  | server message position => exact ⟨rfl, looped _⟩
  | lost => exact ⟨rfl, looped _⟩

/-- With the cache off the loop is the one without it: after any events both have the same
session, and the next event puts the same on the wires. -/
theorem off_loop_is_plain (off : context.serves context.grant.tenant = false) (mode : PoolMode)
    (statementTimeout : Option Nat) (settings : List (Text × Text)) (events : List CachedEvent)
    (event : CachedEvent) :
    let caching := (start mode statementTimeout settings).after context events
    let live := (Live.start mode statementTimeout settings).after (events.map plain)
    caching.live = live ∧
      (caching.step context event).2.flatMap outputs = (live.step (plain event)).2 := by
  have same (live : Live) : after context ⟨live, .new, []⟩ events =
      ⟨live.after (events.map plain), .new, []⟩ := by
    induction events generalizing live with
    | nil => rfl
    | cons event later ih =>
      unfold after at ih ⊢
      rw [List.foldl_cons, (step_off off live event).1, ih]
      rfl
  unfold start
  rw [same]
  exact ⟨rfl, (step_off off _ event).2⟩

end Caching

/-! ### A tenant that has opted in -/

def acme : CacheContext where
  serves := fun _ => true
  grant := ⟨⟨"acme"⟩, ⟨⟨"db:5432"⟩, "shop", "app"⟩, []⟩

def clientSends (message : FrontendMessage) (tag : UInt8) (body : List UInt8) : CachedEvent :=
  .client ⟨message, ⟨tag, body⟩⟩ noReplica 0 (fun _ => some (connection 1)) fun _ => none

def parseSends (sql : String) : CachedEvent :=
  clientSends (.parse "s".toList sql.toList) Tag.parse
    (utf8 "s".toList ++ 0 :: utf8 sql.toList ++ [0, 0, 0])

def bindSends : CachedEvent :=
  clientSends (.bind [] "s".toList []) Tag.bind (0 :: utf8 "s".toList ++ [0, 0, 0, 0, 0, 0, 0])

def syncSends : CachedEvent :=
  clientSends .sync Tag.sync []

theorem off_loop_is_plain_query :
    let query := clientSends (.query "select 1".toList) Tag.query []
    ((Caching.start .transaction none []).after { acme with serves := fun _ => false }
      [query]).live = (Live.start .transaction none []).after [Caching.plain query] :=
  (Caching.off_loop_is_plain rfl .transaction none [] [_] .lost).1

end Pgprox.Serve
