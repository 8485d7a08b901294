/-
Which frames stay on the connection a session holds.

Frames without SQL are sent to the primary, whatever the connection in hand was acquired
for; frames with SQL go where the router says.  Both rules can name another target than the
one the session holds, and then the loop acquires another connection.
-/

import Pgprox.Serve.RelayLoop

namespace Pgprox.Serve

open Proto Pools Route Session List

def Output.StaysOn (connection : Nat) : Output → Prop
  | .borrowed _ => False
  | .toServer id _ => id = connection
  | _ => True

namespace Live

/-! ### The decision and its outputs -/

theorem sendOn_staysOn (live : Live) (upstream : Upstreamed) (message onward : FrontendMessage)
    (output : Output) (present : output ∈ (live.sendOn upstream message onward).2) :
    output.StaysOn upstream.id := by
  unfold sendOn at present
  dsimp only at present
  split at present
  · obtain ⟨frame, -, rfl⟩ := mem_map.mp present
    rfl
  · obtain rfl := mem_singleton.mp present
    trivial

theorem queueAnswer_staysOn (routed : Routed) (connection : Nat) (output : Output)
    (present : output ∈ queueAnswer routed) : output.StaysOn connection := by
  unfold queueAnswer at present
  split at present
  · rcases mem_cons.mp present with rfl | later
    · trivial
    · obtain rfl := mem_singleton.mp later
      trivial
  · obtain rfl := mem_singleton.mp present
    trivial

theorem act_staysOn {live : Live} {held : Upstreamed} (current : live.upstream = some held)
    (message onward : FrontendMessage) (lent : Option Upstreamed) {action : ClientAction}
    (never : ∀ target, action ≠ .send target true) :
    ∀ output ∈ (live.act message onward lent action).2, output.StaysOn held.id := by
  intro output present
  cases action with
  | close => cases present
  | answer routed => exact queueAnswer_staysOn routed held.id output present
  | send target acquire =>
    cases acquire with
    | true => exact absurd rfl (never target)
    | false =>
      simp only [act, current] at present
      exact sendOn_staysOn _ held message onward output present

theorem takeFrame_staysOn {live : Live} {held : Upstreamed}
    (current : live.upstream = some held) {message : FrontendMessage} {replicas : Replicas}
    {now : Nat} (lent : Option Upstreamed)
    (never : ∀ target,
      (live.relay.onClient message replicas now).2.action ≠ .send target true) :
    ∀ output ∈ (live.takeFrame message replicas now lent).2, output.StaysOn held.id := by
  intro output present
  unfold takeFrame at present
  split at present
  · obtain rfl := mem_singleton.mp present
    trivial
  · apply act_staysOn _ _ _ _ never output present
    exact current

theorem takeFrame_borrows {live : Live} {message : FrontendMessage} {replicas : Replicas}
    {now : Nat} {target : RouteTarget} (other : Upstreamed)
    (accepted : observe live.session message ≠ none)
    (acquires : (live.relay.onClient message replicas now).2.action = .send target true) :
    .borrowed other.id ∈ (live.takeFrame message replicas now (some other)).2 := by
  unfold takeFrame
  split
  · rename_i refused
    exact absurd refused accepted
  · dsimp only
    rw [acquires]
    exact mem_cons_self

end Live

/-! ### When the relay acquires -/

def pinnedBy (relay : Relay) (sql : Text) : Relay :=
  relay.withPin (relay.pin.observeStatement sql .default)

theorem pinnedBy_router (relay : Relay) (sql : Text) :
    (pinnedBy relay sql).router.wrote = relay.router.wrote ∧
      (pinnedBy relay sql).router.watermark = relay.router.watermark ∧
      (pinnedBy relay sql).router.fixed = relay.router.fixed ∧
      (pinnedBy relay sql).router.readOnlyTransaction = relay.router.readOnlyTransaction := by
  unfold pinnedBy
  rcases relay.withPin_router (relay.pin.observeStatement sql .default) with same | set
  · rw [same]
    exact ⟨rfl, rfl, rfl, rfl⟩
  · rw [set]
    exact ⟨rfl, rfl, rfl, rfl⟩

variable {message : FrontendMessage}

theorem onClient_router_of_sql (relay : Relay) {sql : Text} (carried : message.sql? = some sql)
    (replicas : Replicas) (now : Nat) :
    ∃ inTransaction, (relay.onClient message replicas now).1.router =
      ((pinnedBy relay sql).router.route sql inTransaction replicas now).1 := by
  have stays : message ≠ .terminate := by
    rintro rfl
    cases carried
  unfold Relay.onClient
  rw [if_neg stays]
  rw [carried]
  exact ⟨_, rfl⟩

theorem onClient_router (relay : Relay) (message : FrontendMessage) (replicas : Replicas)
    (now : Nat) :
    (relay.onClient message replicas now).1.router = relay.router ∨
      ∃ sql inTransaction, message.sql? = some sql ∧
        (relay.onClient message replicas now).1.router =
          ((pinnedBy relay sql).router.route sql inTransaction replicas now).1 := by
  cases carried : message.sql? with
  | some sql =>
    obtain ⟨inTransaction, routed⟩ := onClient_router_of_sql relay carried replicas now
    exact .inr ⟨sql, inTransaction, rfl, routed⟩
  | none =>
    left
    unfold Relay.onClient
    split
    · rfl
    · rw [carried]

variable {relay : Relay}

theorem routesTo_of_send {replicas : Replicas} {now : Nat} {sql : Text} {target : RouteTarget}
    {acquire : Bool} (carried : message.sql? = some sql)
    (action : (relay.onClient message replicas now).2.action = .send target acquire) :
    parseRouteAssignment sql = none ∧
      (pinnedBy relay sql).router.RoutesTo sql replicas now target := by
  have stays : message ≠ .terminate := by
    rintro rfl
    cases carried
  unfold Relay.onClient at action
  rw [if_neg stays] at action
  rw [carried] at action
  unfold Relay.routeStatement at action
  dsimp only at action
  split at action
  · rename_i routed same
    obtain ⟨rfl, -⟩ := ClientAction.send.inj action
    exact SessionRouter.routesTo_of_route same
  · cases action

theorem acquire_of_send {replicas : Replicas} {now : Nat} {target : RouteTarget} {acquire : Bool}
    (action : (relay.onClient message replicas now).2.action = .send target acquire) :
    acquire = decide (relay.held ≠ some target) := by
  unfold Relay.onClient at action
  split at action
  · cases action
  · split at action
    · cases action
      rfl
    · unfold Relay.routeStatement at action
      dsimp only at action
      split at action
      · cases action
        rfl
      · cases action

theorem onClient_action_of_no_sql (noSql : message.sql? = none) (stays : message ≠ .terminate)
    (replicas : Replicas) (now : Nat) :
    (relay.onClient message replicas now).2.action =
      .send .primary (relay.held ≠ some .primary) := by
  unfold Relay.onClient
  rw [if_neg stays]
  rw [noSql]
  rfl

theorem onClient_never_acquires_iff_of_sql {sql : Text} {held : RouteTarget}
    (holds : relay.held = some held) (hasSql : message.sql? = some sql) (replicas : Replicas)
    (now : Nat) :
    (∀ target, (relay.onClient message replicas now).2.action ≠ .send target true) ↔
      (parseRouteAssignment sql).isSome ∨
        (pinnedBy relay sql).router.RoutesTo sql replicas now held := by
  have stays : message ≠ .terminate := by
    rintro rfl
    cases hasSql
  constructor
  · intro never
    cases hint : parseRouteAssignment sql with
    | some assignment => exact .inl rfl
    | none =>
      obtain ⟨routed, calls⟩ := (pinnedBy relay sql).router.exists_routesTo sql replicas now
      have sent : (relay.onClient message replicas now).2.action =
          .send routed (relay.held ≠ some routed) := by
        unfold Relay.onClient
        rw [if_neg stays]
        rw [hasSql]
        unfold Relay.routeStatement
        dsimp only
        split
        · rename_i target same
          have goes : (pinnedBy relay sql).router.RoutesTo sql replicas now target :=
            (SessionRouter.routesTo_of_route same).2
          rw [SessionRouter.routesTo_unique goes calls]
        · rename_i other
          exact absurd ((SessionRouter.route_eq_to_iff hint).mpr calls) (other routed)
      refine .inr ?_
      by_contra different
      apply never routed
      have other : held ≠ routed := by
        rintro rfl
        exact different calls
      simp [sent, holds, other]
  · intro either target acquires
    obtain ⟨hint, calls⟩ := routesTo_of_send hasSql acquires
    have acquired := acquire_of_send acquires
    rcases either with hinted | here
    · rw [hint] at hinted
      cases hinted
    · rw [holds, SessionRouter.routesTo_unique here calls] at acquired
      simp at acquired

namespace Live

/-- The frame belongs to the connection in hand: it ends the session, or it carries
no SQL and the connection is for the primary, or its SQL is a route hint or is routed
to the target the connection is for. -/
def Follows (live : Live) (message : FrontendMessage) (replicas : Replicas) (now : Nat) : Prop :=
  message = .terminate ∨
    match message.sql? with
    | none => live.serving = .primary
    | some sql =>
      (parseRouteAssignment sql).isSome ∨
        (pinnedBy live.relay sql).router.RoutesTo sql replicas now live.serving

theorem never_acquires_iff_follows {live : Live} (holds : live.relay.held = some live.serving)
    (message : FrontendMessage) (replicas : Replicas) (now : Nat) :
    (∀ target, (live.relay.onClient message replicas now).2.action ≠ .send target true) ↔
      live.Follows message replicas now := by
  by_cases ends : message = .terminate
  · subst ends
    exact ⟨fun _ => .inl rfl, fun _ _ => nofun⟩
  · unfold Follows
    rw [or_iff_right ends]
    cases carried : message.sql? with
    | some sql => exact onClient_never_acquires_iff_of_sql holds carried replicas now
    | none =>
      rw [onClient_action_of_no_sql carried ends, holds]
      constructor
      · intro never
        by_contra different
        apply never .primary
        simp [different]
      · intro same target
        simp [same]

/-- The frame does not reach the relay: it is not read between answers, or it names a
statement the session never parsed. -/
def NotRelayed (live : Live) (message : FrontendMessage) : Prop :=
  live.phase ≠ .reading ∨ observe live.session message = none

theorem step_staysOn {live : Live} {held : Upstreamed} (holding : live.Holding)
    (current : live.upstream = some held) {message : FrontendMessage} {replicas : Replicas}
    {now : Nat} (lent : Option Upstreamed)
    (stays : live.NotRelayed message ∨ live.Follows message replicas now) :
    ∀ output ∈ (live.step (.client message replicas now lent)).2, output.StaysOn held.id := by
  intro output present
  have holds : live.relay.held = some live.serving := by
    rw [holding.held, current]
    rfl
  unfold step at present
  dsimp only at present
  split at present
  · rename_i reading
    rcases stays with notRelayed | follows
    · have refused := notRelayed.resolve_left (not_not_intro reading)
      simp only [takeFrame, refused, refuse, mem_singleton] at present
      rw [present]
      trivial
    · exact takeFrame_staysOn current lent
        ((never_acquires_iff_follows holds message replicas now).mpr follows) output present
  · simp only [takeCopyFrame, current, mem_singleton] at present
    rw [present]
    rfl
  · cases present

theorem step_staysOn_iff {live : Live} {held : Upstreamed} (holding : live.Holding)
    (current : live.upstream = some held) (message : FrontendMessage) (replicas : Replicas)
    (now : Nat) (other : Upstreamed) :
    (∀ output ∈ (live.step (.client message replicas now (some other))).2,
        output.StaysOn held.id) ↔
      live.NotRelayed message ∨ live.Follows message replicas now := by
  refine ⟨fun all => ?_, step_staysOn holding current (some other)⟩
  by_contra leaves
  obtain ⟨relayed, strays⟩ := not_or.mp leaves
  obtain ⟨reading, accepted⟩ := not_or.mp relayed
  have holds : live.relay.held = some live.serving := by
    rw [holding.held, current]
    rfl
  obtain ⟨target, acquires⟩ : ∃ target,
      (live.relay.onClient message replicas now).2.action = .send target true := by
    by_contra never
    exact strays ((never_acquires_iff_follows holds message replicas now).mp
      fun target same => never ⟨target, same⟩)
  have borrowed : .borrowed other.id ∈
      (live.step (.client message replicas now (some other))).2 := by
    unfold step
    rw [not_not.mp reading]
    exact takeFrame_borrows other accepted acquires
  exact all _ borrowed

end Live

def oneReplica : Replicas where
  freshness := 1000
  observations := [some { replayed := 0, inRecovery := true, at_ := 0 }]

def connection (id : Nat) : Upstreamed where
  id := id
  record := .new 128

def inTransactionAfter (sql : String) : Live :=
  (((Live.start .transaction none []).step
    (.client (.query sql.toList) oneReplica 0 (some (connection 1)))).1.step
      (.server (.readyForQuery .inTransaction) none)).1

theorem inTransactionAfter_reached (sql : String) :
    Live.Reached .transaction none [] (inTransactionAfter sql) :=
  .step (.step .start trivial) trivial

def followsStatement : FrontendMessage → Bool
  | .bind .. | .describe .. | .execute .. | .close .. | .sync | .flush => true
  | .copyData | .copyDone | .copyFail => true
  | _ => false

theorem follows_iff_of_followsStatement (frame : followsStatement message = true) (live : Live)
    (replicas : Replicas) (now : Nat) :
    live.Follows message replicas now ↔ live.serving = .primary := by
  unfold Live.Follows
  cases message with
  | bind | describe | execute | close | sync | flush | copyData | copyDone | copyFail =>
    simp [FrontendMessage.sql?]
  | _ => cases frame

namespace Live

structure OnPrimary (live : Live) (connection : Nat) : Prop where
  holding : live.Holding
  current : ∃ held, live.upstream = some held ∧ held.id = connection
  primary : live.serving = .primary

variable {live : Live} {connection : Nat}

section

variable (onPrimary : live.OnPrimary connection)
include onPrimary

theorem OnPrimary.act (message onward : FrontendMessage) (lent : Option Upstreamed) :
    (live.act message onward lent (.send .primary false)).1.OnPrimary connection := by
  obtain ⟨held, current, same⟩ := onPrimary.current
  refine ⟨holding_act onPrimary.holding .., ?_, ?_⟩
  · simp only [Live.act, current]
    obtain ⟨-, -, record, kept⟩ := sendOn_eq live held message onward
    exact ⟨_, kept, same⟩
  · simp only [Live.act, current]
    rw [(sendOn_eq live held message onward).2.1]
    exact onPrimary.primary

theorem OnPrimary.takeFrame {message : FrontendMessage}
    (frame : followsStatement message = true) (replicas : Replicas) (now : Nat)
    (lent : Option Upstreamed) :
    (live.takeFrame message replicas now lent).1.OnPrimary connection := by
  obtain ⟨held, current, -⟩ := onPrimary.current
  have noSql : message.sql? = none := by
    cases message with
    | query | parse => cases frame
    | _ => rfl
  have stays : message ≠ .terminate := by
    rintro rfl
    cases frame
  have action : (live.relay.onClient message replicas now).2.action = .send .primary false := by
    rw [onClient_action_of_no_sql noSql stays, onPrimary.holding.held, current,
      onPrimary.primary]
    rfl
  unfold Live.takeFrame
  split
  · exact ⟨onPrimary.holding.close, onPrimary.current, onPrimary.primary⟩
  · dsimp only
    rw [action]
    apply OnPrimary.act
    refine ⟨⟨?_, ?_, onPrimary.holding.answering⟩, onPrimary.current, onPrimary.primary⟩
    · rw [Relay.onClient_held]
      exact onPrimary.holding.held
    · rw [Relay.onClient_txStatus]
      exact onPrimary.holding.inTransaction

theorem OnPrimary.step {message : FrontendMessage}
    (frame : followsStatement message = true) (replicas : Replicas) (now : Nat)
    (lent : Option Upstreamed) :
    (live.step (.client message replicas now lent)).1.OnPrimary connection := by
  obtain ⟨held, current, same⟩ := onPrimary.current
  unfold Live.step
  dsimp only
  split
  · exact onPrimary.takeFrame frame replicas now lent
  · rename_i flushing copying
    refine ⟨onPrimary.holding.takeCopyFrame flushing message, ?_, ?_⟩
    · simp only [Live.takeCopyFrame, current]
      exact ⟨held, rfl, same⟩
    · simp only [Live.takeCopyFrame, current]
      exact onPrimary.primary
  · exact onPrimary

theorem OnPrimary.outputs {events : List LoopEvent}
    (frames : ∀ event ∈ events, ∃ message replicas now lent,
      event = .client message replicas now lent ∧ followsStatement message = true) :
    ∀ output ∈ live.outputs events, output.StaysOn connection := by
  induction events generalizing live with
  | nil => exact fun _ present => (nomatch present)
  | cons event later ih =>
    obtain ⟨message, replicas, now, lent, rfl, frame⟩ := frames event mem_cons_self
    intro output present
    rcases mem_append.mp present with here | after
    · obtain ⟨held, current, rfl⟩ := onPrimary.current
      apply step_staysOn onPrimary.holding current lent _ output here
      exact .inr ((follows_iff_of_followsStatement frame live replicas now).mpr
        onPrimary.primary)
    · apply ih (onPrimary.step frame replicas now lent) _ output after
      intro event member
      exact frames event (mem_cons_of_mem _ member)

end

end Live

def parsedOn (replicas : Replicas) : Live :=
  ((Live.start .transaction none []).step
    (.client (.parse "s1".toList "SELECT 1".toList) replicas 0 (some (connection 1)))).1

theorem parsedOn_reached (replicas : Replicas) :
    Live.Reached .transaction none [] (parsedOn replicas) :=
  .step .start trivial

def noReplica : Replicas where
  freshness := 1000
  observations := []

end Pgprox.Serve
