/-
Cancels on a node that lends one connection to many sessions.

Taking, registering, unregistering and returning a connection are steps of their own, and
so are routing a key, dialling and sending.  The registry names a connection only while its
session holds it, but a delivery keeps what it was told.
-/

import Pgprox.Library.Run
import Pgprox.Session.Cancel

namespace Pgprox.Serve

open Session List

structure Connection where
  id : Nat
  key : PoolKey
  backendKey : Option (Int × Int)
  deriving DecidableEq

def Connection.cancellation (connection : Connection) : Cancellation :=
  ⟨connection.key.server, connection.key, connection.backendKey.getD (0, 0)⟩

def Connection.AddressedBy (connection : Connection) (cancellation : Cancellation) : Prop :=
  connection.key.server = cancellation.key.server ∧
    connection.backendKey = some cancellation.backendKey

inductive Hold
  | idle
  | took (old : Option Connection) (new : Connection)
  | registered (old : Option Connection) (new : Connection)
  | holding (connection : Connection)
  | leaving (connection : Connection)
  | ended
  deriving DecidableEq

namespace Hold

def connections : Hold → List Connection
  | .idle | .ended => []
  | .took old new | .registered old new => old.toList ++ [new]
  | .holding connection | .leaving connection => [connection]

def entry : Hold → Option Connection
  | .idle | .leaving _ | .ended => none
  | .took old _ => old
  | .registered _ new => some new
  | .holding connection => some connection

theorem entry_mem {hold : Hold} {connection : Connection} (entry : hold.entry = some connection) :
    connection ∈ hold.connections := by
  cases hold with
  | idle => cases entry
  | took old new =>
    cases entry
    exact mem_cons_self
  | registered old new =>
    cases entry
    exact mem_append_right _ mem_cons_self
  | holding held =>
    cases entry
    exact mem_cons_self
  | leaving | ended => cases entry

end Hold

structure Delivery where
  key : ConnId
  cancellation : Cancellation
  dialled : Bool
  deriving DecidableEq

structure Node where
  registry : Registry
  sessions : FiniteMap ConnId Hold
  idle : List Connection
  opened : List Connection
  deliveries : List Delivery

inductive CancelEvent
  | issued (entropy : Option Nat)
  | opens (connection : Connection)
  | borrowed (key : ConnId) (connection : Connection)
  | registered (key : ConnId)
  | kept (key : ConnId)
  | returned (key : ConnId)
  | freed (key : ConnId)
  | ended (key : ConnId)
  | deregistered (key : ConnId)
  | routed (key : ConnId)
  | dialled (index : Nat)
  | sent (index : Nat)
  | abandoned (index : Nat)

def CancelEvent.routes : CancelEvent → Option ConnId
  | .routed key => some key
  | _ => none

namespace Node

def start (node : NodeId) : Node :=
  ⟨⟨node, ∅⟩, ∅, [], [], []⟩

def step (state : Node) : CancelEvent → Node
  | .issued entropy =>
    match state.registry.issue entropy with
    | some key => { state with sessions := state.sessions.insert key .idle }
    | none => state
  | .opens connection =>
    { state with
      idle := state.idle ++ [connection], opened := state.opened ++ [connection] }
  | .borrowed key connection =>
    if connection ∈ state.idle then
      match state.sessions.lookup key with
      | some .idle =>
        { state with
          sessions := state.sessions.insert key (.took none connection)
          idle := state.idle.erase connection }
      | some (.holding old) =>
        { state with
          sessions := state.sessions.insert key (.took (some old) connection)
          idle := state.idle.erase connection }
      | _ => state
    else state
  | .registered key =>
    match state.sessions.lookup key with
    | some (.took old new) =>
      { state with
        registry := state.registry.hold key new.cancellation
        sessions := state.sessions.insert key (.registered old new) }
    | _ => state
  | .kept key =>
    match state.sessions.lookup key with
    | some (.registered _ new) =>
      { state with sessions := state.sessions.insert key (.holding new) }
    | _ => state
  | .returned key =>
    match state.sessions.lookup key with
    | some (.holding connection) =>
      { state with
        registry := state.registry.release key
        sessions := state.sessions.insert key (.leaving connection) }
    | _ => state
  | .freed key =>
    match state.sessions.lookup key with
    | some (.leaving connection) =>
      { state with
        sessions := state.sessions.insert key .idle
        idle := state.idle ++ [connection] }
    | _ => state
  | .ended key =>
    match state.sessions.lookup key with
    | some (.leaving _) | none => state
    | some _ => { state with sessions := state.sessions.insert key .ended }
  | .deregistered key =>
    match state.sessions.lookup key with
    | some .ended =>
      { state with
        registry := state.registry.release key
        sessions := state.sessions.erase key }
    | _ => state
  | .routed key =>
    match state.registry.route key with
    | .here cancellation =>
      { state with deliveries := state.deliveries ++ [⟨key, cancellation, false⟩] }
    | .peer _ | .unknown => state
  | .dialled index =>
    { state with
      deliveries := state.deliveries.modify index fun delivery =>
        { delivery with dialled := true } }
  | .sent index | .abandoned index =>
    { state with deliveries := state.deliveries.eraseIdx index }

def sends (state : Node) : CancelEvent → Option Delivery
  | .sent index => state.deliveries[index]?.filter Delivery.dialled
  | _ => none

/-- What the world guarantees: a key is drawn once, and a server gives no two connections
one key, nor the key of process zero. -/
def Possible (state : Node) : CancelEvent → Prop
  | .issued entropy =>
    ∀ key ∈ state.registry.issue entropy, state.sessions.lookup key = none
  | .opens connection =>
    connection.backendKey ≠ some (0, 0) ∧
      ∀ other ∈ state.opened, other.key.server = connection.key.server →
        connection.backendKey ≠ none → other.backendKey ≠ connection.backendKey
  | _ => True

instance (state : Node) : (event : CancelEvent) → Decidable (state.Possible event)
  | .issued entropy =>
    inferInstanceAs (Decidable (∀ key ∈ state.registry.issue entropy, _ = none))
  | .opens _ => inferInstanceAs (Decidable (_ ∧ _))
  | .borrowed _ _ | .registered _ | .kept _ | .returned _ | .freed _ | .ended _
  | .deregistered _ | .routed _ | .dialled _ | .sent _ | .abandoned _ => .isTrue trivial

def givesUp (state : Node) : CancelEvent → List (ConnId × Connection)
  | .kept key =>
    match state.sessions.lookup key with
    | some (.registered old _) => old.toList.map (key, ·)
    | _ => []
  | .freed key =>
    match state.sessions.lookup key with
    | some (.leaving connection) => [(key, connection)]
    | _ => []
  | .ended key =>
    match state.sessions.lookup key with
    | some (.leaving _) | none => []
    | some hold => hold.connections.map (key, ·)
  | _ => []

/-- No connection is given up under a delivery, and no key is routed that only waits to be
taken out of the registry. -/
def Orderly (state : Node) (event : CancelEvent) : Prop :=
  (∀ given ∈ state.givesUp event, ∀ delivery ∈ state.deliveries,
    delivery.key = given.1 → delivery.cancellation ≠ given.2.cancellation) ∧
  ∀ key ∈ event.routes, state.sessions.lookup key ≠ some .ended

instance (state : Node) (event : CancelEvent) : Decidable (state.Orderly event) :=
  inferInstanceAs (Decidable (_ ∧ _))

def Holds (state : Node) (key : ConnId) (connection : Connection) : Prop :=
  ∃ hold, state.sessions.lookup key = some hold ∧ connection ∈ hold.connections

/-- What holds on a node in every orderly run: the registry has what each session says it
has, and every delivery is aimed at a connection its session holds. -/
structure Sound (state : Node) : Prop where
  entries : ∀ key, state.sessions.lookup key ≠ some .ended →
    state.registry.live.lookup key =
      ((state.sessions.lookup key).bind Hold.entry).map Connection.cancellation
  known : ∀ key connection, state.Holds key connection → connection ∈ state.opened
  pooled : ∀ connection ∈ state.idle, connection ∈ state.opened
  distinct : ∀ one ∈ state.opened, ∀ two ∈ state.opened, one.key.server = two.key.server →
    one.backendKey ≠ none → one.backendKey = two.backendKey → one = two
  nonzero : ∀ connection ∈ state.opened, connection.backendKey ≠ some (0, 0)
  aimed : ∀ delivery ∈ state.deliveries, ∃ connection,
    state.Holds delivery.key connection ∧ delivery.cancellation = connection.cancellation

variable {state : Node}

theorem holds_insert {key other : ConnId} {hold : Hold} {connection : Connection}
    {registry : Registry} {idle : List Connection} :
    Holds { state with
        registry := registry, sessions := state.sessions.insert key hold, idle := idle }
      other connection ↔
      if other = key then connection ∈ hold.connections else state.Holds other connection := by
  unfold Holds
  rw [AList.lookup_insert_if]
  split <;> simp

variable {key : ConnId} {hold : Hold}

/-- One session moves on.  What it has to bring is its own registry entry, and a connection
for each delivery that was aimed at one of its connections. -/
theorem Sound.moves (sound : state.Sound) {registry : Registry} {idle : List Connection}
    (others : ∀ other, other ≠ key →
      registry.live.lookup other = state.registry.live.lookup other)
    (own : hold ≠ .ended → registry.live.lookup key = hold.entry.map Connection.cancellation)
    (known : ∀ connection ∈ hold.connections, connection ∈ state.opened)
    (pooled : ∀ connection ∈ idle, connection ∈ state.opened)
    (aimed : ∀ delivery ∈ state.deliveries, delivery.key = key →
      ∀ connection, state.Holds key connection →
        delivery.cancellation = connection.cancellation →
          ∃ kept ∈ hold.connections, delivery.cancellation = kept.cancellation) :
    Sound { state with
      registry := registry, sessions := state.sessions.insert key hold, idle := idle } := by
  refine ⟨?_, ?_, pooled, sound.distinct, sound.nonzero, ?_⟩
  · intro other open_
    rw [AList.lookup_insert_if] at open_ ⊢
    by_cases same : other = key
    · rw [if_pos same] at open_ ⊢
      subst same
      exact own fun ended => open_ (congrArg some ended)
    · rw [if_neg same] at open_ ⊢
      rw [others other same]
      exact sound.entries other open_
  · intro other connection holds
    rw [holds_insert] at holds
    split at holds
    · exact known connection holds
    · exact sound.known other connection holds
  · intro delivery inFlight
    obtain ⟨connection, holds, same⟩ := sound.aimed delivery inFlight
    by_cases own_ : delivery.key = key
    · rw [own_] at holds
      obtain ⟨kept, among, aim⟩ := aimed delivery inFlight own_ connection holds same
      exact ⟨kept, holds_insert.mpr (by rwa [if_pos own_]), aim⟩
    · exact ⟨connection, holds_insert.mpr (by rwa [if_neg own_]), same⟩

theorem Sound.entry_of (sound : state.Sound) (found : state.sessions.lookup key = some hold)
    (running : hold ≠ .ended) :
    state.registry.live.lookup key = hold.entry.map Connection.cancellation := by
  rw [sound.entries key (by rw [found]; exact fun same => running (Option.some.inj same)), found]
  rfl

variable {connection : Connection}

theorem holds_of_lookup (found : state.sessions.lookup key = some hold) :
    state.Holds key connection ↔ connection ∈ hold.connections := by
  unfold Holds
  rw [found]
  simp

theorem Sound.known_of (sound : state.Sound) (found : state.sessions.lookup key = some hold) :
    ∀ connection ∈ hold.connections, connection ∈ state.opened :=
  fun connection among => sound.known key connection ((holds_of_lookup found).mpr among)

theorem aimed_of_subset {before : Hold} (found : state.sessions.lookup key = some before)
    (keeps : before.connections ⊆ hold.connections) :
    ∀ delivery ∈ state.deliveries, delivery.key = key →
      ∀ connection, state.Holds key connection →
        delivery.cancellation = connection.cancellation →
          ∃ kept ∈ hold.connections, delivery.cancellation = kept.cancellation :=
  fun _ _ _ connection holds aim => ⟨connection, keeps ((holds_of_lookup found).mp holds), aim⟩

theorem Sound.borrow (sound : state.Sound) {old : Option Connection} {new : Connection}
    (present : new ∈ state.idle) (found : state.sessions.lookup key = some hold)
    (running : hold ≠ .ended) (entry : hold.entry = old)
    (connections : hold.connections = old.toList) :
    Sound { state with
      sessions := state.sessions.insert key (.took old new), idle := state.idle.erase new } := by
  refine sound.moves (fun _ _ => rfl) ?_ ?_ ?_ ?_
  · intro _
    rw [sound.entry_of found running, entry]
    rfl
  · intro connection among
    rcases mem_append.mp among with before | last
    · exact sound.known_of found connection (connections ▸ before)
    · rw [mem_singleton.mp last]
      exact sound.pooled new present
  · exact fun connection among => sound.pooled connection (mem_of_mem_erase among)
  · apply aimed_of_subset found
    rw [connections]
    exact subset_append_left _ _

theorem exists_of_mem_modify {items : List Delivery} {index : Nat}
    {change : Delivery → Delivery} {item : Delivery} (present : item ∈ items.modify index change) :
    ∃ before ∈ items, item = before ∨ item = change before := by
  obtain ⟨position, found⟩ := mem_iff_getElem?.mp present
  rw [getElem?_modify] at found
  obtain ⟨before, there, same⟩ := Option.map_eq_some_iff.mp found
  refine ⟨before, mem_of_getElem? there, ?_⟩
  split at same
  · exact .inr same.symm
  · exact .inl same.symm

theorem Sound.deregister (sound : state.Sound) (found : state.sessions.lookup key = some .ended) :
    Sound { state with
      registry := state.registry.release key, sessions := state.sessions.erase key } := by
  have stays {other : ConnId} {connection : Connection} :
      Holds { state with
        registry := state.registry.release key, sessions := state.sessions.erase key }
        other connection ↔ state.Holds other connection := by
    unfold Holds
    rw [AList.lookup_erase_if]
    split
    · rename_i same
      rw [same, found]
      simp [Hold.connections]
    · rfl
  refine ⟨?_, ?_, sound.pooled, sound.distinct, sound.nonzero, ?_⟩
  · intro other running
    rw [AList.lookup_erase_if] at running ⊢
    rw [Registry.lookup_release]
    split
    · rfl
    · rename_i apart
      rw [if_neg apart] at running
      exact sound.entries other running
  · exact fun other connection holds => sound.known other connection (stays.mp holds)
  · intro delivery inFlight
    obtain ⟨connection, holds, same⟩ := sound.aimed delivery inFlight
    exact ⟨connection, stays.mpr holds, same⟩

theorem Sound.opens (sound : state.Sound) (possible : state.Possible (.opens connection)) :
    (state.step (.opens connection)).Sound := by
  obtain ⟨nonzero, fresh⟩ := possible
  have grown {other : Connection} (among : other ∈ state.opened) :
      other ∈ state.opened ++ [connection] :=
    mem_append_left _ among
  refine ⟨sound.entries, fun key other holds => grown (sound.known key other holds), ?_, ?_, ?_,
    sound.aimed⟩
  · intro other among
    rcases mem_append.mp among with before | last
    · exact grown (sound.pooled other before)
    · exact mem_append_right _ last
  · intro one firstOpened two secondOpened server keyed same
    rcases mem_append.mp firstOpened with first | first <;>
      rcases mem_append.mp secondOpened with second | second
    · exact sound.distinct one first two second server keyed same
    · rw [mem_singleton.mp second] at server same
      exact absurd same (fresh one first server (same ▸ keyed))
    · rw [mem_singleton.mp first] at server keyed same
      exact absurd same.symm (fresh two second server.symm keyed)
    · rw [mem_singleton.mp first, mem_singleton.mp second]
  · intro other among
    rcases mem_append.mp among with before | last
    · exact sound.nonzero other before
    · rw [mem_singleton.mp last]
      exact nonzero

theorem Sound.step (sound : state.Sound) {event : CancelEvent} (possible : state.Possible event)
    (orderly : state.Orderly event) : (state.step event).Sound := by
  cases event with
  | issued entropy =>
    unfold Node.step
    dsimp only
    split
    · rename_i key issued
      have fresh := possible key issued
      have absent : state.registry.live.lookup key = none := by
        rw [sound.entries key (by rw [fresh]; nofun), fresh]
        rfl
      refine sound.moves (fun _ _ => rfl) (fun _ => absent) nofun sound.pooled ?_
      rintro delivery _ _ connection ⟨hold, found, _⟩
      rw [fresh] at found
      cases found
    · exact sound
  | opens connection => exact sound.opens possible
  | borrowed key connection =>
    unfold Node.step
    dsimp only
    split
    · rename_i present
      split
      · rename_i found
        exact sound.borrow present found nofun rfl rfl
      · rename_i old found
        exact sound.borrow present found nofun rfl rfl
      · exact sound
    · exact sound
  | registered key =>
    unfold Node.step
    dsimp only
    split
    · rename_i old new found
      have known := sound.known_of found
      refine sound.moves (fun other apart => ?_) (fun _ => ?_) known sound.pooled
        (aimed_of_subset found fun _ among => among)
      · rw [Registry.lookup_hold, if_neg apart]
      · rw [Registry.lookup_hold, if_pos rfl]
        rfl
    · exact sound
  | kept key =>
    have undisturbed := orderly.1
    unfold givesUp at undisturbed
    unfold Node.step
    dsimp only at undisturbed ⊢
    split
    · rename_i old new found
      rw [found] at undisturbed
      have entry := sound.entry_of found nofun
      refine sound.moves (fun _ _ => rfl) (fun _ => entry) ?_ sound.pooled ?_
      · intro connection among
        exact sound.known_of found connection (mem_append_right _ among)
      · intro delivery inFlight own connection holds aim
        rcases mem_append.mp ((holds_of_lookup found).mp holds) with before | last
        · exact absurd aim (undisturbed (key, connection) (mem_map_of_mem before)
            delivery inFlight own)
        · exact ⟨connection, last, aim⟩
    · exact sound
  | returned key =>
    unfold Node.step
    dsimp only
    split
    · rename_i connection found
      have known := sound.known_of found
      refine sound.moves (fun other apart => ?_) (fun _ => ?_) known sound.pooled
        (aimed_of_subset found fun _ among => among)
      · rw [Registry.lookup_release, if_neg apart]
      · rw [Registry.lookup_release, if_pos rfl]
        rfl
    · exact sound
  | freed key =>
    have undisturbed := orderly.1
    unfold givesUp at undisturbed
    unfold Node.step
    dsimp only at undisturbed ⊢
    split
    · rename_i connection found
      rw [found] at undisturbed
      have entry := sound.entry_of found nofun
      refine sound.moves (fun _ _ => rfl) (fun _ => entry) nofun ?_ ?_
      · intro pooled among
        rcases mem_append.mp among with before | last
        · exact sound.pooled pooled before
        · exact sound.known_of found pooled last
      · intro delivery inFlight own held holds aim
        have same := mem_singleton.mp ((holds_of_lookup found).mp holds)
        rw [same] at aim
        exact absurd aim (undisturbed (key, connection) mem_cons_self delivery inFlight own)
    · exact sound
  | ended key =>
    unfold Node.step
    dsimp only
    split
    · exact sound
    · exact sound
    · rename_i hold notLeaving found
      have given : state.givesUp (.ended key) = hold.connections.map (key, ·) := by
        unfold givesUp
        dsimp only
        rw [found]
        cases hold <;> first | rfl | exact absurd rfl (notLeaving _)
      have undisturbed := orderly.1
      rw [given] at undisturbed
      refine sound.moves (fun _ _ => rfl) (fun running => absurd rfl running) nofun
        sound.pooled ?_
      intro delivery inFlight own connection holds aim
      exact absurd aim (undisturbed (key, connection)
        (mem_map_of_mem ((holds_of_lookup found).mp holds)) delivery inFlight own)
  | deregistered key =>
    unfold Node.step
    dsimp only
    split
    · rename_i found
      exact sound.deregister found
    · exact sound
  | routed key =>
    have running := orderly.2 key rfl
    unfold Node.step
    dsimp only
    split
    · rename_i cancellation routed
      refine ⟨sound.entries, sound.known, sound.pooled, sound.distinct, sound.nonzero, ?_⟩
      intro delivery inFlight
      rcases mem_append.mp inFlight with before | last
      · exact sound.aimed delivery before
      · rw [mem_singleton.mp last]
        have entry := sound.entries key running
        rw [Registry.lookup_of_route _ routed] at entry
        obtain ⟨connection, registered, same⟩ := Option.map_eq_some_iff.mp entry.symm
        obtain ⟨hold, found, own⟩ := Option.bind_eq_some_iff.mp registered
        exact ⟨connection, ⟨hold, found, Hold.entry_mem own⟩, same.symm⟩
    · exact sound
    · exact sound
  | dialled index =>
    refine ⟨sound.entries, sound.known, sound.pooled, sound.distinct, sound.nonzero, ?_⟩
    intro delivery inFlight
    obtain ⟨before, present, same⟩ := exists_of_mem_modify inFlight
    rcases same with rfl | rfl
    · exact sound.aimed _ present
    · exact sound.aimed before present
  | sent | abandoned =>
    exact ⟨sound.entries, sound.known, sound.pooled, sound.distinct, sound.nonzero,
      fun delivery inFlight => sound.aimed delivery (mem_of_mem_eraseIdx inFlight)⟩

abbrev Reached (node : NodeId) (state : Node) : Prop :=
  Run.Reachable (start node)
    (fun state event => state.Possible event ∧ state.Orderly event) step state

theorem sound_start (node : NodeId) : (start node).Sound where
  entries := fun _ _ => rfl
  known := by
    rintro key connection ⟨hold, found, -⟩
    cases found
  pooled := nofun
  distinct := nofun
  nonzero := nofun
  aimed := nofun

theorem Reached.sound {node : NodeId} (reached : Reached node state) : state.Sound := by
  apply reached.invariant
  · exact sound_start node
  · intro before event sound allowed
    exact sound.step allowed.1 allowed.2

theorem Sound.addressed (sound : state.Sound) {target : Connection}
    (present : target ∈ state.opened) (listed : connection ∈ state.opened)
    (addressed : connection.AddressedBy target.cancellation) : connection = target := by
  obtain ⟨server, keyed⟩ := addressed
  cases given : target.backendKey with
  | none =>
    unfold Connection.cancellation at keyed
    rw [given] at keyed
    exact absurd keyed (sound.nonzero connection listed)
  | some backendKey =>
    unfold Connection.cancellation at keyed
    rw [given] at keyed
    exact sound.distinct connection listed target present server (by rw [keyed]; nofun)
      (keyed.trans given.symm)

end Node

theorem cancel_reaches_own_session (node : NodeId) (state : Node)
    (reached : Node.Reached node state) (event : CancelEvent) (delivery : Delivery)
    (sent : state.sends event = some delivery) (connection : Connection)
    (listed : connection ∈ state.opened)
    (addressed : connection.AddressedBy delivery.cancellation) :
    state.Holds delivery.key connection := by
  have sound := reached.sound
  have inFlight : delivery ∈ state.deliveries := by
    unfold Node.sends at sent
    split at sent
    · exact mem_of_getElem? (Option.filter_eq_some_iff.mp sent).1
    · cases sent
  obtain ⟨target, holds, aim⟩ := sound.aimed delivery inFlight
  rw [aim] at addressed
  rw [sound.addressed (sound.known _ _ holds) listed addressed]
  exact holds

/-! ### A cancel in time, and one that comes late -/

def sharedUpstream : Connection :=
  ⟨1, ⟨⟨"db-1:5432"⟩, "acme", "app"⟩, some (4242, 7)⟩

def firstClient : ConnId :=
  .new 1 10

def secondClient : ConnId :=
  .new 1 20

def cancelDialled : List CancelEvent :=
  [.issued (some 10), .opens sharedUpstream, .borrowed firstClient sharedUpstream,
    .registered firstClient, .kept firstClient,
    .routed firstClient, .dialled 0]

theorem cancelDialled_reached :
    Node.Reached 1 (cancelDialled.foldl Node.step (.start 1)) :=
  Run.Reachable.start.foldl (by decide +kernel)

theorem cancel_in_time :
    (cancelDialled.foldl Node.step (.start 1)).Holds firstClient sharedUpstream :=
  cancel_reaches_own_session 1 _ cancelDialled_reached (.sent 0)
    ⟨firstClient, sharedUpstream.cancellation, true⟩ (by decide +kernel) sharedUpstream
    (by decide +kernel)
    ⟨rfl, rfl⟩

def handedOver : List CancelEvent :=
  cancelDialled ++
    [.returned firstClient, .freed firstClient, .issued (some 20),
      .borrowed secondClient sharedUpstream,
      .registered secondClient, .kept secondClient]

theorem cancel_reaches_next_session :
    ¬ ∀ (node : NodeId) (state : Node),
      Run.Reachable (Node.start node) Node.Possible Node.step state →
      ∀ event delivery, state.sends event = some delivery →
        ∀ connection ∈ state.opened, connection.AddressedBy delivery.cancellation →
          state.Holds delivery.key connection := by
  intro always
  have holds := always 1 (handedOver.foldl Node.step (.start 1))
    (Run.Reachable.start.foldl (by decide +kernel)) (.sent 0)
    ⟨firstClient, sharedUpstream.cancellation, true⟩ (by decide +kernel) sharedUpstream
    (by decide +kernel)
    ⟨rfl, rfl⟩
  have idle : (handedOver.foldl Node.step (.start 1)).sessions.lookup firstClient = some .idle := by
    decide +kernel
  exact absurd ((Node.holds_of_lookup idle).mp holds) nofun

end Pgprox.Serve
