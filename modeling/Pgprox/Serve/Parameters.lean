/-
Parameters on a connection that several sessions borrow in turn.

A session that borrows the connection replays what it set itself; nothing undoes what the
borrowers before it left.
-/

import Pgprox.Serve.Traffic

namespace Pgprox.Serve

open Proto Pools Session Sql
open List hiding lex

/-! ### The server's parameters -/

inductive Change
  | set (name value : Text)
  | reset (name : Text)
  | resetAll
  deriving DecidableEq

namespace Change

def apply (opening values : Text → Text) : Change → Text → Text
  | .set name value => Function.update values name value
  | .reset name => Function.update values name (opening name)
  | .resetAll => opening

def valuesAfter (opening : Text → Text) (changes : List Change) : Text → Text :=
  changes.foldl (apply opening) opening

def touches (name : Text) : Change → Bool
  | .set changed _ => changed = name
  | .reset changed => changed = name
  | .resetAll => true

def sets (name : Text) : Change → Bool
  | .set changed _ => changed = name
  | _ => false

/-- The last change that concerns a parameter, if there is one, gave it its opening
value. -/
def Restored (opening : Text → Text) (name : Text) (changes : List Change) : Prop :=
  ∀ value, (changes.filter (touches name)).getLast? = some (.set name value) →
    value = opening name

theorem apply_of_not_touches {opening values : Text → Text} {change : Change} {name : Text}
    (apart : change.touches name = false) : change.apply opening values name = values name := by
  cases change with
  | set | reset =>
    exact Function.update_of_ne (fun same => of_decide_eq_false apart same.symm) _ _
  | resetAll => cases apart

theorem valuesAfter_append (opening : Text → Text) (earlier later : List Change) :
    valuesAfter opening (earlier ++ later) =
      later.foldl (apply opening) (valuesAfter opening earlier) :=
  foldl_append

theorem foldl_apply_of_not_touches {opening : Text → Text} {name : Text}
    {changes : List Change} (apart : ∀ change ∈ changes, change.touches name = false)
    (values : Text → Text) : changes.foldl (apply opening) values name = values name := by
  induction changes generalizing values with
  | nil => rfl
  | cons change later ih =>
    rw [foldl_cons, ih fun other among => apart other (mem_cons_of_mem _ among)]
    exact apply_of_not_touches (apart change mem_cons_self)

/-- A parameter has its opening value exactly when the last change to it, if any, gave
it that value. -/
theorem valuesAfter_eq_opening_iff (opening : Text → Text) (name : Text)
    (changes : List Change) :
    valuesAfter opening changes name = opening name ↔ Restored opening name changes := by
  induction changes using List.reverseRecOn with
  | nil => simp [valuesAfter, Restored]
  | append_singleton earlier change ih =>
    unfold Restored
    rw [valuesAfter_append, foldl_cons, foldl_nil, filter_append]
    cases touched : change.touches name with
    | false =>
      rw [apply_of_not_touches touched, filter_cons_of_neg (by simp [touched]),
        filter_nil, append_nil]
      exact ih
    | true =>
      rw [filter_cons_of_pos touched, filter_nil, getLast?_append]
      cases change with
      | set changed value =>
        have same : changed = name := of_decide_eq_true touched
        subst same
        simp [apply]
      | reset changed =>
        have same : changed = name := of_decide_eq_true touched
        subst same
        simp [apply]
      | resetAll => simp [apply]

end Change

/-! ### Sessions that borrow the connection -/

structure Borrower where
  settings : List (Text × Text)
  sent : List Text
  statementTimeout : Option Nat

namespace Borrower

def params (borrower : Borrower) : SessionParams :=
  borrower.sent.foldl (fun params sql => params.observeStatement sql .default)
    (borrower.settings.foldl (fun params setting => params.record setting.1 setting.2) .new)

def replay (borrower : Borrower) : List Text :=
  resume ⟨borrower.params, ∅⟩ borrower.statementTimeout

end Borrower

structure Turn where
  borrower : Borrower
  ran : List Text

def Turn.texts (turn : Turn) : List Text :=
  turn.borrower.replay ++ turn.ran

section Reading

-- how the server reads a text
variable (reads : Text → List Change)

def changesOf (turns : List Turn) : List Change :=
  turns.flatMap fun turn => turn.texts.flatMap reads

/-- Neither a startup setting nor a text of the session sets the parameter. -/
def Borrower.NeverSet (borrower : Borrower) (name : Text) : Prop :=
  (∀ setting ∈ borrower.settings, normalise setting.1 ≠ name) ∧
    ∀ sql ∈ borrower.sent,
      SessionParams.sets sql name = false ∧ ∀ change ∈ reads sql, change.sets name = false

instance (borrower : Borrower) (name : Text) : Decidable (borrower.NeverSet reads name) :=
  inferInstanceAs (Decidable (_ ∧ _))

/-- The server reads a replayed `SET` as one. -/
structure Borrower.Understood (borrower : Borrower) : Prop where
  params : ∀ entry ∈ borrower.params.sorted,
    reads ("SET ".toList ++ entry.1 ++ " = ".toList ++ quote entry.2) = [.set entry.1 entry.2]
  timeout : ∀ milliseconds ∈ borrower.statementTimeout,
    reads ("SET statement_timeout = ".toList ++ (Nat.repr milliseconds).toList) =
      [.set "statement_timeout".toList (Nat.repr milliseconds).toList]

def valuesAtBorrow (opening : Text → Text) (turns : List Turn) (borrower : Borrower) :
    Text → Text :=
  Change.valuesAfter opening (changesOf reads turns ++ borrower.replay.flatMap reads)

variable {reads}

variable {borrower : Borrower}

theorem Borrower.NeverSet.lookup {name : Text} (never : borrower.NeverSet reads name) :
    borrower.params.values.lookup name = none := by
  refine List.foldlRecOn (motive := fun kept : SessionParams => kept.values.lookup name = none)
      _ _ ?_ ?_
  · refine List.foldlRecOn (motive := fun kept : SessionParams => kept.values.lookup name = none)
      _ _ rfl ?_
    · intro params unset setting among
      unfold SessionParams.record
      rw [AList.lookup_insert_if, if_neg (Ne.symm (never.1 setting among))]
      exact unset
  · intro params unset sql among
    exact SessionParams.observeStatement_lookup_none unset (never.2 sql among).1

theorem Borrower.Understood.replay (understood : borrower.Understood reads) :
    borrower.replay.flatMap reads =
      (borrower.statementTimeout.toList.map fun milliseconds =>
        .set "statement_timeout".toList (Nat.repr milliseconds).toList) ++
      borrower.params.sorted.map fun entry => .set entry.1 entry.2 := by
  unfold Borrower.replay resume onAcquire
  rw [SessionParams.replayOnto_new, flatMap_append]
  congr 1
  · cases cap : borrower.statementTimeout with
    | none => rfl
    | some milliseconds =>
      have read := understood.timeout milliseconds cap
      rw [Option.toList_some, map_singleton, flatMap_singleton, read]
      rfl
  · rw [flatMap_map, map_eq_flatMap]
    exact flatMap_congr understood.params

/-- A replay leaves a parameter the session never set as it was, except that a cap sets
the statement timeout. -/
theorem valuesAtBorrow_eq {opening : Text → Text} {turns : List Turn} {name : Text}
    (understood : borrower.Understood reads) (never : borrower.NeverSet reads name) :
    valuesAtBorrow reads opening turns borrower name =
      match borrower.statementTimeout with
      | some milliseconds =>
        if name = "statement_timeout".toList then (Nat.repr milliseconds).toList
        else Change.valuesAfter opening (changesOf reads turns) name
      | none => Change.valuesAfter opening (changesOf reads turns) name := by
  unfold valuesAtBorrow
  rw [understood.replay, Change.valuesAfter_append, foldl_append]
  have others : ∀ change ∈ borrower.params.sorted.map fun entry => Change.set entry.1 entry.2,
      change.touches name = false := by
    intro change among
    obtain ⟨entry, recorded, same⟩ := mem_map.mp among
    subst same
    apply decide_eq_false
    intro same
    have present := SessionParams.mem_sorted_iff.mp recorded
    rw [same, never.lookup] at present
    cases present
  rw [Change.foldl_apply_of_not_touches others]
  cases borrower.statementTimeout with
  | none => rfl
  | some milliseconds => exact Function.update_apply _ _ _ _

/-- When the first statement of a borrow reaches the server, every replayable parameter
the session never set has its opening value, or is the statement timeout under the
tenant's cap, exactly when the last change any earlier borrower made to each of them on
this connection, the capped timeout apart, gave it back its opening value. -/
theorem unset_parameters_at_borrow_iff (opening : Text → Text) (turns : List Turn)
    (borrower : Borrower) (understood : borrower.Understood reads) :
    (∀ name, Replayable.default.contains name = true → borrower.NeverSet reads name →
      valuesAtBorrow reads opening turns borrower name = opening name ∨
        ∃ milliseconds, borrower.statementTimeout = some milliseconds ∧
          name = "statement_timeout".toList ∧
          valuesAtBorrow reads opening turns borrower name =
            (Nat.repr milliseconds).toList) ↔
    ∀ name, Replayable.default.contains name = true → borrower.NeverSet reads name →
      (name = "statement_timeout".toList ∧ borrower.statementTimeout.isSome) ∨
        Change.Restored opening name (changesOf reads turns) := by
  refine forall_congr' fun name => forall_congr' fun _listed => forall_congr' fun never => ?_
  rw [valuesAtBorrow_eq understood never, ← Change.valuesAfter_eq_opening_iff]
  cases borrower.statementTimeout with
  | none => simp
  | some milliseconds =>
    dsimp only
    by_cases timeout : name = "statement_timeout".toList
    · rw [if_pos timeout]
      exact ⟨fun _ => .inl ⟨timeout, rfl⟩, fun _ => .inr ⟨milliseconds, rfl, timeout, rfl⟩⟩
    · rw [if_neg timeout]
      constructor
      · rintro (same | ⟨_, _, capped, _⟩)
        · exact .inr same
        · exact absurd capped timeout
      · rintro (⟨capped, _⟩ | same)
        · exact absurd capped timeout
        · exact .inl same

end Reading

/-! ### The borrower a session of the loop is -/

namespace Live

def observed (live : Live) : LoopEvent → List Text
  | .client message _ _ _ => if live.phase = .reading then message.sql?.toList else []
  | _ => []

def sentAlong (live : Live) : List LoopEvent → List Text
  | [] => []
  | event :: later => live.observed event ++ (live.step event).1.sentAlong later

theorem act_params (live : Live) (message onward : FrontendMessage) (lent : Option Upstreamed)
    (action : ClientAction) :
    (live.act message onward lent action).1.session.params = live.session.params ∧
      (live.act message onward lent action).1.statementTimeout = live.statementTimeout := by
  have sends (live : Live) (upstream : Upstreamed) :
      (live.sendOn upstream message onward).1.session.params = live.session.params ∧
        (live.sendOn upstream message onward).1.statementTimeout = live.statementTimeout := by
    unfold sendOn afterSending
    dsimp only
    split
    · split
      · exact ⟨rfl, rfl⟩
      · split <;> exact ⟨rfl, rfl⟩
    · exact ⟨rfl, rfl⟩
  cases action with
  | close | answer => exact ⟨rfl, rfl⟩
  | send target acquire =>
    cases acquire with
    | true =>
      cases lent with
      | none => exact ⟨rfl, rfl⟩
      | some taken => exact sends _ taken
    | false =>
      unfold act
      cases live.upstream with
      | none => exact ⟨rfl, rfl⟩
      | some upstream => exact sends live upstream

variable {session : SessionMemory} {message : FrontendMessage}

theorem observe_params {memory : SessionMemory} {onward : FrontendMessage}
    (observed : observe session message = some (memory, onward)) :
    memory.params = message.sql?.toList.foldl
      (fun params sql => params.observeStatement sql .default) session.params := by
  obtain ⟨mapped, _found, same⟩ := Option.map_eq_some_iff.mp observed
  cases same
  cases message.sql? <;> rfl

theorem sql_of_refused (refused : observe session message = none) : message.sql? = none := by
  cases message with
  | query sql => cases refused
  | parse name sql =>
    unfold observe at refused
    rw [mapStatementName_parse] at refused
    cases refused
  | _ => rfl

theorem step_params (live : Live) (event : LoopEvent) :
    (live.step event).1.session.params =
        (live.observed event).foldl (fun params sql => params.observeStatement sql .default)
          live.session.params ∧
      (live.step event).1.statementTimeout = live.statementTimeout := by
  unfold step observed
  cases event with
  | lost => exact ⟨rfl, rfl⟩
  | server message position =>
    dsimp only
    split
    · unfold takeAnswer forwardAnswer release refuse
      dsimp only
      repeat' split
      all_goals exact ⟨rfl, rfl⟩
    · exact ⟨rfl, rfl⟩
  | client message replicas now lent =>
    dsimp only
    split
    · rename_i reading
      rw [if_pos reading]
      unfold takeFrame
      split
      · rename_i refused
        rw [sql_of_refused refused]
        exact ⟨rfl, rfl⟩
      · rename_i memory onward seen
        rw [← observe_params seen]
        exact act_params _ message onward lent _
    · rename_i flushing copying
      rw [copying, if_neg nofun]
      unfold takeCopyFrame refuse
      split <;> exact ⟨rfl, rfl⟩
    · rename_i other _notCopying
      rw [if_neg other]
      exact ⟨rfl, rfl⟩

theorem after_params (live : Live) (events : List LoopEvent) :
    (live.after events).session.params =
        (live.sentAlong events).foldl (fun params sql => params.observeStatement sql .default)
          live.session.params ∧
      (live.after events).statementTimeout = live.statementTimeout := by
  induction events generalizing live with
  | nil => exact ⟨rfl, rfl⟩
  | cons event later ih =>
    obtain ⟨params, timeout⟩ := ih (live.step event).1
    unfold after at params timeout ⊢
    unfold sentAlong
    rw [foldl_cons, params, timeout, foldl_append, (live.step_params event).1]
    exact ⟨rfl, (live.step_params event).2⟩

theorem after_params_eq (mode : PoolMode) (statementTimeout : Option Nat)
    (settings : List (Text × Text)) (events : List LoopEvent) :
    ((start mode statementTimeout settings).after events).session.params =
      (Borrower.mk settings ((start mode statementTimeout settings).sentAlong events)
        statementTimeout).params :=
  (after_params _ events).1

theorem resume_congr {other : SessionMemory} (same : session.params = other.params)
    (statementTimeout : Option Nat) :
    resume session statementTimeout = resume other statementTimeout := by
  unfold resume onAcquire
  rw [same]

theorem borrowed_of_act {live : Live} {onward : FrontendMessage} {lent : Option Upstreamed}
    {action : ClientAction} {id : Nat}
    (borrows : .borrowed id ∈ (live.act message onward lent action).2) :
    ∃ taken sending, lent = some taken ∧ (live.act message onward lent action).2 =
      .borrowed taken.id ::
        (resume live.session live.statementTimeout).map
          (fun sql => .toServer taken.id (.query sql)) ++
        (sendOn sending taken message onward).2 := by
  have sendOn_quiet (live : Live) (upstream : Upstreamed) :
      .borrowed id ∉ (live.sendOn upstream message onward).2 := by
    unfold sendOn
    dsimp only
    split
    · simp
    · simp
  cases action with
  | close => cases borrows
  | answer routed => cases routed <;> simp [act, queueAnswer] at borrows
  | send target acquire =>
    cases acquire with
    | true =>
      cases lent with
      | none => simp [act, refuse] at borrows
      | some taken => exact ⟨taken, _, rfl, rfl⟩
    | false =>
      unfold act at borrows
      cases current : live.upstream with
      | none => simp [current, refuse] at borrows
      | some upstream =>
        rw [current] at borrows
        exact absurd borrows (sendOn_quiet live upstream)

/-- The frames behind the replay: the client's frame, with the frames that make its statement
ready in front, or the answer to a `Parse` of what the connection holds. -/
def Behind (live : Live) (message : FrontendMessage) (connection : Nat)
    (outputs : List Output) : Prop :=
  isParse message = true ∧ outputs = [.toClient .parseComplete] ∨
    ∃ injected memory onward, Injected message injected ∧
      observe live.session message = some (memory, onward) ∧
      outputs = (injected ++ [onward]).map (.toServer connection)

theorem sendOn_behind {live sending : Live} {memory : SessionMemory} {onward : FrontendMessage}
    (seen : observe live.session message = some (memory, onward)) (taken : Upstreamed) :
    live.Behind message taken.id (sending.sendOn taken message onward).2 := by
  unfold sendOn
  dsimp only
  split
  · rename_i gone
    rcases sendUpstream_frames sending.session.statements taken.record message onward with
      ⟨kept, -⟩ | ⟨-, injected, own, shape⟩
    · cases gone.symm.trans kept
    · rw [shape]
      exact .inr ⟨injected, memory, onward, own, seen, rfl⟩
  · rename_i kept
    obtain ⟨name, sql, prepared, rfl, -⟩ := sendUpstream_kept (Bool.eq_false_iff.mpr kept)
    exact .inl ⟨rfl, rfl⟩

/-- The connection a session borrows hears the replay of the borrower the session is by
then, before anything else. -/
theorem borrow_replays (mode : PoolMode) (statementTimeout : Option Nat)
    (settings : List (Text × Text)) (events : List LoopEvent) {replicas : Route.Replicas}
    {now id : Nat} {lent : Option Upstreamed}
    (borrows : .borrowed id ∈ (((start mode statementTimeout settings).after events).step
      (.client message replicas now lent)).2) :
    ∃ taken later, lent = some taken ∧
      ((start mode statementTimeout settings).after events).Behind message taken.id later ∧
      (((start mode statementTimeout settings).after events).step
        (.client message replicas now lent)).2 =
      .borrowed taken.id ::
        (Borrower.mk settings
          ((start mode statementTimeout settings).sentAlong
            (events ++ [.client message replicas now lent])) statementTimeout).replay.map
          (fun sql => .toServer taken.id (.query sql)) ++ later := by
  have became := after_params_eq mode statementTimeout settings
    (events ++ [.client message replicas now lent])
  have timeout := (after_params (start mode statementTimeout settings) events).2
  unfold Borrower.replay
  unfold after at became timeout borrows ⊢
  rw [foldl_append, foldl_cons, foldl_nil] at became
  generalize List.foldl _ _ events = live at became timeout borrows ⊢
  unfold step at became borrows ⊢
  dsimp only at became borrows ⊢
  cases phase : live.phase with
  | reading =>
    rw [phase] at became borrows
    unfold takeFrame at became borrows ⊢
    cases seen : observe live.session message with
    | none => simp [seen, refuse] at borrows
    | some mapped =>
      rw [seen] at became borrows
      obtain ⟨taken, sending, fromPool, outputs⟩ := borrowed_of_act borrows
      refine ⟨taken, (sendOn sending taken message mapped.2).2, fromPool,
        sendOn_behind seen taken, ?_⟩
      rw [(act_params _ _ _ _ _).1] at became
      generalize Borrower.params _ = params at became ⊢
      have same : resume mapped.1 live.statementTimeout = resume ⟨params, ∅⟩ statementTimeout := by
        rw [timeout]
        exact resume_congr became statementTimeout
      rw [outputs, same]
  | copying flushing =>
    rw [phase] at borrows
    simp only [takeCopyFrame, refuse] at borrows
    split at borrows <;> simp at borrows
  | pumping | closed => simp [phase] at borrows

end Live

def readsAlike (sql : Text) : List Change :=
  (statements sql).filterMap fun statement =>
    match ParsedSet.parse statement with
    | some (.set name value) => some (.set (normalise name) value)
    | some (.reset name) => some (.reset (normalise name))
    | some .resetAll => some .resetAll
    | _ => none

def publicSchema (name : Text) : Text :=
  if name = "search_path".toList then "public".toList else []

def plainBorrower : Borrower where
  settings := [("application_name".toList, "web".toList)]
  sent := ["SELECT 1".toList]
  statementTimeout := some 30000

def tenantTurn (more : List Text) : Turn where
  borrower := ⟨[], ["SET search_path = tenant_a".toList], none⟩
  ran := "SET search_path = tenant_a".toList :: more

theorem plainBorrower_understood : plainBorrower.Understood readsAlike where
  params := by
    decide +kernel
  timeout := by
    rintro _ ⟨⟩
    decide +kernel

/-- The earlier borrower took its schema back. -/
theorem unset_parameters_after_reset :
    plainBorrower.NeverSet readsAlike "search_path".toList ∧
      (valuesAtBorrow readsAlike publicSchema [tenantTurn ["RESET search_path".toList]]
          plainBorrower "search_path".toList = publicSchema "search_path".toList ∨
        ∃ milliseconds, plainBorrower.statementTimeout = some milliseconds ∧
          "search_path".toList = "statement_timeout".toList ∧
          valuesAtBorrow readsAlike publicSchema [tenantTurn ["RESET search_path".toList]]
            plainBorrower "search_path".toList = (Nat.repr milliseconds).toList) := by
  have never : plainBorrower.NeverSet readsAlike "search_path".toList := by decide +kernel
  refine ⟨never, (unset_parameters_at_borrow_iff publicSchema
    [tenantTurn ["RESET search_path".toList]] plainBorrower plainBorrower_understood).mpr ?_
      "search_path".toList (by decide +kernel) never⟩
  intro name _listed _never
  right
  have heard : changesOf readsAlike [tenantTurn ["RESET search_path".toList]] =
      [.set "search_path".toList "tenant_a".toList, .set "search_path".toList "tenant_a".toList,
        .reset "search_path".toList] := by
    decide +kernel
  rw [heard]
  generalize "search_path".toList = path
  intro value last
  by_cases same : path = name
  · simp [Change.touches, same] at last
  · simp [Change.touches, same] at last

/-- The earlier borrower did not, and the next session runs in its schema. -/
theorem search_path_leaks :
    Replayable.default.contains "search_path".toList = true ∧
      plainBorrower.NeverSet readsAlike "search_path".toList ∧
      valuesAtBorrow readsAlike publicSchema [tenantTurn []] plainBorrower
        "search_path".toList = "tenant_a".toList ∧
      publicSchema "search_path".toList = "public".toList := by
  decide +kernel

end Pgprox.Serve
