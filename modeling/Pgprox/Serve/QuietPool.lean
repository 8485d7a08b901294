/-
From the end of a transaction to the next borrower of its connection.

A `Line` is what stands between the server and the proxy on one connection: bytes in the
wire's own buffer, bytes in the socket, the rest of the frame that is arriving and the
frames still owed.  The check at the next borrow looks at the socket only.
-/

import Pgprox.Library.Run
import Pgprox.Session.Probe

namespace Pgprox.Serve

open Proto Session List

structure Line where
  buffered : List UInt8
  socket : List UInt8
  rest : List UInt8
  owed : List SentFrame
  gone : Bool

namespace Line

def outstanding (line : Line) : List UInt8 :=
  line.buffered ++ (line.socket ++ (line.rest ++ wireBytes line.owed))

def Quiet (line : Line) : Prop :=
  line.buffered = [] ∧ line.socket = [] ∧ line.rest = [] ∧ line.owed = []

/-- `Upstreamed::unfit`: the socket is readable, be it bytes or the end of the stream. -/
def unfit (line : Line) : Bool :=
  !line.socket.isEmpty || line.gone

def arrive (line : Line) (count : Nat) : Line :=
  if line.rest = [] then
    match line.owed with
    | [] => line
    | frame :: later =>
      { line with
        socket := line.socket ++ frame.bytes.take count
        rest := frame.bytes.drop count
        owed := later }
  else
    { line with
      socket := line.socket ++ line.rest.take count
      rest := line.rest.drop count }

end Line

def fitnessAttempts : Nat := 4

/-- `fit_connection`: connections are taken until one is fit, and the others dropped. -/
def fitConnection : Nat → List Line → Option Line
  | 0, _ => none
  | _, [] => none
  | attempts + 1, taken :: later =>
    if taken.unfit then fitConnection attempts later else some taken

variable {line : Line}

theorem fitConnection_fit {attempts : Nat} {taken : List Line}
    (lent : fitConnection attempts taken = some line) : line.unfit = false := by
  induction attempts generalizing taken with
  | zero => cases lent
  | succ attempts ih =>
    cases taken with
    | nil => cases lent
    | cons first later =>
      unfold fitConnection at lent
      split at lent
      · exact ih lent
      · rename_i fit
        rw [← Option.some.inj lent]
        exact Bool.eq_false_iff.mpr fit

/-! ### Handing a connection back -/

def firstRead : Nat := 512

inductive Stage
  | probing (row : Row)
  /-- Handed back, with the position to record if the probe read one. -/
  | returned (position : Option Lsn)

structure Handed where
  line : Line
  stage : Stage

def Line.read (line : Line) (row : Row) : Handed :=
  match primaryLsn row line.buffered with
  | (.reading row, buffered) => ⟨{ line with buffered }, .probing row⟩
  | (.done result, buffered) => ⟨{ line with buffered }, .returned result.toOption⟩

def Line.ask (line : Line) (answer : List SentFrame) : Line :=
  if line.gone then line else { line with owed := line.owed ++ answer }

def release (line : Line) (wrote : Bool) (answer : List SentFrame) (ready : SentFrame) : Handed :=
  if wrote then (line.ask (answer ++ [ready])).read none
  else ⟨line, .returned none⟩

inductive LineEvent
  | arrives (count : Nat)
  | asynchronous (frame : SentFrame)
  | closes
  | fills (count : Nat)
  | starves (count : Nat)
  | ends

def comesUnasked (frame : Frame) : Bool :=
  frame.tag == Tag.noticeResponse || frame.tag == Tag.parameterStatus ||
    frame.tag == Tag.notificationResponse

namespace Handed

def step (state : Handed) : LineEvent → Handed
  | .arrives count => { state with line := state.line.arrive count }
  | .asynchronous frame =>
    { state with line := { state.line with socket := state.line.socket ++ frame.bytes } }
  | .closes => { state with line := { state.line with rest := [], owed := [], gone := true } }
  | .fills count =>
    match state.stage with
    | .probing row =>
      Line.read
        { state.line with
          buffered := state.line.buffered ++ state.line.socket.take count
          socket := state.line.socket.drop count }
        row
    | .returned _ => state
  | .starves count =>
    match state.stage with
    | .probing _ =>
      ⟨{ state.line with socket := state.line.socket.drop count }, .returned none⟩
    | .returned _ => state
  | .ends =>
    match state.stage with
    | .probing _ => ⟨{ state.line with buffered := [] }, .returned none⟩
    | .returned _ => state

def isProbing (state : Handed) : Bool :=
  match state.stage with
  | .probing _ => true
  | .returned _ => false

/-- What can happen: an asynchronous message stands between frames, the wire reads what has
arrived and only while the probe reads. -/
def Possible (state : Handed) : LineEvent → Prop
  | .arrives _ => True
  | .asynchronous frame =>
    state.line.rest = [] ∧ state.line.gone = false ∧ comesUnasked frame.toFrame = true
  | .closes => True
  | .fills count =>
    state.isProbing = true ∧ 0 < count ∧ count ≤ state.line.socket.length ∧
      (state.line.buffered = [] → count ≤ firstRead)
  | .starves count =>
    state.isProbing = true ∧ 0 < count ∧ count ≤ state.line.socket.length ∧
      state.line.buffered = [] ∧ count ≤ firstRead
  | .ends => state.isProbing = true ∧ state.line.gone = true ∧ state.line.socket = []

def Clean (state : Handed) : LineEvent → Prop
  | .fills count => behindReady (state.line.buffered ++ state.line.socket.take count) = []
  | _ => True

def along (state : Handed) (events : List LineEvent) : Handed :=
  events.foldl step state

end Handed

/-! ### After the connection went back -/

theorem passed_of_unasked {frame : Frame} (async : comesUnasked frame = true) :
    Passed frame := by
  unfold comesUnasked at async
  rw [Bool.or_eq_true, Bool.or_eq_true, beq_iff_eq, beq_iff_eq, beq_iff_eq] at async
  rcases async with (tag | tag) | tag <;>
    exact ⟨by rw [tag]; decide, by rw [tag]; decide, fun data => by rw [tag] at data; cases data⟩

namespace Line

theorem unfit_eq_false {line : Line} (fit : line.unfit = false) :
    line.socket = [] ∧ line.gone = false := by
  unfold unfit at fit
  rw [Bool.or_eq_false_iff, Bool.not_eq_false', List.isEmpty_iff] at fit
  exact fit

theorem outstanding_eq_nil {line : Line} : line.outstanding = [] ↔ line.Quiet := by
  unfold outstanding Quiet
  rw [append_eq_nil_iff, append_eq_nil_iff, append_eq_nil_iff, wireBytes_eq_nil]

variable (line : Line)

@[simp] theorem outstanding_arrive (count : Nat) :
    (line.arrive count).outstanding = line.outstanding := by
  unfold arrive
  split
  · rename_i whole
    split
    · rfl
    · rename_i frame later owed
      simp only [outstanding, whole, owed, wireBytes_cons, nil_append, append_assoc]
      rw [← append_assoc (frame.bytes.take count), take_append_drop]
  · simp only [outstanding, append_assoc]
    rw [← append_assoc (line.rest.take count), take_append_drop]

@[simp] theorem gone_arrive (count : Nat) : (line.arrive count).gone = line.gone := by
  unfold arrive
  split
  · split <;> rfl
  · rfl

theorem socket_arrive (count : Nat) : line.socket <+: (line.arrive count).socket := by
  unfold arrive
  split
  · split
    · exact prefix_refl _
    · exact prefix_append _ _
  · exact prefix_append _ _

@[simp] theorem read_gone (row : Row) : (line.read row).line.gone = line.gone := by
  unfold read
  split <;> rfl

end Line

namespace Handed

variable {state : Handed} {events : List LineEvent}

theorem step_gone (gone : state.line.gone = true) (event : LineEvent) :
    (state.step event).line.gone = true := by
  cases event with
  | arrives count => exact (state.line.gone_arrive count).trans gone
  | asynchronous frame => exact gone
  | closes => rfl
  | fills count =>
    unfold step
    dsimp only
    split
    · rw [Line.read_gone]
      exact gone
    · exact gone
  | starves | ends =>
    unfold step
    dsimp only
    split <;> exact gone

theorem along_gone (events : List LineEvent) (gone : state.line.gone = true) :
    (state.along events).line.gone = true := by
  induction events generalizing state with
  | nil => exact gone
  | cons event later ih => exact ih (step_gone gone event)

theorem not_gone_of_fit (fit : (state.along events).line.unfit = false) :
    state.line.gone = false := by
  by_contra gone
  have still := along_gone events (Bool.eq_true_of_not_eq_false gone)
  rw [(Line.unfit_eq_false fit).2] at still
  cases still

/-- Nothing reads a connection that went back: what is outstanding can only grow, and what
reaches the socket stays there. -/
theorem returned_fit {position : Option Lsn} (returned : state.stage = .returned position)
    (possible : Run.Permitted Possible step state events)
    (fit : (state.along events).line.unfit = false) :
    state.line.socket = [] ∧
      (state.along events).line.outstanding = state.line.outstanding ∧
      Run.Permitted Clean step state events := by
  induction events generalizing state with
  | nil => exact ⟨(Line.unfit_eq_false fit).1, rfl, trivial⟩
  | cons event later ih =>
    obtain ⟨now, rest⟩ := possible
    cases event with
    | arrives count =>
      have still : (state.step (.arrives count)).stage = .returned position := returned
      obtain ⟨empty, same, clean⟩ := ih still rest fit
      have before : state.line.socket <+: (state.step (.arrives count)).line.socket :=
        state.line.socket_arrive count
      rw [empty] at before
      exact ⟨prefix_nil.mp before, same.trans (state.line.outstanding_arrive count),
        trivial, clean⟩
    | asynchronous frame =>
      have still : (state.step (.asynchronous frame)).stage = .returned position := returned
      obtain ⟨empty, -⟩ := ih still rest fit
      exact absurd (append_eq_nil_iff.mp empty).2 (bytes_ne_nil _)
    | closes =>
      have gone : (state.step .closes).line.gone = false := not_gone_of_fit fit
      cases gone
    | fills | starves | ends =>
      have probing := now.1
      unfold isProbing at probing
      rw [returned] at probing
      cases probing

end Handed

/-! ### While the probe reads -/

/-- The probe's own `ReadyForQuery` is still to come, behind the frames `ahead`. -/
inductive Awaits (ready : SentFrame) : Line → List SentFrame → Prop
  | owed {line : Line} {sent still : List SentFrame}
      (framed : line.buffered ++ (line.socket ++ line.rest) = wireBytes sent)
      (owes : line.owed = still ++ [ready]) : Awaits ready line (sent ++ still)
  | sent {line : Line} {ahead behind : List SentFrame}
      (framed : line.buffered ++ (line.socket ++ line.rest) =
        wireBytes (ahead ++ ready :: behind))
      (none : line.owed = []) (whole : behind = [] ∨ line.rest = []) : Awaits ready line ahead

variable {ready : SentFrame} {ahead : List SentFrame}

theorem Awaits.arrive (awaits : Awaits ready line ahead) (count : Nat) :
    Awaits ready (line.arrive count) ahead := by
  unfold Line.arrive
  cases awaits with
  | owed framed owes =>
    rename_i sent still
    split
    · rename_i whole
      rw [whole] at framed
      rw [owes]
      cases still with
      | nil =>
        rw [append_nil]
        refine @Awaits.sent ready _ sent [] ?_ rfl (.inl rfl)
        rw [wireBytes_append, ← framed]
        simp [append_assoc]
      | cons frame later =>
        have moved : sent ++ frame :: later = (sent ++ [frame]) ++ later := by simp
        rw [moved]
        refine .owed ?_ rfl
        rw [wireBytes_append, ← framed]
        simp [append_assoc]
    · exact .owed (by simpa [append_assoc] using framed) owes
  | sent framed none whole =>
    split
    · rw [none]
      exact .sent framed none whole
    · rename_i more
      have alone := whole.resolve_right more
      exact .sent (by simpa [append_assoc] using framed) none (.inl alone)

theorem Awaits.asynchronous (awaits : Awaits ready line ahead) {frame : SentFrame}
    (between : line.rest = []) (async : comesUnasked frame.toFrame = true) :
    ∃ now, Awaits ready { line with socket := line.socket ++ frame.bytes } now ∧
      (AllPassed ahead ↔ AllPassed now) := by
  have alone : AllPassed [frame] := by
    intro only among
    rw [mem_singleton.mp among]
    exact passed_of_unasked async
  cases awaits with
  | owed framed owes =>
    rename_i sent still
    refine ⟨(sent ++ [frame]) ++ still, .owed ?_ owes, ?_⟩
    · simp [between, ← framed]
    · rw [allPassed_append, allPassed_append, allPassed_append, and_iff_left alone]
  | sent framed none whole =>
    rename_i behind
    refine ⟨ahead, @Awaits.sent ready _ ahead (behind ++ [frame]) ?_ none (.inr between), Iff.rfl⟩
    have longer : wireBytes (ahead ++ ready :: (behind ++ [frame])) =
        wireBytes (ahead ++ ready :: behind) ++ frame.bytes := by
      simp [append_assoc]
    rw [longer, ← framed, between]
    simp [append_assoc]

inductive ReadOutcome (ready : SentFrame) (line : Line) (ahead : List SentFrame) : Handed → Prop
  | reads {next : Line} {now : List SentFrame} (row : Row) (awaits : Awaits ready next now)
      (same : AllPassed ahead ↔ AllPassed now) (clean : behindReady line.buffered = []) :
      ReadOutcome ready line ahead ⟨next, .probing row⟩
  | cut {next : Line} (position : Option Lsn) (failed : ¬ AllPassed ahead)
      (left : next.outstanding ≠ []) : ReadOutcome ready line ahead ⟨next, .returned position⟩
  | ended {next : Line} (position : Option Lsn) (all : AllPassed ahead)
      (behind : behindReady line.buffered = next.buffered)
      (settled : next.buffered = [] → next.socket = [] → next.outstanding = []) :
      ReadOutcome ready line ahead ⟨next, .returned position⟩

theorem passed_before_stop (stop : ¬ Passed ready.toFrame) {passed later behind : List SentFrame}
    (all : AllPassed passed) (same : passed ++ later = ahead ++ ready :: behind) :
    ∃ more, ahead = passed ++ more ∧ later = more ++ ready :: behind := by
  rcases append_eq_append_iff.mp same with ⟨more, first, rest⟩ | ⟨more, first, rest⟩
  · exact ⟨more, first, rest⟩
  · cases more with
    | nil =>
      rw [append_nil] at first
      exact ⟨[], by rw [first, append_nil], rest.symm⟩
    | cons frame others =>
      obtain ⟨rfl, -⟩ := List.cons.inj rest
      exact absurd (all ready (by rw [first]; simp)) stop

theorem Awaits.fill (awaits : Awaits ready line ahead) (count : Nat) :
    Awaits ready
      { line with
        buffered := line.buffered ++ line.socket.take count
        socket := line.socket.drop count } ahead := by
  have moved : (line.buffered ++ line.socket.take count) ++ (line.socket.drop count ++ line.rest) =
      line.buffered ++ (line.socket ++ line.rest) := by
    rw [append_assoc, ← append_assoc (line.socket.take count), take_append_drop]
  cases awaits with
  | owed framed owes => exact .owed (moved.trans framed) owes
  | sent framed none whole => exact .sent (moved.trans framed) none whole

theorem Awaits.read (tag : ready.tag = Tag.readyForQuery) (awaits : Awaits ready line ahead)
    (row : Row) : ReadOutcome ready line ahead (line.read row) := by
  have stop : ¬ Passed ready.toFrame := fun passed => passed.2.1 tag
  unfold Line.read
  cases awaits with
  | owed framed owes =>
    have reads := primaryLsn_reads framed row
    generalize primaryLsn row line.buffered = result at reads
    generalize taken : line.buffered = buffered at reads framed
    cases reads with
    | waits row all short =>
      rw [append_assoc, wireBytes_append] at framed
      refine .reads row (.owed (append_cancel_left framed) owes) ?_ ?_
      · rw [append_assoc, allPassed_append, and_iff_right all]
      · rw [taken]
        exact behindReady_of_waits all short
    | stops result all ends =>
      refine .cut _ ?_ ?_
      · intro every
        exact ends (every _ (by simp))
      · rw [Ne, Line.outstanding_eq_nil]
        intro quiet
        have none := quiet.2.2.2
        rw [owes] at none
        exact absurd none (by simp)
  | sent framed none whole =>
    rename_i behind
    have reads := primaryLsn_reads framed row
    generalize primaryLsn row line.buffered = result at reads
    generalize taken : line.buffered = buffered at reads framed
    generalize stream : ahead ++ ready :: behind = frames at reads framed
    cases reads with
    | waits row all short =>
      obtain ⟨more, rfl, rfl⟩ := passed_before_stop stop all stream.symm
      rw [append_assoc, wireBytes_append] at framed
      refine .reads row (.sent (append_cancel_left framed) none whole) ?_ ?_
      · rw [allPassed_append, and_iff_right all]
      · rw [taken]
        exact behindReady_of_waits all short
    | stops result all ends =>
      obtain ⟨more, rfl, rest⟩ := passed_before_stop stop all stream.symm
      rw [append_assoc, wireBytes_append, append_assoc] at framed
      have left := append_cancel_left (append_cancel_left framed)
      cases more with
      | nil =>
        cases rest
        rw [append_nil]
        refine .ended _ all (by rw [taken]; exact behindReady_of_ready all tag) ?_
        intro empty unread
        have ends : line.rest = [] := by
          rcases whole with alone | between
          · rw [alone] at left
            exact (append_eq_nil_iff.mp (append_eq_nil_iff.mp left).2).2
          · exact between
        exact Line.outstanding_eq_nil.mpr ⟨empty, unread, ends, none⟩
      | cons first others =>
        cases rest
        refine .cut _ ?_ ?_
        · intro every
          exact ends (every _ (by simp))
        · rw [Ne, Line.outstanding_eq_nil]
          rintro ⟨empty, unread, between, -⟩
          dsimp only at empty unread between
          rw [empty, unread, between] at left
          exact absurd (wireBytes_eq_nil.mp left.symm) (by simp)

namespace Handed

theorem quiet_iff_of_read {ready : SentFrame} {line : Line} {ahead : List SentFrame}
    {state : Handed} (outcome : ReadOutcome ready line ahead state) {events : List LineEvent}
    (possible : Run.Permitted Possible step state events)
    (fit : (state.along events).line.unfit = false)
    (further : ∀ row now, state.stage = .probing row → Awaits ready state.line now →
      ((state.along events).line.Quiet ↔ AllPassed now ∧ Run.Permitted Clean step state events)) :
    (state.along events).line.Quiet ↔
      AllPassed ahead ∧ behindReady line.buffered = [] ∧
        Run.Permitted Clean step state events := by
  cases outcome with
  | reads row awaits same clean =>
    rw [further row _ rfl awaits, same, and_iff_right clean]
  | cut position failed left =>
    obtain ⟨-, outstanding, -⟩ := returned_fit rfl possible fit
    rw [← Line.outstanding_eq_nil, outstanding]
    exact iff_of_false left fun all => failed all.1
  | ended position all behind settled =>
    obtain ⟨unread, outstanding, clean⟩ := returned_fit rfl possible fit
    rw [← Line.outstanding_eq_nil, outstanding, and_iff_right all, and_iff_left clean, behind]
    exact ⟨fun quiet => (Line.outstanding_eq_nil.mp quiet).1, fun empty => settled empty unread⟩

/-- From a read on: the connection that is lent is quiet exactly when the probe reads past
everything before its own `ReadyForQuery` and no read goes beyond that. -/
theorem probing_quiet_iff {ready : SentFrame} (tag : ready.tag = Tag.readyForQuery)
    {state : Handed} {row : Row} (probing : state.stage = .probing row)
    {ahead : List SentFrame} (awaits : Awaits ready state.line ahead) {events : List LineEvent}
    (possible : Run.Permitted Possible step state events) (fed : ∀ count, .starves count ∉ events)
    (returned : (state.along events).isProbing = false)
    (fit : (state.along events).line.unfit = false) :
    (state.along events).line.Quiet ↔
      AllPassed ahead ∧ Run.Permitted Clean step state events := by
  induction events generalizing state row ahead with
  | nil =>
    unfold isProbing along at returned
    rw [foldl_nil, probing] at returned
    cases returned
  | cons event later ih =>
    obtain ⟨now, rest⟩ := possible
    have live : (state.step event).line.gone = false := not_gone_of_fit fit
    have laterFed : ∀ count, .starves count ∉ later :=
      fun count among => fed count (mem_cons_of_mem _ among)
    cases event with
    | arrives count =>
      have still : (state.step (.arrives count)).stage = .probing row := probing
      rw [Run.permitted_cons, and_iff_right (show Clean state (.arrives count) from trivial)]
      exact ih still (awaits.arrive count) rest laterFed returned fit
    | asynchronous frame =>
      have still : (state.step (.asynchronous frame)).stage = .probing row := probing
      obtain ⟨moved, next, same⟩ := awaits.asynchronous now.1 now.2.2
      rw [Run.permitted_cons,
        and_iff_right (show Clean state (.asynchronous frame) from trivial), same]
      exact ih still next rest laterFed returned fit
    | closes => cases live
    | fills count =>
      have outcome := (awaits.fill count).read tag row
      rw [show Line.read _ row = state.step (.fills count) by simp only [step, probing]]
        at outcome
      exact quiet_iff_of_read outcome rest fit
        fun row now still next => ih still next rest laterFed returned fit
    | starves count => exact absurd mem_cons_self (fed count)
    | ends =>
      have gone := step_gone now.2.1 .ends
      rw [live] at gone
      cases gone

end Handed

/-! ### The connection that is lent -/

/-- What `release` has to find for the connection to come back quiet: without a probe an
empty buffer and nothing owed; with one, no frame before the `ReadyForQuery` of the probe
that ends it early. -/
def SettledAt (line : Line) (sent : List SentFrame) (wrote : Bool) (answer : List SentFrame) :
    Prop :=
  if wrote then AllPassed (sent ++ (line.owed ++ answer))
  else line.buffered = [] ∧ line.rest = [] ∧ line.owed = []

theorem lent_connection_quiet_iff (line : Line) (sent : List SentFrame)
    (framed : line.buffered ++ (line.socket ++ line.rest) = wireBytes sent) (wrote : Bool)
    (answer : List SentFrame) (ready : SentFrame) (tag : ready.tag = Tag.readyForQuery)
    (events : List LineEvent)
    (possible : Run.Permitted Handed.Possible Handed.step (release line wrote answer ready) events)
    (fed : ∀ count, .starves count ∉ events)
    (returned : ((release line wrote answer ready).along events).isProbing = false)
    (taken : List Line)
    (lent : fitConnection fitnessAttempts taken =
      some ((release line wrote answer ready).along events).line) :
    ((release line wrote answer ready).along events).line.Quiet ↔
      SettledAt line sent wrote answer ∧
        Run.Permitted Handed.Clean Handed.step (release line wrote answer ready) events := by
  have fit := fitConnection_fit lent
  cases wrote with
  | false =>
    obtain ⟨unread, outstanding, clean⟩ := Handed.returned_fit rfl possible fit
    rw [← Line.outstanding_eq_nil, outstanding, and_iff_left clean, Line.outstanding_eq_nil]
    exact ⟨fun quiet => ⟨quiet.1, quiet.2.2⟩, fun settled => ⟨settled.1, unread, settled.2⟩⟩
  | true =>
    have live : line.gone = false := by
      have still : ((line.ask (answer ++ [ready])).read none).line.gone = false :=
        Handed.not_gone_of_fit fit
      rw [Line.read_gone] at still
      unfold Line.ask at still
      split at still
      · exact still
      · exact still
    have awaits : Awaits ready (line.ask (answer ++ [ready])) (sent ++ (line.owed ++ answer)) := by
      unfold Line.ask
      rw [live]
      exact .owed framed (append_assoc _ _ _).symm
    have quiet := Handed.quiet_iff_of_read (awaits.read tag none) possible fit
      fun row now still next =>
        Handed.probing_quiet_iff tag still next possible fed returned fit
    have buffer : (line.ask (answer ++ [ready])).buffered = line.buffered := by
      unfold Line.ask
      split <;> rfl
    rw [buffer] at quiet
    refine quiet.trans ?_
    constructor
    · rintro ⟨all, -, clean⟩
      exact ⟨all, clean⟩
    · rintro ⟨all, clean⟩
      exact ⟨all, behindReady_of_allPassed (allPassed_append.mp all).1 framed, clean⟩

/-! ### A probe that is answered, and one that is refused -/

def idleLine : Line :=
  ⟨[], [], [], [], false⟩

def readyFrame : SentFrame :=
  ⟨⟨Tag.readyForQuery, [0x49]⟩, by decide⟩

def positionRow : SentFrame :=
  ⟨⟨Tag.dataRow, [0, 1, 0, 0, 0, 4, 0x30, 0x2F, 0x41, 0x30]⟩, by decide⟩

def refusal : SentFrame :=
  ⟨⟨Tag.errorResponse, [0]⟩, by decide⟩

def answeredAtOnce : List LineEvent :=
  [.arrives 15, .arrives 6, .fills 21]

theorem probed_connection_quiet :
    ((release idleLine true [positionRow] readyFrame).along answeredAtOnce).line.Quiet := by
  refine (lent_connection_quiet_iff idleLine [] rfl true [positionRow] readyFrame rfl
    answeredAtOnce ?_ ?_ ?_
    [((release idleLine true [positionRow] readyFrame).along answeredAtOnce).line] ?_).mpr ⟨?_, ?_⟩
  · exact ⟨trivial, trivial, ⟨by decide +kernel, by decide, by decide +kernel, fun _ => by decide⟩,
      trivial⟩
  · simp [answeredAtOnce]
  · decide +kernel
  · exact if_neg (by decide +kernel)
  · intro frame among
    rw [mem_singleton.mp among]
    decide +kernel
  · refine ⟨trivial, trivial, ?_, trivial⟩
    change behindReady _ = []
    decide +kernel

/-- The probe is refused and returns at the `ErrorResponse`.  The `ReadyForQuery` that came
with it stays in the wire's buffer, where the check at the next borrow does not look. -/
theorem refused_probe_leaves_ready :
    ¬ ∀ (answer : List SentFrame) (ready : SentFrame),
      (∀ frame ∈ answer, frame.tag ≠ Tag.readyForQuery) → ready.tag = Tag.readyForQuery →
      ∀ events : List LineEvent,
        Run.Permitted Handed.Possible Handed.step (release idleLine true answer ready) events →
        ((release idleLine true answer ready).along events).isProbing = false →
        ∀ taken, fitConnection fitnessAttempts taken =
            some ((release idleLine true answer ready).along events).line →
          ((release idleLine true answer ready).along events).line.Quiet := by
  intro always
  have quiet := always [refusal] readyFrame (by decide) rfl [.arrives 6, .arrives 6, .fills 12]
    ⟨trivial, trivial, ⟨by decide +kernel, by decide, by decide +kernel, fun _ => by decide⟩,
      trivial⟩
    (by decide +kernel) [_]
    (if_neg (by decide +kernel))
  have left : ((release idleLine true [refusal] readyFrame).along
      [.arrives 6, .arrives 6, .fills 12]).line.buffered = readyFrame.bytes := by
    decide +kernel
  exact absurd (left.symm.trans quiet.1) (bytes_ne_nil _)

end Pgprox.Serve
