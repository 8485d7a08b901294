/-
Whether a `Flush` has been answered in full when the loop goes back to the client.

A `Flush` has no terminator: the loop stops reading when it has counted an answer to every
frame it forwarded.
-/

import Pgprox.Serve.OneConnection
import Pgprox.Serve.PumpOwed

namespace Pgprox.Serve

open Proto Pools Route Session List

/-! ### The ledger -/

inductive Handled
  | queued
  | flushed
  | swallowed
  deriving DecidableEq

structure Ledger where
  exchange : Exchange
  sent : List BackendMessage
  read : List (BackendMessage × Handled)

def handledAs (pumping : Pumping) (frame : BackendMessage) : Handled :=
  if (pumping.swallowOne frame).isSome then .swallowed else .queued

def flushAll (read : List (BackendMessage × Handled)) : List (BackendMessage × Handled) :=
  read.map fun entry => (entry.1, if entry.2 = .queued then .flushed else entry.2)

namespace Ledger

def start (mode : PoolMode) (statementTimeout : Option Nat) (settings : List (Text × Text)) :
    Ledger where
  exchange := .start mode statementTimeout settings
  sent := []
  read := []

/-- The client's buffer is written out where the loop stops reading the server, and for a
`Flush` with nothing owed. -/
def step (ledger : Ledger) (event : ExchangeEvent) : Ledger :=
  let next := ledger.exchange.step event
  match event with
  | .client message _ _ _ answers _ =>
    { exchange := next
      sent := ledger.sent ++ answers
      read := if message = .flush ∧ next.live.phase = .reading then flushAll ledger.read
        else ledger.read }
  | .delivered _ =>
    match ledger.exchange.live.phase, ledger.exchange.pending with
    | .pumping _, frame :: _ =>
      let read := ledger.read ++ [(frame, handledAs ledger.exchange.live.pumping frame)]
      { exchange := next
        sent := ledger.sent
        read := if next.live.phase = ledger.exchange.live.phase then read
          else flushAll read }
    | _, _ => { ledger with exchange := next }
  | _ => { ledger with exchange := next }

/-- The server keeps to the protocol, sends nothing but answers and starts no copy. -/
def Conforms (ledger : Ledger) : ExchangeEvent → Prop
  | .client message replicas now lent answers mode =>
    ledger.exchange.Conforms (.client message replicas now lent answers mode) ∧
      .copyInResponse ∉ answers
  | .asynchronous _ => False
  | _ => True

def FlushReturns (ledger : Ledger) (event : ExchangeEvent) : Prop :=
  match event with
  | .client message _ _ _ _ _ =>
    message = .flush ∧ ledger.exchange.live.phase = .reading ∧
      (ledger.step event).exchange.live.phase = .reading
  | .delivered _ =>
    ledger.exchange.live.phase = .pumping true ∧
      (ledger.step event).exchange.live.phase = .reading
  | _ => False

/-- Nothing the servers have sent or still owe is anywhere but with the client, or hidden. -/
def AnsweredInFull (ledger : Ledger) : Prop :=
  ledger.read.map Prod.fst = ledger.sent ∧ ∀ entry ∈ ledger.read, entry.2 ≠ .queued

/-- A connection is exchanged for another only when every answer on it has been read. -/
def Keeps (ledger : Ledger) : ExchangeEvent → Prop
  | .client message replicas now lent _ _ =>
    (ledger.exchange.live.step (.client message replicas now lent)).2.any isBorrowed = true →
      ledger.exchange.pending = []
  | _ => True

instance (ledger : Ledger) : (event : ExchangeEvent) → Decidable (ledger.Keeps event)
  | .client message replicas now lent _ _ =>
    inferInstanceAs (Decidable ((ledger.exchange.live.step
      (.client message replicas now lent)).2.any isBorrowed = true → ledger.exchange.pending = []))
  | .delivered _ | .asynchronous _ | .lost => inferInstanceAs (Decidable True)

def along (ledger : Ledger) (events : List ExchangeEvent) : Ledger :=
  events.foldl step ledger

/-! ### What is sent and what is read -/

theorem map_fst_flushAll (read : List (BackendMessage × Handled)) :
    (flushAll read).map Prod.fst = read.map Prod.fst := by
  unfold flushAll
  rw [map_map]
  rfl

theorem not_queued_of_mem_flushAll {read : List (BackendMessage × Handled)}
    {entry : BackendMessage × Handled} (listed : entry ∈ flushAll read) : entry.2 ≠ .queued := by
  obtain ⟨before, -, rfl⟩ := mem_map.mp listed
  split
  · exact nofun
  · rename_i other
    exact other

def Balanced (ledger : Ledger) : Prop :=
  ledger.sent = ledger.read.map Prod.fst ++ ledger.exchange.pending

def Short (ledger : Ledger) : Prop :=
  ledger.read.length + ledger.exchange.pending.length < ledger.sent.length

/-- Of what waits, some is left behind with its connection, some is read, and the rest still
waits, before any new answers. -/
structure Moves (before after : Ledger) (dropped taken kept answers : List BackendMessage) :
    Prop where
  waits : before.exchange.pending = dropped ++ (taken ++ kept)
  sent : after.sent = before.sent ++ answers
  read : after.read.map Prod.fst = before.read.map Prod.fst ++ taken
  pending : after.exchange.pending = kept ++ answers

theorem Moves.idle {before after : Ledger} (sent : after.sent = before.sent)
    (read : after.read = before.read)
    (pending : after.exchange.pending = before.exchange.pending) :
    Moves before after [] [] before.exchange.pending [] where
  waits := rfl
  sent := by rw [sent, append_nil]
  read := by rw [read, append_nil]
  pending := by rw [pending, append_nil]

variable (ledger : Ledger)

theorem step_client_moves (message : FrontendMessage) (replicas : Replicas) (now : Nat)
    (lent : Option Upstreamed) (answers : List BackendMessage) (mode : ServerMode) :
    ∃ dropped kept,
      (dropped = [] ↔ ledger.Keeps (.client message replicas now lent answers mode)) ∧
      Moves ledger (ledger.step (.client message replicas now lent answers mode)) dropped [] kept
        answers := by
  have read : (ledger.step (.client message replicas now lent answers mode)).read.map Prod.fst =
      ledger.read.map Prod.fst ++ [] := by
    unfold step
    dsimp only
    rw [append_nil]
    split
    · exact map_fst_flushAll _
    · rfl
  have pending : (ledger.step (.client message replicas now lent answers mode)).exchange.pending =
      (ledger.exchange.facing (.client message replicas now lent)).2 ++ answers :=
    rfl
  unfold Exchange.facing at pending
  by_cases borrowed :
      (ledger.exchange.live.step (.client message replicas now lent)).2.any isBorrowed = true
  · rw [if_pos borrowed] at pending
    exact ⟨ledger.exchange.pending, [], ⟨fun none _ => none, fun keeps => keeps borrowed⟩,
      (append_nil _).symm, rfl, read, pending⟩
  · rw [if_neg borrowed] at pending
    exact ⟨[], ledger.exchange.pending,
      ⟨fun _ taken => absurd taken borrowed, fun _ => rfl⟩, rfl, rfl, read, pending⟩

theorem step_delivered_moves (position : Option Nat) :
    ∃ taken kept, Moves ledger (ledger.step (.delivered position)) [] taken kept [] := by
  by_cases reads : ∃ flushing frame later, ledger.exchange.live.phase = .pumping flushing ∧
      ledger.exchange.pending = frame :: later
  · obtain ⟨flushing, frame, later, phase, waiting⟩ := reads
    refine ⟨[frame], later, waiting, ?_, ?_, ?_⟩
    · simp only [step, phase, waiting, append_nil]
    · simp only [step, phase, waiting]
      split
      · exact map_append
      · rw [map_fst_flushAll]
        exact map_append
    · simp only [step, Exchange.step, phase, waiting, append_nil]
  · have still : ledger.exchange.step (.delivered position) = ledger.exchange := by
      unfold Exchange.step
      dsimp only
      split
      · rename_i flushing frame later phase waiting
        exact absurd ⟨flushing, frame, later, phase, waiting⟩ reads
      · rfl
    refine ⟨[], ledger.exchange.pending, ?_⟩
    unfold step
    dsimp only
    split
    · rename_i flushing frame later phase waiting
      exact absurd ⟨flushing, frame, later, phase, waiting⟩ reads
    · exact .idle rfl rfl (congrArg Exchange.pending still)

theorem step_moves (event : ExchangeEvent) :
    ∃ dropped taken kept answers, (dropped = [] ↔ ledger.Keeps event) ∧
      Moves ledger (ledger.step event) dropped taken kept answers := by
  cases event with
  | client message replicas now lent answers mode =>
    obtain ⟨dropped, kept, nothing, moves⟩ :=
      ledger.step_client_moves message replicas now lent answers mode
    exact ⟨dropped, [], kept, answers, nothing, moves⟩
  | delivered position =>
    obtain ⟨taken, kept, moves⟩ := ledger.step_delivered_moves position
    exact ⟨[], taken, kept, [], ⟨fun _ => trivial, fun _ => rfl⟩, moves⟩
  | asynchronous message =>
    exact ⟨_, _, _, _, ⟨fun _ => trivial, fun _ => rfl⟩, .idle rfl rfl rfl⟩
  | lost => exact ⟨_, _, _, _, ⟨fun _ => trivial, fun _ => rfl⟩, .idle rfl rfl rfl⟩

theorem Balanced.step {ledger : Ledger} (balanced : ledger.Balanced) {event : ExchangeEvent}
    (keeps : ledger.Keeps event) : (ledger.step event).Balanced := by
  obtain ⟨dropped, taken, kept, answers, nothing, moves⟩ := ledger.step_moves event
  unfold Balanced at ⊢
  rw [moves.sent, moves.read, moves.pending, balanced, moves.waits, nothing.mpr keeps]
  simp only [nil_append, append_assoc]

theorem Balanced.short {ledger : Ledger} (balanced : ledger.Balanced) {event : ExchangeEvent}
    (leaves : ¬ ledger.Keeps event) : (ledger.step event).Short := by
  obtain ⟨dropped, taken, kept, answers, nothing, moves⟩ := ledger.step_moves event
  have lost : 0 < dropped.length := length_pos_iff.mpr fun none => leaves (nothing.mp none)
  have read := congrArg List.length moves.read
  unfold Short
  rw [moves.sent, moves.pending, balanced, moves.waits]
  simp only [length_append, length_map] at read ⊢
  omega

theorem Short.step {ledger : Ledger} (short : ledger.Short) (event : ExchangeEvent) :
    (ledger.step event).Short := by
  obtain ⟨dropped, taken, kept, answers, -, moves⟩ := ledger.step_moves event
  have read := congrArg List.length moves.read
  unfold Short at short ⊢
  rw [moves.waits] at short
  rw [moves.sent, moves.pending]
  simp only [length_append, length_map] at read short ⊢
  omega

theorem balanced_or_short (balanced : ledger.Balanced) (events : List ExchangeEvent) :
    Run.Permitted Keeps step ledger events ∧ (ledger.along events).Balanced ∨
      ¬ Run.Permitted Keeps step ledger events ∧ (ledger.along events).Short :=
  Run.foldl_permitted_or (fun _ _ before keeps => before.step keeps)
    (fun _ _ before leaves => before.short leaves) (fun _ event before => before.step event)
    balanced events

end Ledger

/-! ### Reading a `Flush` -/

variable {live : Live}

theorem sendOn_flush {upstream : Upstreamed}
    (back : (live.sendOn upstream .flush .flush).1.phase = .reading) :
    (live.sendOn upstream .flush .flush).1.pumping.owed.owed = [] := by
  unfold Live.sendOn at back ⊢
  rw [sendUpstream_of_no_statement rfl] at back ⊢
  rw [if_pos rfl] at back ⊢
  unfold Live.afterSending at back ⊢
  split at back
  · rename_i more
    cases more
  · split at back
    · rename_i stays settled
      rw [if_pos settled]
      exact List.isEmpty_iff.mp settled.2
    · cases back

theorem act_flush {lent : Option Upstreamed} {target : RouteTarget} {acquire : Bool}
    (back : (live.act .flush .flush lent (.send target acquire)).1.phase = .reading) :
    (live.act .flush .flush lent (.send target acquire)).1.pumping.owed.owed = [] := by
  cases acquire with
  | true =>
    cases lent with
    | none => cases back
    | some taken => exact sendOn_flush back
  | false =>
    unfold Live.act at back ⊢
    dsimp only at back ⊢
    split at back
    · cases back
    · exact sendOn_flush back

/-- The loop goes back to the client at once only when nothing is owed. -/
theorem takeFrame_flush {replicas : Replicas} {now : Nat} {lent : Option Upstreamed}
    (back : (live.takeFrame .flush replicas now lent).1.phase = .reading) :
    (live.takeFrame .flush replicas now lent).1.pumping.owed.owed = [] :=
  act_flush back

/-! ### What waits while the loop reads -/

/-- Of what the loop counts as owed, an end is what the server in hand still answers; what
stands before it was forwarded on another connection. -/
inductive Due : Phase → ServerMode → List Owed → List BackendMessage → Prop
  | aligned {phase : Phase} {real owed : List Owed} {pending : List BackendMessage}
      (reads : phase = .reading ∨ phase = .pumping true) (answers : Aligned real pending)
      (within : real <:+ owed) : Due phase .ready owed pending
  | broken {phase : Phase} {real owed : List Owed} {pending : List BackendMessage}
      (reads : phase = .reading ∨ phase = .pumping true) (answers : Breaks real pending)
      (within : real <:+ owed) : Due phase .skipping owed pending
  | skipped {phase : Phase} {owed : List Owed}
      (reads : phase = .reading ∨ phase = .pumping true) : Due phase .skipping owed []
  | asking {owed : List Owed} {before : List BackendMessage} {status : TxStatus}
      (plain : ∀ frame ∈ before, isPlain frame = true) :
      Due (.pumping false) .ready owed (before ++ [.readyForQuery status])
  /-- No `ReadyForQuery` is coming. -/
  | stuck {mode : ServerMode} {owed : List Owed} {pending : List BackendMessage}
      (plain : ∀ frame ∈ pending, isPlain frame = true) : Due (.pumping false) mode owed pending
  | closed {mode : ServerMode} {owed : List Owed} {pending : List BackendMessage} :
      Due .closed mode owed pending

variable {mode : ServerMode} {pending : List BackendMessage}

theorem Due.nil_of_settled (due : Due .reading mode [] pending) : pending = [] := by
  generalize nothing : ([] : List Owed) = owed at due
  cases due with
  | aligned _ answers within =>
    obtain rfl := suffix_nil.mp (nothing ▸ within)
    exact answers.nil_of_settled
  | broken _ answers within =>
    obtain rfl := suffix_nil.mp (nothing ▸ within)
    cases answers
  | skipped _ => rfl

theorem Due.plain {owed : List Owed} (due : Due .reading mode owed pending) :
    ∀ frame ∈ pending, isPlain frame = true := by
  cases due with
  | aligned _ answers _ => exact answers.plain
  | broken _ answers _ =>
    obtain ⟨before, reason, rfl, plain⟩ := answers.plain
    exact forall_mem_append.mpr ⟨plain, forall_mem_singleton.mpr rfl⟩
  | skipped _ => exact forall_mem_nil _

theorem Due.not_copying {flushing : Bool} {owed : List Owed} :
    ¬ Due (.copying flushing) mode owed pending := by
  intro due
  cases due with
  | aligned reads _ _ => simp at reads
  | broken reads _ _ => simp at reads
  | skipped reads => simp at reads

theorem suffix_concat {real owed : List Owed} (within : real <:+ owed) (kind : Owed) :
    real ++ [kind] <:+ owed ++ [kind] := by
  obtain ⟨front, rfl⟩ := within
  exact ⟨front, (append_assoc front real [kind]).symm⟩

section Sending

variable {mode next : ServerMode} {owed : List Owed} {pending answers : List BackendMessage}
  {message onward : FrontendMessage} {injected : List FrontendMessage}

section

variable (due : Due .reading mode owed pending)
include due

theorem Due.sendExtended {kind : Owed}
    (sends : Owed.of message = some kind) (own : Injected message injected)
    (renames : Renames message onward)
    (served : Serves mode (injected ++ [onward]) answers next)
    (noCopy : .copyInResponse ∉ answers) :
    Due .reading next (owed ++ [kind]) (pending ++ answers) := by
  have unsynced := own.unsynced renames sends
  cases due with
  | aligned reads before within =>
    have grown := suffix_concat within kind
    cases served.fulfils sends renames own with
    | completed behind => exact .aligned reads (before.append behind) grown
    | failed breaks => exact .broken reads (before.breaks breaks) grown
    | copyStarted _ => exact absurd mem_cons_self noCopy
  | broken reads before within =>
    obtain ⟨rfl, rfl⟩ := served.skipping unsynced
    rw [append_nil]
    exact .broken reads (before.append [kind]) (suffix_concat within kind)
  | skipped reads =>
    obtain ⟨rfl, rfl⟩ := served.skipping unsynced
    exact .skipped reads

theorem Due.listens (copies : Bool) : mode ≠ .copyIn copies := by
  rintro rfl
  cases due

theorem Due.sendAsking (asks : asksReady message = true)
    (answered : Answers mode message answers next) (noCopy : .copyInResponse ∉ answers) :
    Due (.pumping false) next owed (pending ++ answers) := by
  have simple := owed_of_asks asks
  have plain := due.plain
  cases answered with
  | completed kind _ _ => cases simple.symm.trans kind
  | failed _ kind _ => cases simple.symm.trans kind
  | copyStarted => cases simple
  | asked status _ body =>
    rw [← append_assoc]
    exact .asking (forall_mem_append.mpr ⟨plain, body⟩)
  | copyAsked _ => exact absurd (mem_append_right _ mem_cons_self) noCopy
  | unanswered _ silent => cases silent.symm.trans asks
  | resynced status => exact .asking plain
  | skipped _ =>
    rw [append_nil]
    exact .stuck plain
  | _ => exact absurd rfl (due.listens _)

theorem Due.flushing :
    Due (.pumping true) mode owed pending := by
  cases due with
  | aligned _ answers within => exact .aligned (.inr rfl) answers within
  | broken _ answers within => exact .broken (.inr rfl) answers within
  | skipped _ => exact .skipped (.inr rfl)

end

theorem Due.taken {pumping : Pumping} {live : Live} {frames : List FrontendMessage}
    (due : Due .reading mode pumping.owed.owed pending)
    (takes : Taken .reading pumping message live frames) (served : Serves mode frames answers next)
    (noCopy : .copyInResponse ∉ answers) :
    Due live.phase next live.pumping.owed.owed (pending ++ answers) := by
  cases takes with
  | answered phase same =>
    cases served
    rw [append_nil, phase, same]
    exact due
  | forwarded own renames owed goes =>
    rename_i injected onward
    rw [goes, owed]
    by_cases extended : message.startsExtendedSequence = true
    · obtain ⟨kind, sends⟩ := extended_iff_owed.mp extended
      rw [phaseAfter_of_extended extended]
      rw [sent_of_owed _ sends]
      exact due.sendExtended sends own renames served noCopy
    · obtain ⟨rfl, rfl, same⟩ := own.alone renames (Bool.eq_false_iff.mpr extended)
      rw [same]
      have answered := served.singleton
      by_cases asks : asksReady onward = true
      · rw [phaseAfter_of_asks asks]
        exact due.sendAsking asks answered noCopy
      · have simple : Owed.of onward = none := by
          cases kind : Owed.of onward with
          | none => rfl
          | some owes => exact absurd (extended_iff_owed.mpr ⟨owes, kind⟩) extended
        obtain ⟨rfl, rfl⟩ :=
          answered.of_silent simple (Bool.eq_false_iff.mpr asks) due.listens
        rw [append_nil]
        unfold phaseAfter
        split
        · exact due
        · split
          · exact due
          · by_cases flush : onward = .flush
            · rw [decide_eq_true flush]
              exact due.flushing
            · rw [decide_eq_false flush]
              exact .stuck due.plain

end Sending

/-! ### Reading an answer -/

theorem suffix_discharge {outstanding : Outstanding} {head : Owed} {real : List Owed}
    (within : head :: real <:+ outstanding.owed) (frame : BackendMessage) :
    (if head.dischargedBy frame then real else head :: real) <:+
      (outstanding.discharge frame).owed := by
  obtain ⟨owed⟩ := outstanding
  cases owed with
  | nil => cases suffix_nil.mp within
  | cons first later =>
    unfold Outstanding.discharge
    dsimp only
    rcases suffix_cons_iff.mp within with same | behind
    · cases same
      split
      · exact suffix_rfl
      · exact suffix_rfl
    · have shorter : (if head.dischargedBy frame then real else head :: real) <:+ later := by
        split
        · exact (suffix_cons head real).trans behind
        · exact behind
      generalize (if head.dischargedBy frame then real else head :: real) = left at shorter ⊢
      split
      · exact shorter
      · exact shorter.trans (suffix_cons first later)

theorem takeAnswer_flushed (answering : live.phase = .pumping true) {frame : BackendMessage}
    {position : Option Nat} (back : (live.takeAnswer true frame position).1.phase = .reading) :
    (live.takeAnswer true frame position).1.pumping.owed.owed = [] := by
  by_cases plain : isPlain frame = true
  · obtain ⟨owes, goes⟩ := takeAnswer_plain live true plain position
    rw [goes] at back
    split at back
    · rename_i settled
      rw [owes]
      exact List.isEmpty_iff.mp settled.2
    · cases answering.symm.trans back
  · cases frame with
    | readyForQuery status =>
      rcases takeAnswer_ready live true status position with closed | ⟨owes, -⟩
      · cases closed.symm.trans back
      · rw [owes]
        rfl
    | copyInResponse | copyBothResponse => cases back
    | _ => exact absurd rfl plain

theorem Due.delivered {flushing : Bool} (answering : live.phase = .pumping flushing)
    {frame : BackendMessage} {later : List BackendMessage}
    (due : Due (.pumping flushing) mode live.pumping.owed.owed (frame :: later))
    (position : Option Nat) :
    Due (live.takeAnswer flushing frame position).1.phase mode
      (live.takeAnswer flushing frame position).1.pumping.owed.owed later := by
  have plainly (plain : isPlain frame = true) := takeAnswer_plain live flushing plain position
  have step {head : Owed} {real : List Owed} (plain : isPlain frame = true)
      (fine : ∀ reason, frame ≠ .errorResponse reason)
      (within : head :: real <:+ live.pumping.owed.owed) :
      (if head.dischargedBy frame then real else head :: real) <:+
        (live.takeAnswer flushing frame position).1.pumping.owed.owed := by
    rw [(plainly plain).1, received_of_plain plain fine]
    exact suffix_discharge within frame
  have goes (flushes : Phase.pumping flushing = .reading ∨ Phase.pumping flushing = .pumping true)
      (plain : isPlain frame = true) :
      (live.takeAnswer flushing frame position).1.phase = .reading ∨
        (live.takeAnswer flushing frame position).1.phase = .pumping true := by
    rw [(plainly plain).2]
    split
    · exact .inl rfl
    · rw [answering]
      exact flushes
  generalize shape : frame :: later = pending at due
  generalize current : live.pumping.owed.owed = owed at due
  cases due with
  | aligned reads answers within =>
    subst shape
    rw [← current] at within
    cases answers with
    | passed plain fine other rest =>
      have left := step plain fine within
      rw [other] at left
      exact .aligned (goes reads plain) rest left
    | discharged ends rest =>
      obtain ⟨plain, fine⟩ := isPlain_of_dischargedBy ends
      have left := step plain fine within
      rw [ends] at left
      exact .aligned (goes reads plain) rest left
  | broken reads answers within =>
    subst shape
    rw [← current] at within
    cases answers with
    | failed reason => exact .skipped (goes reads rfl)
    | passed plain fine other rest =>
      have left := step plain fine within
      rw [other] at left
      exact .broken (goes reads plain) rest left
    | discharged ends rest =>
      obtain ⟨plain, fine⟩ := isPlain_of_dischargedBy ends
      have left := step plain fine within
      rw [ends] at left
      exact .broken (goes reads plain) rest left
  | skipped _ => cases shape
  | asking plain =>
    rename_i before status
    cases before with
    | nil =>
      cases shape
      rcases takeAnswer_ready live false status position with closed | ⟨-, back⟩
      · rw [closed]
        exact .closed
      · rw [back]
        exact .aligned (.inl rfl) .done (nil_suffix)
    | cons first before =>
      cases shape
      obtain ⟨-, stays⟩ := plainly (plain frame mem_cons_self)
      rw [stays, answering]
      exact .asking fun frame' among => plain frame' (mem_cons_of_mem _ among)
  | stuck plain =>
    subst shape
    obtain ⟨-, stays⟩ := plainly (plain frame mem_cons_self)
    rw [stays, answering]
    exact .stuck fun frame' among => plain frame' (mem_cons_of_mem _ among)

/-! ### Along a run -/

namespace Ledger

def Steady (ledger : Ledger) : Prop :=
  Due ledger.exchange.live.phase ledger.exchange.mode ledger.exchange.live.pumping.owed.owed
    ledger.exchange.pending

theorem Steady.client {ledger : Ledger} (steady : ledger.Steady) {message : FrontendMessage}
    {replicas : Replicas} {now : Nat} {lent : Option Upstreamed} {answers : List BackendMessage}
    {mode : ServerMode}
    (conforms : ledger.exchange.Conforms (.client message replicas now lent answers mode))
    (noCopy : .copyInResponse ∉ answers) :
    (ledger.step (.client message replicas now lent answers mode)).Steady := by
  unfold Steady at steady
  change Due (ledger.exchange.live.step (.client message replicas now lent)).1.phase mode
    (ledger.exchange.live.step (.client message replicas now lent)).1.pumping.owed.owed
    ((ledger.exchange.facing (.client message replicas now lent)).2 ++ answers)
  cases conforms.clientStep with
  | ended closed =>
    rw [closed]
    exact .closed
  | unread phase same keeps silent stays =>
    rw [same, keeps, silent, stays, append_nil]
    exact steady
  | copied phase _ _ _ =>
    rw [phase] at steady
    exact absurd steady Due.not_copying
  | taken phase _ takes _ served =>
    rw [phase] at steady
    have facing : Due .reading (ledger.exchange.facing (.client message replicas now lent)).1
        ledger.exchange.live.pumping.owed.owed
        (ledger.exchange.facing (.client message replicas now lent)).2 := by
      unfold Exchange.facing
      split
      · exact .aligned (.inl rfl) .done nil_suffix
      · exact steady
    exact facing.taken takes served noCopy

theorem Steady.step {ledger : Ledger} (steady : ledger.Steady) {event : ExchangeEvent}
    (conforms : ledger.Conforms event) : (ledger.step event).Steady := by
  cases event with
  | client message replicas now lent answers mode =>
    exact steady.client conforms.1 conforms.2
  | delivered position =>
    have goes : (ledger.step (.delivered position)).exchange =
        ledger.exchange.step (.delivered position) := by
      unfold Ledger.step
      dsimp only
      split
      · rfl
      · rfl
    unfold Steady at steady ⊢
    rw [goes]
    unfold Exchange.step
    dsimp only
    split
    · rename_i flushing frame later phase pending
      rw [phase, pending] at steady
      simp only [Live.step, phase]
      exact steady.delivered phase position
    · exact steady
  | asynchronous message => cases conforms
  | lost => exact .closed

/-- When the pump comes back from a `Flush`, it owes itself nothing and its buffer is empty. -/
theorem FlushReturns.settled {ledger : Ledger} {event : ExchangeEvent}
    (returns : ledger.FlushReturns event) :
    (ledger.step event).exchange.live.phase = .reading ∧
      (ledger.step event).exchange.live.pumping.owed.owed = [] ∧
      ∀ entry ∈ (ledger.step event).read, entry.2 ≠ .queued := by
  cases event with
  | client message replicas now lent answers mode =>
    obtain ⟨rfl, reading, back⟩ := returns
    have taken : (ledger.exchange.step (.client .flush replicas now lent answers mode)).live =
        (ledger.exchange.live.takeFrame .flush replicas now lent).1 := by
      simp only [Exchange.step, Live.step, reading]
    refine ⟨back, ?_, ?_⟩
    · change (ledger.exchange.step _).live.phase = .reading at back
      change (ledger.exchange.step _).live.pumping.owed.owed = []
      rw [taken] at back ⊢
      exact takeFrame_flush back
    · unfold step
      dsimp only
      rw [if_pos ⟨rfl, back⟩]
      exact fun entry => not_queued_of_mem_flushAll
  | delivered position =>
    obtain ⟨pumping, back⟩ := returns
    cases waiting : ledger.exchange.pending with
    | nil =>
      simp only [step, Exchange.step, pumping, waiting] at back
      cases back
    | cons frame later =>
      have next : (ledger.step (.delivered position)).exchange.live =
          (ledger.exchange.live.takeAnswer true frame position).1 := by
        simp only [step, Exchange.step, Live.step, pumping, waiting]
      refine ⟨back, ?_, ?_⟩
      · rw [next] at back ⊢
        exact takeAnswer_flushed pumping back
      · have moves : (ledger.exchange.step (.delivered position)).live.phase ≠
            .pumping true := by
          intro same
          simp only [step, pumping, waiting] at back
          cases same.symm.trans back
        simp only [step, pumping, waiting]
        rw [if_neg moves]
        exact fun entry => not_queued_of_mem_flushAll
  | asynchronous | lost => cases returns

end Ledger

/-- When the loop comes back from a `Flush`, every frame the servers have sent or owe for the
frames forwarded so far is with the client or was hidden, exactly if no connection has been
exchanged for another with answers unread on it. -/
theorem flush_answered_iff (mode : PoolMode) (statementTimeout : Option Nat)
    (settings : List (Text × Text)) (events : List ExchangeEvent) (event : ExchangeEvent)
    (conforms : Run.Permitted Ledger.Conforms Ledger.step
      (Ledger.start mode statementTimeout settings) (events ++ [event]))
    (returns : ((Ledger.start mode statementTimeout settings).along events).FlushReturns event) :
    ((Ledger.start mode statementTimeout settings).along (events ++ [event])).AnsweredInFull ↔
      Run.Permitted Ledger.Keeps Ledger.step (Ledger.start mode statementTimeout settings)
        (events ++ [event]) := by
  have steady : ((Ledger.start mode statementTimeout settings).along
      (events ++ [event])).Steady := by
    apply (Run.Reachable.start.foldl conforms).invariant
    · exact .aligned (.inl rfl) .done nil_suffix
    · intro before event steady allowed
      exact steady.step allowed
  have last : (Ledger.start mode statementTimeout settings).along (events ++ [event]) =
      ((Ledger.start mode statementTimeout settings).along events).step event :=
    foldl_append
  obtain ⟨reading, nothing, written⟩ := returns.settled
  rw [← last] at reading nothing written
  have quiet : ((Ledger.start mode statementTimeout settings).along
      (events ++ [event])).exchange.pending = [] := by
    unfold Ledger.Steady at steady
    rw [reading, nothing] at steady
    exact steady.nil_of_settled
  rcases Ledger.balanced_or_short (Ledger.start mode statementTimeout settings) rfl
    (events ++ [event]) with ⟨permitted, balanced⟩ | ⟨left, short⟩
  · refine ⟨fun _ => permitted, fun _ => ⟨?_, written⟩⟩
    unfold Ledger.Balanced at balanced
    rw [quiet, append_nil] at balanced
    exact balanced.symm
  · refine ⟨fun full => ?_, fun permitted => absurd permitted left⟩
    unfold Ledger.Short at short
    have length := congrArg List.length full.1
    rw [length_map] at length
    rw [quiet, length] at short
    exact absurd short (Nat.lt_irrefl _)

/-! ### A statement parsed on a replica and bound on the primary -/

namespace Ledger

def opened : Ledger :=
  start .transaction none []

def client (message : FrontendMessage) (replicas : Replicas) (id : Nat)
    (answers : List BackendMessage) (mode : ServerMode) : ExchangeEvent :=
  .client message replicas 0 (some (connection id)) answers mode

/-- The state of the server that a client's message finds, and the frames it is sent. -/
def sends (ledger : Ledger) (message : FrontendMessage) (replicas : Replicas) (id : Nat) :
    ServerMode × List FrontendMessage :=
  let event := LoopEvent.client message replicas 0 (some (connection id))
  ((ledger.exchange.facing event).1,
    framesSent (ledger.exchange.live.told message) (ledger.exchange.live.step event).2)

theorem conforms_client {ledger : Ledger} {message : FrontendMessage} {replicas : Replicas}
    {id : Nat} {answers : List BackendMessage} {next : ServerMode} {frames : List FrontendMessage}
    (sent : ledger.sends message replicas id = (.ready, frames))
    (served : Serves .ready frames answers next) (noCopy : .copyInResponse ∉ answers) :
    ledger.Conforms (client message replicas id answers next) := by
  refine ⟨?_, noCopy⟩
  change Serves (ledger.sends message replicas id).1 (ledger.sends message replicas id).2 _ _
  rw [sent]
  exact served

/-- A statement parsed on one connection and bound on the next, which has it parsed first. -/
def boundAndFlushed : List ExchangeEvent :=
  [client (.parse [] "SELECT 1".toList) noReplica 1 [.parseComplete] .ready,
    client .sync noReplica 1 [.readyForQuery .idle] .ready, .delivered none, .delivered none,
    client (.bind [] [] []) noReplica 2 [.parseComplete, .bindComplete] .ready,
    client .flush noReplica 2 [] .ready, .delivered none]

theorem boundAndFlushed_goes :
    let along := fun count => opened.along (boundAndFlushed.take count)
    ((along 0).sends (.parse [] "SELECT 1".toList) noReplica 1 =
        (.ready, [.parse [] "SELECT 1".toList]) ∧
      (along 1).sends .sync noReplica 1 = (.ready, [.sync]) ∧
      (along 4).sends (.bind [] [] []) noReplica 2 =
        (.ready, [.parse [] "SELECT 1".toList, .bind [] [] []]) ∧
      (along 5).sends .flush noReplica 2 = (.ready, [.flush])) ∧
    ((opened.along boundAndFlushed).exchange.live.phase = .pumping true ∧
      ((opened.along boundAndFlushed).step (.delivered none)).exchange.live.phase = .reading) ∧
    Run.Permitted Keeps step opened (boundAndFlushed ++ [.delivered none]) := by
  decide +kernel

theorem boundAndFlushed_conforms :
    Run.Permitted Conforms step opened (boundAndFlushed ++ [.delivered none]) := by
  obtain ⟨⟨parse, sync, bind, flush⟩, -⟩ := boundAndFlushed_goes
  refine ⟨conforms_client parse ?_ (by simp), conforms_client sync ?_ (by simp), trivial, trivial,
    conforms_client bind ?_ (by simp), conforms_client flush ?_ (by simp), trivial, trivial,
    trivial⟩
  · exact .cons (Answers.completed rfl (forall_mem_nil _) rfl) .nil
  · exact .cons (.asked .idle rfl (forall_mem_nil _)) .nil
  · exact .cons (Answers.completed rfl (forall_mem_nil _) rfl)
      (.cons (Answers.completed rfl (forall_mem_nil _) rfl) .nil)
  · exact .cons (.unanswered rfl rfl) .nil

theorem flush_answers_bind :
    (opened.along (boundAndFlushed ++ [.delivered none])).AnsweredInFull :=
  (flush_answered_iff _ _ _ boundAndFlushed (.delivered none) boundAndFlushed_conforms
    boundAndFlushed_goes.2.1).mpr boundAndFlushed_goes.2.2

/-- The `Bind` goes to the primary, where the statement is parsed again. -/
def boundOnPrimary : List ExchangeEvent :=
  [client (.parse [] "TABLE t".toList) oneReplica 1 [.parseComplete] .ready,
    client (.bind [] [] []) oneReplica 2 [.parseComplete, .bindComplete] .ready,
    client .flush oneReplica 3 [] .ready, .delivered none]

theorem boundOnPrimary_goes :
    let along := fun count => opened.along (boundOnPrimary.take count)
    ((along 0).sends (.parse [] "TABLE t".toList) oneReplica 1 =
        (.ready, [.parse [] "TABLE t".toList]) ∧
      (along 1).sends (.bind [] [] []) oneReplica 2 =
        (.ready, [.parse [] "TABLE t".toList, .bind [] [] []]) ∧
      (along 2).sends .flush oneReplica 3 = (.ready, [.flush])) ∧
    ((opened.along boundOnPrimary).exchange.live.phase = .pumping true ∧
      ((opened.along boundOnPrimary).step (.delivered none)).exchange.live.phase = .reading) ∧
    (opened.along (boundOnPrimary ++ [.delivered none])).read.map Prod.fst ≠
      (opened.along (boundOnPrimary ++ [.delivered none])).sent := by
  decide +kernel

theorem boundOnPrimary_conforms :
    Run.Permitted Conforms step opened (boundOnPrimary ++ [.delivered none]) := by
  obtain ⟨⟨parse, bind, flush⟩, -⟩ := boundOnPrimary_goes
  refine ⟨conforms_client parse ?_ (by simp), conforms_client bind ?_ (by simp),
    conforms_client flush ?_ (by simp), trivial, trivial, trivial⟩
  · exact .cons (Answers.completed rfl (forall_mem_nil _) rfl) .nil
  · exact .cons (Answers.completed rfl (forall_mem_nil _) rfl)
      (.cons (Answers.completed rfl (forall_mem_nil _) rfl) .nil)
  · exact .cons (.unanswered rfl rfl) .nil

end Ledger

/-- The primary's `ParseComplete` is hidden and counts for the client's own; the one the
replica sent stays unread, and the client, told of its `Bind` alone, waits for it. -/
theorem flush_leaves_parse_complete :
    ¬ ∀ (mode : PoolMode) (statementTimeout : Option Nat) (settings : List (Text × Text))
        (events : List ExchangeEvent) (event : ExchangeEvent),
      Run.Permitted Ledger.Conforms Ledger.step (Ledger.start mode statementTimeout settings)
        (events ++ [event]) →
      ((Ledger.start mode statementTimeout settings).along events).FlushReturns event →
      ((Ledger.start mode statementTimeout settings).along
        (events ++ [event])).AnsweredInFull := by
  intro always
  obtain ⟨-, returns, unread⟩ := Ledger.boundOnPrimary_goes
  exact unread (always _ _ _ _ _ Ledger.boundOnPrimary_conforms returns).1

end Pgprox.Serve
