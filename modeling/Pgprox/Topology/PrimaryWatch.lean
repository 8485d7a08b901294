/-
Watching primaries for demotion, and the backends that replace them.

The first probe that finds a primary in recovery sets a flag that is never cleared and asks
the sidecar, once, where the topology stands.  A usable answer is stored under the server
that was asked about.
-/

import Pgprox.Core.Basic
import Pgprox.Library.FiniteMap
import Pgprox.Library.Run

namespace Pgprox.Topologies

open List

/-! ### Grants and backends -/

structure Backend where
  server : ServerId
  database : String
  user : String
  deriving DecidableEq

def Backend.poolKey (backend : Backend) : PoolKey where
  server := backend.server
  database := backend.database
  user := backend.user

structure Grant where
  tenant : TenantId
  primary : Backend
  replicas : List Backend
  deriving DecidableEq

structure Topology where
  primary : Backend
  replicas : List Backend
  deriving DecidableEq

structure Probe where
  replayed : Nat
  inRecovery : Bool
  deriving DecidableEq

/-! ### The registry -/

structure Watched where
  demoted : Bool
  deriving DecidableEq

structure PrimaryWatches where
  watched : FiniteMap ServerId Watched
  overrides : FiniteMap ServerId Backend

namespace PrimaryWatches

def new : PrimaryWatches where
  watched := ∅
  overrides := ∅

def currentBackend (primaries : PrimaryWatches) (original : ServerId) : Option Backend :=
  primaries.overrides.lookup original

def isDemoted (primaries : PrimaryWatches) (server : ServerId) : Bool :=
  ((primaries.watched.lookup server).map Watched.demoted).getD false

def ensureWatched (primaries : PrimaryWatches) (primary : Backend) : PrimaryWatches :=
  match primaries.watched.lookup primary.server with
  | some _ => primaries
  | none =>
    { primaries with watched := primaries.watched.insert primary.server ⟨false⟩ }

end PrimaryWatches

def handle (result : Except String Probe) (demoted : Bool) : Bool × Bool :=
  match result with
  | .error _ => (demoted, false)
  | .ok probe =>
    if probe.inRecovery then
      -- the swap: only the call that finds the flag clear made the transition
      (true, !demoted)
    else
      (demoted, false)

theorem handle_of_demoted (result : Except String Probe) : handle result true = (true, false) := by
  unfold handle
  split
  · rfl
  · split <;> rfl

theorem demoted_of_transition {result : Except String Probe} {demoted : Bool}
    (transition : (handle result demoted).2 = true) :
    demoted = false ∧ (handle result demoted).1 = true := by
  cases demoted with
  | true =>
    rw [handle_of_demoted] at transition
    cases transition
  | false =>
    refine ⟨rfl, ?_⟩
    unfold handle at transition ⊢
    split at transition
    · cases transition
    · split at transition
      · rename_i recovering
        exact congrArg Prod.fst (if_pos recovering)
      · cases transition

def refresh (server : ServerId) (answer : Except String Topology)
    (overrides : FiniteMap ServerId Backend) : FiniteMap ServerId Backend :=
  match answer with
  | .ok topology => overrides.insert server topology.primary
  | .error _ => overrides

/-! ### The polls of one node -/

structure Polls where
  primaries : PrimaryWatches
  refreshing : Finset ServerId

inductive PollEvent
  | session (grant : Grant)
  | probed (server : ServerId) (result : Except String Probe)
  | refreshed (server : ServerId) (answer : Except String Topology)

namespace Polls

def new : Polls where
  primaries := .new
  refreshing := ∅

def step (polls : Polls) : PollEvent → Polls
  | .session grant =>
    { polls with primaries := polls.primaries.ensureWatched grant.primary }
  | .probed server result =>
    let handled := handle result (polls.primaries.isDemoted server)
    { primaries :=
        { polls.primaries with
          watched := polls.primaries.watched.insert server ⟨handled.1⟩ }
      refreshing := if handled.2 then insert server polls.refreshing else polls.refreshing }
  | .refreshed server answer =>
    { primaries :=
        { polls.primaries with
          overrides := refresh server answer polls.primaries.overrides }
      refreshing := polls.refreshing.erase server }

/-- A server is probed only while its poll runs and is not waiting for a refresh;
an answer comes only to a poll that waits for one. -/
def Enabled (polls : Polls) : PollEvent → Prop
  | .session _ => True
  | .probed server _ =>
    (polls.primaries.watched.lookup server).isSome ∧ server ∉ polls.refreshing
  | .refreshed server _ => server ∈ polls.refreshing

end Polls

abbrev PollHistory (events : List PollEvent) (polls : Polls) : Prop :=
  Run.History Polls.new Polls.Enabled Polls.step events polls

/-! ### The answers a node has recorded -/

def answers : List PollEvent → List (ServerId × Backend)
  | [] => []
  | .refreshed server (.ok topology) :: events => (server, topology.primary) :: answers events
  | _ :: events => answers events

theorem answers_append (earlier later : List PollEvent) :
    answers (earlier ++ later) = answers earlier ++ answers later := by
  fun_induction answers earlier with
  | case1 => rfl
  | case2 server topology events ih =>
    rw [cons_append, answers, ih, cons_append]
  | case3 event events other ih =>
    rw [cons_append, answers, ih]
    exact other

def answersAbout (server : ServerId) (events : List PollEvent) : List Backend :=
  ((answers events).filter fun answer => answer.1 = server).map Prod.snd

variable {events : List PollEvent}

theorem mem_answersAbout {server : ServerId} {backend : Backend} :
    backend ∈ answersAbout server events ↔ (server, backend) ∈ answers events := by
  simp [answersAbout]

theorem answersAbout_append (server : ServerId) (earlier later : List PollEvent) :
    answersAbout server (earlier ++ later) =
      answersAbout server earlier ++ answersAbout server later := by
  simp only [answersAbout, answers_append, filter_append, map_append]

/-- What the flag, the waiting poll and the stored backend of one server say about
the answers recorded for it. -/
structure Recorded (server : ServerId) (events : List PollEvent) (polls : Polls) : Prop where
  stored : answersAbout server events = (polls.primaries.currentBackend server).toList
  waiting : server ∈ polls.refreshing → polls.primaries.isDemoted server = true ∧
    polls.primaries.currentBackend server = none
  undemoted : polls.primaries.isDemoted server = false →
    polls.primaries.currentBackend server = none

namespace Recorded

variable {server : ServerId} {events : List PollEvent} {polls : Polls}

section

variable (recorded : Recorded server events polls)
include recorded

theorem session (grant : Grant) :
    Recorded server (events ++ [.session grant]) (polls.step (.session grant)) := by
  have flag : (polls.step (.session grant)).primaries.isDemoted server =
      polls.primaries.isDemoted server := by
    change (PrimaryWatches.ensureWatched _ _).isDemoted server = _
    unfold PrimaryWatches.ensureWatched PrimaryWatches.isDemoted
    split
    · rfl
    · rename_i absent
      rw [AList.lookup_insert_if]
      split
      · rename_i same
        rw [same, absent]
        rfl
      · rfl
  have backend : (polls.step (.session grant)).primaries.currentBackend server =
      polls.primaries.currentBackend server := by
    change (PrimaryWatches.ensureWatched _ _).currentBackend server = _
    unfold PrimaryWatches.ensureWatched
    split <;> rfl
  constructor
  · rw [answersAbout_append, backend, ← recorded.stored]
    exact append_nil _
  · rw [flag, backend]
    exact recorded.waiting
  · rw [flag, backend]
    exact recorded.undemoted

theorem probed (asked : ServerId) (result : Except String Probe) :
    Recorded server (events ++ [.probed asked result]) (polls.step (.probed asked result)) := by
  have flag : (polls.step (.probed asked result)).primaries.isDemoted server =
      if server = asked then (handle result (polls.primaries.isDemoted asked)).1
      else polls.primaries.isDemoted server := by
    unfold Polls.step PrimaryWatches.isDemoted
    rw [AList.lookup_insert_if]
    split <;> rfl
  have keeps : polls.primaries.isDemoted server = true →
      (polls.step (.probed asked result)).primaries.isDemoted server = true := by
    intro demoted
    rw [flag]
    split
    · rename_i same
      rw [← same, demoted, handle_of_demoted]
    · exact demoted
  constructor
  · rw [answersAbout_append, recorded.stored]
    exact append_nil _
  · intro waits
    change server ∈ (if _ then insert asked polls.refreshing else polls.refreshing) at waits
    split at waits
    · rename_i transition
      rcases Finset.mem_insert.mp waits with same | before
      · subst same
        obtain ⟨clear, sets⟩ := demoted_of_transition transition
        rw [flag, if_pos rfl]
        exact ⟨sets, recorded.undemoted clear⟩
      · exact ⟨keeps (recorded.waiting before).1, (recorded.waiting before).2⟩
    · exact ⟨keeps (recorded.waiting waits).1, (recorded.waiting waits).2⟩
  · intro clear
    apply recorded.undemoted
    by_contra demoted
    rw [keeps (Bool.not_eq_false _ ▸ demoted)] at clear
    cases clear

theorem refreshed (asked : ServerId)
    (answer : Except String Topology) (waits : asked ∈ polls.refreshing) :
    Recorded server (events ++ [.refreshed asked answer])
      (polls.step (.refreshed asked answer)) := by
  cases answer with
  | error reason =>
    constructor
    · rw [answersAbout_append, recorded.stored]
      exact append_nil _
    · intro remains
      exact recorded.waiting (Finset.mem_of_mem_erase remains)
    · exact recorded.undemoted
  | ok topology =>
    have backend : (polls.step (.refreshed asked (.ok topology))).primaries.currentBackend
        server = if server = asked then some topology.primary
          else polls.primaries.currentBackend server :=
      AList.lookup_insert_if ..
    by_cases same : server = asked
    · subst same
      obtain ⟨demoted, none⟩ := recorded.waiting waits
      rw [if_pos rfl] at backend
      constructor
      · rw [answersAbout_append, recorded.stored, none, backend]
        simp [answersAbout, answers]
      · intro remains
        exact absurd rfl (Finset.ne_of_mem_erase remains)
      · intro clear
        exact absurd (demoted.symm.trans clear) (by decide)
    · rw [if_neg same] at backend
      constructor
      · rw [answersAbout_append, recorded.stored, backend]
        simp [answersAbout, answers, Ne.symm same]
      · intro remains
        rw [backend]
        exact recorded.waiting (Finset.mem_of_mem_erase remains)
      · rw [backend]
        exact recorded.undemoted

end

end Recorded

theorem PollHistory.recorded {polls : Polls} (history : PollHistory events polls)
    (server : ServerId) : Recorded server events polls := by
  apply history.invariant
  · constructor
    · rfl
    · intro waits
      simp [Polls.new] at waits
    · intro _
      rfl
  · intro taken before event recorded enabled
    cases event with
    | session grant => exact recorded.session grant
    | probed asked result => exact recorded.probed asked result
    | refreshed asked answer => exact recorded.refreshed asked answer enabled

/-- Each server is asked about at most once, so the backend stored for it is the
only answer there is. -/
theorem PollHistory.answersAbout_eq {polls : Polls} (history : PollHistory events polls)
    (server : ServerId) :
    answersAbout server events = (polls.primaries.currentBackend server).toList :=
  (history.recorded server).stored

end Pgprox.Topologies
