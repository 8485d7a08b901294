/-
The unnamed statement of a connection that sessions take turns on.

The record keeps a hash of the SQL last sent for it, and a `Bind` by a session that parsed
something else is preceded by a `Parse` of the proxy's own.  Nothing tells the record that
the server rejected a `Parse`, or that the statement was taken away.
-/

import Pgprox.Serve.StatementRecord

namespace Pgprox.Serve

open Proto Pools Session List

def sqlHash (sql : Text) : Nat :=
  stableHash (bytesOf sql)

theorem holdsUnnamed_iff {record : ConnectionStatements} {sql : Text} :
    record.holdsUnnamed sql = true ↔ sqlHash sql ≠ 0 ∧ record.unnamed = sqlHash sql := by
  unfold ConnectionStatements.holdsUnnamed sqlHash
  generalize stableHash (bytesOf sql) = hash
  simp

/-! ### The server's unnamed statement -/

namespace Server

variable {engine : Engine} {server : Server engine}

def unnamed (server : Server engine) : Option Text :=
  server.statements.lookup []

def discardsAt (server : Server engine) (name : Text) (maxRows : Nat) : Bool :=
  match server.portals.lookup name with
  | none => false
  | some portal =>
    match engine.execute server.state portal maxRows with
    | .error _ => false
    | .ok executed => executed.discards

/-- Whether the unnamed statement last sent is there after one more frame, given whether it
was there before: a `Parse` of it has to be accepted, and what takes it away skipped. -/
def standsAfter (server : Server engine) (standing : Bool) : FrontendMessage → Bool
  | .parse name sql =>
    if name = [] then !(server.serve (.parse name sql)).1.skipping else standing
  | .query _ => standing && server.skipping
  | .close .statement name =>
    if name = [] then standing && server.skipping else standing
  | .execute name maxRows => standing && (server.skipping || !server.discardsAt name maxRows)
  | _ => standing

def standsAfterAll (server : Server engine) (standing : Bool) : List FrontendMessage → Bool
  | [] => standing
  | message :: later =>
    (server.serve message).1.standsAfterAll (server.standsAfter standing message) later

theorem unnamed_of_parse {sql : Text}
    (stays : (server.serve (.parse [] sql)).1.skipping = false) :
    (server.serve (.parse [] sql)).1.unnamed = some sql := by
  cases skips : server.skipping with
  | true =>
    have skipped : server.serve (.parse [] sql) = (server, []) := serve_of_skipping skips nofun
    rw [skipped, skips] at stays
    cases stays
  | false =>
    obtain ⟨state, accepted⟩ := parse_accepted skips (.inl rfl) stays
    rw [serve_parse skips (.inl rfl) accepted]
    exact AList.lookup_insert _

variable {message : FrontendMessage}

theorem unnamed_of_skipping (skips : server.skipping = true) (inside : message ≠ .sync) :
    (server.serve message).1.unnamed = server.unnamed := by
  rw [serve_of_skipping skips inside]

theorem unnamed_of_process (inside : message ≠ .sync)
    (kept : server.skipping = false → (server.process message).1.unnamed = server.unnamed) :
    (server.serve message).1.unnamed = server.unnamed := by
  cases skips : server.skipping with
  | true => exact unnamed_of_skipping skips inside
  | false =>
    rw [serve_eq_process skips inside]
    exact kept skips

theorem unnamed_parse_named {name sql : Text} (named : name ≠ []) :
    (server.parse name sql).1.unnamed = server.unnamed := by
  unfold parse
  split
  · rfl
  · split
    · unfold release
      rw [if_neg named]
      rfl
    · exact AList.lookup_insert_ne named.symm

theorem unnamed_execute {name : Text} {maxRows : Nat}
    (keeps : server.discardsAt name maxRows = false) :
    (server.execute name maxRows).1.unnamed = server.unnamed := by
  unfold discardsAt at keeps
  unfold execute
  cases found : server.portals.lookup name with
  | none => rfl
  | some portal =>
    rw [found] at keeps
    dsimp only at keeps ⊢
    cases ran : engine.execute server.state portal maxRows with
    | error reason => rfl
    | ok executed =>
      rw [ran] at keeps
      dsimp only at keeps ⊢
      rw [keeps]
      rfl

theorem standsAfter_unnamed {standing : Bool}
    (stands : server.standsAfter standing message = true) :
    (∃ sql, message = .parse [] sql ∧ (server.serve message).1.unnamed = some sql) ∨
      (standing = true ∧ (∀ sql, message ≠ .parse [] sql) ∧
        (server.serve message).1.unnamed = server.unnamed) := by
  have left {message : FrontendMessage} (inside : message ≠ .sync)
      (kept : (server.process message).1.statements = server.statements) :
      (server.serve message).1.unnamed = server.unnamed := by
    refine unnamed_of_process inside fun _ => ?_
    unfold unnamed
    rw [kept]
  cases message with
  | parse name sql =>
    dsimp only [standsAfter] at stands
    split at stands
    · rename_i unnamed
      subst unnamed
      exact .inl ⟨sql, rfl, unnamed_of_parse (Bool.not_eq_true' _ ▸ stands)⟩
    · rename_i named
      refine .inr ⟨stands, fun _ same => named (FrontendMessage.parse.inj same).1, ?_⟩
      exact unnamed_of_process nofun fun _ => unnamed_parse_named named
  | query sql =>
    obtain ⟨stood, skips⟩ := Bool.and_eq_true_iff.mp stands
    exact .inr ⟨stood, nofun, unnamed_of_skipping skips nofun⟩
  | close target name =>
    cases target with
    | portal => exact .inr ⟨stands, nofun, left nofun rfl⟩
    | statement =>
      dsimp only [standsAfter] at stands
      split at stands
      · obtain ⟨stood, skips⟩ := Bool.and_eq_true_iff.mp stands
        exact .inr ⟨stood, nofun, unnamed_of_skipping skips nofun⟩
      · rename_i named
        refine .inr ⟨stands, nofun, unnamed_of_process nofun fun _ => ?_⟩
        exact AList.lookup_erase_ne (Ne.symm named)
  | execute name maxRows =>
    obtain ⟨stood, keeps⟩ := Bool.and_eq_true_iff.mp stands
    refine .inr ⟨stood, nofun, unnamed_of_process nofun fun listens => ?_⟩
    rw [listens, Bool.false_or, Bool.not_eq_true'] at keeps
    exact unnamed_execute keeps
  | bind portal name arguments =>
    exact .inr ⟨stands, nofun, left nofun (server.statements_bind portal name arguments)⟩
  | describe target name =>
    cases target with
    | portal => exact .inr ⟨stands, nofun, left nofun (server.statements_describePortal name)⟩
    | statement =>
      exact .inr ⟨stands, nofun, left nofun (server.statements_describeStatement name)⟩
  | sync => exact .inr ⟨stands, nofun, rfl⟩
  | flush | terminate | password | functionCall | copyData | copyDone | copyFail | other =>
    exact .inr ⟨stands, nofun, left nofun rfl⟩

theorem standsAfterAll_unnamed {standing : Bool} {messages : List FrontendMessage}
    (stands : server.standsAfterAll standing messages = true) :
    (∃ sql, .parse [] sql ∈ messages ∧ (server.serveAll messages).1.unnamed = some sql) ∨
      (standing = true ∧ (∀ sql, .parse [] sql ∉ messages) ∧
        (server.serveAll messages).1.unnamed = server.unnamed) := by
  induction messages generalizing server standing with
  | nil => exact .inr ⟨stands, fun _ => not_mem_nil, rfl⟩
  | cons message later ih =>
    rcases ih stands with ⟨sql, among, has⟩ | ⟨stood, none, same⟩
    · exact .inl ⟨sql, mem_cons_of_mem _ among, has⟩
    · rcases standsAfter_unnamed stood with ⟨sql, parsed, has⟩ | ⟨before, other, kept⟩
      · exact .inl ⟨sql, parsed ▸ mem_cons_self, same.trans has⟩
      · refine .inr ⟨before, fun sql among => ?_, same.trans kept⟩
        rcases mem_cons.mp among with first | rest
        · exact other sql first.symm
        · exact none sql rest

end Server

/-! ### What is sent for the unnamed statement -/

/-- Either the unnamed statement is parsed, as the SQL of the frame or of the session, and
noted; or it is not, and the note stays.  A note may also be struck out. -/
inductive Notes (statements : SessionStatements) (record : ConnectionStatements)
    (message : FrontendMessage) (sent : Sent) : Prop
  | parses (sql : Text)
      (origin : message = .parse [] sql ∨
        ∃ prepared, statements.get [] = some prepared ∧ prepared.sql = sql)
      (among : .parse [] sql ∈ sent.upstream)
      (only : ∀ other, .parse [] other ∈ sent.upstream → other = sql)
      (noted : sent.record.unnamed = sqlHash sql ∨ sent.record.unnamed = 0)
  | leaves (silent : ∀ sql, .parse [] sql ∉ sent.upstream)
      (kept : sent.record.unnamed = record.unnamed ∨ sent.record.unnamed = 0)

section Sending

variable {statements mapped : SessionStatements} {record : ConnectionStatements}
  {message onward : FrontendMessage}

theorem forgetFor_unnamed (statements : SessionStatements) (record : ConnectionStatements)
    (message : FrontendMessage) :
    (forgetFor statements record message).2.unnamed = record.unnamed ∨
      (forgetFor statements record message).2.unnamed = 0 := by
  have observed (sql : Text) :
      (observeStatement statements record sql).2.unnamed = record.unnamed ∨
        (observeStatement statements record sql).2.unnamed = 0 := by
    unfold observeStatement
    split
    · exact .inr rfl
    · exact .inl rfl
  cases message with
  | query sql => exact observed sql
  | parse name sql => exact observed sql
  | close target name =>
    cases target with
    | portal => exact .inl rfl
    | statement =>
      change (onClose statements record name).2.unnamed = _ ∨ _
      unfold onClose
      split
      · exact .inl rfl
      · exact .inl rfl
  | _ => exact .inl rfl

theorem notes_of_no_statement (plain : statementName message = none)
    (other : ∀ sql, onward ≠ .parse [] sql) :
    Notes statements record message (sendUpstream mapped record message onward) := by
  rw [sendUpstream_of_no_statement plain]
  refine .leaves (fun sql among => ?_) (forgetFor_unnamed mapped record message)
  exact other sql (mem_singleton.mp among).symm

theorem not_mem_closes {names : List GlobalName} {onward : FrontendMessage}
    (other : ∀ sql, onward ≠ .parse [] sql) (sql : Text) :
    .parse [] sql ∉ ((names.map GlobalName.text).map fun name =>
      FrontendMessage.close .statement name) ++ [onward] := by
  intro among
  rcases mem_append.mp among with closing | last
  · obtain ⟨name, -, same⟩ := mem_map.mp closing
    cases same
  · exact other sql (mem_singleton.mp last).symm

theorem notes_parse (name sql : Text) :
    Notes statements record (.parse name sql)
      (sendUpstream (statements.parse name sql) record (.parse name sql)
        (.parse (if name = [] then [] else (GlobalName.forSql sql).text) sql)) := by
  cases drops : deallocatesEverything sql with
  | true =>
    -- every statement is forgotten, this one included, and the frame goes as it is
    have forgot : forgetFor (statements.parse name sql) record (.parse name sql) =
        (∅, record.forgetAll) := by
      unfold forgetFor observeStatement
      dsimp only
      rw [drops]
      rfl
    have sends (onward : FrontendMessage) : sendUpstream (statements.parse name sql) record
        (.parse name sql) onward = ⟨∅, record.forgetAll, [onward], 0, true⟩ := by
      unfold sendUpstream
      rw [forgot]
      rfl
    rw [sends]
    by_cases named : name = []
    · subst named
      refine .parses sql (.inl rfl) (mem_singleton_self _) (fun other among => ?_) (.inr rfl)
      exact (FrontendMessage.parse.inj (mem_singleton.mp among)).2
    · rw [if_neg named]
      refine .leaves (fun other among => ?_) (.inr rfl)
      exact (GlobalName.forSql sql).nonempty
        (FrontendMessage.parse.inj (mem_singleton.mp among)).1.symm
  | false =>
    by_cases named : name = []
    · subst named
      rw [sendUpstream_parse_unnamed drops]
      refine .parses sql (.inl rfl) (mem_singleton_self _) (fun other among => ?_) (.inl rfl)
      exact (FrontendMessage.parse.inj (mem_singleton.mp among)).2
    · rw [if_neg named]
      cases held : record.holds (.forSql sql) with
      | true =>
        rw [sendUpstream_parse_held drops named held]
        exact .leaves (fun _ => not_mem_nil) (.inl rfl)
      | false =>
        obtain ⟨updated, evict, made, -, unnamed, -⟩ := evictFor_of_not_held held
        rw [sendUpstream_parse_new drops named held, made]
        refine .leaves (not_mem_closes fun other same => ?_) (.inl unnamed)
        exact (GlobalName.forSql sql).nonempty (FrontendMessage.parse.inj same).1

theorem notes_bind {portal name arguments : Text}
    (named : mapStatementName statements (.bind portal name arguments) =
      some (mapped, onward)) :
    Notes statements record (.bind portal name arguments)
      (sendUpstream mapped record (.bind portal name arguments) onward) := by
  have same := mapStatementName_statements named
  subst same
  rw [mapStatementName_bind] at named
  have binding : ∃ asked, onward = .bind portal asked arguments := by
    split at named
    · exact ⟨_, (Prod.mk.inj (Option.some.inj named)).2.symm⟩
    · obtain ⟨prepared, -, same⟩ := Option.map_eq_some_iff.mp named
      exact ⟨_, (Prod.mk.inj same).2.symm⟩
  obtain ⟨asked, rfl⟩ := binding
  have alone (sql : Text) : FrontendMessage.parse [] sql ∉ [.bind portal asked arguments] :=
    fun among => nomatch mem_singleton.mp among
  cases known : mapped.get name with
  | none =>
    rw [sendUpstream_bind_missing known]
    exact .leaves alone (.inl rfl)
  | some prepared =>
    by_cases unnamed : name = []
    · subst unnamed
      rw [sendUpstream_bind_unnamed known]
      split
      · rename_i holds
        exact .leaves alone (.inl (holdsUnnamed_iff.mp holds).2.symm)
      · refine .parses prepared.sql (.inr ⟨prepared, known, rfl⟩) mem_cons_self
          (fun other among => ?_) (.inl rfl)
        rcases mem_cons.mp among with first | last
        · exact (FrontendMessage.parse.inj first).2
        · exact absurd last (alone other)
    · cases held : record.holds prepared.global with
      | true =>
        rw [sendUpstream_bind_held unnamed known held]
        exact .leaves alone (.inl rfl)
      | false =>
        obtain ⟨updated, evict, made, -, kept, -⟩ := evictFor_of_not_held held
        rw [sendUpstream_bind_new unnamed known held, made]
        refine .leaves (fun other among => ?_) (.inl kept)
        rcases mem_append.mp among with earlier | last
        · refine not_mem_closes (fun sql same => ?_) other earlier
          exact prepared.global.nonempty (FrontendMessage.parse.inj same).1
        · exact alone other last

theorem onward_of_no_statement (plain : statementName message = none)
    (named : mapStatementName statements message = some (mapped, onward)) (sql : Text) :
    onward ≠ .parse [] sql := by
  have unchanged (named : some (statements, message) = some (mapped, onward))
      (other : message ≠ .parse [] sql) : onward ≠ .parse [] sql :=
    (Prod.mk.inj (Option.some.inj named)).2 ▸ other
  cases message with
  | parse | bind => cases plain
  | describe target name =>
    cases target with
    | portal => exact unchanged named nofun
    | statement =>
      rw [mapStatementName_describe] at named
      split at named
      · exact unchanged named nofun
      · obtain ⟨prepared, -, same⟩ := Option.map_eq_some_iff.mp named
        exact (Prod.mk.inj same).2 ▸ nofun
  | close target name =>
    cases target with
    | portal => exact unchanged named nofun
    | statement =>
      rw [mapStatementName_close] at named
      split at named
      · exact unchanged named nofun
      · obtain ⟨prepared, -, same⟩ := Option.map_eq_some_iff.mp named
        exact (Prod.mk.inj same).2 ▸ nofun
  | _ => exact unchanged named nofun

theorem notes_sent (named : mapStatementName statements message = some (mapped, onward)) :
    Notes statements record message (sendUpstream mapped record message onward) := by
  cases about : statementName message with
  | none => exact notes_of_no_statement about (onward_of_no_statement about named)
  | some name =>
    cases message with
    | parse name sql =>
      rw [mapStatementName_parse] at named
      obtain ⟨rfl, rfl⟩ := Prod.mk.inj (Option.some.inj named)
      exact notes_parse name sql
    | bind portal name arguments => exact notes_bind named
    | _ => cases about

end Sending

theorem mem_of_lastParse {name sql : Text} {frames : List FrontendMessage}
    (latest : lastParse name frames = some sql) : .parse name sql ∈ frames := by
  induction frames using List.reverseRecOn with
  | nil => cases latest
  | append_singleton earlier message ih =>
    rw [lastParse_append_singleton] at latest
    refine mem_append.mpr ?_
    split at latest
    · split at latest
      · rename_i same
        cases latest
        exact .inr (same ▸ mem_singleton_self _)
      · exact .inl (ih latest)
    · exact .inl (ih latest)

/-! ### Sessions that borrow the connection in turn -/

/-- Beside the connection: what each session has sent, here and on its other connections,
and whether the unnamed statement last sent here was accepted and has not been taken away. -/
structure Lent (engine : Engine) where
  shared : Shared engine
  frames : Nat → List FrontendMessage
  standing : Bool

inductive LendEvent
  | frame (session : Nat) (message : FrontendMessage)
  | own (sql : Text)
  | elsewhere (session : Nat) (message : FrontendMessage)

def mapAfter (statements : SessionStatements) (message : FrontendMessage) : SessionStatements :=
  match mapStatementName statements message with
  | none => statements
  | some mapped => (forgetFor mapped.1 (.new 0) message).1

namespace Shared

variable {engine : Engine}

def upstreamOf (shared : Shared engine) (session : Nat) (message : FrontendMessage) :
    List FrontendMessage :=
  match mapStatementName (shared.sessions session) message with
  | none => []
  | some mapped => (sendUpstream mapped.1 shared.record message mapped.2).upstream

/-- The unnamed statement at the moment the server processes a session's `Bind` of it.
Nothing when the server skips the `Bind`. -/
def boundAgainst (shared : Shared engine) (session : Nat) (portal arguments : Text) :
    Option (Option Text) :=
  let before := (shared.server.serveAll
    (shared.upstreamOf session (.bind portal [] arguments)).dropLast).1
  if before.skipping then none else some before.unnamed

theorem upstreamOf_bind {shared : Shared engine} {session : Nat} {prepared : PreparedStatement}
    (known : (shared.sessions session).get [] = some prepared) (portal arguments : Text) :
    shared.upstreamOf session (.bind portal [] arguments) =
      if shared.record.holdsUnnamed prepared.sql then [.bind portal [] arguments]
      else [.parse [] prepared.sql, .bind portal [] arguments] := by
  have mapped : mapStatementName (shared.sessions session) (.bind portal [] arguments) =
      some (shared.sessions session, .bind portal [] arguments) :=
    rfl
  unfold upstreamOf
  rw [mapped]
  dsimp only
  rw [sendUpstream_bind_unnamed known]
  split
  · rfl
  · rfl

theorem frame_server (shared : Shared engine) (session : Nat) (message : FrontendMessage) :
    (shared.frame session message).server =
      (shared.server.serveAll (shared.upstreamOf session message)).1 := by
  unfold frame upstreamOf
  cases mapStatementName (shared.sessions session) message with
  | none | some => rfl

end Shared

namespace Lent

variable {engine : Engine}

def start (state : engine.State) (perConnectionCap : Nat) : Lent engine where
  shared := .start state perConnectionCap
  frames := fun _ => []
  standing := false

def read (lent : Lent engine) (session : Nat) (message : FrontendMessage) :
    Nat → List FrontendMessage :=
  Function.update lent.frames session (lent.frames session ++ [message])

def step (lent : Lent engine) : LendEvent → Lent engine
  | .frame session message =>
    { shared := lent.shared.step (.frame session message)
      frames := lent.read session message
      standing := lent.shared.server.standsAfterAll lent.standing
        (lent.shared.upstreamOf session message) }
  | .own sql =>
    { lent with
      shared := lent.shared.step (.replay sql)
      standing := lent.shared.server.standsAfter lent.standing (.query sql) }
  | .elsewhere session message =>
    { lent with
      shared := lent.shared.step
        (.elsewhere session (mapAfter (lent.shared.sessions session) message))
      frames := lent.read session message }

def Within (texts : Set Text) (_lent : Lent engine) : LendEvent → Prop
  | .frame _ message | .elsewhere _ message => ∀ sql, message = .parse [] sql → sql ∈ texts
  | .own _ => True

structure Sound (texts : Set Text) (lent : Lent engine) : Prop where
  known : ∀ session, Known (lent.shared.sessions session) (lent.frames session)
  among : ∀ session sql, .parse [] sql ∈ lent.frames session → sql ∈ texts
  stands : lent.standing = true → ∀ sql ∈ texts,
    lent.shared.record.holdsUnnamed sql = true → lent.shared.server.unnamed = some sql

section Runs

variable {texts : Set Text} {lent : Lent engine} {session : Nat} {message : FrontendMessage}

section

variable (sound : lent.Sound texts)
include sound

theorem Sound.read_known {statements : SessionStatements}
    (known : Known statements (lent.frames session ++ [message])) (other : Nat) :
    Known (Function.update lent.shared.sessions session statements other)
      (lent.read session message other) := by
  unfold read
  by_cases same : other = session
  · subst same
    rw [Function.update_self, Function.update_self]
    exact known
  · rw [Function.update_of_ne same, Function.update_of_ne same]
    exact sound.known other

theorem Sound.read_among
    (within : ∀ sql, message = .parse [] sql → sql ∈ texts) (other : Nat) (sql : Text)
    (parsed : .parse [] sql ∈ lent.read session message other) : sql ∈ texts := by
  unfold read at parsed
  by_cases same : other = session
  · subst same
    rw [Function.update_self] at parsed
    rcases mem_append.mp parsed with earlier | last
    · exact sound.among other sql earlier
    · exact within sql (mem_singleton.mp last).symm
  · rw [Function.update_of_ne same] at parsed
    exact sound.among other sql parsed

theorem Sound.sent_known {mapped : SessionStatements × FrontendMessage}
    (named : mapStatementName (lent.shared.sessions session) message = some mapped)
    (record : ConnectionStatements) :
    Known (forgetFor mapped.1 record message).1 (lent.frames session ++ [message]) :=
  ((sound.known session).read named).mono fun _ _ => forgetFor_get

theorem Sound.of_session {prepared : PreparedStatement}
    (found : (lent.shared.sessions session).get [] = some prepared) : prepared.sql ∈ texts :=
  sound.among session _ (mem_of_lastParse (sound.known session [] prepared found))

/-- The record and the server agree after a frame if what was sent stands. -/
theorem Sound.frame_stands (apart : texts.InjOn sqlHash)
    (within : ∀ sql, message = .parse [] sql → sql ∈ texts)
    (stands : (lent.step (.frame session message)).standing = true) (sql : Text)
    (listed : sql ∈ texts)
    (holds : (lent.shared.frame session message).record.holdsUnnamed sql = true) :
    (lent.shared.frame session message).server.unnamed = some sql := by
  rw [Shared.frame_server]
  obtain ⟨nonzero, recorded⟩ := holdsUnnamed_iff.mp holds
  have after := Server.standsAfterAll_unnamed stands
  unfold Shared.frame at recorded
  cases named : mapStatementName (lent.shared.sessions session) message with
  | none =>
    have nothing : lent.shared.upstreamOf session message = [] := by
      unfold Shared.upstreamOf
      rw [named]
    rw [nothing] at after ⊢
    rw [named] at recorded
    rcases after with ⟨other, among, -⟩ | ⟨stood, -, -⟩
    · cases among
    · exact sound.stands stood sql listed (holdsUnnamed_iff.mpr ⟨nonzero, recorded⟩)
  | some mapped =>
    have upstream : lent.shared.upstreamOf session message =
        (sendUpstream mapped.1 lent.shared.record message mapped.2).upstream := by
      unfold Shared.upstreamOf
      rw [named]
    rw [upstream] at after ⊢
    rw [named] at recorded
    rcases (notes_sent named : Notes _ lent.shared.record message _) with
      ⟨parsed, origin, sends, only, noted⟩ | ⟨silent, kept⟩
    · have listedToo : parsed ∈ texts := by
        rcases origin with same | ⟨prepared, found, same⟩
        · exact within parsed same
        · exact same ▸ sound.of_session found
      rcases after with ⟨other, among, has⟩ | ⟨-, none, -⟩
      · have hashes : sqlHash parsed = sqlHash sql := by
          rcases noted with noted | struck
          · rw [← noted, recorded]
          · exact absurd (recorded ▸ struck) nonzero
        rw [has, only other among, apart listedToo listed hashes]
      · exact absurd sends (none parsed)
    · rcases after with ⟨other, among, -⟩ | ⟨stood, -, same⟩
      · exact absurd among (silent other)
      · rw [same]
        refine sound.stands stood sql listed (holdsUnnamed_iff.mpr ⟨nonzero, ?_⟩)
        rcases kept with kept | struck
        · rw [← kept, recorded]
        · exact absurd (recorded ▸ struck) nonzero

theorem Sound.frame (apart : texts.InjOn sqlHash)
    (within : ∀ sql, message = .parse [] sql → sql ∈ texts) :
    (lent.step (.frame session message)).Sound texts where
  known other := by
    change Known ((lent.shared.frame session message).sessions other) _
    unfold Shared.frame
    cases named : mapStatementName (lent.shared.sessions session) message with
    | none =>
      have same : lent.shared.sessions = Function.update lent.shared.sessions session
          (lent.shared.sessions session) := (Function.update_eq_self _ _).symm
      rw [same]
      exact sound.read_known ((sound.known session).refused named) other
    | some mapped =>
      dsimp only
      rw [sendUpstream_session]
      exact sound.read_known (sound.sent_known named _) other
  among := sound.read_among within
  stands := sound.frame_stands apart within

theorem Sound.own (sql : Text) :
    (lent.step (.own sql)).Sound texts where
  known := sound.known
  among := sound.among
  stands stands other listed holds := by
    have after : lent.shared.server.standsAfter lent.standing (.query sql) = true := stands
    rcases Server.standsAfter_unnamed after with ⟨parsed, same, -⟩ | ⟨stood, -, same⟩
    · cases same
    · exact same.trans (sound.stands stood other listed holds)

theorem Sound.elsewhere
    (within : ∀ sql, message = .parse [] sql → sql ∈ texts) :
    (lent.step (.elsewhere session message)).Sound texts where
  known other := by
    refine sound.read_known ?_ other
    unfold mapAfter
    cases named : mapStatementName (lent.shared.sessions session) message with
    | none => exact (sound.known session).refused named
    | some mapped => exact sound.sent_known named _
  among := sound.read_among within
  stands := sound.stands

end

theorem sound_of_reachable (apart : texts.InjOn sqlHash) {state : engine.State}
    {perConnectionCap : Nat}
    (reached : Run.Reachable (start state perConnectionCap) (Within texts) step lent) :
    lent.Sound texts := by
  refine reached.invariant ⟨fun _ _ _ => nofun, fun _ _ => nofun, nofun⟩ ?_
  intro before event sound within
  cases event with
  | frame session message => exact sound.frame apart within
  | own sql => exact sound.own sql
  | elsewhere session message => exact sound.elsewhere within

end Runs

/-- Along every run of sessions on one connection whose unnamed texts have different hashes:
whenever the server processes a session's `Bind` of the unnamed statement it parsed and has
not closed, it binds what the session last parsed, provided that the statement last sent
stands if the record says it is the session's. -/
theorem unnamed_is_sessions_own (texts : Set Text) (apart : texts.InjOn sqlHash)
    (state : engine.State) (perConnectionCap : Nat) (lent : Lent engine)
    (reached : Run.Reachable (start state perConnectionCap) (Within texts) step lent)
    (session : Nat) (portal arguments sql : Text) (found : Option Text)
    (parsed : lastParse [] (lent.frames session) = some sql)
    (kept : ((lent.shared.sessions session).get []).isSome = true)
    (told : lent.shared.record.holdsUnnamed sql = true → lent.standing = true)
    (processed : lent.shared.boundAgainst session portal arguments = some found) :
    found = some sql := by
  have sound := sound_of_reachable apart reached
  obtain ⟨prepared, known⟩ := Option.isSome_iff_exists.mp kept
  have latest := sound.known session [] prepared known
  obtain rfl : sql = prepared.sql := Option.some.inj (parsed.symm.trans latest)
  unfold Shared.boundAgainst at processed
  rw [Shared.upstreamOf_bind known] at processed
  by_cases holds : lent.shared.record.holdsUnnamed prepared.sql = true
  · -- the `Bind` goes alone, and the record is right
    rw [if_pos holds] at processed
    dsimp only at processed
    split at processed
    · cases processed
    · rw [← Option.some.inj processed]
      exact sound.stands (told holds) prepared.sql (sound.of_session known) holds
  · -- the proxy's `Parse` goes first; had it failed, the `Bind` would be skipped
    rw [if_neg holds] at processed
    dsimp only at processed
    split at processed
    · cases processed
    · rename_i listens
      rw [← Option.some.inj processed]
      exact Server.unnamed_of_parse (Bool.eq_false_of_not_eq_true listens)

theorem injOn_pair {one two : Text} (differ : sqlHash one ≠ sqlHash two) :
    Set.InjOn sqlHash {one, two} := by
  rintro a (rfl | rfl) b (rfl | rfl) same
  · rfl
  · exact absurd same differ
  · exact absurd same.symm differ
  · rfl

def takeTurns : List LendEvent :=
  [.frame 0 (.parse [] "SELECT 1".toList), .frame 0 .sync,
    .frame 1 (.parse [] "SELECT 2".toList), .frame 1 .sync]

def along (events : List LendEvent) : Lent pickyEngine :=
  events.foldl step (start () 100)

theorem parsed_again_for_bind :
    ((along takeTurns).shared.boundAgainst 0 [] []).isSome = true ∧
      ∀ found, (along takeTurns).shared.boundAgainst 0 [] [] = some found →
        found = some "SELECT 1".toList := by
  have facts : lastParse [] ((along takeTurns).frames 0) = some "SELECT 1".toList ∧
      (((along takeTurns).shared.sessions 0).get []).isSome = true ∧
      (along takeTurns).standing = true ∧
      ((along takeTurns).shared.boundAgainst 0 [] []).isSome = true ∧
      sqlHash "SELECT 1".toList ≠ sqlHash "SELECT 2".toList := by
    decide +kernel
  obtain ⟨parsed, kept, stands, processed, differ⟩ := facts
  have permitted : Run.Permitted (Within {"SELECT 1".toList, "SELECT 2".toList}) step
      (start () 100 : Lent pickyEngine) takeTurns := by
    refine ⟨fun sql same => ?_, fun _ => nofun, fun sql same => ?_, fun _ => nofun, trivial⟩
    · exact .inl (FrontendMessage.parse.inj same).2.symm
    · exact .inr (FrontendMessage.parse.inj same).2.symm
  have reached : Run.Reachable (start () 100 : Lent pickyEngine)
      (Within {"SELECT 1".toList, "SELECT 2".toList}) step (along takeTurns) :=
    Run.Reachable.foldl .start permitted
  exact ⟨processed, fun found => unnamed_is_sessions_own _ (injOn_pair differ) () 100 _ reached
    0 [] [] _ found parsed kept fun _ => stands⟩

def parsedInVain : List LendEvent :=
  takeTurns ++ [.frame 0 (.execute "gone".toList 0), .frame 0 (.parse [] "SELECT 1".toList),
    .frame 0 .sync]

def takenAway : List LendEvent :=
  [.frame 0 (.parse [] "SELECT 1".toList), .frame 0 .sync,
    .own "SET statement_timeout = 5000".toList]

def closedFirst : List LendEvent :=
  [.frame 0 (.parse [] "SELECT 1".toList), .frame 0 (.close .statement []), .frame 0 .sync,
    .frame 1 (.parse [] "SELECT 2".toList), .frame 1 .sync]

/-- A session whose `Parse` was skipped binds what another session parsed, and so does one
that closed its own; a session whose statement the proxy's query took away binds none. -/
theorem bound_to_another_sessions :
    ((along parsedInVain).shared.ready = true ∧
      lastParse [] ((along parsedInVain).frames 0) = some "SELECT 1".toList ∧
      (along parsedInVain).shared.boundAgainst 0 [] [] = some (some "SELECT 2".toList)) ∧
    ((along takenAway).shared.ready = true ∧
      lastParse [] ((along takenAway).frames 0) = some "SELECT 1".toList ∧
      (along takenAway).shared.boundAgainst 0 [] [] = some none) ∧
    ((along closedFirst).shared.ready = true ∧
      lastParse [] ((along closedFirst).frames 0) = some "SELECT 1".toList ∧
      (along closedFirst).shared.boundAgainst 0 [] [] = some (some "SELECT 2".toList)) := by
  decide +kernel

end Lent

end Pgprox.Serve
