/-
Startup settings on the connection that runs a session's first statement.

The settings of a startup packet are recorded, and sent as `SET`s before the first
statement.  How a server makes a value out of a text is left open.
-/

import Pgprox.Proto.PacketReading
import Pgprox.Serve.ReplayText

namespace Pgprox.Serve

open Proto Pools Session Sql Reference
open List hiding lex

/-! ### Reading a `SET` -/

/-- The tokens before the last one, which is the semicolon that ends the text, when there
is a value there and no other semicolon. -/
def valueOf (all : List (Kind × Text)) : Option (List (Kind × Text)) :=
  if all.getLast? = some (.semicolon, [';']) ∧ all.dropLast ≠ [] ∧
      (∀ token ∈ all.dropLast, token.1 ≠ .semicolon) then some all.dropLast
  else none

def valueTokens (standard : Bool) (text : Text) : Option (List (Kind × Text)) :=
  valueOf (lexemes standard (text ++ terminator))

def nameParts : List (Kind × Text) → Option (List Text)
  | [(.identifier, part)] => some [part]
  | (.identifier, part) :: (.symbol, ['.']) :: later => (nameParts later).map (part :: ·)
  | _ => none

def readSet (standard : Bool) (text : Text) : Option (Text × List (Kind × Text)) :=
  match lexemes standard (text ++ terminator) with
  | (.identifier, verb) :: rest =>
    if toAsciiLowercase verb = "set".toList then do
      let parts ← nameParts (rest.takeWhile (· ≠ (.symbol, ['='])))
      let value ← valueOf ((rest.dropWhile (· ≠ (.symbol, ['=']))).drop 1)
      return (parameterName parts, value)
    else none
  | _ => none

def undouble : Text → Text
  | '\'' :: '\'' :: rest => '\'' :: undouble rest
  | c :: rest => c :: undouble rest
  | [] => []

inductive Given
  | text (text : Text)
  | default
  deriving DecidableEq

/-- What a server has to know to read a value. -/
structure Grammar where
  listed : Text → Bool
  reserved : Text → Bool
  /-- What it reads out of a value that is neither a word nor a string without escapes. -/
  other : Bool → List (Kind × Text) → Option Text

namespace Grammar

variable (grammar : Grammar)

def word (written : Text) : Option Given :=
  let folded := foldIdentifier written
  if folded = "default".toList then some .default
  else if grammar.reserved folded then none
  else some (.text folded)

def given (standard : Bool) (tokens : List (Kind × Text)) : Option Given :=
  match tokens with
  | [(.identifier, written)] => grammar.word written
  | [(.constant, '\'' :: inner)] =>
    if standard = true ∨ '\\' ∉ inner then some (.text (undouble inner.dropLast))
    else (grammar.other standard tokens).map .text
  | _ => (grammar.other standard tokens).map .text

end Grammar

/-- What a server makes of names and texts. -/
structure ServerParameters (Value : Type) extends Grammar where
  scalar : Text → Text → Value
  list : Text → List Text → Value
  opening : Text → Value

namespace ServerParameters

variable {Value : Type} (server : ServerParameters Value)

def value (name : Text) : Given → Value
  | .text text => if server.listed name then server.list name [text] else server.scalar name text
  | .default => server.opening name

def fromPacket (name text : Text) : Option Value :=
  if server.listed name then (Server.elements text).map (server.list name)
  else some (server.scalar name text)

def packetValue (startup : Startup) (name : Text) : Option Value := do
  let settings ← Server.settings startup
  let text ← Server.lastGiven settings name
  server.fromPacket name text

variable (standing : Text → Bool)

def obey (values : Text → Value) (text : Text) : Option (Text → Value) := do
  let (name, tokens) ← readSet (standing text) text
  let given ← server.given (standing text) tokens
  return Function.update values name (server.value name given)

def obeyAll (values : Text → Value) (texts : List Text) : Option (Text → Value) :=
  texts.foldlM (server.obey standing) values

end ServerParameters

/-! ### How the texts that are sent are read -/

theorem undouble_cons {c : Char} (other : c ≠ '\'') (rest : Text) :
    undouble (c :: rest) = c :: undouble rest := by
  cases rest with
  | nil => rw [undouble]; simp
  | cons d more =>
    rw [undouble]
    rintro more rfl
    exact absurd rfl other

theorem undouble_doubled (value : Text) : undouble (doubled value) = value := by
  induction value with
  | nil => rfl
  | cons c rest ih =>
    by_cases quote : c = '\''
    · subst quote
      exact congrArg ('\'' :: ·) ih
    · have shape : doubled (c :: rest) = c :: doubled rest := by
        simp [doubled, quote]
      rw [shape, undouble_cons quote, ih]

theorem nameParts_dotted {parts : List Text} (some : parts ≠ []) :
    nameParts (dotted parts) = .some parts := by
  induction parts with
  | nil => exact absurd rfl some
  | cons part later ih =>
    cases later with
    | nil => rfl
    | cons second more =>
      have shape : dotted (part :: second :: more) =
          (.identifier, part) :: (.symbol, ['.']) :: dotted (second :: more) := rfl
      rw [shape, nameParts, ih nofun]
      rfl

theorem ne_equals_of_mem_dotted {parts : List Text} :
    ∀ token ∈ dotted parts, decide (token ≠ (.symbol, ['='])) = true :=
  fun _ among => decide_eq_true fun same => equals_notMem_dotted parts (same ▸ among)

theorem readSet_setText {standard : Bool} {name : Text} (plain : PlainName name) (value : Text) :
    readSet standard (setText name value) =
      (valueTokens standard value).map fun tokens => (name, tokens) := by
  have whole : setText name value ++ terminator = setText name (value ++ terminator) := by
    simp [setText]
  unfold readSet valueTokens
  rw [whole, lexemes_setText plain]
  dsimp only
  rw [takeWhile_append_of_pos ne_equals_of_mem_dotted,
    dropWhile_append_of_pos ne_equals_of_mem_dotted, takeWhile_cons_of_neg (by simp),
    dropWhile_cons_of_neg (by simp), append_nil, nameParts_dotted (splitOn_ne_nil name),
    drop_succ_cons, drop_zero]
  cases valueOf (lexemes standard (value ++ terminator)) with
  | none => rfl
  | some tokens =>
    change some (parameterName (name.splitOn '.'), tokens) = some (name, tokens)
    rw [parameterName_of_plainName plain]

theorem valueTokens_word {standard : Bool} {word : Text} (isWord : IsWord word = true) :
    valueTokens standard word = some [(.identifier, word)] := by
  rw [valueTokens, lexemes_word isWord]
  exact if_pos ⟨rfl, nofun, by simp⟩

theorem valueTokens_quoted {standard : Bool} {value : Text}
    (plain : standard = true ∨ Balanced value = true) :
    valueTokens standard (quotedText value) = some [(.constant, quotedText value)] := by
  rw [valueTokens, lexemes_quoted plain]
  exact if_pos ⟨rfl, nofun, by simp⟩

theorem backslash_notMem_doubled {value : Text} (none : '\\' ∉ value) :
    '\\' ∉ doubled value ++ ['\''] := by
  intro member
  rcases mem_append.1 member with inner | last
  · obtain ⟨c, among, same⟩ := mem_flatMap.1 inner
    split at same
    · simp at same
    · cases mem_singleton.1 same
      exact none among
  · simp at last

namespace Grammar

variable (grammar : Grammar)

/-- What is read out of the value that is sent for a text. -/
def reads (standard : Bool) (sent : Text) : Option Given :=
  (valueTokens standard (quote sent)).bind (grammar.given standard)

theorem given_quoted {standard : Bool} {value : Text} (plain : standard = true ∨ '\\' ∉ value) :
    grammar.given standard [(.constant, quotedText value)] = some (.text value) := by
  have kept : standard = true ∨ '\\' ∉ doubled value ++ ['\''] :=
    plain.imp id backslash_notMem_doubled
  change (if _ then _ else _) = _
  rw [if_pos kept, dropLast_concat, undouble_doubled]

theorem reads_word {standard : Bool} {sent : Text} (bare : Bare sent)
    (isWord : IsWord sent = true) : grammar.reads standard sent = grammar.word sent := by
  rw [reads, quote_of_bare bare, valueTokens_word isWord]
  rfl

theorem reads_quoted {standard : Bool} {sent : Text} (quoted : ¬ Bare sent)
    (plain : standard = true ∨ '\\' ∉ sent) :
    grammar.reads standard sent = some (.text sent) := by
  rw [reads, quote_of_not_bare quoted, valueTokens_quoted (plain.imp id balanced_of_notMem),
    Option.bind_some, grammar.given_quoted plain]

/-- `text` gives a parameter what the server reads as `read`: the same text, or for a list that
one element. -/
def Gives (name text read : Text) : Prop :=
  if grammar.listed name then Server.elements text = some [read] else read = text

/-- A value sent gives a parameter what `text` gives it.  A word is folded, and is no reserved
one; any other value of letters, digits, dots and dashes is up to the server; every other value
is in quotes, and arrives as it stands unless backslashes escape. -/
def Arrives (standard : Bool) (name sent text : Text) : Prop :=
  if Bare sent ∧ IsWord sent = true then
    foldIdentifier sent ≠ "default".toList ∧ grammar.reserved (foldIdentifier sent) = false ∧
      grammar.Gives name text (foldIdentifier sent)
  else if ¬ Bare sent ∧ (standard = true ∨ '\\' ∉ sent) then grammar.Gives name text sent
  else ∃ read, grammar.reads standard sent = some (.text read) ∧ grammar.Gives name text read

theorem word_eq_text_iff {written read : Text} :
    grammar.word written = some (.text read) ↔ foldIdentifier written ≠ "default".toList ∧
      grammar.reserved (foldIdentifier written) = false ∧ foldIdentifier written = read := by
  unfold word
  dsimp only
  split
  · rename_i default
    simp [default]
  · rename_i other
    rw [and_iff_right other]
    cases reserved : grammar.reserved (foldIdentifier written) <;> simp

theorem arrives_iff {standard : Bool} {name sent text : Text} :
    grammar.Arrives standard name sent text ↔
      ∃ read, grammar.reads standard sent = some (.text read) ∧ grammar.Gives name text read := by
  unfold Arrives
  split
  · rename_i word
    simp only [grammar.reads_word word.1 word.2, grammar.word_eq_text_iff]
    constructor
    · rintro ⟨other, free, gives⟩
      exact ⟨_, ⟨other, free, rfl⟩, gives⟩
    · rintro ⟨read, ⟨other, free, rfl⟩, gives⟩
      exact ⟨other, free, gives⟩
  · split
    · rename_i quoted
      rw [grammar.reads_quoted quoted.1 quoted.2]
      constructor
      · exact fun gives => ⟨sent, rfl, gives⟩
      · rintro ⟨read, ⟨⟩, gives⟩
        exact gives
    · rfl

end Grammar

namespace ServerParameters

variable {Value : Type} (server : ServerParameters Value)

theorem obey_setText (standing : Text → Bool) {name : Text} (plain : PlainName name)
    (value : Text) (values : Text → Value) :
    server.obey standing values (setText name (quote value)) =
      ((server.reads (standing (setText name (quote value))) value).map (server.value name)).map
        (Function.update values name) := by
  unfold obey Grammar.reads
  rw [readSet_setText plain]
  cases valueTokens (standing (setText name (quote value))) (quote value) with
  | none => rfl
  | some tokens =>
    change (server.given _ tokens).bind _ = _
    rw [Option.bind_some]
    cases server.given (standing (setText name (quote value))) tokens <;> rfl

/-! ### The run of all that is sent -/

section Run

variable (standing : Text → Bool)

def serves (entry : Text × Text) : Option Value :=
  (server.reads (standing (setText entry.1 (quote entry.2))) entry.2).map (server.value entry.1)

def settle (values : Text → Value) (entries : List (Text × Text)) : Text → Value :=
  entries.foldl (fun values entry =>
    ((server.serves standing entry).map (Function.update values entry.1)).getD values) values

variable {entries : List (Text × Text)}

theorem obeyAll_eq_some_iff (plain : ∀ entry ∈ entries, PlainName entry.1)
    (values settled : Text → Value) :
    server.obeyAll standing values (entries.map fun entry => setText entry.1 (quote entry.2)) =
        some settled ↔
      (∀ entry ∈ entries, (server.serves standing entry).isSome = true) ∧
        settled = server.settle standing values entries := by
  induction entries generalizing values with
  | nil =>
    change some values = some settled ↔ _
    rw [Option.some.injEq]
    exact ⟨fun same => ⟨nofun, same.symm⟩, fun both => both.2.symm⟩
  | cons entry later ih =>
    have first := server.obey_setText standing (plain entry mem_cons_self) entry.2 values
    change server.obey standing values _ = (server.serves standing entry).map _ at first
    change (server.obey standing values _).bind (fun values =>
      server.obeyAll standing values (later.map _)) = some settled ↔ _
    rw [first, forall_mem_cons]
    have rest := ih fun entry among => plain entry (mem_cons_of_mem _ among)
    cases served : server.serves standing entry with
    | none => simp
    | some value =>
      have step : server.settle standing values (entry :: later) =
          server.settle standing (Function.update values entry.1 value) later := by
        simp only [settle, foldl_cons, served, Option.map_some, Option.getD_some]
      rw [Option.map_some, Option.bind_some, rest, step]
      exact and_congr_left' (and_iff_right rfl).symm

theorem settle_of_notMem {name : Text} (absent : name ∉ entries.map Prod.fst)
    (values : Text → Value) : server.settle standing values entries name = values name := by
  induction entries generalizing values with
  | nil => rfl
  | cons entry later ih =>
    rw [map_cons, mem_cons, not_or] at absent
    have kept := ih absent.2
      (((server.serves standing entry).map (Function.update values entry.1)).getD values)
    refine kept.trans ?_
    cases server.serves standing entry with
    | none => rfl
    | some value => exact Function.update_of_ne absent.1 _ _

theorem settle_of_mem {entry : Text × Text} {value : Value}
    (single : (entries.map Prod.fst).Nodup) (among : entry ∈ entries)
    (served : server.serves standing entry = some value) (values : Text → Value) :
    server.settle standing values entries entry.1 = value := by
  induction entries generalizing values with
  | nil => cases among
  | cons first later ih =>
    obtain ⟨absent, single⟩ := nodup_cons.1 single
    rcases mem_cons.1 among with rfl | behind
    · refine (server.settle_of_notMem standing absent _).trans ?_
      dsimp only
      rw [served]
      exact Function.update_self _ _ _
    · exact ih single behind _

end Run

end ServerParameters

/-! ### What a session sends first -/

def capEntries (statementTimeout : Option Nat) : List (Text × Text) :=
  statementTimeout.toList.map fun milliseconds => (timeoutName, (Nat.repr milliseconds).toList)

theorem resume_eq (session : SessionMemory) (statementTimeout : Option Nat) :
    resume session statementTimeout =
      (capEntries statementTimeout ++ session.params.sorted).map fun entry =>
        setText entry.1 (quote entry.2) := by
  rw [← issued_statements]
  unfold issued capEntries
  simp only [map_append, map_map, Function.comp_def, quote_of_bare (bare_repr _)]

def OnlyReplayable (params : SessionParams) : Prop :=
  ∀ name value, params.values.lookup name = some value → Replayable.default.contains name = true

namespace OnlyReplayable

variable {params : SessionParams}

theorem record (only : OnlyReplayable params) {name : Text} (value : Text)
    (listed : Replayable.default.contains (normalise name) = true) :
    OnlyReplayable (params.record name value) := by
  intro other given found
  unfold SessionParams.record at found
  rw [AList.lookup_insert_if] at found
  split at found
  · rename_i same
    rw [same]
    exact listed
  · exact only other given found

theorem clear (only : OnlyReplayable params) (name : Text) :
    OnlyReplayable (params.clear name) := by
  intro other given found
  unfold SessionParams.clear at found
  rw [AList.lookup_erase_if] at found
  split at found
  · cases found
  · exact only other given found

theorem observeOne (only : OnlyReplayable params) (sql : Text) :
    OnlyReplayable (params.observeOne sql .default).1 := by
  unfold SessionParams.observeOne
  split
  · exact only
  · exact only
  · exact fun _ _ found => nomatch found
  · split
    · exact only.clear _
    · exact only
  · split
    · rename_i listed
      refine only.record _ ?_
      rw [SessionParams.normalise_of_replayable listed]
      exact listed
    · exact only

theorem borrower {borrower : Borrower} (settings : ∀ setting ∈ borrower.settings,
      Replayable.default.contains (normalise setting.1) = true) :
    OnlyReplayable borrower.params := by
  refine List.foldlRecOn (motive := OnlyReplayable) _ _ ?_ fun params only sql _ => ?_
  · refine List.foldlRecOn (motive := OnlyReplayable) _ _ (fun _ _ found => nomatch found) ?_
    exact fun params only setting among => only.record _ (settings setting among)
  · exact List.foldlRecOn (motive := OnlyReplayable) _ _ only
      fun params only statement _ => only.observeOne statement

end OnlyReplayable

theorem plainName_of_replayable {name : Text} (listed : Replayable.default.contains name = true) :
    PlainName name := by
  obtain ⟨known, among, same⟩ := any_eq_true.1 listed
  have all : ∀ known ∈ Replayable.default.names, PlainName known.toList := by
    decide +kernel
  rw [← of_decide_eq_true same]
  exact all known among

theorem nodup_sorted (params : SessionParams) : (params.sorted.map Prod.fst).Nodup := by
  have names :
      ((params.values.entries.map fun entry => (entry.1, entry.2)).map Prod.fst).Nodup := by
    rw [map_map]
    exact params.values.keys_nodup
  exact (((perm_insertionSort _ _).map Prod.fst).nodup_iff).2 names

/-! ### Settings as sent -/

def firstBorrower (startup : Startup) (sql : Text) (statementTimeout : Option Nat) : Borrower where
  settings := StartupInfo.settingsOf startup
  sent := [sql]
  statementTimeout := statementTimeout

/-- The packet names the parameter, for the proxy or for a server. -/
def Mentioned (startup : Startup) (name : Text) : Prop :=
  (∃ setting ∈ StartupInfo.settingsOf startup, normalise setting.1 = name) ∨
    ∃ settings, Server.settings startup = some settings ∧
      ∃ setting ∈ settings, toAsciiLowercase setting.1 = name

section Effect

variable {Value : Type} (server : ServerParameters Value) (standing : Text → Bool)
  (connection : Text → Value)

/-- The replay is served, and leaves every parameter of the packet at the value the packet
gives it. -/
def TakesEffect (startup : Startup) (borrower : Borrower) : Prop :=
  ∃ settled, server.obeyAll standing connection borrower.replay = some settled ∧
    ∀ name, Mentioned startup name → server.packetValue startup name = some (settled name)

/-- What is sent for a parameter last. -/
def sentFor (recorded : Option Text) (statementTimeout : Option Nat) (name : Text) :
    Option Text :=
  recorded.or (if name = timeoutName then
    statementTimeout.map fun milliseconds => (Nat.repr milliseconds).toList else none)

/-- What a parameter has behind the replay: what was sent for it, or else what the connection
had. -/
def settledValue (borrower : Borrower) (name : Text) : Option Value :=
  match sentFor (borrower.params.values.lookup name) borrower.statementTimeout name with
  | some sent => server.serves standing (name, sent)
  | none => some (connection name)

/-- Value by value: each `SET` is served, and gives what the packet gives. -/
structure AsSent (startup : Startup) (borrower : Borrower) : Prop where
  served : ∀ entry ∈ capEntries borrower.statementTimeout ++ borrower.params.sorted,
    (server.serves standing entry).isSome = true
  same : ∀ name, Mentioned startup name →
    server.packetValue startup name = settledValue server standing connection borrower name

variable {server standing connection}

theorem settledValue_eq {borrower : Borrower}
    (served : ∀ entry ∈ capEntries borrower.statementTimeout ++ borrower.params.sorted,
      (server.serves standing entry).isSome = true) (name : Text) :
    settledValue server standing connection borrower name =
      some (server.settle standing connection
        (capEntries borrower.statementTimeout ++ borrower.params.sorted) name) := by
  have split : server.settle standing connection
      (capEntries borrower.statementTimeout ++ borrower.params.sorted) =
      server.settle standing (server.settle standing connection
        (capEntries borrower.statementTimeout)) borrower.params.sorted :=
    foldl_append
  rw [split]
  unfold settledValue sentFor
  cases recorded : borrower.params.values.lookup name with
  | some text =>
    have among : (name, text) ∈ borrower.params.sorted := SessionParams.mem_sorted_iff.2 recorded
    obtain ⟨value, taken⟩ := Option.isSome_iff_exists.1
      (served _ (mem_append_right _ among))
    rw [Option.some_or]
    dsimp only
    rw [taken, server.settle_of_mem standing (nodup_sorted _) among taken]
  | none =>
    have absent : name ∉ borrower.params.sorted.map Prod.fst := by
      intro member
      obtain ⟨entry, among, rfl⟩ := mem_map.1 member
      rw [SessionParams.mem_sorted_iff.1 among] at recorded
      cases recorded
    rw [server.settle_of_notMem standing absent, Option.none_or]
    cases cap : borrower.statementTimeout with
    | none => simp [capEntries, ServerParameters.settle]
    | some milliseconds =>
      rw [cap] at served
      split_ifs with same
      · subst same
        have single : ((capEntries (some milliseconds)).map Prod.fst).Nodup :=
          nodup_singleton _
        have among : (timeoutName, (Nat.repr milliseconds).toList) ∈
            capEntries (some milliseconds) := mem_singleton_self _
        obtain ⟨value, taken⟩ := Option.isSome_iff_exists.1
          (served _ (mem_append_left _ among))
        rw [Option.map_some]
        dsimp only
        rw [taken]
        exact congrArg some (server.settle_of_mem standing single among taken connection).symm
      · rw [server.settle_of_notMem standing (by simpa [capEntries] using same)]

theorem takesEffect_iff_asSent {startup : Startup} {borrower : Borrower}
    (only : OnlyReplayable borrower.params) :
    TakesEffect server standing connection startup borrower ↔
      AsSent server standing connection startup borrower := by
  have plain : ∀ entry ∈ capEntries borrower.statementTimeout ++ borrower.params.sorted,
      PlainName entry.1 := by
    intro entry among
    rcases mem_append.1 among with cap | recorded
    · obtain ⟨milliseconds, -, rfl⟩ := mem_map.1 cap
      have listed : Replayable.default.contains timeoutName = true := by decide +kernel
      exact plainName_of_replayable listed
    · exact plainName_of_replayable (only _ _ (SessionParams.mem_sorted_iff.1 recorded))
  unfold TakesEffect Borrower.replay
  rw [resume_eq]
  simp only [server.obeyAll_eq_some_iff standing plain]
  constructor
  · rintro ⟨settled, ⟨served, rfl⟩, same⟩
    exact ⟨served, fun name named => (same name named).trans (settledValue_eq served name).symm⟩
  · rintro ⟨served, same⟩
    exact ⟨_, ⟨served, rfl⟩, fun name named =>
      (same name named).trans (settledValue_eq served name)⟩

end Effect

/-! ### What the packet has to look like -/

/-- The value the proxy reads for a parameter. -/
def lastRecorded (startup : Startup) (name : Text) : Option Text :=
  (((StartupInfo.settingsOf startup).filter fun setting => normalise setting.1 = name).getLast?).map
    Prod.snd

/-- The text sets and resets no parameter that is recorded. -/
def SetsNothing (sql : Text) : Prop :=
  ∀ statement ∈ statements sql,
    match ParsedSet.parse statement with
    | none | some .scopedToTransaction => True
    | some .resetAll => False
    | some (.reset name) | some (.set name _) =>
      Replayable.default.contains (normalise name) = false

theorem observeStatement_setsNothing {sql : Text} (nothing : SetsNothing sql)
    (params : SessionParams) : params.observeStatement sql .default = params := by
  unfold SessionParams.observeStatement
  refine List.foldlRecOn (motive := fun kept => kept = params) _ _ rfl ?_
  rintro _ rfl statement among
  have quiet := nothing statement among
  unfold SessionParams.observeOne
  split at quiet <;> simp_all

theorem lookup_recorded (settings : List (Text × Text)) (name : Text) :
    (settings.foldl (fun params setting => params.record setting.1 setting.2)
        SessionParams.new).values.lookup name =
      ((settings.filter fun setting => normalise setting.1 = name).getLast?).map Prod.snd := by
  induction settings using List.reverseRecOn with
  | nil => rfl
  | append_singleton earlier setting ih =>
    rw [foldl_append, filter_append, getLast?_append]
    change ((SessionParams.record _ setting.1 setting.2).values.lookup name) = _
    unfold SessionParams.record
    rw [AList.lookup_insert_if]
    by_cases same : normalise setting.1 = name
    · rw [if_pos same.symm, filter_cons_of_pos (by simpa using same)]
      rfl
    · rw [if_neg (Ne.symm same), filter_cons_of_neg (by simpa using same)]
      exact ih

theorem lookup_firstBorrower {startup : Startup} {sql : Text} {statementTimeout : Option Nat}
    (nothing : SetsNothing sql) (name : Text) :
    (firstBorrower startup sql statementTimeout).params.values.lookup name =
      lastRecorded startup name := by
  unfold Borrower.params firstBorrower
  rw [foldl_cons, foldl_nil, observeStatement_setsNothing nothing]
  exact lookup_recorded _ name

/-- A server that keeps what it is given. -/
inductive Retained
  | text (text : Text)
  | elements (elements : List Text)
  | untouched
  | opening
  deriving DecidableEq

def Grammar.retaining (grammar : Grammar) : ServerParameters Retained where
  toGrammar := grammar
  scalar _ text := .text text
  list _ elements := .elements elements
  opening _ := .opening

theorem ServerParameters.value_eq_of_gives {Value : Type} (server : ServerParameters Value)
    {name text read : Text} (gives : server.Gives name text read) :
    server.fromPacket name text = some (server.value name (.text read)) := by
  unfold Grammar.Gives at gives
  unfold ServerParameters.fromPacket ServerParameters.value
  split at gives
  · rename_i listed
    rw [if_pos listed, gives]
    simp [listed]
  · rename_i single
    rw [if_neg single, gives]
    simp [single]

theorem Grammar.gives_of_value_eq (grammar : Grammar) {name text : Text} {given : Given}
    (same : grammar.retaining.fromPacket name text = some (grammar.retaining.value name given)) :
    ∃ read, given = .text read ∧ grammar.Gives name text read := by
  unfold ServerParameters.fromPacket ServerParameters.value at same
  unfold Grammar.Gives
  change (if grammar.listed name then _ else _) = _ at same
  cases given with
  | default =>
    split at same
    · obtain ⟨found, -, other⟩ := Option.map_eq_some_iff.1 same
      cases other
    · cases same
  | text read =>
    refine ⟨read, rfl, ?_⟩
    split at same
    · rename_i listed
      obtain ⟨found, given, other⟩ := Option.map_eq_some_iff.1 same
      simp only [Grammar.retaining, listed, if_true, Retained.elements.injEq] at other
      rw [if_pos listed, given, other]
    · rename_i single
      simp only [Grammar.retaining, single, Bool.false_eq_true, if_false, Option.some.injEq,
        Retained.text.injEq] at same
      rw [if_neg single, same]

theorem Grammar.fromPacket_ne_untouched (grammar : Grammar) (name text : Text) :
    grammar.retaining.fromPacket name text ≠ some .untouched := by
  unfold ServerParameters.fromPacket
  split
  · intro same
    obtain ⟨elements, -, other⟩ := Option.map_eq_some_iff.1 same
    cases other
  · nofun

theorem mentioned_of_recorded {startup : Startup} {name value : Text}
    (recorded : lastRecorded startup name = some value) : Mentioned startup name := by
  obtain ⟨setting, last, -⟩ := Option.map_eq_some_iff.1 recorded
  obtain ⟨among, same⟩ := mem_filter.1 (mem_of_getLast? last)
  exact .inl ⟨setting, among, of_decide_eq_true same⟩

def plainGrammar : Grammar where
  listed name := name = "search_path".toList
  reserved word := word ∈ ["all".toList, "select".toList, "user".toList]
  other _ tokens :=
    match tokens with
    | [(.number, digits)] => if digits.all Char.isDigit then some digits else none
    | _ => none

def startupWith (settings : List (Text × Text)) : Startup :=
  .startupMessage 196608 (("user".toList, "app".toList) :: settings)

def replayedValue (startup : Startup) (name : Text) : Option Retained :=
  (plainGrammar.retaining.obeyAll (fun _ => true) (fun _ => .untouched)
    (firstBorrower startup "SELECT 1".toList none).replay).map fun settled => settled name

def reportStartup : Startup :=
  startupWith [("search_path".toList, "Tenant".toList),
    ("application_name".toList, "Night report".toList)]

end Pgprox.Serve
