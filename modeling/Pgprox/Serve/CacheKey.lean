/-
The key an answer is stored under, and the question it answers.

Requests with one key share one stored answer.  The server reads each value of a `Bind` by
its own format code and by the type that the statement's `Parse` declared, and neither is
in the key.
-/

import Pgprox.Cache.Cacheable
import Pgprox.Cache.Settings
import Pgprox.Cache.TokenSequence
import Pgprox.Serve.RelayLoop
import Pgprox.Session.Sequence
import Pgprox.Topology.PrimaryWatch

namespace Pgprox.Serve

open Proto Pools Route Session Cache Topologies Sql
open List hiding lex

/-! ### Keys -/

structure CacheKey where
  tenant : TenantId
  database : String
  user : String
  normalizedSql : Text
  params : List UInt8
  resultFormats : List UInt8
  settings : Text
  deriving DecidableEq

def keyFor (grant : Grant) (sql : Text) (params resultFormats : List UInt8)
    (session : SessionMemory) : CacheKey where
  tenant := grant.tenant
  database := grant.primary.database
  user := grant.primary.user
  normalizedSql := normalize sql
  params
  resultFormats
  settings := fingerprint session.params.get

def cacheableNow (relay : Relay) (sql : Text) : Bool :=
  match cacheable sql (classify sql)
      ⟨relay.router.wrote, relay.pin.isPinned, relay.session.txStatus ≠ .idle⟩ with
  | .ok _ => true
  | .error _ => false

theorem idle_of_cacheableNow {relay : Relay} {sql : Text} (may : cacheableNow relay sql = true) :
    relay.session.txStatus = .idle := by
  by_contra busy
  unfold cacheableNow cacheable at may
  rw [decide_eq_true busy] at may
  split at may
  · rename_i accepted
    split at accepted
    · cases accepted
    · split at accepted
      · cases accepted
      · cases accepted
  · cases may

/-- `serves` says which tenants have opted in. -/
def cacheKey (serves : TenantId → Bool) (grant : Grant) (message : FrontendMessage)
    (session : SessionMemory) (relay : Relay) : Option CacheKey :=
  match message with
  | .query sql =>
    if serves grant.tenant && cacheableNow relay sql then some (keyFor grant sql [] [] session)
    else none
  | _ => none

def statementSql (session : SessionMemory) : FrontendMessage → Option Text
  | .parse _ sql => some sql
  | .bind _ statement _ => (session.statements.get statement).map PreparedStatement.sql
  | _ => none

def factsFor (serves : TenantId → Bool) (grant : Grant) (relay : Relay)
    (message : FrontendMessage) (session : SessionMemory) : Facts :=
  if serves grant.tenant then
    match statementSql session message with
    | none => ⟨none, false⟩
    | some sql => ⟨some sql, relay.held.isNone && cacheableNow relay sql⟩
  else ⟨none, false⟩

theorem cacheable_of_mayBegin {serves : TenantId → Bool} {grant : Grant} {relay : Relay}
    {message : FrontendMessage} {session : SessionMemory}
    (may : (factsFor serves grant relay message session).mayBegin = true) :
    relay.held = none ∧ ∃ sql, statementSql session message = some sql ∧
      cacheableNow relay sql = true := by
  unfold factsFor at may
  split at may
  · cases known : statementSql session message with
    | none =>
      rw [known] at may
      cases may
    | some sql =>
      rw [known] at may
      obtain ⟨free, cacheable⟩ := Bool.and_eq_true_iff.mp may
      exact ⟨Option.isNone_iff_eq_none.mp free, sql, rfl, cacheable⟩
  · cases may

def withhold (serves : TenantId → Bool) (grant : Grant) (relay : Relay) (session : SessionMemory)
    (held : HeldSequence) (incoming : Incoming) : HeldSequence × Held :=
  held.feed incoming (factsFor serves grant relay incoming.message session)

/-! ### Requests -/

inductive Ask
  | simple (sql : Text)
  /-- The frames before the `Sync`, and the types that the session's statements were parsed
  with before them. -/
  | extended (declared : Text → List Int) (frames : List Incoming)

structure Request where
  grant : Grant
  relay : Relay
  session : SessionMemory
  ask : Ask

def holdFrames (serves : TenantId → Bool) (grant : Grant) (relay : Relay) :
    SessionMemory → HeldSequence → List Incoming → Option (SessionMemory × HeldSequence)
  | session, held, [] => some (session, held)
  | session, held, incoming :: later =>
    match observe session incoming.message with
    | none => none
    | some (session, _) =>
      match withhold serves grant relay session held incoming with
      | (held, .withheld) => holdFrames serves grant relay session held later
      | _ => none

def Request.key (serves : TenantId → Bool) (request : Request) : Option CacheKey :=
  match request.ask with
  | .simple sql =>
    match observe request.session (.query sql) with
    | none => none
    | some (session, _) => cacheKey serves request.grant (.query sql) session request.relay
  | .extended _ frames =>
    match holdFrames serves request.grant request.relay request.session .new frames with
    | none => none
    | some (session, held) =>
      match withhold serves request.grant request.relay session held
          ⟨.sync, ⟨Tag.sync, []⟩⟩ with
      | (held, .complete) =>
        held.sql.map fun sql =>
          keyFor request.grant sql held.params held.resultFormats session
      | _ => none

/-! ### Questions -/

structure Coded where
  type : Int
  code : Int
  bytes : List UInt8
  deriving DecidableEq

structure Asked where
  session : SessionMemory
  sql : Text
  values : List (Option Coded)
  resultFormats : List Int

def codedValues (types : List Int) (bound : Bound) : List (Option Coded) :=
  bound.values.mapIdx fun index value =>
    value.map fun bytes => ⟨types.getD index 0, codeAt bound.codes index, bytes⟩

def observeAll : SessionMemory → List Incoming → Option SessionMemory
  | session, [] => some session
  | session, incoming :: later =>
    match observe session incoming.message with
    | none => none
    | some (session, _) => observeAll session later

def bindIn (incoming : Incoming) : Option (Text × List UInt8) :=
  match incoming.message with
  | .bind _ statement _ => some (statement, incoming.frame.body)
  | _ => none

def declaredAfter (declared : Text → List Int) (frames : List Incoming) : Text → List Int :=
  frames.foldl (fun declared incoming =>
    match incoming.message, parameterTypes incoming.frame.body with
    | .parse statement _, .ok types => Function.update declared statement types
    | _, _ => declared) declared

def Request.asked (request : Request) : Option Asked :=
  match request.ask with
  | .simple sql =>
    (observe request.session (.query sql)).map fun observed => ⟨observed.1, sql, [], []⟩
  | .extended declared frames => do
      let session ← observeAll request.session frames
      let (statement, body) ← frames.findSome? bindIn
      let prepared ← session.statements.get statement
      match readBound body with
      | .error _ => none
      | .ok bound =>
        return ⟨session, prepared.sql, codedValues (declaredAfter declared frames statement) bound,
          resultShape bound.resultCodes⟩

structure Question (Value : Type) where
  tenant : TenantId
  database : String
  user : String
  tokens : List Reference.Token
  values : List (Option Value)
  resultFormats : List Int
  settings : List (Option Text)
  deriving DecidableEq

def Asked.standard (conforms : Option Text → Bool) (asked : Asked) : Bool :=
  conforms (asked.session.params.get "standard_conforming_strings".toList)

def Asked.codings (asked : Asked) : List (Option (Int × Int)) :=
  asked.values.map (Option.map fun value => (value.type, value.code))

def Asked.question {Value : Type} (grant : Grant) (conforms : Option Text → Bool)
    (decode : Int → Int → List UInt8 → Value) (asked : Asked) : Question Value where
  tenant := grant.tenant
  database := grant.primary.database
  user := grant.primary.user
  tokens := Reference.tokens (asked.standard conforms) asked.sql
  values := asked.values.map (Option.map fun value => decode value.type value.code value.bytes)
  resultFormats := asked.resultFormats
  settings := answerShaping.map asked.session.params.get

def Request.question {Value : Type} (conforms : Option Text → Bool)
    (decode : Int → Int → List UInt8 → Value) (request : Request) : Option (Question Value) :=
  request.asked.map fun asked => asked.question request.grant conforms decode

/-! ### What a held sequence has recorded -/

structure Recorded (session : SessionMemory) (frames : List Incoming) (held : HeldSequence) :
    Prop where
  unbound : held.step = .nothing ∨ held.step = .parsed → frames.findSome? bindIn = none
  bound : held.step = .bound ∨ held.step = .executed →
    ∃ statement body, frames.findSome? bindIn = some (statement, body) ∧
      held.sql = (session.statements.get statement).map PreparedStatement.sql ∧
      (held.params, held.resultFormats) = keyMaterial body

theorem recorded_new (session : SessionMemory) : Recorded session [] .new where
  unbound _ := rfl
  bound := by rintro (impossible | impossible) <;> cases impossible

theorem findSome_bindIn_append {frames : List Incoming} {incoming : Incoming}
    (other : bindIn incoming = none) :
    (frames ++ [incoming]).findSome? bindIn = frames.findSome? bindIn := by
  rw [findSome?_append, findSome?_singleton, other, Option.or_none]

section Held

variable {serves : TenantId → Bool} {grant : Grant} {relay : Relay}
  {session after : SessionMemory} {held next : HeldSequence} {frames : List Incoming}
  {incoming : Incoming}

theorem factsFor_sql {message : FrontendMessage}
    (known : (factsFor serves grant relay message session).sql.isSome = true) :
    (factsFor serves grant relay message session).sql = statementSql session message := by
  unfold factsFor at known ⊢
  split
  · cases statementSql session message with
    | none | some => rfl
  · rename_i off
    rw [if_neg off] at known
    cases known

theorem Recorded.portal (recorded : Recorded session frames held)
    (bound : held.step = .bound) (other : bindIn incoming = none)
    (statements : after.statements = session.statements)
    (kept : next.sql = held.sql ∧ next.params = held.params ∧
      next.resultFormats = held.resultFormats)
    (ahead : next.step = .bound ∨ next.step = .executed) :
    Recorded after (frames ++ [incoming]) next where
  unbound behind := by
    rcases ahead with step | step <;> rw [step] at behind <;> rcases behind with h | h <;> cases h
  bound _ := by
    rw [findSome_bindIn_append other, kept.1, kept.2.1, kept.2.2, statements]
    exact recorded.bound (.inl bound)

theorem Recorded.step {onward : FrontendMessage} (recorded : Recorded session frames held)
    (observed : observe session incoming.message = some (after, onward))
    (fed : withhold serves grant relay after held incoming = (next, .withheld)) :
    Recorded after (frames ++ [incoming]) next := by
  obtain ⟨fits, rfl⟩ := HeldSequence.feed_withheld fed
  obtain ⟨message, frame⟩ := incoming
  cases message with
  | parse statement sql =>
    simp only [HeldSequence.mayHold, Bool.and_eq_true, decide_eq_true_eq] at fits
    constructor
    · intro _
      rw [findSome_bindIn_append rfl]
      exact recorded.unbound (.inl fits.1.2)
    · rintro (step | step) <;> cases step
  | bind portal statement arguments =>
    simp only [HeldSequence.mayHold, Bool.and_eq_true, Bool.or_eq_true, decide_eq_true_eq] at fits
    obtain ⟨⟨early, known⟩, -⟩ := fits
    constructor
    · rintro (step | step) <;> cases step
    · intro _
      refine ⟨statement, frame.body, ?_, ?_, rfl⟩
      · rw [findSome?_append, recorded.unbound early]
        rfl
      · exact factsFor_sql known
  | describe target name =>
    simp only [HeldSequence.mayHold, Bool.and_eq_true, decide_eq_true_eq] at fits
    obtain ⟨⟨⟨rfl, bound⟩, -⟩, -⟩ := fits
    obtain ⟨rfl, -⟩ := Prod.mk.inj (Option.some.inj observed)
    exact recorded.portal bound rfl rfl ⟨rfl, rfl, rfl⟩ (.inl bound)
  | execute portal maxRows =>
    simp only [HeldSequence.mayHold, Bool.and_eq_true, decide_eq_true_eq] at fits
    obtain ⟨rfl, -⟩ := Prod.mk.inj (Option.some.inj observed)
    exact recorded.portal fits.1.1 rfl rfl ⟨rfl, rfl, rfl⟩ (.inr rfl)
  | query | close | sync | flush | terminate | password | functionCall | copyData | copyDone
  | copyFail | other => cases fits

theorem holdFrames_recorded {later : List Incoming} {last : HeldSequence} {memory : SessionMemory}
    (recorded : Recorded session frames held)
    (holds : holdFrames serves grant relay session held later = some (memory, last)) :
    Recorded memory (frames ++ later) last ∧ observeAll session later = some memory := by
  induction later generalizing session held frames with
  | nil =>
    obtain ⟨rfl, rfl⟩ := Prod.mk.inj (Option.some.inj holds)
    rw [append_nil]
    exact ⟨recorded, rfl⟩
  | cons incoming later ih =>
    rw [holdFrames] at holds
    cases observed : observe session incoming.message with
    | none =>
      rw [observed] at holds
      cases holds
    | some pair =>
      obtain ⟨after, onward⟩ := pair
      rw [observed] at holds
      dsimp only at holds
      split at holds
      · rename_i next fed
        obtain ⟨final, all⟩ := ih (recorded.step observed fed) holds
        rw [append_cons, observeAll, observed]
        exact ⟨final, all⟩
      · cases holds

end Held

/-! ### What a key says about its request -/

theorem bytes_codedValues (types : List Int) (bound : Bound) :
    (codedValues types bound).map (Option.map Coded.bytes) = bound.values := by
  unfold codedValues
  apply ext_getElem?
  intro index
  rw [getElem?_map, getElem?_mapIdx, Option.map_map]
  cases bound.values[index]? with
  | none => rfl
  | some value => cases value <;> rfl

theorem Request.key_spec {serves : TenantId → Bool} {request : Request} {key : CacheKey}
    {asked : Asked} (keyed : request.key serves = some key) (asks : request.asked = some asked) :
    ∃ params resultFormats,
      key = keyFor request.grant asked.sql params resultFormats asked.session ∧
        ValueRun params (asked.values.map (Option.map Coded.bytes)) ∧
        asked.resultFormats = codesOf (resultFormats.drop 2) := by
  obtain ⟨grant, relay, session, ask⟩ := request
  cases ask with
  | simple sql =>
    unfold Request.key at keyed
    unfold Request.asked at asks
    dsimp only at keyed asks
    cases observed : observe session (.query sql) with
    | none =>
      rw [observed] at keyed
      cases keyed
    | some pair =>
      obtain ⟨after, onward⟩ := pair
      rw [observed] at keyed asks
      cases asks
      dsimp only [cacheKey] at keyed
      split at keyed
      · exact ⟨[], [], (Option.some.inj keyed).symm, .nil, rfl⟩
      · cases keyed
  | extended declared frames =>
    unfold Request.key at keyed
    unfold Request.asked at asks
    dsimp only at keyed asks
    split at keyed
    · cases keyed
    · rename_i memory held holds
      split at keyed
      · rename_i last fed
        obtain ⟨rfl, executed, -, -⟩ := HeldSequence.feed_complete fed
        obtain ⟨recorded, all⟩ := holdFrames_recorded (recorded_new session) holds
        obtain ⟨statement, body, found, sql, material⟩ := recorded.bound (.inr executed)
        rw [nil_append] at found
        rw [all, found] at asks
        simp only [Option.bind_eq_bind, Option.bind_some] at asks
        obtain ⟨prepared, known, asks⟩ := Option.bind_eq_some_iff.mp asks
        rw [sql, known] at keyed
        cases keyed
        cases read : readBound body with
        | error _ =>
          rw [read] at asks
          cases asks
        | ok bound =>
          rw [read] at asks
          cases asks
          obtain ⟨parameters, decoded, run, shape⟩ := readBound_spec read
          rw [keyMaterial, decoded] at material
          obtain ⟨params, resultFormats⟩ := Prod.mk.inj material
          refine ⟨_, _, rfl, ?_, ?_⟩
          · rw [bytes_codedValues, params]
            exact run
          · rw [resultFormats]
            exact shape
      · cases keyed

theorem Asked.values_eq {one two : Asked}
    (bytes : one.values.map (Option.map Coded.bytes) = two.values.map (Option.map Coded.bytes))
    (codings : one.codings = two.codings) : one.values = two.values := by
  have pairs := congrArg₂ List.zip bytes codings
  rw [Asked.codings, Asked.codings, zip_map', zip_map'] at pairs
  refine map_injective_iff.mpr (fun value other same => ?_) pairs
  obtain ⟨bytes, codings⟩ := Prod.mk.inj same
  cases value with
  | none =>
    cases other with
    | none => rfl
    | some _ => cases bytes
  | some value =>
    cases other with
    | none => cases bytes
    | some other =>
      obtain ⟨type, code⟩ := Prod.mk.inj (Option.some.inj codings)
      rw [Option.some.injEq, Coded.mk.injEq]
      exact ⟨type, code, Option.some.inj bytes⟩

/-- Requests with one key ask the same question, however the server decodes values, exactly
when the values were bound with the same types and in the same formats. -/
theorem same_question_iff_of_same_key {serves : TenantId → Bool} {conforms : Option Text → Bool}
    {one two : Request} {asked other : Asked} {key : CacheKey}
    (keyed : one.key serves = some key) (keyed' : two.key serves = some key)
    (asks : one.asked = some asked) (asks' : two.asked = some other)
    (plain : Reference.Plain (asked.standard conforms) asked.sql)
    (plain' : Reference.Plain (other.standard conforms) other.sql) :
    (∀ (Value : Type) (decode : Int → Int → List UInt8 → Value),
      one.question conforms decode = two.question conforms decode) ↔
      asked.codings = other.codings := by
  obtain ⟨params, formats, rfl, run, shape⟩ := Request.key_spec keyed asks
  obtain ⟨params', formats', same, run', shape'⟩ := Request.key_spec keyed' asks'
  obtain ⟨tenant, database, user, form, rfl, rfl, settings⟩ := CacheKey.mk.inj same
  have values := run.unique run'
  have results := shape.trans shape'.symm
  have set := fingerprint_inj settings
  have standard : asked.standard conforms = other.standard conforms :=
    congrArg conforms (set _ (by decide))
  have tokens : Reference.tokens (asked.standard conforms) asked.sql =
      Reference.tokens (other.standard conforms) other.sql := by
    rw [← standard] at plain' ⊢
    exact tokens_of_normalize_eq plain plain' form
  unfold Request.question
  rw [asks, asks']
  constructor
  · intro every
    have read := Option.some.inj (every (Int × Int) fun type code _ => (type, code))
    exact congrArg Question.values read
  · intro codings Value decode
    refine congrArg some ?_
    change asked.question one.grant conforms decode = other.question two.grant conforms decode
    rw [Asked.question, Asked.question, Asked.values_eq values codings, results, tokens,
      map_congr_left set, tenant, database, user]

def lookup (sql : String) (code : UInt8) : Request where
  grant := ⟨⟨"acme"⟩, ⟨⟨"db:5432"⟩, "shop", "app"⟩, []⟩
  relay := .new
  session := .new
  ask := .extended (fun _ => [])
    [⟨.parse [] sql.toList,
        ⟨Tag.parse, 0 :: utf8 sql.toList ++ [0, 0, 1, 0, 0, 0, 20]⟩⟩,
      ⟨.bind [] [] [],
        ⟨Tag.bind, [0, 0, 0, 1, 0, code, 0, 1, 0, 0, 0, 8, 0x31, 0x32, 0x33, 0x34, 0x35, 0x36,
          0x37, 0x38, 0, 0]⟩⟩,
      ⟨.execute [] 0, ⟨Tag.execute, [0, 0, 0, 0, 0]⟩⟩]

def onUnlessOff (value : Option Text) : Bool :=
  value ≠ some "off".toList

theorem same_question_in_another_spelling :
    (lookup "SELECT $1" 0).key (fun _ => true) =
        (lookup "select  $1 --" 0).key (fun _ => true) ∧
      ∀ (Value : Type) (decode : Int → Int → List UInt8 → Value),
        (lookup "SELECT $1" 0).question onUnlessOff decode =
          (lookup "select  $1 --" 0).question onUnlessOff decode := by
  have keys : ((lookup "SELECT $1" 0).key fun _ => true).isSome = true ∧
      (lookup "SELECT $1" 0).key (fun _ => true) =
        (lookup "select  $1 --" 0).key (fun _ => true) := by
    decide +kernel
  refine ⟨keys.2, ?_⟩
  have plain : (lookup "SELECT $1" 0).asked.all (fun asked =>
        Reference.Plain (asked.standard onUnlessOff) asked.sql) = true ∧
      (lookup "select  $1 --" 0).asked.all (fun asked =>
        Reference.Plain (asked.standard onUnlessOff) asked.sql) = true := by
    decide +kernel
  have codings : (lookup "SELECT $1" 0).asked.map Asked.codings =
        some [some (20, 0)] ∧
      (lookup "select  $1 --" 0).asked.map Asked.codings =
        some [some (20, 0)] := by
    decide +kernel
  obtain ⟨key, keyed⟩ := Option.isSome_iff_exists.mp keys.1
  obtain ⟨asked, asks, one⟩ := Option.map_eq_some_iff.mp codings.1
  obtain ⟨other, asks', two⟩ := Option.map_eq_some_iff.mp codings.2
  rw [asks, asks'] at plain
  exact (same_question_iff_of_same_key keyed (keys.2 ▸ keyed) asks asks'
    (of_decide_eq_true plain.1) (of_decide_eq_true plain.2)).mpr (one.trans two.symm)

def decodeInt8 (type code : Int) (bytes : List UInt8) : Option Int :=
  if type ≠ 20 then none
  else if code = 0 then
    if bytes.all fun byte => 0x30 ≤ byte ∧ byte ≤ 0x39 then
      some (bytes.foldl (fun number byte => 10 * number + (byte.toNat - 0x30)) 0 : Nat)
    else none
  else if code = 1 ∧ bytes.length = 8 then
    some (if readBe bytes < 2 ^ 63 then readBe bytes else (readBe bytes : Int) - 2 ^ 64)
  else none

/-- Eight digits in text, and the same eight bytes as a number in binary, have one key. -/
theorem text_and_binary_share_key :
    ((lookup "SELECT $1" 0).key fun _ => true).isSome = true ∧
      (lookup "SELECT $1" 0).key (fun _ => true) =
        (lookup "SELECT $1" 1).key (fun _ => true) ∧
      ((lookup "SELECT $1" 0).question onUnlessOff decodeInt8).map
        Question.values = some [some (some 12345678)] ∧
      ((lookup "SELECT $1" 1).question onUnlessOff decodeInt8).map
        Question.values = some [some (some 3544952156018063160)] := by
  decide +kernel

end Pgprox.Serve
