/-
The parameters of a `Bind`, read out of its body.

`bindParameters` keeps the values, the bytes they stand in and the result format codes; it
reads past the parameter format codes.  `Bound` is everything a server reads out of the
same body.
-/

import Pgprox.Proto.Frame

namespace Pgprox.Proto

open List

inductive FieldError
  | truncated (what : String) (read : Nat)
  | unterminated
  | notUtf8 (what : String)
  deriving DecidableEq

/-- A cursor over a message body: how far it has come, and the bytes not yet read. -/
structure Reader where
  read : Nat
  rest : List UInt8
  deriving DecidableEq

namespace Reader

def new (body : List UInt8) : Reader where
  read := 0
  rest := body

def bytes (reader : Reader) (count : Nat) (what : String) :
    Except FieldError (List UInt8 × Reader) :=
  if reader.rest.length < count then .error (.truncated what reader.read)
  else .ok (reader.rest.take count, ⟨reader.read + count, reader.rest.drop count⟩)

def i16 (reader : Reader) (what : String) : Except FieldError (Int × Reader) := do
  let (field, after) ← reader.bytes 2 what
  return (readI16 field, after)

def i32 (reader : Reader) (what : String) : Except FieldError (Int × Reader) := do
  let (field, after) ← reader.bytes 4 what
  return (readI32 field, after)

def cstr (reader : Reader) (what : String) : Except FieldError (Text × Reader) :=
  match reader.rest.span (· ≠ 0) with
  | (_, []) => .error .unterminated
  | (field, _ :: after) =>
    match fromUtf8 field with
    | none => .error (.notUtf8 what)
    | some text => .ok (text, ⟨reader.read + field.length + 1, after⟩)

end Reader

def readCodes (what : String) : Nat → Reader → Except FieldError (List Int × Reader)
  | 0, reader => .ok ([], reader)
  | count + 1, reader => do
      let (code, reader) ← reader.i16 what
      let (codes, reader) ← readCodes what count reader
      return (code :: codes, reader)

def readValue (reader : Reader) : Except FieldError (Option (List UInt8) × Reader) := do
  let (len, reader) ← reader.i32 "parameter_length"
  if len < 0 then return (none, reader)
  let (value, reader) ← reader.bytes len.toNat "parameter_value"
  return (some value, reader)

def readValues : Nat → Reader → Except FieldError (List (Option (List UInt8)) × Reader)
  | 0, reader => .ok ([], reader)
  | count + 1, reader => do
      let (value, reader) ← readValue reader
      let (values, reader) ← readValues count reader
      return (value :: values, reader)

/-- The result format codes as bytes; all text in any spelling is no bytes. -/
def readResultFormats (reader : Reader) : Except FieldError (List UInt8) := do
  let (count, after) ← reader.i16 "result_format_count"
  let (codes, after) ← readCodes "result_format" count.toNat after
  if codes.all (· = 0) then return []
  return reader.rest.take (after.read - reader.read)

inductive FrontendError
  | field (error : FieldError)
  | notABind (tag : UInt8)
  deriving DecidableEq

structure BindParameters where
  values : List (Option (List UInt8))
  raw : List UInt8
  resultFormats : List UInt8
  deriving DecidableEq

structure BindHead where
  codes : List Int
  values : List (Option (List UInt8))
  raw : List UInt8
  tail : Reader

def readHead (body : List UInt8) : Except FieldError BindHead := do
  let (_, reader) ← (Reader.new body).cstr "portal_name"
  let (_, reader) ← reader.cstr "statement_name"
  let (formats, reader) ← reader.i16 "parameter_format_count"
  let (codes, reader) ← readCodes "parameter_format" formats.toNat reader
  let (count, start) ← reader.i16 "parameter_count"
  let (values, reader) ← readValues count.toNat start
  return ⟨codes, values, start.rest.take (reader.read - start.read), reader⟩

def bindParameters (frame : Frame) : Except FrontendError BindParameters :=
  if frame.tag ≠ Tag.bind then .error (.notABind frame.tag)
  else
    match readHead frame.body with
    | .error error => .error (.field error)
    | .ok head =>
      .ok ⟨head.values, head.raw,
        match readResultFormats head.tail with
        | .error _ => []
        | .ok formats => formats⟩

/-! ### What a server reads -/

structure Bound where
  codes : List Int
  values : List (Option (List UInt8))
  resultCodes : List Int
  deriving DecidableEq

def readBound (body : List UInt8) : Except FieldError Bound := do
  let head ← readHead body
  let (count, reader) ← head.tail.i16 "result_format_count"
  let (resultCodes, _) ← readCodes "result_format" count.toNat reader
  return ⟨head.codes, head.values, resultCodes⟩

def codeAt (codes : List Int) (index : Nat) : Int :=
  match codes with
  | [] => 0
  | [code] => code
  | _ => codes.getD index 0

def readTypes : Nat → Reader → Except FieldError (List Int)
  | 0, _ => .ok []
  | count + 1, reader => do
      let (type, reader) ← reader.i32 "parameter_type"
      let types ← readTypes count reader
      return type :: types

/-- The parameter types that a `Parse` declares.  Zero, or none, is a type for the server to
choose. -/
def parameterTypes (body : List UInt8) : Except FieldError (List Int) := do
  let (_, reader) ← (Reader.new body).cstr "statement_name"
  let (_, reader) ← reader.cstr "sql"
  let (count, reader) ← reader.i16 "parameter_type_count"
  readTypes count.toNat reader

def resultShape (codes : List Int) : List Int :=
  if codes.all (· = 0) then [] else codes

/-! ### Fields and the bytes they take -/

theorem bind_eq_ok {ε α β : Type} {first : Except ε α} {next : α → Except ε β}
    {result : β} (done : (first >>= next) = .ok result) :
    ∃ value, first = .ok value ∧ next value = .ok result := by
  cases first with
  | error _ => cases done
  | ok value => exact ⟨value, rfl, done⟩

def Took (before : Reader) (taken : List UInt8) (after : Reader) : Prop :=
  before.rest = taken ++ after.rest ∧ after.read = before.read + taken.length

theorem Took.nil (reader : Reader) : Took reader [] reader :=
  ⟨rfl, rfl⟩

theorem Took.trans {first second third : Reader} {taken more : List UInt8}
    (one : Took first taken second) (two : Took second more third) :
    Took first (taken ++ more) third := by
  obtain ⟨rest, read⟩ := one
  obtain ⟨rest', read'⟩ := two
  refine ⟨by rw [rest, rest', append_assoc], ?_⟩
  rw [read', read, length_append, Nat.add_assoc]

variable {after : Reader}

theorem Took.take_eq {before : Reader} {taken : List UInt8} (took : Took before taken after) :
    before.rest.take (after.read - before.read) = taken := by
  rw [took.2, Nat.add_sub_cancel_left, took.1]
  exact take_left

variable {reader : Reader} {what : String}

theorem bytes_took {count : Nat} {field : List UInt8}
    (done : reader.bytes count what = .ok (field, after)) :
    Took reader field after ∧ field.length = count := by
  unfold Reader.bytes at done
  split at done
  · cases done
  · obtain ⟨rfl, rfl⟩ := Prod.mk.inj (Except.ok.inj done)
    have length : (reader.rest.take count).length = count := by
      rw [length_take]
      omega
    exact ⟨⟨(take_append_drop count reader.rest).symm, by rw [length]⟩, length⟩

theorem i16_took {number : Int} (done : reader.i16 what = .ok (number, after)) :
    ∃ field, Took reader field after ∧ field.length = 2 ∧ number = readI16 field := by
  obtain ⟨⟨field, next⟩, read, same⟩ := bind_eq_ok done
  obtain ⟨rfl, rfl⟩ := Prod.mk.inj (Except.ok.inj same)
  obtain ⟨took, length⟩ := bytes_took read
  exact ⟨field, took, length, rfl⟩

theorem i32_took {number : Int} (done : reader.i32 what = .ok (number, after)) :
    ∃ field, Took reader field after ∧ field.length = 4 ∧ number = readI32 field := by
  obtain ⟨⟨field, next⟩, read, same⟩ := bind_eq_ok done
  obtain ⟨rfl, rfl⟩ := Prod.mk.inj (Except.ok.inj same)
  obtain ⟨took, length⟩ := bytes_took read
  exact ⟨field, took, length, rfl⟩

/-! ### Runs of codes and of values -/

def codesOf : List UInt8 → List Int
  | high :: low :: later => readI16 [high, low] :: codesOf later
  | _ => []

theorem readCodes_took {count : Nat} :
    ∀ {reader after : Reader} {codes : List Int},
      readCodes what count reader = .ok (codes, after) →
        ∃ run, Took reader run after ∧ codes = codesOf run := by
  induction count with
  | zero =>
    intro reader after codes done
    obtain ⟨rfl, rfl⟩ := Prod.mk.inj (Except.ok.inj done)
    exact ⟨[], .nil _, rfl⟩
  | succ count ih =>
    intro reader after codes done
    obtain ⟨⟨code, middle⟩, first, rest⟩ := bind_eq_ok done
    obtain ⟨⟨later, last⟩, second, same⟩ := bind_eq_ok rest
    obtain ⟨rfl, rfl⟩ := Prod.mk.inj (Except.ok.inj same)
    obtain ⟨field, took, width, rfl⟩ := i16_took first
    obtain ⟨run, more, rfl⟩ := ih second
    obtain ⟨high, low, rfl⟩ := length_eq_two.mp width
    exact ⟨_, took.trans more, rfl⟩

inductive ValueRun : List UInt8 → List (Option (List UInt8)) → Prop
  | nil : ValueRun [] []
  | null {field run : List UInt8} {values : List (Option (List UInt8))} (width : field.length = 4)
      (negative : readI32 field < 0) (later : ValueRun run values) :
      ValueRun (field ++ run) (none :: values)
  | value {field value run : List UInt8} {values : List (Option (List UInt8))}
      (width : field.length = 4) (length : readI32 field = value.length)
      (later : ValueRun run values) : ValueRun (field ++ (value ++ run)) (some value :: values)

theorem readValue_took {value : Option (List UInt8)}
    (done : readValue reader = .ok (value, after)) :
    ∃ run, Took reader run after ∧
      ∀ {more : List UInt8} {values : List (Option (List UInt8))}, ValueRun more values →
        ValueRun (run ++ more) (value :: values) := by
  obtain ⟨⟨len, middle⟩, first, rest⟩ := bind_eq_ok done
  obtain ⟨field, took, width, rfl⟩ := i32_took first
  dsimp only at rest
  split at rest
  · rename_i negative
    obtain ⟨rfl, rfl⟩ := Prod.mk.inj (Except.ok.inj rest)
    exact ⟨field, took, fun later => .null width negative later⟩
  · obtain ⟨⟨content, last⟩, second, same⟩ := bind_eq_ok rest
    obtain ⟨rfl, rfl⟩ := Prod.mk.inj (Except.ok.inj same)
    obtain ⟨more, length⟩ := bytes_took second
    refine ⟨field ++ content, took.trans more, fun later => ?_⟩
    rw [append_assoc]
    exact .value width (by omega) later

theorem readValues_took {count : Nat} :
    ∀ {reader after : Reader} {values : List (Option (List UInt8))},
      readValues count reader = .ok (values, after) →
        ∃ run, Took reader run after ∧ ValueRun run values := by
  induction count with
  | zero =>
    intro reader after values done
    obtain ⟨rfl, rfl⟩ := Prod.mk.inj (Except.ok.inj done)
    exact ⟨[], .nil _, .nil⟩
  | succ count ih =>
    intro reader after values done
    obtain ⟨⟨value, middle⟩, first, rest⟩ := bind_eq_ok done
    obtain ⟨⟨later, last⟩, second, same⟩ := bind_eq_ok rest
    obtain ⟨rfl, rfl⟩ := Prod.mk.inj (Except.ok.inj same)
    obtain ⟨field, took, extend⟩ := readValue_took first
    obtain ⟨run, more, values⟩ := ih second
    exact ⟨field ++ run, took.trans more, extend values⟩

theorem ValueRun.unique {run : List UInt8} {values : List (Option (List UInt8))}
    (one : ValueRun run values) :
    ∀ {other : List (Option (List UInt8))}, ValueRun run other → values = other := by
  induction one with
  | nil =>
    intro other two
    generalize same : ([] : List UInt8) = run at two
    cases two with
    | nil => rfl
    | null width =>
      obtain ⟨rfl, -⟩ := append_eq_nil_iff.mp same.symm
      cases width
    | value width =>
      obtain ⟨rfl, -⟩ := append_eq_nil_iff.mp same.symm
      cases width
  | @null field run values width negative later ih =>
    intro other two
    generalize same : field ++ run = whole at two
    cases two with
    | nil =>
      obtain ⟨rfl, -⟩ := append_eq_nil_iff.mp same
      cases width
    | null width' _ later' =>
      obtain ⟨rfl, rfl⟩ := append_inj same (width.trans width'.symm)
      rw [ih later']
    | value width' length =>
      obtain ⟨rfl, -⟩ := append_inj same (width.trans width'.symm)
      omega
  | @value field value run values width length later ih =>
    intro other two
    generalize same : field ++ (value ++ run) = whole at two
    cases two with
    | nil =>
      obtain ⟨rfl, -⟩ := append_eq_nil_iff.mp same
      cases width
    | null width' negative =>
      obtain ⟨rfl, -⟩ := append_inj same (width.trans width'.symm)
      omega
    | value width' length' later' =>
      obtain ⟨rfl, rest⟩ := append_inj same (width.trans width'.symm)
      obtain ⟨rfl, rfl⟩ := append_inj rest (by omega)
      rw [ih later']

/-! ### Two bodies with the same key material -/

theorem readHead_run {body : List UInt8} {head : BindHead} (done : readHead body = .ok head) :
    ValueRun head.raw head.values := by
  obtain ⟨⟨_, _⟩, -, rest⟩ := bind_eq_ok done
  obtain ⟨⟨_, _⟩, -, rest⟩ := bind_eq_ok rest
  obtain ⟨⟨_, _⟩, -, rest⟩ := bind_eq_ok rest
  obtain ⟨⟨_, _⟩, -, rest⟩ := bind_eq_ok rest
  obtain ⟨⟨_, _⟩, -, rest⟩ := bind_eq_ok rest
  obtain ⟨⟨values, reader⟩, read, same⟩ := bind_eq_ok rest
  cases same
  obtain ⟨run, took, values⟩ := readValues_took read
  rw [took.take_eq]
  exact values

theorem readResultFormats_eq {middle last : Reader} {count : Int} {codes : List Int}
    (counted : reader.i16 "result_format_count" = .ok (count, middle))
    (read : readCodes "result_format" count.toNat middle = .ok (codes, last)) :
    ∃ formats, readResultFormats reader = .ok formats ∧
      resultShape codes = codesOf (formats.drop 2) := by
  have whole : readResultFormats reader =
      if codes.all (· = 0) then .ok []
      else .ok (reader.rest.take (last.read - reader.read)) := by
    unfold readResultFormats
    rw [counted]
    change (readCodes "result_format" count.toNat middle >>= _) = _
    rw [read]
    rfl
  rw [whole, resultShape]
  split
  · exact ⟨[], rfl, rfl⟩
  · obtain ⟨field, took, width, -⟩ := i16_took counted
    obtain ⟨run, more, rfl⟩ := readCodes_took read
    refine ⟨_, rfl, ?_⟩
    rw [(took.trans more).take_eq, drop_left' width]

/-- A body that a server can read gives key material that says what its values and its
result formats are. -/
theorem readBound_spec {body : List UInt8} {bound : Bound} (done : readBound body = .ok bound) :
    ∃ parameters, bindParameters ⟨Tag.bind, body⟩ = .ok parameters ∧
      ValueRun parameters.raw bound.values ∧
      resultShape bound.resultCodes = codesOf (parameters.resultFormats.drop 2) := by
  obtain ⟨head, first, rest⟩ := bind_eq_ok done
  obtain ⟨⟨count, reader⟩, second, rest⟩ := bind_eq_ok rest
  obtain ⟨⟨codes, last⟩, third, same⟩ := bind_eq_ok rest
  cases same
  obtain ⟨formats, read, shape⟩ := readResultFormats_eq second third
  refine ⟨⟨head.values, head.raw, formats⟩, ?_, readHead_run first, shape⟩
  unfold bindParameters
  rw [if_neg (by simp), first]
  dsimp only
  rw [read]

end Pgprox.Proto
