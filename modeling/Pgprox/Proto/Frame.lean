/-
Frame boundaries: a tag, a four-byte big-endian length that counts itself but not the
tag, and a body.

A frame in front of other bytes is read whole, and every shorter piece of it is incomplete.
-/

import Pgprox.Core.Basic

namespace Pgprox.Proto

open List

/-- Bytes of the length field, and the least value it may have. -/
def lenPrefix : Nat := 4

def defaultMaxFrame : Nat := 1024 * 1024 * 1024

namespace Tag

def bind : UInt8 := 0x42
def describe : UInt8 := 0x44
def execute : UInt8 := 0x45
def parse : UInt8 := 0x50
def query : UInt8 := 0x51
def sync : UInt8 := 0x53
def parseComplete : UInt8 := 0x31
def bindComplete : UInt8 := 0x32
def rowDescription : UInt8 := 0x54
def commandComplete : UInt8 := 0x43
def emptyQueryResponse : UInt8 := 0x49
def dataRow : UInt8 := 0x44
def errorResponse : UInt8 := 0x45
def readyForQuery : UInt8 := 0x5A
def noticeResponse : UInt8 := 0x4E
def parameterStatus : UInt8 := 0x53
def notificationResponse : UInt8 := 0x41

end Tag

structure Frame where
  tag : UInt8
  body : List UInt8
  deriving DecidableEq

inductive DecodeError
  | lengthTooSmall (declared : Nat)
  | lengthTooLarge (declared max : Nat)
  deriving DecidableEq

def DecodeError.text : DecodeError → String
  | .lengthTooSmall declared =>
    "declared length " ++ toString declared ++ " is below the 4-byte minimum"
  | .lengthTooLarge declared max =>
    "declared length " ++ toString declared ++ " exceeds the maximum of " ++ toString max

inductive Decoded
  | frame (frame : Frame) (consumed : Nat)
  | incomplete (needed : Option Nat)
  deriving DecidableEq

def readBe (bytes : List UInt8) : Nat :=
  bytes.foldl (fun number byte => number * 256 + byte.toNat) 0

def readI16 (bytes : List UInt8) : Int :=
  (BitVec.ofNat 16 (readBe bytes)).toInt

def readI32 (bytes : List UInt8) : Int :=
  (BitVec.ofNat 32 (readBe bytes)).toInt

def fromUtf8 (bytes : List UInt8) : Option Text :=
  (String.fromUTF8? ⟨bytes.toArray⟩).map String.toList

def readU32 (buf : List UInt8) : Nat :=
  readBe (buf.take lenPrefix)

def checkLength (declared maxFrame : Nat) : Except DecodeError Nat :=
  if declared < lenPrefix then .error (.lengthTooSmall declared)
  else if declared > maxFrame then .error (.lengthTooLarge declared maxFrame)
  else .ok (declared - lenPrefix)

def decode (buf : List UInt8) (maxFrame : Nat) : Except DecodeError Decoded :=
  match buf with
  | [] => .ok (.incomplete none)
  | tag :: after =>
    if after.length < lenPrefix then .ok (.incomplete none)
    else
      match checkLength (readU32 after) maxFrame with
      | .error error => .error error
      | .ok bodyLen =>
        let total := 1 + lenPrefix + bodyLen
        if buf.length < total then .ok (.incomplete (some total))
        else .ok (.frame ⟨tag, (after.drop lenPrefix).take bodyLen⟩ total)

/-! ### The bytes of a frame -/

def toBeU32 (number : Nat) : List UInt8 :=
  [.ofNat (number / 2 ^ 24), .ofNat (number / 2 ^ 16), .ofNat (number / 2 ^ 8), .ofNat number]

theorem length_toBeU32 (number : Nat) : (toBeU32 number).length = lenPrefix :=
  rfl

def Frame.bytes (frame : Frame) : List UInt8 :=
  frame.tag :: (toBeU32 (frame.body.length + lenPrefix) ++ frame.body)

structure SentFrame extends Frame where
  fits : body.length + lenPrefix ≤ defaultMaxFrame
  deriving DecidableEq

theorem readU32_toBeU32 {number : Nat} (small : number < 2 ^ 32) (after : List UInt8) :
    readU32 (toBeU32 number ++ after) = number := by
  unfold readU32 readBe
  rw [take_left' (length_toBeU32 number)]
  simp only [toBeU32, foldl_cons, foldl_nil, UInt8.toNat_ofNat']
  omega

theorem Frame.length_bytes (frame : Frame) :
    frame.bytes.length = 1 + lenPrefix + frame.body.length := by
  unfold Frame.bytes
  rw [length_cons, length_append, length_toBeU32]
  omega

namespace SentFrame

variable (frame : SentFrame)

theorem checkLength_ok :
    checkLength (frame.body.length + lenPrefix) defaultMaxFrame = .ok frame.body.length := by
  unfold checkLength
  rw [if_neg (Nat.not_lt.mpr (Nat.le_add_left _ _)), if_neg (Nat.not_lt.mpr frame.fits),
    Nat.add_sub_cancel]

theorem readU32_bytes (after : List UInt8) :
    readU32 (toBeU32 (frame.body.length + lenPrefix) ++ after) =
      frame.body.length + lenPrefix :=
  readU32_toBeU32 (Nat.lt_of_le_of_lt frame.fits (by decide)) after

theorem decode_bytes_append (later : List UInt8) :
    decode (frame.bytes ++ later) defaultMaxFrame =
      .ok (.frame frame.toFrame frame.bytes.length) := by
  have whole : frame.bytes ++ later =
      frame.tag :: (toBeU32 (frame.body.length + lenPrefix) ++ (frame.body ++ later)) := by
    unfold Frame.bytes
    rw [cons_append, append_assoc]
  have long : (frame.bytes ++ later).length = 1 + lenPrefix + frame.body.length + later.length := by
    rw [length_append, frame.length_bytes]
  rw [whole] at long ⊢
  unfold decode
  dsimp only
  have enough : ¬ (toBeU32 (frame.body.length + lenPrefix) ++ (frame.body ++ later)).length <
      lenPrefix := by
    rw [length_append]
    exact Nat.not_lt.mpr (Nat.le_add_right _ _)
  rw [if_neg enough, readU32_bytes, checkLength_ok]
  dsimp only
  rw [if_neg (by rw [long]; omega), frame.length_bytes, drop_left' (length_toBeU32 _), take_left]

theorem decode_of_strict_prefix {piece missing : List UInt8}
    (cut : piece ++ missing = frame.bytes) (more : missing ≠ []) :
    ∃ needed, decode piece defaultMaxFrame = .ok (.incomplete needed) := by
  have short : piece.length < frame.bytes.length := by
    rw [← cut, length_append]
    have := length_pos_iff.mpr more
    omega
  unfold decode
  cases piece with
  | nil => exact ⟨none, rfl⟩
  | cons tag after =>
    dsimp only
    by_cases few : after.length < lenPrefix
    · exact ⟨none, if_pos few⟩
    · have behind : after ++ missing =
          toBeU32 (frame.body.length + lenPrefix) ++ frame.body :=
        (List.cons.inj cut).2
      have field : after.take lenPrefix = toBeU32 (frame.body.length + lenPrefix) := by
        rw [← take_append_of_le_length (Nat.not_lt.mp few), behind,
          take_left' (length_toBeU32 _)]
      have declared : readU32 after = frame.body.length + lenPrefix := by
        rw [← frame.readU32_bytes []]
        unfold readU32
        rw [field, append_nil, ← field, take_take, Nat.min_self]
      rw [if_neg few, declared, checkLength_ok]
      dsimp only
      rw [frame.length_bytes] at short
      exact ⟨_, if_pos short⟩

end SentFrame

end Pgprox.Proto
