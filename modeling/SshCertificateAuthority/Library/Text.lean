import SshCertificateAuthority.Library.ByteStream
import Mathlib.Data.String.Basic

namespace ByteStream

def utf8 (s : String) : Bytes := s.toByteArray.data.toList

def fromUtf8 (bs : Bytes) : Option String := String.fromUTF8? ⟨bs.toArray⟩

@[simp] theorem fromUtf8_utf8 (s : String) : fromUtf8 (utf8 s) = some s := by
  have h : (⟨(utf8 s).toArray⟩ : ByteArray) = s.toByteArray := by simp [utf8]
  rw [fromUtf8, h, String.fromUTF8?, dif_pos s.isValidUTF8]
  rfl

theorem utf8_of_fromUtf8 {bs : Bytes} {s : String} (h : fromUtf8 bs = some s) : utf8 s = bs := by
  unfold fromUtf8 String.fromUTF8? at h
  split at h
  · obtain rfl := Option.some.inj h
    simp [utf8, String.fromUTF8]
  · simp at h

@[simp] theorem utf8_length (s : String) : (utf8 s).length = s.utf8ByteSize := by
  rw [utf8, Array.length_toList]
  rfl

theorem utf8ByteSize_ofList (cs : List Char) :
    (String.ofList cs).utf8ByteSize = (cs.map Char.utf8Size).sum := by
  induction cs with
  | nil => rfl
  | cons c cs ih =>
    rw [String.ofList_cons, String.utf8ByteSize_append, String.utf8ByteSize_singleton, ih]
    rfl

end ByteStream

namespace Text
open ByteStream

-- The ranges of the bytes that must follow a first byte of a UTF-8 sequence.
def following (b : Nat) : Option (List (Nat × Nat)) :=
  if b < 0x80 then some []
  else if b < 0xc2 then none
  else if b < 0xe0 then some [(0x80, 0xbf)]
  else if b = 0xe0 then some [(0xa0, 0xbf), (0x80, 0xbf)]
  else if b = 0xed then some [(0x80, 0x9f), (0x80, 0xbf)]
  else if b < 0xf0 then some [(0x80, 0xbf), (0x80, 0xbf)]
  else if b = 0xf0 then some [(0x90, 0xbf), (0x80, 0xbf), (0x80, 0xbf)]
  else if b < 0xf4 then some [(0x80, 0xbf), (0x80, 0xbf), (0x80, 0xbf)]
  else if b = 0xf4 then some [(0x80, 0x8f), (0x80, 0xbf), (0x80, 0xbf)]
  else none

def matched : List (Nat × Nat) → Bytes → Nat
  | (low, high) :: ranges, b :: bs =>
    if low ≤ b.toNat ∧ b.toNat ≤ high then matched ranges bs + 1 else 0
  | _, _ => 0

def leadingBits (b n : Nat) : Nat :=
  match n with
  | 0 => b
  | 1 => b % 32
  | 2 => b % 16
  | _ => b % 8

def decodeChar (b : UInt8) (rest : Bytes) : Char :=
  .ofNat (rest.foldl (fun acc c => acc * 64 + c.toNat % 64) (leadingBits b.toNat rest.length))

def lossyChars : Nat → Bytes → List Char
  | 0, _ => []
  | _, [] => []
  | fuel + 1, b :: bs =>
    match following b.toNat with
    | none => '\uFFFD' :: lossyChars fuel bs
    | some ranges =>
      let n := matched ranges bs
      let c := if n = ranges.length then decodeChar b (bs.take n) else '\uFFFD'
      c :: lossyChars fuel (bs.drop n)

def fromUtf8Lossy (bs : Bytes) : String := .ofList (lossyChars bs.length bs)

-- Where the first sequence that is no UTF-8 starts, and its length unless the input just ends.
def invalidAt : Nat → Nat → Bytes → Option (Nat × Option Nat)
  | 0, _, _ => none
  | _, _, [] => none
  | fuel + 1, index, b :: bs =>
    match following b.toNat with
    | none => some (index, some 1)
    | some ranges =>
      let n := matched ranges bs
      if n = ranges.length then invalidAt fuel (index + n + 1) (bs.drop n)
      else some (index, if n = bs.length then none else some (n + 1))

def utf8Error (bs : Bytes) : String :=
  match invalidAt bs.length 0 bs with
  | none => ""
  | some (index, none) => s!"incomplete utf-8 byte sequence from index {index}"
  | some (index, some n) => s!"invalid utf-8 sequence of {n} bytes from index {index}"

example : utf8Error [104, 0xe2, 0x82, 33] = "invalid utf-8 sequence of 2 bytes from index 1" := by
  decide +kernel

def isWhitespace (c : Char) : Bool :=
  let n := c.toNat
  (9 ≤ n && n ≤ 13) || n = 0x20 || n = 0x85 || n = 0xa0 || n = 0x1680 ||
    (0x2000 ≤ n && n ≤ 0x200a) || n = 0x2028 || n = 0x2029 || n = 0x202f || n = 0x205f || n = 0x3000

def splitWhitespace (s : String) : List String :=
  ((s.toList.splitOnP isWhitespace).filter (· ≠ [])).map String.ofList

end Text
