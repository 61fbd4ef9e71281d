import Mathlib.Logic.Basic
import Mathlib.Tactic.Basic
import Mathlib.Data.List.Basic
import Mathlib.Algebra.GroupWithZero.Nat

namespace ByteStream

abbrev Bytes := List UInt8

def toBeBytes (n : UInt32) : Bytes :=
  [.ofNat (n.toNat / 16777216), .ofNat (n.toNat / 65536), .ofNat (n.toNat / 256), .ofNat n.toNat]

def fromBeBytes (bs : Bytes) : UInt32 :=
  .ofNat (bs.foldl (fun acc b => acc * 256 + b.toNat) 0)

@[simp] theorem toBeBytes_length (n : UInt32) : (toBeBytes n).length = 4 := rfl

@[simp] theorem fromBeBytes_toBeBytes (n : UInt32) : fromBeBytes (toBeBytes n) = n := by
  apply UInt32.toNat_inj.mp
  have hn : n.toNat < 4294967296 := n.toNat_lt
  simp only [fromBeBytes, toBeBytes, List.foldl_cons, List.foldl_nil, UInt8.toNat_ofNat',
    UInt32.toNat_ofNat']
  omega

def readExact : List Bytes → Nat → Option (Bytes × List Bytes)
  | [], n => if n = 0 then some ([], []) else none
  | c :: cs, n =>
    if n ≤ c.length then some (c.take n, c.drop n :: cs)
    else (readExact cs (n - c.length)).map fun r => (c ++ r.1, r.2)

theorem readExact_of_le {cs : List Bytes} {n : Nat} (h : n ≤ cs.flatten.length) :
    ∃ rest, readExact cs n = some (cs.flatten.take n, rest) ∧ rest.flatten = cs.flatten.drop n := by
  induction cs generalizing n with
  | nil =>
    obtain rfl : n = 0 := by simpa using h
    exact ⟨[], rfl, rfl⟩
  | cons c cs ih =>
    rw [List.flatten_cons, List.length_append] at h
    by_cases hc : n ≤ c.length
    · refine ⟨c.drop n :: cs, ?_, ?_⟩
      · simp [readExact, hc, List.take_append_of_le_length hc]
      · simp [List.drop_append_of_le_length hc]
    · obtain ⟨rest, hr, hf⟩ := ih (n := n - c.length) (by omega)
      refine ⟨rest, ?_, ?_⟩
      · simp [readExact, hc, hr, List.take_append, List.take_of_length_le (by omega : c.length ≤ n)]
      · simp [hf, List.drop_append, List.drop_of_length_le (by omega : c.length ≤ n)]

theorem readExact_of_lt {cs : List Bytes} {n : Nat} (h : cs.flatten.length < n) :
    readExact cs n = none := by
  induction cs generalizing n with
  | nil => simpa [readExact] using Nat.ne_of_gt h
  | cons c cs ih =>
    rw [List.flatten_cons, List.length_append] at h
    have hc : ¬ n ≤ c.length := by omega
    simp [readExact, hc, ih (n := n - c.length) (by omega)]

inductive FrameError where
  | length
  | tooLarge (declared : UInt32)
  | payload
deriving DecidableEq, Repr

def readFrame (limit : UInt32) (cs : List Bytes) : Except FrameError (Bytes × List Bytes) :=
  match readExact cs 4 with
  | none => .error .length
  | some (lenBuf, cs) =>
    let msgLen := fromBeBytes lenBuf
    if limit < msgLen then .error (.tooLarge msgLen)
    else
      match readExact cs msgLen.toNat with
      | none => .error .payload
      | some r => .ok r

def frame (payload : Bytes) : Bytes := toBeBytes (.ofNat payload.length) ++ payload

def framedPayload (limit : UInt32) (bs : Bytes) : Option Bytes :=
  let msgLen := fromBeBytes (bs.take 4)
  if 4 ≤ bs.length ∧ msgLen ≤ limit ∧ msgLen.toNat ≤ (bs.drop 4).length then
    some ((bs.drop 4).take msgLen.toNat)
  else none

theorem readFrame_payload (limit : UInt32) (cs : List Bytes) :
    (readFrame limit cs).toOption.map Prod.fst = framedPayload limit cs.flatten := by
  by_cases h4 : 4 ≤ cs.flatten.length
  · obtain ⟨rest, hr, hf⟩ := readExact_of_le h4
    simp only [readFrame, hr, framedPayload]
    by_cases hl : limit < fromBeBytes (cs.flatten.take 4)
    · rw [if_pos hl, if_neg (fun h => UInt32.not_lt.mpr h.2.1 hl)]
      rfl
    · rw [if_neg hl]
      by_cases hp : (fromBeBytes (cs.flatten.take 4)).toNat ≤ rest.flatten.length
      · obtain ⟨rest', hr', -⟩ := readExact_of_le hp
        rw [hr', if_pos ⟨h4, UInt32.not_lt.mp hl, hf ▸ hp⟩]
        simp [Except.toOption, hf]
      · rw [readExact_of_lt (Nat.not_le.mp hp), if_neg (fun h => hp (hf ▸ h.2.2))]
        rfl
  · simp only [readFrame, readExact_of_lt (Nat.not_le.mp h4), framedPayload]
    rw [if_neg (fun h => h4 h.1)]
    rfl

theorem readFrame_frame {limit : UInt32} {cs : List Bytes} {p : Bytes} (hcs : cs.flatten = frame p)
    (hp : UInt32.ofNat p.length ≤ limit) :
    ∃ rest, readFrame limit cs = .ok (p.take (p.length % 2 ^ 32), rest) ∧
      rest.flatten = p.drop (p.length % 2 ^ 32) := by
  obtain ⟨rest, hr, hf⟩ := readExact_of_le (by simp [hcs, frame] : 4 ≤ cs.flatten.length)
  rw [hcs, frame, List.take_left' (toBeBytes_length _)] at hr
  rw [hcs, frame, List.drop_left' (toBeBytes_length _)] at hf
  have hn : (UInt32.ofNat p.length).toNat = p.length % 2 ^ 32 := by simp
  obtain ⟨rest', hr', hf'⟩ := readExact_of_le
    (by rw [hf]; exact Nat.mod_le _ _ : p.length % 2 ^ 32 ≤ rest.flatten.length)
  refine ⟨rest', ?_, by rw [hf', hf]⟩
  rw [hf] at hr'
  simp only [readFrame, hr, fromBeBytes_toBeBytes, UInt32.not_lt.mpr hp, if_false, hn, hr']

theorem toNat_ofNat_of_le {limit : UInt32} {n : Nat} (h : n ≤ limit.toNat) :
    (UInt32.ofNat n).toNat = n := by
  have hlimit := limit.toNat_lt
  rw [UInt32.toNat_ofNat']
  exact Nat.mod_eq_of_lt (by omega)

theorem readFrame_frame_short (limit : UInt32) {cs : List Bytes} {p : Bytes}
    (hcs : cs.flatten = frame p) (hp : p.length ≤ limit.toNat) :
    ∃ rest, readFrame limit cs = .ok (p, rest) := by
  have hn := toNat_ofNat_of_le hp
  obtain ⟨rest, hr, -⟩ := readFrame_frame hcs (UInt32.le_iff_toNat_le.mpr (hn.symm ▸ hp))
  rw [← UInt32.toNat_ofNat', hn, List.take_length] at hr
  exact ⟨rest, hr⟩

theorem readFrame_frame_tooLarge {limit : UInt32} {cs : List Bytes} {p : Bytes}
    (hcs : cs.flatten = frame p) (hp : limit < UInt32.ofNat p.length) :
    readFrame limit cs = .error (.tooLarge (.ofNat p.length)) := by
  obtain ⟨rest, hr, -⟩ := readExact_of_le (by simp [hcs, frame] : 4 ≤ cs.flatten.length)
  rw [hcs, frame, List.take_left' (toBeBytes_length _)] at hr
  simp only [readFrame, hr, fromBeBytes_toBeBytes, hp, if_true]

theorem readFrame_prefix {limit : UInt32} {cs : List Bytes} {p q : Bytes} {rest : List Bytes}
    (hcs : cs.flatten = frame p) (h : readFrame limit cs = .ok (q, rest)) : q <+: p := by
  by_cases hp : UInt32.ofNat p.length ≤ limit
  · obtain ⟨rest', hr, -⟩ := readFrame_frame hcs hp
    obtain ⟨rfl, -⟩ : p.take (p.length % 2 ^ 32) = q ∧ rest' = rest := by simpa [hr] using h
    exact List.take_prefix _ _
  · rw [readFrame_frame_tooLarge hcs (UInt32.not_le.mp hp)] at h
    simp at h

theorem readFrame_nil {limit : UInt32} {cs : List Bytes} (hcs : cs.flatten = []) :
    readFrame limit cs = .error .length := by
  rw [readFrame, readExact_of_lt (by simp [hcs])]

end ByteStream
