import SshCertificateAuthority.Library.ByteStream
import Mathlib.Data.List.GetD

namespace Base64
open ByteStream

def alphabet : List Char :=
  "ABCDEFGHIJKLMNOPQRSTUVWXYZabcdefghijklmnopqrstuvwxyz0123456789+/".toList

def digit (n : Nat) : Char := alphabet.getD n '='

def encode : Bytes → List Char
  | [] => []
  | [a] => [digit (a.toNat / 4), digit (a.toNat % 4 * 16), '=', '=']
  | [a, b] =>
    [digit (a.toNat / 4), digit (a.toNat % 4 * 16 + b.toNat / 16), digit (b.toNat % 16 * 4), '=']
  | a :: b :: c :: rest =>
    digit (a.toNat / 4) :: digit (a.toNat % 4 * 16 + b.toNat / 16) ::
      digit (b.toNat % 16 * 4 + c.toNat / 64) :: digit (c.toNat % 64) :: encode rest

theorem digit_mem (n : Nat) : digit n ∈ '=' :: alphabet := by
  rw [digit]
  by_cases h : n < alphabet.length
  · rw [List.getD_eq_getElem _ _ h]
    exact List.mem_cons_of_mem _ (List.getElem_mem h)
  · rw [List.getD_eq_default _ _ (Nat.not_lt.mp h)]
    exact List.mem_cons_self

theorem mem_encode {bs : Bytes} {c : Char} (h : c ∈ encode bs) : c ∈ '=' :: alphabet := by
  induction bs using encode.induct with
  | case1 => simp [encode] at h
  | case2 a =>
    simp only [encode, List.mem_cons, List.not_mem_nil, or_false] at h
    rcases h with rfl | rfl | rfl | rfl <;> first | exact digit_mem _ | exact List.mem_cons_self
  | case3 a b =>
    simp only [encode, List.mem_cons, List.not_mem_nil, or_false] at h
    rcases h with rfl | rfl | rfl | rfl <;> first | exact digit_mem _ | exact List.mem_cons_self
  | case4 a b d rest ih =>
    simp only [encode, List.mem_cons] at h
    rcases h with rfl | rfl | rfl | rfl | h
    all_goals first | exact digit_mem _ | exact ih h

theorem encode_length (bs : Bytes) : (encode bs).length = 4 * ((bs.length + 2) / 3) := by
  induction bs using encode.induct with
  | case1 => rfl
  | case2 a => simp [encode]
  | case3 a b => simp [encode]
  | case4 a b c rest ih =>
    simp only [encode, List.length_cons, ih]
    omega

theorem idxOf_digit : ∀ n < 64, alphabet.idxOf (digit n) = n := by decide +kernel

theorem digit_injective {m n : Nat} (hm : m < 64) (hn : n < 64) (h : digit m = digit n) :
    m = n := by
  rw [← idxOf_digit m hm, h, idxOf_digit n hn]

theorem digit_ne_pad : ∀ n < 64, digit n ≠ '=' := by decide +kernel

theorem encode_injective {as bs : Bytes} (h : encode as = encode bs) : as = bs := by
  induction as using encode.induct generalizing bs with
  | case1 =>
    rcases bs with _ | ⟨a', _ | ⟨b', _ | ⟨c', rest'⟩⟩⟩
    · rfl
    all_goals simp [encode] at h
  | case2 a =>
    have ha := a.toNat_lt
    rcases bs with _ | ⟨a', _ | ⟨b', _ | ⟨c', rest'⟩⟩⟩
    · simp [encode] at h
    · have ha' := a'.toNat_lt
      simp only [encode, List.cons.injEq, and_true] at h
      have h₁ := digit_injective (by omega) (by omega) h.1
      have h₂ := digit_injective (by omega) (by omega) h.2
      rw [UInt8.toNat_inj.mp (by omega : a.toNat = a'.toNat)]
    · simp only [encode, List.cons.injEq] at h
      exact absurd h.2.2.1.symm (digit_ne_pad _ (by omega))
    · simp only [encode, List.cons.injEq] at h
      exact absurd h.2.2.1.symm (digit_ne_pad _ (by have := c'.toNat_lt; omega))
  | case3 a b =>
    have ha := a.toNat_lt
    have hb := b.toNat_lt
    rcases bs with _ | ⟨a', _ | ⟨b', _ | ⟨c', rest'⟩⟩⟩
    · simp [encode] at h
    · simp only [encode, List.cons.injEq] at h
      exact absurd h.2.2.1 (digit_ne_pad _ (by omega))
    · have ha' := a'.toNat_lt
      have hb' := b'.toNat_lt
      simp only [encode, List.cons.injEq, and_true] at h
      have h₁ := digit_injective (by omega) (by omega) h.1
      have h₂ := digit_injective (by omega) (by omega) h.2.1
      have h₃ := digit_injective (by omega) (by omega) h.2.2
      rw [UInt8.toNat_inj.mp (by omega : a.toNat = a'.toNat),
        UInt8.toNat_inj.mp (by omega : b.toNat = b'.toNat)]
    · simp only [encode, List.cons.injEq] at h
      exact absurd h.2.2.2.1.symm (digit_ne_pad _ (by omega))
  | case4 a b c rest ih =>
    have ha := a.toNat_lt
    have hb := b.toNat_lt
    have hc := c.toNat_lt
    rcases bs with _ | ⟨a', _ | ⟨b', _ | ⟨c', rest'⟩⟩⟩
    · simp [encode] at h
    · simp only [encode, List.cons.injEq] at h
      exact absurd h.2.2.1 (digit_ne_pad _ (by omega))
    · simp only [encode, List.cons.injEq] at h
      exact absurd h.2.2.2.1 (digit_ne_pad _ (by omega))
    · have ha' := a'.toNat_lt
      have hb' := b'.toNat_lt
      have hc' := c'.toNat_lt
      simp only [encode, List.cons.injEq] at h
      have h₁ := digit_injective (by omega) (by omega) h.1
      have h₂ := digit_injective (by omega) (by omega) h.2.1
      have h₃ := digit_injective (by omega) (by omega) h.2.2.1
      have h₄ := digit_injective (by omega) (by omega) h.2.2.2.1
      rw [UInt8.toNat_inj.mp (by omega : a.toNat = a'.toNat),
        UInt8.toNat_inj.mp (by omega : b.toNat = b'.toNat),
        UInt8.toNat_inj.mp (by omega : c.toNat = c'.toNat), ih h.2.2.2.2]

end Base64
