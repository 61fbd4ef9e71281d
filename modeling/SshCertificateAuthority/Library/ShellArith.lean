import Mathlib.Data.List.Induction
import Mathlib.Algebra.Group.Nat.Defs
import Mathlib.Algebra.Group.Int.Defs
import Mathlib.Tactic.Basic

namespace ShellArith

abbrev Digits := List Char

def digitValue (c : Char) : Nat := c.toNat - '0'.toNat

def wrap (x : Int) : Int := Int.bmod x (2 ^ 64)

def plus (x y : Int) : Int := wrap (x + y)

-- A leading zero means octal; a digit too great for the base is an error.
def constant (digits : Digits) : Option Int :=
  match digits with
  | '0' :: _ =>
    if digits.all (digitValue · < 8) then some (wrap (Nat.ofDigitChars 8 digits 0)) else none
  | _ => some (wrap (Nat.ofDigitChars 10 digits 0))

def decimal (digits : Digits) : Nat := Nat.ofDigitChars 10 digits 0

def octal (digits : Digits) : Nat := Nat.ofDigitChars 8 digits 0

theorem ofDigitChars_concat (base : Nat) (digits : Digits) (c : Char) :
    Nat.ofDigitChars base (digits ++ [c]) 0 =
      base * Nat.ofDigitChars base digits 0 + digitValue c := by
  rw [Nat.ofDigitChars_append, Nat.ofDigitChars_cons, Nat.ofDigitChars_nil, digitValue]

theorem octal_le_decimal (digits : Digits) : octal digits ≤ decimal digits := by
  induction digits using List.reverseRecOn with
  | nil => simp [octal, decimal]
  | append_singleton digits c ih =>
    rw [octal, decimal, ofDigitChars_concat, ofDigitChars_concat, ← octal, ← decimal]
    omega

theorem octal_eq_decimal_iff (digits : Digits) :
    octal digits = decimal digits ∧ digits.all (digitValue · < 8) = true ↔ decimal digits < 8 := by
  induction digits using List.reverseRecOn with
  | nil => simp [octal, decimal]
  | append_singleton digits c ih =>
    have hle := octal_le_decimal digits
    have hall : (digits ++ [c]).all (digitValue · < 8) = true ↔
        digits.all (digitValue · < 8) = true ∧ digitValue c < 8 := by
      simp [List.all_append]
    rw [hall, octal, decimal, ofDigitChars_concat, ofDigitChars_concat, ← octal, ← decimal]
    constructor
    · rintro ⟨heq, -, hc⟩
      omega
    · intro h
      have hzero : decimal digits = 0 := by omega
      have hdigits := ih.mpr (by omega)
      exact ⟨by omega, hdigits.2, by omega⟩

theorem wrap_le {x : Int} (hx : 0 ≤ x) : wrap x ≤ x := by
  rw [wrap, Int.bmod_eq_emod]
  split <;> omega

theorem wrap_eq_iff {x : Int} (hx : 0 ≤ x) : wrap x = x ↔ x < 2 ^ 63 := by
  rw [wrap, Int.bmod_eq_iff (by decide)]
  omega

theorem plus_wrap (x y : Int) : plus (wrap x) y = plus x y := Int.bmod_add_bmod

theorem constant_eq_some {digits : Digits} {v : Int} : constant digits = some v ↔
    (digits.head? ≠ some '0' ∧ v = wrap (decimal digits)) ∨
      (digits.head? = some '0' ∧ digits.all (digitValue · < 8) = true ∧
        v = wrap (octal digits)) := by
  unfold constant
  split
  · next rest =>
    have hhead : ('0' :: rest).head? = some '0' := rfl
    split
    · next hall =>
      rw [Option.some.injEq]
      exact ⟨fun h => Or.inr ⟨hhead, hall, h.symm⟩,
        fun h => (h.resolve_left fun hne => hne.1 hhead).2.2.symm⟩
    · next hall =>
      refine ⟨fun h => absurd h (by simp), ?_⟩
      rintro (⟨hne, -⟩ | ⟨-, hall', -⟩)
      · exact (hne hhead).elim
      · exact (hall hall').elim
  · next hzero =>
    have hhead : digits.head? ≠ some '0' := fun h => by
      obtain ⟨rest, rfl⟩ := List.head?_eq_some_iff.mp h
      exact hzero rest rfl
    rw [Option.some.injEq]
    exact ⟨fun h => Or.inl ⟨hhead, h.symm⟩,
      fun h => (h.resolve_right fun heq => hhead heq.1).2.symm⟩

theorem plus_constant_le {digits : Digits} {v : Int} (h : constant digits = some v) (k : Nat) :
    plus v k ≤ decimal digits + k := by
  have hle := octal_le_decimal digits
  rcases constant_eq_some.mp h with ⟨-, hv⟩ | ⟨-, -, hv⟩
  · rw [hv, plus_wrap]
    exact wrap_le (by omega)
  · rw [hv, plus_wrap, plus]
    have hwrap := wrap_le (x := octal digits + k) (by omega)
    omega

theorem plus_constant_eq_iff (digits : Digits) (k : Nat) :
    (∃ v, constant digits = some v ∧ plus v k = decimal digits + k) ↔
      decimal digits + k < 2 ^ 63 ∧ (digits.head? ≠ some '0' ∨ decimal digits < 8) := by
  have hle := octal_le_decimal digits
  have hwrap : wrap (decimal digits + k) = decimal digits + k ↔ decimal digits + k < 2 ^ 63 := by
    rw [wrap_eq_iff (by omega)]
    omega
  constructor
  · rintro ⟨v, hv, hsum⟩
    rcases constant_eq_some.mp hv with ⟨hhead, hv⟩ | ⟨hhead, hall, hv⟩
    · rw [hv, plus_wrap, plus] at hsum
      exact ⟨hwrap.mp hsum, Or.inl hhead⟩
    · rw [hv, plus_wrap, plus] at hsum
      have hoctal := wrap_le (x := octal digits + k) (by omega)
      have heq : octal digits = decimal digits := by omega
      rw [heq] at hsum
      exact ⟨hwrap.mp hsum, Or.inr ((octal_eq_decimal_iff digits).mp ⟨heq, hall⟩)⟩
  · rintro ⟨hlt, hread⟩
    by_cases hhead : digits.head? = some '0'
    · obtain ⟨heq, hall⟩ := (octal_eq_decimal_iff digits).mpr
        (hread.resolve_left fun hne => hne hhead)
      refine ⟨_, constant_eq_some.mpr (Or.inr ⟨hhead, hall, rfl⟩), ?_⟩
      rw [plus_wrap, plus, heq]
      exact hwrap.mpr hlt
    · refine ⟨_, constant_eq_some.mpr (Or.inl ⟨hhead, rfl⟩), ?_⟩
      rw [plus_wrap, plus]
      exact hwrap.mpr hlt

end ShellArith
