import Mathlib.Logic.Basic
import Mathlib.Tactic.Basic

inductive Outcome (A : Type) where
  | ok (a : A)
  | err (e : String)
  | panic (site : String)
deriving DecidableEq, Repr

namespace Outcome

variable {A B : Type}

def bind : Outcome A → (A → Outcome B) → Outcome B
  | .ok a, f => f a
  | .err e, _ => .err e
  | .panic s, _ => .panic s

instance : Monad Outcome where
  pure := .ok
  bind := bind

def ofExcept : Except String A → Outcome A
  | .ok a => .ok a
  | .error e => .err e

@[simp] theorem pure_eq (a : A) : (pure a : Outcome A) = .ok a := rfl

@[simp] theorem ok_bind (a : A) (f : A → Outcome B) : (Outcome.ok a >>= f) = f a := rfl

@[simp] theorem err_bind (e : String) (f : A → Outcome B) : (Outcome.err e >>= f) = .err e := rfl

@[simp] theorem panic_bind (s : String) (f : A → Outcome B) :
    (Outcome.panic s >>= f) = .panic s := rfl

theorem bind_eq_ok {x : Outcome A} {f : A → Outcome B} {b : B} (h : (x >>= f) = .ok b) :
    ∃ a, x = .ok a ∧ f a = .ok b := by
  cases x with
  | ok a => exact ⟨a, rfl, h⟩
  | err e => simp at h
  | panic s => simp at h

@[simp] theorem ofExcept_eq_ok {x : Except String A} {a : A} :
    ofExcept x = .ok a ↔ x = .ok a := by
  cases x <;> simp [ofExcept]

theorem ofExcept_ne_panic (x : Except String A) (s : String) : ofExcept x ≠ .panic s := by
  cases x <;> simp [ofExcept]

theorem bind_ne_panic {x : Outcome A} {f : A → Outcome B} {s : String}
    (hx : x ≠ .panic s) (hf : ∀ a, x = .ok a → f a ≠ .panic s) : (x >>= f) ≠ .panic s := by
  cases x with
  | ok a => exact hf a rfl
  | err e => simp
  | panic t => simpa using hx

def Panics (o : Outcome A) : Prop := ∃ site, o = .panic site

@[simp] theorem not_panics_ok (a : A) : ¬ (Outcome.ok a).Panics := by simp [Panics]

@[simp] theorem not_panics_err (e : String) : ¬ (Outcome.err e : Outcome A).Panics := by
  simp [Panics]

@[simp] theorem panics_panic (s : String) : (Outcome.panic s : Outcome A).Panics := ⟨s, rfl⟩

@[simp] theorem not_panics_ofExcept (x : Except String A) : ¬ (ofExcept x).Panics :=
  not_exists.mpr (ofExcept_ne_panic x)

theorem panics_bind {x : Outcome A} {f : A → Outcome B} :
    (x >>= f).Panics ↔ x.Panics ∨ ∃ a, x = .ok a ∧ (f a).Panics := by
  cases x with
  | ok a => simp
  | err e => simp
  | panic s => simp

theorem panics_ofExcept_bind {x : Except String A} {f : A → Outcome B} :
    (ofExcept x >>= f).Panics ↔ ∃ a, x = .ok a ∧ (f a).Panics := by
  simp [panics_bind]

end Outcome
