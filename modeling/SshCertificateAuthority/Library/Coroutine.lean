import Mathlib.Logic.Basic
import Mathlib.Tactic.Basic

inductive Coroutine (Q A S R : Type) where
  | ret (r : R)
  | ask (q : Q) (k : A → Coroutine Q A S R)
  | stop (site : S)

namespace Coroutine

variable {Q A S R T : Type}

def bind : Coroutine Q A S R → (R → Coroutine Q A S T) → Coroutine Q A S T
  | ret r, f => f r
  | ask q k, f => ask q fun a => bind (k a) f
  | stop site, _ => stop site

instance : Monad (Coroutine Q A S) where
  pure := ret
  bind := bind

@[simp] theorem pure_eq (r : R) : (pure r : Coroutine Q A S R) = ret r := rfl

@[simp] theorem ret_bind (r : R) (f : R → Coroutine Q A S T) : (ret r >>= f) = f r := rfl

@[simp] theorem ask_bind (q : Q) (k : A → Coroutine Q A S R) (f : R → Coroutine Q A S T) :
    (ask q k >>= f) = ask q fun a => k a >>= f := rfl

@[simp] theorem stop_bind (site : S) (f : R → Coroutine Q A S T) :
    (stop site >>= f) = stop site := rfl

theorem bind_bind {U : Type} (p : Coroutine Q A S R) (f : R → Coroutine Q A S T)
    (g : T → Coroutine Q A S U) : (p >>= f) >>= g = p >>= fun r => f r >>= g := by
  induction p with
  | ret r => rfl
  | ask q k ih => exact congrArg (ask q) (funext ih)
  | stop site => rfl

-- Every run whose answers meet `P` ends, if it ends, in `Post`, and stops at no site outside `E`.
def Safe (P : Q → A → Prop) (E : S → Prop) (Post : R → Prop) : Coroutine Q A S R → Prop
  | ret r => Post r
  | ask q k => ∀ a, P q a → Safe P E Post (k a)
  | stop site => E site

variable {P : Q → A → Prop} {E : S → Prop}

theorem safe_mono {Post Post' : R → Prop} {p : Coroutine Q A S R} (h : Safe P E Post p)
    (hpost : ∀ r, Post r → Post' r) : Safe P E Post' p := by
  induction p with
  | ret r => exact hpost r h
  | ask q k ih => exact fun a ha => ih a (h a ha)
  | stop site => exact h

theorem safe_bind {Post : T → Prop} {p : Coroutine Q A S R} {f : R → Coroutine Q A S T}
    (h : Safe P E (fun r => Safe P E Post (f r)) p) : Safe P E Post (p >>= f) := by
  induction p with
  | ret r => exact h
  | ask q k ih => exact fun a ha => ih a (h a ha)
  | stop site => exact h

-- Every run that ends is in `Post` with all it has asked, each question with its answer.
def Follows (Post : List (Q × A) → R → Prop) : List (Q × A) → Coroutine Q A S R → Prop
  | said, ret r => Post said r
  | said, ask q k => ∀ a, Follows Post (said ++ [(q, a)]) (k a)
  | _, stop _ => True

theorem follows_bind {Post : List (Q × A) → T → Prop} {said : List (Q × A)}
    {p : Coroutine Q A S R} {f : R → Coroutine Q A S T}
    (h : Follows (fun said r => Follows Post said (f r)) said p) :
    Follows Post said (p >>= f) := by
  induction p generalizing said with
  | ret r => exact h
  | ask q k ih => exact fun a => ih a (h a)
  | stop site => trivial

theorem follows_mono {Post Post' : List (Q × A) → R → Prop} {said : List (Q × A)}
    {p : Coroutine Q A S R} (h : Follows Post said p)
    (hpost : ∀ said r, Post said r → Post' said r) : Follows Post' said p := by
  induction p generalizing said with
  | ret r => exact hpost said r h
  | ask q k ih => exact fun a => ih a (h a)
  | stop site => trivial

def AsksAtMost : Nat → Coroutine Q A S R → Prop
  | _, ret _ => True
  | 0, ask _ _ => False
  | n + 1, ask _ k => ∀ a, AsksAtMost n (k a)
  | _, stop _ => True

theorem asksAtMost_mono {n m : Nat} {p : Coroutine Q A S R} (hle : n ≤ m) (h : AsksAtMost n p) :
    AsksAtMost m p := by
  induction p generalizing n m with
  | ret r => cases m <;> trivial
  | ask q k ih =>
    cases n with
    | zero => exact h.elim
    | succ n =>
      cases m with
      | zero => exact absurd hle (Nat.not_succ_le_zero n)
      | succ m => exact fun a => ih a (Nat.le_of_succ_le_succ hle) (h a)
  | stop site => cases m <;> trivial

theorem asksAtMost_bind {n m : Nat} {p : Coroutine Q A S R} {f : R → Coroutine Q A S T}
    (hp : AsksAtMost n p) (hf : ∀ r, AsksAtMost m (f r)) : AsksAtMost (n + m) (p >>= f) := by
  induction p generalizing n with
  | ret r =>
    rw [ret_bind]
    exact asksAtMost_mono (Nat.le_add_left m n) (hf r)
  | ask q k ih =>
    cases n with
    | zero => exact hp.elim
    | succ n =>
      rw [Nat.add_right_comm]
      exact fun a => ih a (hp a)
  | stop site =>
    cases n <;> cases m <;> trivial

end Coroutine
