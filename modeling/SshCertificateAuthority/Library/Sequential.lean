import SshCertificateAuthority.Library.Outcome
import Mathlib.Data.List.Forall2

namespace Sequential

variable {S I O : Type} (op : S → I → Outcome (S × O))

def replay : S → List I → Outcome (S × List O)
  | s, [] => .ok (s, [])
  | s, i :: is => do
    let r ← op s i
    let rest ← replay r.1 is
    pure (rest.1, r.2 :: rest.2)

variable {op}

theorem replay_cons_of_ok {s t : S} {i : I} {o : O} (h : op s i = .ok (t, o)) (is : List I) :
    replay op s (i :: is) = (replay op t is >>= fun rest => pure (rest.1, o :: rest.2)) := by
  rw [replay, h]
  rfl

theorem replay_cons_eq_ok {s u : S} {i : I} {is : List I} {os : List O} :
    replay op s (i :: is) = .ok (u, os) ↔
      ∃ t o rest, op s i = .ok (t, o) ∧ replay op t is = .ok (u, rest) ∧ os = o :: rest := by
  constructor
  · intro h
    obtain ⟨r, hr, h⟩ := Outcome.bind_eq_ok h
    obtain ⟨rest, hrest, h⟩ := Outcome.bind_eq_ok h
    obtain ⟨rfl, rfl⟩ := Prod.mk.inj (Outcome.ok.inj h)
    exact ⟨r.1, r.2, rest.2, hr, hrest, rfl⟩
  · rintro ⟨t, o, rest, hop, hrest, rfl⟩
    rw [replay_cons_of_ok hop, hrest]
    rfl

theorem replay_append {s t : S} {is : List I} {os : List O} (h : replay op s is = .ok (t, os))
    (js : List I) :
    replay op s (is ++ js) = (replay op t js >>= fun rest => pure (rest.1, os ++ rest.2)) := by
  induction is generalizing s os with
  | nil =>
    obtain ⟨rfl, rfl⟩ := Prod.mk.inj (Outcome.ok.inj h)
    cases hjs : replay op s js <;> simp [hjs]
  | cons i is ih =>
    obtain ⟨u, o, rest, hop, hrest, rfl⟩ := replay_cons_eq_ok.mp h
    rw [List.cons_append, replay_cons_of_ok hop, ih hrest]
    cases replay op t js <;> rfl

theorem replay_concat {s t u : S} {is : List I} {os : List O} {i : I} {o : O}
    (h : replay op s is = .ok (t, os)) (hi : op t i = .ok (u, o)) :
    replay op s (is ++ [i]) = .ok (u, os ++ [o]) := by
  rw [replay_append h, replay_cons_of_ok hi]
  rfl

theorem replay_invariant {P : S → Prop} (hstep : ∀ s i t o, P s → op s i = .ok (t, o) → P t)
    {s t : S} {is : List I} {os : List O} (hs : P s) (h : replay op s is = .ok (t, os)) : P t := by
  induction is generalizing s os with
  | nil =>
    obtain ⟨rfl, -⟩ := Prod.mk.inj (Outcome.ok.inj h)
    exact hs
  | cons i is ih =>
    obtain ⟨u, o, rest, hop, hrest, -⟩ := replay_cons_eq_ok.mp h
    exact ih (hstep s i u o hs hop) hrest

theorem replay_answers {P : S → Prop} {Q : I → O → Prop}
    (hstep : ∀ s i t o, P s → op s i = .ok (t, o) → P t ∧ Q i o) {s t : S} {is : List I}
    {os : List O} (hs : P s) (h : replay op s is = .ok (t, os)) : List.Forall₂ Q is os := by
  induction is generalizing s os with
  | nil =>
    obtain ⟨-, rfl⟩ := Prod.mk.inj (Outcome.ok.inj h)
    exact .nil
  | cons i is ih =>
    obtain ⟨u, o, rest, hop, hrest, rfl⟩ := replay_cons_eq_ok.mp h
    obtain ⟨hu, hanswer⟩ := hstep s i u o hs hop
    exact .cons hanswer (ih hu hrest)

def answersTo (keep : I → Bool) : List I → List O → List O
  | i :: is, o :: os => if keep i then o :: answersTo keep is os else answersTo keep is os
  | _, _ => []

-- Inputs that leave the state alone can be left out: the others are answered as before.
theorem replay_filter {P : S → Prop} {keep : I → Bool} {is : List I}
    (hstep : ∀ s i t o, P s → op s i = .ok (t, o) → P t)
    (hskip : ∀ s, P s → ∀ i ∈ is, keep i = false → ∃ o, op s i = .ok (s, o)) {s : S} (hs : P s) :
    replay op s (is.filter keep) =
      (replay op s is >>= fun r => pure (r.1, answersTo keep is r.2)) := by
  induction is generalizing s with
  | nil => rfl
  | cons i is ih =>
    have hlater : ∀ s, P s → ∀ j ∈ is, keep j = false → ∃ o, op s j = .ok (s, o) :=
      fun s hs j hj => hskip s hs j (List.mem_cons_of_mem i hj)
    have ih := fun {s : S} (hs : P s) => ih hlater hs
    cases hkeep : keep i with
    | false =>
      obtain ⟨o, ho⟩ := hskip s hs i List.mem_cons_self hkeep
      rw [List.filter_cons_of_neg (by simp [hkeep]), ih hs, replay_cons_of_ok ho]
      cases replay op s is <;> simp [answersTo, hkeep]
    | true =>
      rw [List.filter_cons_of_pos hkeep]
      cases hop : op s i with
      | ok r =>
        obtain ⟨t, o⟩ := r
        rw [replay_cons_of_ok hop, replay_cons_of_ok hop, ih (hstep s i t o hs hop)]
        cases replay op t is <;> simp [answersTo, hkeep]
      | err e => rw [replay, replay, hop, Outcome.err_bind, Outcome.err_bind, Outcome.err_bind]
      | panic site =>
        rw [replay, replay, hop, Outcome.panic_bind, Outcome.panic_bind, Outcome.panic_bind]

end Sequential
