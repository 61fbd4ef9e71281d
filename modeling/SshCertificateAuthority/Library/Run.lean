import Mathlib.Logic.Basic
import Mathlib.Tactic.Basic
import Mathlib.Data.Option.Basic
import Mathlib.Data.List.Induction

namespace Run

variable {S A : Type} (step : S → A → Option S)

def run : S → List A → Option S
  | s, [] => some s
  | s, a :: as => (step s a).bind fun t => run t as

def Along (C : S → A → Prop) : S → List A → Prop
  | _, [] => True
  | s, a :: as => C s a ∧ ∀ t, step s a = some t → Along C t as

@[simp] theorem run_nil (s : S) : run step s [] = some s := rfl

theorem run_cons_eq_some {s t : S} {a : A} {as : List A} :
    run step s (a :: as) = some t ↔ ∃ u, step s a = some u ∧ run step u as = some t := by
  simp [run, Option.bind_eq_some_iff]

theorem run_append (s : S) (as bs : List A) :
    run step s (as ++ bs) = (run step s as).bind fun t => run step t bs := by
  induction as generalizing s with
  | nil => rfl
  | cons a as ih =>
    simp only [List.cons_append, run]
    cases step s a with
    | none => rfl
    | some u => exact ih u

theorem run_append_eq_some {s t : S} {as bs : List A} :
    run step s (as ++ bs) = some t ↔ ∃ u, run step s as = some u ∧ run step u bs = some t := by
  rw [run_append, Option.bind_eq_some_iff]

theorem along_append {C : S → A → Prop} {s : S} {as bs : List A} (ha : Along step C s as)
    (hb : ∀ t, run step s as = some t → Along step C t bs) : Along step C s (as ++ bs) := by
  induction as generalizing s with
  | nil => exact hb s rfl
  | cons a as ih =>
    refine ⟨ha.1, fun t ht => ih (ha.2 t ht) fun u hu => hb u ?_⟩
    exact (run_cons_eq_some step).mpr ⟨t, ht, hu⟩

variable {step}

theorem run_appended {s t u : S} {as bs : List A} (ha : run step s as = some t)
    (hb : run step t bs = some u) : run step s (as ++ bs) = some u :=
  (run_append_eq_some step).mpr ⟨t, ha, hb⟩

theorem invariant_along {C : S → A → Prop} {I : S → Prop}
    (hstep : ∀ s a t, I s → C s a → step s a = some t → I t)
    {s t : S} {as : List A} (hs : I s) (hc : Along step C s as) (h : run step s as = some t) :
    I t := by
  induction as generalizing s with
  | nil =>
    simp only [run_nil, Option.some.injEq] at h
    exact h ▸ hs
  | cons a as ih =>
    obtain ⟨u, hu, ht⟩ := (run_cons_eq_some step).mp h
    exact ih (hstep s a u hs hc.1 hu) (hc.2 u hu) ht

theorem along_of_forall {C : S → A → Prop} {as : List A} (h : ∀ s, ∀ a ∈ as, C s a) (s : S) :
    Along step C s as := by
  induction as generalizing s with
  | nil => trivial
  | cons a as ih =>
    refine ⟨h s a List.mem_cons_self, fun t _ => ih (fun u b hb => ?_) t⟩
    exact h u b (List.mem_cons_of_mem a hb)

theorem along_of_prefix {C : S → A → Prop} {s : S} {as : List A}
    (h : ∀ before a after t, as = before ++ a :: after → run step s before = some t → C t a) :
    Along step C s as := by
  induction as generalizing s with
  | nil => trivial
  | cons a as ih =>
    refine ⟨h [] a as s rfl rfl, fun u hu => ih ?_⟩
    rintro before b after t rfl ht
    exact h (a :: before) b after t rfl ((run_cons_eq_some step).mpr ⟨u, hu, ht⟩)

theorem along_congr {C D E : S → A → Prop} {s : S} {as : List A} (hc : Along step C s as)
    (h : ∀ s a, C s a → (D s a ↔ E s a)) : Along step D s as ↔ Along step E s as := by
  induction as generalizing s with
  | nil => exact Iff.rfl
  | cons a as ih =>
    exact and_congr (h s a hc.1) (forall_congr' fun t => imp_congr_right fun ht => ih (hc.2 t ht))

theorem invariant_history {I : List A → S → Prop} {s : S} (hs : I [] s)
    (hstep : ∀ as u a t, I as u → step u a = some t → I (as ++ [a]) t)
    {t : S} {as : List A} (h : run step s as = some t) : I as t := by
  induction as using List.reverseRecOn generalizing t with
  | nil =>
    simp only [run_nil, Option.some.injEq] at h
    exact h ▸ hs
  | append_singleton as a ih =>
    obtain ⟨u, hu, ha⟩ := (run_append_eq_some step).mp h
    obtain ⟨v, hv, hrest⟩ := (run_cons_eq_some step).mp ha
    obtain rfl : v = t := by simpa using hrest
    exact hstep as u a v (ih hu) hv

theorem length_le_of_measure {C : S → A → Prop} {I : S → Prop} {m : S → Nat}
    (hstep : ∀ s a t, I s → C s a → step s a = some t → I t ∧ m t < m s)
    {s t : S} {as : List A} (hs : I s) (hc : Along step C s as) (h : run step s as = some t) :
    as.length + m t ≤ m s := by
  induction as generalizing s with
  | nil =>
    simp only [run_nil, Option.some.injEq] at h
    rw [h]
    simp
  | cons a as ih =>
    obtain ⟨u, hu, ht⟩ := (run_cons_eq_some step).mp h
    obtain ⟨hi, hlt⟩ := hstep s a u hs hc.1 hu
    have hrest := ih hi (hc.2 u hu) ht
    rw [List.length_cons]
    omega

theorem invariant {I : S → Prop} (hstep : ∀ s a t, I s → step s a = some t → I t)
    {s t : S} {as : List A} (hs : I s) (h : run step s as = some t) : I t :=
  invariant_along (C := fun _ _ => True) (fun s a t hi _ => hstep s a t hi) hs
    (along_of_forall (fun _ _ _ => trivial) s) h

theorem simulated {T B : Type} {other : T → B → Option T} {R : S → T → Prop}
    (hstep : ∀ s a s' t, R s t → step s a = some s' → ∃ bs t', run other t bs = some t' ∧ R s' t')
    {s s' : S} {t : T} {as : List A} (hr : R s t) (h : run step s as = some s') :
    ∃ bs t', run other t bs = some t' ∧ R s' t' := by
  induction as generalizing s t with
  | nil =>
    simp only [run_nil, Option.some.injEq] at h
    exact ⟨[], t, rfl, h ▸ hr⟩
  | cons a as ih =>
    obtain ⟨u, hu, hrest⟩ := (run_cons_eq_some step).mp h
    obtain ⟨bs, v, hv, hruv⟩ := hstep s a u t hr hu
    obtain ⟨cs, t', ht', hr'⟩ := ih hruv hrest
    exact ⟨bs ++ cs, t', run_appended hv ht', hr'⟩

end Run
