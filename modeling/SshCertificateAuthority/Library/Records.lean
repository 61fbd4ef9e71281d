import Mathlib.Order.Basic
import Mathlib.Order.Lattice
import Mathlib.Order.MinMax
import Mathlib.Data.List.Pairwise
import Mathlib.Data.List.Induction

namespace Records

variable {A B : Type} [LinearOrder B] (key : A → B)

def maximaAfter (floor : B) (earlier : List A) : List A → List A
  | [] => []
  | a :: as =>
    if floor < key a ∧ ∀ b ∈ earlier, key b < key a then
      a :: maximaAfter floor (earlier ++ [a]) as
    else maximaAfter floor (earlier ++ [a]) as

def leftToRightMaxima (floor : B) (as : List A) : List A := maximaAfter key floor [] as

def sweep : B → List A → List A
  | _, [] => []
  | top, a :: as => if top < key a then a :: sweep (key a) as else sweep top as

def top (floor : B) (as : List A) : B := (as.map key).foldl max floor

@[simp] theorem top_nil (floor : B) : top key floor [] = floor := rfl

theorem top_concat (floor : B) (as : List A) (a : A) :
    top key floor (as ++ [a]) = max (top key floor as) (key a) := by
  simp [top, List.foldl_append]

theorem top_append (floor : B) (as bs : List A) :
    top key floor (as ++ bs) = top key (top key floor as) bs := by
  simp [top, List.foldl_append]

theorem top_lt_iff {floor x : B} {as : List A} :
    top key floor as < x ↔ floor < x ∧ ∀ b ∈ as, key b < x := by
  induction as using List.reverseRecOn with
  | nil => simp
  | append_singleton as a ih =>
    rw [top_concat, max_lt_iff, ih]
    simp only [List.mem_append, List.mem_singleton]
    grind

theorem maximaAfter_eq_sweep (floor : B) (earlier as : List A) :
    maximaAfter key floor earlier as = sweep key (top key floor earlier) as := by
  induction as generalizing earlier with
  | nil => rfl
  | cons a as ih =>
    simp only [maximaAfter, sweep, ih, top_concat, ← top_lt_iff]
    split
    · next h => rw [max_eq_right h.le]
    · next h => rw [max_eq_left (not_lt.mp h)]

theorem leftToRightMaxima_eq_sweep (floor : B) (as : List A) :
    leftToRightMaxima key floor as = sweep key floor as :=
  maximaAfter_eq_sweep key floor [] as

theorem sweep_append (t : B) (as bs : List A) :
    sweep key t (as ++ bs) = sweep key t as ++ sweep key (top key t as) bs := by
  induction as generalizing t with
  | nil => rfl
  | cons a as ih =>
    simp only [List.cons_append, sweep]
    split
    · next h => simp [ih, top, max_eq_right h.le]
    · next h => simp [ih, top, max_eq_left (not_lt.mp h)]

theorem lt_of_mem_sweep {t : B} {as : List A} {a : A} (h : a ∈ sweep key t as) : t < key a := by
  induction as generalizing t with
  | nil => simp [sweep] at h
  | cons b as ih =>
    simp only [sweep] at h
    split at h
    · next hb =>
      rcases List.mem_cons.mp h with rfl | h
      · exact hb
      · exact hb.trans (ih h)
    · exact ih h

theorem sweep_increasing (t : B) (as : List A) :
    (sweep key t as).Pairwise (fun a b => key a < key b) := by
  induction as generalizing t with
  | nil => exact .nil
  | cons a as ih =>
    simp only [sweep]
    split
    · exact List.pairwise_cons.mpr ⟨fun b hb => lt_of_mem_sweep key hb, ih _⟩
    · exact ih t

theorem top_sweep (t : B) (as : List A) : top key t (sweep key t as) = top key t as := by
  induction as generalizing t with
  | nil => rfl
  | cons a as ih =>
    simp only [sweep]
    split
    · next h =>
      have := ih (key a)
      simpa [top, max_eq_right h.le] using this
    · next h =>
      have := ih t
      simpa [top, max_eq_left (not_lt.mp h)] using this

end Records
