import Mathlib.Data.List.Basic
import Mathlib.Data.List.Range
import Mathlib.Order.Basic

namespace WrappingCounter

def ticket (m i : Nat) : Option Nat := if i % m + 1 < m then some (i % m + 1) else none

def tickets (m n : Nat) : List (Option Nat) := (List.range n).map (ticket m)

def Increasing {A : Type} [LT A] (l : List (Option A)) : Prop :=
  (l.filterMap id).Pairwise (· < ·)

def FinalFailure {A : Type} (l : List (Option A)) : Prop :=
  ∀ before after, l = before ++ none :: after → ∀ d ∈ after, d = none

theorem increasing_map {A B : Type} [LT A] [LT B] {f : A → B} (hf : ∀ a b, a < b ↔ f a < f b)
    (l : List (Option A)) : Increasing (l.map (Option.map f)) ↔ Increasing l := by
  have hmap : (l.map (Option.map f)).filterMap id = (l.filterMap id).map f := by
    rw [List.filterMap_map, List.map_filterMap]
    rfl
  unfold Increasing
  rw [hmap, List.pairwise_map]
  simp only [hf]

theorem finalFailure_map {A B : Type} (f : A → B) (l : List (Option A)) :
    FinalFailure (l.map (Option.map f)) ↔ FinalFailure l := by
  constructor
  · intro h before after hl d hd
    have := h (before.map (Option.map f)) (after.map (Option.map f)) (by simp [hl])
      (d.map f) (List.mem_map_of_mem hd)
    simpa using this
  · intro h before after hl d hd
    obtain ⟨before', rest, rfl, rfl, hrest⟩ := List.map_eq_append_iff.mp hl
    obtain ⟨d', after', rfl, hd', rfl⟩ := List.map_eq_cons_iff.mp hrest
    obtain rfl : d' = none := by simpa using hd'
    obtain ⟨e, he, rfl⟩ := List.mem_map.mp hd
    rw [h before' after' rfl e he]
    rfl

theorem ticket_eq_some {m i c : Nat} (h : ticket m i = some c) : c = i % m + 1 ∧ c < m := by
  rw [ticket] at h
  split at h
  · next hlt =>
    obtain rfl := Option.some.inj h
    exact ⟨rfl, hlt⟩
  · simp at h

theorem ticket_eq_none {m i : Nat} (hi : i < m) : ticket m i = none ↔ i + 1 = m := by
  have hmod : i % m = i := Nat.mod_eq_of_lt hi
  rw [ticket]
  rw [hmod]
  split <;> simp <;> omega

theorem ticket_mod (m i : Nat) : ticket m (m + i) = ticket m i := by
  simp [ticket]

theorem tickets_add (m n k : Nat) :
    tickets m (n + k) = tickets m n ++ (List.range k).map fun i => ticket m (n + i) := by
  simp [tickets, List.range_add, Function.comp_def]

theorem tickets_increasing {m n : Nat} (h : n ≤ m) : Increasing (tickets m n) := by
  unfold Increasing tickets
  rw [List.filterMap_map, List.pairwise_filterMap]
  apply List.pairwise_lt_range.imp_of_mem
  intro i j hi hj hij a ha b hb
  have hn : j < m := (List.mem_range.mp hj).trans_le h
  have hi' := (ticket_eq_some ha).1
  have hj' := (ticket_eq_some hb).1
  rw [Nat.mod_eq_of_lt (hij.trans hn)] at hi'
  rw [Nat.mod_eq_of_lt hn] at hj'
  omega

theorem tickets_finalFailure {m n : Nat} (h : n ≤ m) : FinalFailure (tickets m n) := by
  intro before after hsplit d hd
  exfalso
  have hlen := congrArg List.length hsplit
  simp only [tickets, List.length_map, List.length_range, List.length_append,
    List.length_cons] at hlen
  have hpos : 0 < after.length := List.length_pos_of_mem hd
  have hat := congrArg (fun l => l[before.length]?) hsplit
  simp only [tickets, List.getElem?_map, List.getElem?_append_right (Nat.le_refl _), Nat.sub_self,
    List.getElem?_cons_zero, List.getElem?_range (by omega : before.length < n),
    Option.map_some, Option.some.injEq] at hat
  have := (ticket_eq_none (by omega : before.length < m)).mp hat
  omega

theorem tickets_repeat {m n : Nat} (hm : 2 ≤ m) (h : m < n) :
    ∃ between after, tickets m n = some 1 :: (between ++ some 1 :: after) := by
  have h0 : ticket m 0 = some 1 := by simp [ticket]; omega
  obtain ⟨k, rfl⟩ := Nat.exists_eq_add_of_lt h
  obtain ⟨j, rfl⟩ := Nat.exists_eq_add_of_le' (by omega : 1 ≤ m)
  refine ⟨(List.range j).map fun i => ticket (j + 1) (1 + i),
    (List.range k).map fun i => ticket (j + 1) (j + 1 + 1 + i), ?_⟩
  have hfirst : tickets (j + 1) 1 = [some 1] := by simp [tickets, h0]
  have hlast : ticket (j + 1) (j + 1 + 0) = some 1 := by rw [ticket_mod, h0]
  rw [show j + 1 + k + 1 = j + 1 + 1 + k by omega, tickets_add, tickets_add,
    show tickets (j + 1) (j + 1) = tickets (j + 1) (1 + j) by rw [Nat.add_comm], tickets_add,
    hfirst]
  simp [hlast]

theorem tickets_increasing_iff {m n : Nat} (hm : 2 ≤ m) :
    Increasing (tickets m n) ∧ FinalFailure (tickets m n) ↔ n ≤ m := by
  constructor
  · rintro ⟨hinc, -⟩
    by_contra h
    obtain ⟨between, after, hrep⟩ := tickets_repeat hm (Nat.not_le.mp h)
    rw [Increasing] at hinc
    rw [hrep, List.filterMap_cons_some (f := id) rfl, List.pairwise_cons] at hinc
    exact absurd (hinc.1 1 (by simp)) (Nat.lt_irrefl 1)
  · intro h
    exact ⟨tickets_increasing h, tickets_finalFailure h⟩

end WrappingCounter
