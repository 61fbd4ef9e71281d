import Mathlib.Data.List.Basic
import Mathlib.Data.List.TakeWhile
import Mathlib.Logic.Function.Basic
import Mathlib.Order.Basic

namespace TicketQueue

variable {T : Type}

def ahead [DecidableEq T] (waiting : List T) (t : T) : List T := waiting.takeWhile (· ≠ t)

structure Orderly (waiting : List T) (ticket : T → Option Nat) (undrawn : T → Prop)
    (last top : Nat) : Prop where
  nodup : waiting.Nodup
  split : ∃ front back, waiting = front ++ back ∧ (∀ t ∈ front, ¬ undrawn t) ∧
    ∀ t ∈ back, ticket t = none
  ascending : (last :: waiting.filterMap ticket).Pairwise (· < ·)
  bounded : ∀ c ∈ last :: waiting.filterMap ticket, c ≤ top

variable {waiting : List T} {ticket ticket' : T → Option Nat} {undrawn undrawn' : T → Prop}
  {last top : Nat} {t : T}

theorem ahead_append [DecidableEq T] {before after : List T} (h : t ∉ before) :
    ahead (before ++ t :: after) t = before := by
  rw [ahead]
  rw [List.takeWhile_append_of_pos]
  · simp
  · intro u hu
    have hne : u ≠ t := fun he => h (he ▸ hu)
    simpa using hne

theorem filterMap_eq_nil_of_none {back : List T} (h : ∀ t ∈ back, ticket t = none) :
    back.filterMap ticket = [] := List.filterMap_eq_nil_iff.mpr h

theorem filterMap_draw [DecidableEq T] {before after : List T} (c : Nat) (hb : t ∉ before)
    (ha : t ∉ after) (hnone : ∀ u ∈ t :: after, ticket u = none) :
    (before ++ t :: after).filterMap (Function.update ticket t (some c)) =
      (before ++ t :: after).filterMap ticket ++ [c] := by
  have hold : ∀ u, u ≠ t → Function.update ticket t (some c) u = ticket u :=
    fun u hu => Function.update_of_ne hu _ _
  have hbefore : before.filterMap (Function.update ticket t (some c)) = before.filterMap ticket :=
    List.filterMap_congr fun u hu => hold u fun he => hb (he ▸ hu)
  have hafter : after.filterMap (Function.update ticket t (some c)) = after.filterMap ticket :=
    List.filterMap_congr fun u hu => hold u fun he => ha (he ▸ hu)
  have htail := filterMap_eq_nil_of_none hnone
  have hrest := filterMap_eq_nil_of_none fun u hu => hnone u (List.mem_cons_of_mem t hu)
  rw [List.filterMap_append, List.filterMap_append, htail, hbefore,
    List.filterMap_cons_some (Function.update_self t _ ticket), hafter, hrest, List.append_nil]

namespace Orderly

theorem congr (h : Orderly waiting ticket undrawn last top)
    (ht : ∀ u ∈ waiting, ticket' u = ticket u) (hu : ∀ u ∈ waiting, undrawn' u → undrawn u) :
    Orderly waiting ticket' undrawn' last top := by
  have hmap : waiting.filterMap ticket' = waiting.filterMap ticket := List.filterMap_congr ht
  obtain ⟨front, back, rfl, hfront, hback⟩ := h.split
  refine ⟨h.nodup, ⟨front, back, rfl, ?_, ?_⟩, hmap ▸ h.ascending, hmap ▸ h.bounded⟩
  · intro u hf hd
    exact hfront u hf (hu u (List.mem_append_left _ hf) hd)
  · intro u hb
    rw [ht u (List.mem_append_right _ hb), hback u hb]

theorem join (h : Orderly waiting ticket undrawn last top) (ht : t ∉ waiting)
    (hnone : ticket t = none) : Orderly (waiting ++ [t]) ticket undrawn last top := by
  have hmap : (waiting ++ [t]).filterMap ticket = waiting.filterMap ticket := by simp [hnone]
  obtain ⟨front, back, rfl, hfront, hback⟩ := h.split
  refine ⟨?_, ⟨front, back ++ [t], by simp, hfront, ?_⟩, hmap ▸ h.ascending, hmap ▸ h.bounded⟩
  · exact List.nodup_append.mpr ⟨h.nodup, by simp, fun a ha b hb => by
      obtain rfl : b = t := by simpa using hb
      exact fun he => ht (he ▸ ha)⟩
  · intro u hu
    rcases List.mem_append.mp hu with hu | hu
    · exact hback u hu
    · obtain rfl : u = t := by simpa using hu
      exact hnone

theorem draw [DecidableEq T] (h : Orderly waiting ticket undrawn last top) (ht : t ∈ waiting)
    (hd : undrawn t) (hturn : ∀ u ∈ ahead waiting t, ¬ undrawn u) :
    Orderly waiting (Function.update ticket t (some (top + 1))) (fun u => u ≠ t ∧ undrawn u) last
      (top + 1) := by
  obtain ⟨front, back, hsplit, hfront, hback⟩ := h.split
  have htb : t ∈ back := by
    rcases List.mem_append.mp (hsplit ▸ ht) with hf | hb
    · exact absurd hd (hfront t hf)
    · exact hb
  obtain ⟨before, after, rfl⟩ := List.append_of_mem htb
  rw [← List.append_assoc] at hsplit
  subst hsplit
  obtain ⟨hno, hnodup⟩ := List.nodup_cons.mp (List.perm_middle.nodup_iff.mp h.nodup)
  have hb : t ∉ front ++ before := fun hm => hno (List.mem_append_left _ hm)
  have ha : t ∉ after := fun hm => hno (List.mem_append_right _ hm)
  rw [ahead_append hb] at hturn
  have hnone : ∀ u ∈ t :: after, ticket u = none :=
    fun u hu => hback u (List.mem_append_right _ hu)
  have hmap := filterMap_draw (top + 1) hb ha hnone
  refine ⟨h.nodup, ⟨front ++ before ++ [t], after, by simp, ?_, ?_⟩, ?_, ?_⟩
  · intro u hu hdu
    rcases List.mem_append.mp hu with hu | hu
    · exact hturn u hu hdu.2
    · exact hdu.1 (by simpa using hu)
  · intro u hu
    have hne : u ≠ t := fun he => ha (he ▸ hu)
    rw [Function.update_of_ne hne]
    exact hnone u (List.mem_cons_of_mem _ hu)
  · rw [hmap, ← List.cons_append, List.pairwise_append]
    refine ⟨h.ascending, by simp, ?_⟩
    intro a ha' b hb'
    obtain rfl : b = top + 1 := by simpa using hb'
    exact Nat.lt_succ_of_le (h.bounded a ha')
  · rw [hmap, ← List.cons_append]
    intro c hc
    rcases List.mem_append.mp hc with hc | hc
    · exact (h.bounded c hc).trans (Nat.le_succ top)
    · exact (by simpa using hc : c = top + 1).le

theorem leave (h : Orderly (t :: waiting) ticket undrawn last top) :
    Orderly waiting ticket undrawn last top := by
  have hsub : (last :: waiting.filterMap ticket).Sublist
      (last :: (t :: waiting).filterMap ticket) :=
    (List.Sublist.filterMap ticket (List.sublist_cons_self t waiting)).cons_cons last
  refine ⟨h.nodup.of_cons, ?_, h.ascending.sublist hsub, fun c hc => h.bounded c (hsub.subset hc)⟩
  obtain ⟨front, back, hsplit, hfront, hback⟩ := h.split
  cases front with
  | nil =>
    refine ⟨[], waiting, rfl, by simp, fun u hu => hback u ?_⟩
    rw [List.nil_append] at hsplit
    exact hsplit ▸ List.mem_cons_of_mem t hu
  | cons u front =>
    obtain ⟨rfl, rfl⟩ := List.cons.inj hsplit
    exact ⟨front, back, rfl, fun v hv => hfront v (List.mem_cons_of_mem _ hv), hback⟩

theorem pass {c : Nat} (h : Orderly (t :: waiting) ticket undrawn last top)
    (hc : ticket t = some c) : last < c ∧ Orderly waiting ticket undrawn c top := by
  have hmap : (t :: waiting).filterMap ticket = c :: waiting.filterMap ticket :=
    List.filterMap_cons_some hc
  have hasc := hmap ▸ h.ascending
  have hbound := hmap ▸ h.bounded
  obtain ⟨hlast, htail⟩ := List.pairwise_cons.mp hasc
  refine ⟨hlast c (List.mem_cons_self), h.leave.nodup, h.leave.split, htail, ?_⟩
  exact fun d hd => hbound d (List.mem_cons_of_mem _ hd)

end Orderly
end TicketQueue
