import Mathlib.Data.List.Basic

namespace Delimited

variable {A : Type} [DecidableEq A] {sep : A}

def splitAtFirst (sep : A) : List A → Option (List A × List A)
  | [] => none
  | a :: as => if a = sep then some ([], as) else (splitAtFirst sep as).map fun s => (a :: s.1, s.2)

def splitAtLast (sep : A) (as : List A) : Option (List A × List A) :=
  (splitAtFirst sep as.reverse).map fun s => (s.2.reverse, s.1.reverse)

theorem splitAtFirst_append {as : List A} (h : sep ∉ as) (bs : List A) :
    splitAtFirst sep (as ++ sep :: bs) = some (as, bs) := by
  induction as with
  | nil => rw [List.nil_append, splitAtFirst, if_pos rfl]
  | cons a as ih =>
    obtain ⟨ha, has⟩ := List.ne_and_not_mem_of_not_mem_cons h
    rw [List.cons_append, splitAtFirst, if_neg (Ne.symm ha), ih has, Option.map_some]

theorem splitAtLast_append (as : List A) {bs : List A} (h : sep ∉ bs) :
    splitAtLast sep (as ++ sep :: bs) = some (as, bs) := by
  have hreverse : (as ++ sep :: bs).reverse = bs.reverse ++ sep :: as.reverse := by simp
  rw [splitAtLast, hreverse, splitAtFirst_append (mt List.mem_reverse.mp h), Option.map_some,
    List.reverse_reverse, List.reverse_reverse]

end Delimited
