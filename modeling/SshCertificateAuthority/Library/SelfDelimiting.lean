import SshCertificateAuthority.Library.Delimited

variable {A B C : Type}

def SelfDelimiting (print : A → List C) : Prop :=
  ∀ a b x y, print a ++ x = print b ++ y → a = b ∧ x = y

namespace SelfDelimiting

theorem of_read {print : A → List C} (read : List C → Option (A × List C))
    (h : ∀ a x, read (print a ++ x) = some (a, x)) : SelfDelimiting print := by
  intro a b x y heq
  have hread : some (a, x) = some (b, y) := by rw [← h a x, heq, h b y]
  exact Prod.mk.inj (Option.some.inj hread)

theorem of_peek {print : A → List C} (peek : List C → Option A)
    (h : ∀ a x, peek (print a ++ x) = some a) : SelfDelimiting print := by
  intro a b x y heq
  obtain rfl : a = b := Option.some.inj (by rw [← h a x, heq, h b y])
  exact ⟨rfl, List.append_cancel_left heq⟩

theorem flatMap_front {code : A → List C} (h : SelfDelimiting code) (hne : ∀ a, code a ≠ [])
    {as bs : List A} {x : List C} (heq : as.flatMap code ++ x = bs.flatMap code) : as <+: bs := by
  induction as generalizing bs with
  | nil => exact List.nil_prefix
  | cons a as ih =>
    cases bs with
    | nil => simp [hne a] at heq
    | cons b bs =>
      simp only [List.flatMap_cons, List.append_assoc] at heq
      obtain ⟨rfl, hrest⟩ := h _ _ _ _ heq
      exact List.cons_prefix_cons.mpr ⟨rfl, ih hrest⟩

theorem terminated {code : A → List C} {stop : C} (h : SelfDelimiting code)
    (hstop : ∀ a x y, code a ++ x ≠ stop :: y) :
    SelfDelimiting fun as : List A => as.flatMap code ++ [stop] := by
  intro as
  induction as with
  | nil =>
    intro bs x y heq
    cases bs with
    | nil => exact ⟨rfl, by simpa using heq⟩
    | cons b bs =>
      simp only [List.flatMap_cons, List.append_assoc, List.flatMap_nil, List.nil_append,
        List.singleton_append] at heq
      exact absurd heq.symm (hstop b _ x)
  | cons a as ih =>
    intro bs x y heq
    cases bs with
    | nil =>
      simp only [List.flatMap_cons, List.append_assoc, List.flatMap_nil, List.nil_append,
        List.singleton_append] at heq
      exact absurd heq (hstop a _ y)
    | cons b bs =>
      simp only [List.flatMap_cons, List.append_assoc] at heq
      obtain ⟨rfl, hrest⟩ := h _ _ _ _ heq
      obtain ⟨rfl, hxy⟩ := ih bs x y (by simpa only [List.append_assoc] using hrest)
      exact ⟨rfl, hxy⟩

theorem separated [DecidableEq C] {print : A → List C} {stop : C}
    (hinj : ∀ a b, print a = print b → a = b) (hno : ∀ a, stop ∉ print a) :
    SelfDelimiting fun a => print a ++ [stop] := by
  intro a b x y heq
  simp only [List.append_assoc, List.singleton_append] at heq
  have hsplit := Delimited.splitAtFirst_append (hno a) x
  rw [heq, Delimited.splitAtFirst_append (hno b) y] at hsplit
  obtain ⟨hprint, rfl⟩ := Prod.mk.inj (Option.some.inj hsplit)
  exact ⟨(hinj b a hprint).symm, rfl⟩

end SelfDelimiting
