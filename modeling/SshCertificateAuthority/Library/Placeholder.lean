import Mathlib.Logic.Basic
import Mathlib.Tactic.Basic
import Mathlib.Data.List.Basic

namespace Placeholder

-- A text with holes: `none` is where a placeholder stands.
abbrev Sym := Option Char
abbrev Text := List Sym

def fillSym (v : List Char) : Sym → List Char
  | none => v
  | some c => [c]

def render (v : List Char) (t : Text) : List Char := t.flatMap (fillSym v)

def literal (cs : List Char) : Text := cs.map some

def fill (v : List Char) (t : Text) : Text := literal (render v t)

variable (v w : List Char) (t u : Text)

@[simp] theorem render_nil : render v [] = [] := rfl

@[simp] theorem render_cons (a : Sym) : render v (a :: t) = fillSym v a ++ render v t := rfl

@[simp] theorem render_append : render v (t ++ u) = render v t ++ render v u :=
  List.flatMap_append

@[simp] theorem literal_nil : literal [] = [] := rfl

@[simp] theorem literal_cons (c : Char) (cs : List Char) :
    literal (c :: cs) = some c :: literal cs :=
  rfl

@[simp] theorem literal_append (as bs : List Char) :
    literal (as ++ bs) = literal as ++ literal bs :=
  List.map_append

@[simp] theorem render_literal (cs : List Char) : render v (literal cs) = cs := by
  induction cs with
  | nil => rfl
  | cons c cs ih => rw [literal_cons, render_cons, ih, fillSym, List.singleton_append]

@[simp] theorem fill_nil : fill v [] = [] := rfl

@[simp] theorem fill_append : fill v (t ++ u) = fill v t ++ fill v u := by
  rw [fill, render_append, literal_append, fill, fill]

@[simp] theorem fill_some (c : Char) : fill v [some c] = [some c] := rfl

@[simp] theorem fill_none : fill v [none] = literal v := by
  rw [fill, render_cons, render_nil, List.append_nil, fillSym]

@[simp] theorem fill_literal (cs : List Char) : fill v (literal cs) = literal cs := by
  rw [fill, render_literal]

@[simp] theorem render_fill : render w (fill v t) = render v t := by
  rw [fill, render_literal]

-- One line feed at the end goes, and then one carriage return.
def dropLineBreak (t : Text) : Text :=
  match t.reverse with
  | some '\n' :: some '\r' :: rest => rest.reverse
  | some '\n' :: rest => rest.reverse
  | some '\r' :: rest => rest.reverse
  | _ => t

theorem dropLineBreak_cases (h : t.getLast? ≠ some (some '\r')) :
    t = dropLineBreak t ++ [some '\r', some '\n'] ∨
      (t = dropLineBreak t ++ [some '\n'] ∧ (dropLineBreak t).getLast? ≠ some (some '\r')) ∨
      t = dropLineBreak t := by
  rw [dropLineBreak]
  split
  · next rest hrev =>
    left
    simpa using congrArg List.reverse hrev
  · next rest hcr hrev =>
    refine Or.inr (Or.inl ⟨by simpa using congrArg List.reverse hrev, fun hlast => ?_⟩)
    rw [List.getLast?_reverse] at hlast
    obtain ⟨rest', rfl⟩ := List.head?_eq_some_iff.mp hlast
    exact hcr rest' rfl
  · next rest hrev =>
    refine (h ?_).elim
    rw [List.getLast?_eq_head?_reverse, hrev, List.head?_cons]
  · exact Or.inr (Or.inr rfl)

def opener (cs : List Char) : Bool :=
  match cs with
  | '{' :: c :: _ => c = '{' || c = '%' || c = '#'
  | _ => false

-- `skip` counts the characters of a placeholder that are still to be passed over.
def scan (mark : List Char) : Nat → List Char → Option Text
  | _, [] => some []
  | skip + 1, _ :: cs => scan mark skip cs
  | 0, c :: cs =>
    if mark.isPrefixOf (c :: cs) then (scan mark (mark.length - 1) cs).map (none :: ·)
    else if opener (c :: cs) then none
    else (scan mark 0 cs).map (some c :: ·)

theorem render_scan {m : Char} {mark cs : List Char} {skip : Nat} {t : Text}
    (h : scan (m :: mark) skip cs = some t) : render (m :: mark) t = cs.drop skip := by
  induction cs generalizing skip t with
  | nil =>
    obtain rfl : [] = t := by simpa [scan] using h
    simp
  | cons c cs ih =>
    cases skip with
    | succ skip => simpa [scan] using ih (by simpa [scan] using h)
    | zero =>
      rw [scan] at h
      split at h
      · next hmark =>
        obtain ⟨t', ht', rfl⟩ := Option.map_eq_some_iff.mp h
        obtain ⟨rest, hrest⟩ := List.isPrefixOf_iff_prefix.mp hmark
        obtain ⟨rfl, rfl⟩ := List.cons.inj hrest
        have hdrop : (mark ++ rest).drop mark.length = rest := List.drop_left
        rw [render_cons, fillSym, ih ht', List.drop_zero]
        exact congrArg (m :: mark ++ ·) hdrop
      · split at h
        · simp at h
        · obtain ⟨t', ht', rfl⟩ := Option.map_eq_some_iff.mp h
          rw [render_cons, fillSym, ih ht']
          simp

end Placeholder
