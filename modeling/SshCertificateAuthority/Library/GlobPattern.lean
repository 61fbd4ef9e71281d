import SshCertificateAuthority.Library.UnixPath
import Mathlib.Data.List.Infix

namespace GlobPattern
open UnixPath

inductive Specifier where
  | single (c : Char)
  | range (low high : Char)
deriving DecidableEq, Repr

inductive Token where
  | char (c : Char)
  | anyChar
  | anySequence
  | anyWithin (specifiers : List Specifier)
  | anyExcept (specifiers : List Specifier)
deriving DecidableEq, Repr

inductive Part where
  | recursive
  | name (tokens : List Token)
deriving DecidableEq, Repr

def parseSpecifiers : List Char → List Specifier
  | low :: '-' :: high :: cs => .range low high :: parseSpecifiers cs
  | c :: cs => .single c :: parseSpecifiers cs
  | [] => []

-- What stands between the brackets and what follows them; the first character may be a `]`.
def bracketed : List Char → Option (List Char × List Char)
  | [] => none
  | c :: cs =>
    match cs.dropWhile (· ≠ ']') with
    | [] => none
    | _ :: rest => some (c :: cs.takeWhile (· ≠ ']'), rest)

def parseTokens : Nat → List Char → Option (List Token)
  | _, [] => some []
  | 0, _ => none
  | _ + 1, '*' :: '*' :: _ => none
  | fuel + 1, '*' :: cs => (parseTokens fuel cs).map (.anySequence :: ·)
  | fuel + 1, '?' :: cs => (parseTokens fuel cs).map (.anyChar :: ·)
  | fuel + 1, '[' :: '!' :: cs =>
    (bracketed cs).bind fun b =>
      (parseTokens fuel b.2).map (.anyExcept (parseSpecifiers b.1) :: ·)
  | fuel + 1, '[' :: cs =>
    (bracketed cs).bind fun b =>
      (parseTokens fuel b.2).map (.anyWithin (parseSpecifiers b.1) :: ·)
  | fuel + 1, c :: cs => (parseTokens fuel cs).map (.char c :: ·)

def parsePart (n : Name) : Option Part :=
  if n = ['*', '*'] then some .recursive else (parseTokens n.length n).map .name

def compile (pattern : Path) : Option (List Part) :=
  ((segments pattern).filter (· ≠ [])).mapM parsePart

def Specifier.admits (c : Char) : Specifier → Bool
  | .single d => c = d
  | .range low high => low ≤ c && c ≤ high

def matchTokens : List Token → List Char → Bool
  | [], cs => cs.isEmpty
  | .anySequence :: ts, cs => cs.tails.any (matchTokens ts)
  | _ :: _, [] => false
  | .char d :: ts, c :: cs => c = d && matchTokens ts cs
  | .anyChar :: ts, _ :: cs => matchTokens ts cs
  | .anyWithin ss :: ts, c :: cs => ss.any (Specifier.admits c) && matchTokens ts cs
  | .anyExcept ss :: ts, c :: cs => !ss.any (Specifier.admits c) && matchTokens ts cs

-- A name that is no text matches no tokens, but a recursive part goes through it.
def matchParts (isText : Name → Bool) : List Part → List Name → Bool
  | [], ns => ns.isEmpty
  | .recursive :: ps, ns => ns.tails.any (matchParts isText ps)
  | .name _ :: _, [] => false
  | .name ts :: ps, n :: ns => isText n && matchTokens ts n && matchParts isText ps ns

def plain (c : Char) : Bool := c ≠ '?' && c ≠ '*' && c ≠ '['

theorem parseTokens_plain {cs : List Char} (h : ∀ c ∈ cs, plain c = true) {fuel : Nat}
    (hfuel : cs.length ≤ fuel) : parseTokens fuel cs = some (cs.map .char) := by
  induction cs generalizing fuel with
  | nil => cases fuel <;> rfl
  | cons c cs ih =>
    obtain ⟨hc, hcs⟩ := List.forall_mem_cons.mp h
    cases fuel with
    | zero => simp at hfuel
    | succ fuel =>
      have hrest := ih hcs (Nat.le_of_succ_le_succ hfuel)
      simp only [plain, Bool.and_eq_true, decide_eq_true_eq] at hc
      obtain ⟨⟨hquestion, hstar⟩, hbracket⟩ := hc
      have hstep : parseTokens (fuel + 1) (c :: cs) =
          (parseTokens fuel cs).map (Token.char c :: ·) := by
        rw [parseTokens]
        all_goals simp_all
      rw [hstep, hrest, Option.map_some, List.map_cons]

theorem parsePart_plain {n : Name} (h : ∀ c ∈ n, plain c = true) :
    parsePart n = some (.name (n.map .char)) := by
  have hstars : n ≠ ['*', '*'] := by
    rintro rfl
    exact absurd (h '*' List.mem_cons_self) (by decide)
  rw [parsePart, if_neg hstars, parseTokens_plain h (Nat.le_refl _), Option.map_some]

theorem matchTokens_chars {cs ds : List Char} :
    matchTokens (cs.map .char) ds = true ↔ ds = cs := by
  induction cs generalizing ds with
  | nil => simp [matchTokens]
  | cons c cs ih =>
    cases ds with
    | nil => simp [matchTokens]
    | cons d ds => simp [matchTokens, ih]

theorem any_tails {A : Type} {p : List A → Bool} {xs : List A} :
    xs.tails.any p = true ↔ ∃ skipped rest, xs = skipped ++ rest ∧ p rest = true := by
  rw [List.any_eq_true]
  constructor
  · rintro ⟨rest, hmem, hrest⟩
    obtain ⟨skipped, rfl⟩ := (List.mem_tails rest xs).mp hmem
    exact ⟨skipped, rest, rfl, hrest⟩
  · rintro ⟨skipped, rest, rfl, hrest⟩
    exact ⟨rest, (List.mem_tails rest _).mpr (List.suffix_append _ _), hrest⟩

theorem matchTokens_anySequence {ts : List Token} {cs : List Char} :
    matchTokens (.anySequence :: ts) cs = true ↔
      ∃ skipped rest, cs = skipped ++ rest ∧ matchTokens ts rest = true := by
  rw [matchTokens, any_tails]

variable {isText : Name → Bool}

theorem matchParts_recursive {ps : List Part} {ns : List Name} :
    matchParts isText (.recursive :: ps) ns = true ↔
      ∃ skipped rest, ns = skipped ++ rest ∧ matchParts isText ps rest = true := by
  rw [matchParts, any_tails]

theorem matchParts_single {ts : List Token} {ns : List Name} :
    matchParts isText [.name ts] ns = true ↔
      ∃ n, ns = [n] ∧ isText n = true ∧ matchTokens ts n = true := by
  cases ns with
  | nil => simp [matchParts]
  | cons n ns => simp [matchParts, and_comm]

theorem matchParts_append {ps qs : List Part} {ns : List Name} :
    matchParts isText (ps ++ qs) ns = true ↔
      ∃ before after, ns = before ++ after ∧ matchParts isText ps before = true ∧
        matchParts isText qs after = true := by
  induction ps generalizing ns with
  | nil => simp [matchParts]
  | cons p ps ih =>
    cases p with
    | recursive =>
      simp only [List.cons_append, matchParts_recursive, ih]
      constructor
      · rintro ⟨skipped, _, rfl, before, after, rfl, hb, ha⟩
        exact ⟨skipped ++ before, after, (List.append_assoc ..).symm, ⟨_, _, rfl, hb⟩, ha⟩
      · rintro ⟨_, after, rfl, ⟨skipped, before, rfl, hb⟩, ha⟩
        exact ⟨skipped, _, List.append_assoc .., before, after, rfl, hb, ha⟩
    | name ts =>
      cases ns with
      | nil => simp [matchParts]
      | cons n ns =>
        simp only [List.cons_append, matchParts, Bool.and_eq_true, ih]
        constructor
        · rintro ⟨hn, before, after, rfl, hb, ha⟩
          exact ⟨n :: before, after, rfl, by simp [matchParts, hn, hb], ha⟩
        · rintro ⟨before, after, hns, hb, ha⟩
          cases before with
          | nil => simp [matchParts] at hb
          | cons m before =>
            obtain ⟨rfl, rfl⟩ := List.cons.inj hns
            simp only [matchParts, Bool.and_eq_true] at hb
            exact ⟨hb.1, before, after, rfl, hb.2, ha⟩

theorem matchParts_chars {base ns : List Name} :
    matchParts isText (base.map fun n => .name (n.map .char)) ns = true ↔
      ns = base ∧ ∀ n ∈ base, isText n = true := by
  induction base generalizing ns with
  | nil => simp [matchParts]
  | cons b base ih =>
    cases ns with
    | nil => simp [matchParts]
    | cons n ns =>
      simp only [List.map_cons, matchParts, matchTokens_chars, Bool.and_eq_true, ih,
        List.cons.injEq, List.forall_mem_cons]
      constructor
      · rintro ⟨⟨hn, rfl⟩, rfl, hbase⟩
        exact ⟨⟨rfl, rfl⟩, hn, hbase⟩
      · rintro ⟨⟨rfl, rfl⟩, hn, hbase⟩
        exact ⟨⟨hn, rfl⟩, rfl, hbase⟩

def suffixTokens (suffix : List Char) : List Token := .anySequence :: suffix.map .char

theorem matchTokens_suffix {suffix cs : List Char} :
    matchTokens (suffixTokens suffix) cs = true ↔ ∃ stem, cs = stem ++ suffix := by
  rw [suffixTokens, matchTokens_anySequence]
  simp [matchTokens_chars]

theorem matchParts_below {ps : List Part} {ns : List Name} {suffix : List Char} :
    matchParts isText (ps ++ [.recursive, .name (suffixTokens suffix)]) ns = true ↔
      ∃ before sub stem, ns = before ++ sub ++ [stem ++ suffix] ∧ isText (stem ++ suffix) = true ∧
        matchParts isText ps before = true := by
  simp only [matchParts_append, matchParts_recursive, matchParts_single, matchTokens_suffix]
  constructor
  · rintro ⟨before, _, rfl, hb, sub, _, rfl, _, rfl, htext, stem, rfl⟩
    exact ⟨before, sub, stem, (List.append_assoc ..).symm, htext, hb⟩
  · rintro ⟨before, sub, stem, rfl, htext, hb⟩
    exact ⟨before, _, List.append_assoc .., hb, sub, _, rfl, _, rfl, htext, stem, rfl⟩

end GlobPattern
