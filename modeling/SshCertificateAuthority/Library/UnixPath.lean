import Mathlib.Logic.Basic
import Mathlib.Tactic.Basic
import Mathlib.Data.List.Basic

namespace UnixPath

abbrev Name := List Char
abbrev Path := List Char
abbrev Location := List Name

inductive Component where
  | rootDir
  | curDir
  | parentDir
  | normal (name : Name)
deriving DecidableEq, Repr

def hasRoot (p : Path) : Bool := p.head? == some '/'

def segments (p : Path) : List Name := p.splitOn '/'

def push (base p : Path) : Path :=
  if hasRoot p then p
  else if base = [] ∨ base.getLast? = some '/' then base ++ p
  else base ++ '/' :: p

def segmentComponent (seg : Name) : Option Component :=
  if seg = [] ∨ seg = ['.'] then none
  else if seg = ['.', '.'] then some .parentDir
  else some (.normal seg)

def leading (p : Path) : List Component :=
  if hasRoot p then [.rootDir]
  else if (segments p).head? = some ['.'] then [.curDir]
  else []

def components (p : Path) : List Component :=
  leading p ++ (segments p).filterMap segmentComponent

def startsWith (p base : Path) : Bool := (components base).isPrefixOf (components p)

def fileName (p : Path) : Option Name :=
  match (components p).getLast? with
  | some (.normal n) => some n
  | _ => none

-- `rsplit_file_at_dot`: a leading dot does not start an extension.
def splitAtLastDot (name : Name) : Name × Option Name :=
  match name.reverse.dropWhile (· ≠ '.') with
  | [] => (name, none)
  | [_] => (name, none)
  | _ :: stem => (stem.reverse, some (name.reverse.takeWhile (· ≠ '.')).reverse)

def fileStem (p : Path) : Option Name :=
  (fileName p).map fun n => if n = ['.', '.'] then n else (splitAtLastDot n).1

-- What `next_back` skips at the end of a path.
def trimEnd (segs : List Name) : List Name :=
  (segs.reverse.dropWhile fun seg => seg = [] || seg = ['.']).reverse

-- The extension replaces what follows the stem of the last name, with anything behind that name.
def setExtension (p : Path) (ext : Name) : Path :=
  match fileStem p with
  | none => p
  | some stem => ['/'].intercalate ((trimEnd (segments p)).dropLast ++ [stem ++ '.' :: ext])

-- The text before the last component: a blank or `.` segment further up stays as it is written.
def parent (p : Path) : Option Path :=
  match (components p).getLast? with
  | none | some .rootDir => none
  | some .curDir => some []
  | some _ =>
    match trimEnd (trimEnd (segments p)).dropLast with
    | [] => some (if hasRoot p then ['/'] else if leading p = [.curDir] then ['.'] else [])
    | kept => some (['/'].intercalate kept)

structure ProperName (n : Name) : Prop where
  ne_nil : n ≠ []
  ne_dot : n ≠ ['.']
  ne_dotdot : n ≠ ['.', '.']
  no_slash : '/' ∉ n
  no_nul : '\x00' ∉ n

instance (n : Name) : Decidable (ProperName n) :=
  decidable_of_iff (n ≠ [] ∧ n ≠ ['.'] ∧ n ≠ ['.', '.'] ∧ '/' ∉ n ∧ '\x00' ∉ n)
    ⟨fun ⟨a, b, c, d, e⟩ => ⟨a, b, c, d, e⟩, fun h => ⟨h.1, h.2, h.3, h.4, h.5⟩⟩

theorem proper_nil : ∀ n ∈ ([] : Location), ProperName n := by simp

def ofLocation (loc : Location) : Path := '/' :: ['/'].intercalate loc

theorem hasRoot_iff {p : Path} : hasRoot p = true ↔ ∃ q, p = '/' :: q := by
  cases p with
  | nil => simp [hasRoot]
  | cons c p => simp [hasRoot]

theorem hasRoot_eq_false {p : Path} (h : '/' ∉ p) : hasRoot p = false := by
  apply Bool.eq_false_iff.mpr
  intro hroot
  obtain ⟨q, rfl⟩ := hasRoot_iff.mp hroot
  exact h List.mem_cons_self

@[simp] theorem hasRoot_ofLocation (loc : Location) : hasRoot (ofLocation loc) = true := rfl

theorem segments_cons_slash (p : Path) : segments ('/' :: p) = [] :: segments p := by
  simpa [segments] using List.splitOn_append_cons_self (a := '/') [] p

theorem segments_ne_nil (p : Path) : segments p ≠ [] := List.splitOn_ne_nil '/' p

theorem segments_append_slash (a b : Path) :
    segments (a ++ '/' :: b) = segments a ++ segments b := List.splitOn_append_cons_self a b

theorem segments_name {n : Name} (h : '/' ∉ n) : segments n = [n] := List.splitOn_eq_singleton h

theorem slash_not_mem_segment {p : Path} {seg : Name} (h : seg ∈ segments p) : '/' ∉ seg := by
  induction p generalizing seg with
  | nil =>
    obtain rfl : seg = [] := by simpa [segments] using h
    simp
  | cons c p ih =>
    by_cases hc : c = '/'
    · subst hc
      rw [segments_cons_slash] at h
      rcases List.mem_cons.mp h with rfl | h
      · simp
      · exact ih h
    · rw [segments, List.splitOn_cons_eq_if_modifyHead, if_neg (by simpa using hc)] at h
      cases hs : List.splitOn '/' p with
      | nil => simp [hs] at h
      | cons s ss =>
        rw [hs, List.modifyHead_cons] at h
        have hin : s ∈ segments p ∧ ∀ t ∈ ss, t ∈ segments p := by simp [segments, hs]; tauto
        rcases List.mem_cons.mp h with rfl | h
        · simpa [Ne.symm hc] using ih hin.1
        · exact ih (hin.2 seg h)

theorem mem_of_mem_segment {p : Path} {seg : Name} {c : Char} (h : seg ∈ segments p)
    (hc : c ∈ seg) : c ∈ p := by
  have hp : ['/'].intercalate (p.splitOn '/') = p := List.intercalate_splitOn '/'
  rw [← hp]
  obtain ⟨pre, post, hs⟩ := List.append_of_mem h
  simp only [segments] at hs
  rw [hs]
  clear hp hs h
  induction pre with
  | nil =>
    cases post with
    | nil => simpa using hc
    | cons q post => simp [hc]
  | cons q pre ih =>
    cases hpp : pre ++ seg :: post with
    | nil => simp at hpp
    | cons r rs =>
      rw [List.cons_append, hpp, List.intercalate_cons_cons, ← hpp]
      simp [ih]

theorem segments_ofLocation {loc : Location} (h : ∀ n ∈ loc, ProperName n) (hne : loc ≠ []) :
    segments (ofLocation loc) = [] :: loc := by
  rw [ofLocation, segments_cons_slash, segments,
    List.splitOn_intercalate '/' (fun l hl => (h l hl).no_slash) hne]

theorem segmentComponent_proper {n : Name} (h : ProperName n) :
    segmentComponent n = some (.normal n) := by
  simp [segmentComponent, h.ne_nil, h.ne_dot, h.ne_dotdot]

theorem components_ofLocation {loc : Location} (h : ∀ n ∈ loc, ProperName n) :
    components (ofLocation loc) = .rootDir :: loc.map .normal := by
  cases loc with
  | nil => rfl
  | cons n loc =>
    rw [components, segments_ofLocation h (by simp)]
    have hm : (n :: loc).filterMap segmentComponent = (n :: loc).map Component.normal := by
      rw [← List.filterMap_eq_map]
      exact List.filterMap_congr fun m hm => segmentComponent_proper (h m hm)
    simp only [leading, hasRoot_ofLocation, if_true, List.filterMap_cons, hm]
    rfl

theorem startsWith_ofLocation {a b : Location} (ha : ∀ n ∈ a, ProperName n)
    (hb : ∀ n ∈ b, ProperName n) : startsWith (ofLocation a) (ofLocation b) = true ↔ b <+: a := by
  rw [startsWith, components_ofLocation ha, components_ofLocation hb, List.isPrefixOf_iff_prefix,
    List.cons_prefix_cons, List.prefix_map_iff]
  constructor
  · rintro ⟨-, l, hl, he⟩
    rwa [List.map_injective_iff.mpr (fun _ _ h => Component.normal.inj h) he]
  · exact fun h => ⟨rfl, b, h, rfl⟩

theorem splitAtLastDot_cases (name : Name) :
    (splitAtLastDot name).1 = name ∨
      ∃ stem ext, stem ≠ [] ∧ name = stem ++ '.' :: ext ∧ (splitAtLastDot name).1 = stem := by
  have hjoin := List.takeWhile_append_dropWhile (p := (· ≠ '.')) (l := name.reverse)
  rw [splitAtLastDot]
  split
  · exact Or.inl rfl
  · exact Or.inl rfl
  · next c stem hne heq =>
    have hc : c = '.' := by
      have hhead := List.head?_dropWhile_not (· ≠ '.') name.reverse
      rw [heq] at hhead
      simpa using hhead
    refine Or.inr ⟨stem.reverse, (name.reverse.takeWhile (· ≠ '.')).reverse, ?_, ?_, rfl⟩
    · exact fun h => hne (List.reverse_eq_nil_iff.mp h)
    · rw [heq, hc] at hjoin
      simpa using (congrArg List.reverse hjoin).symm

theorem splitAtLastDot_append {stem ext : Name} (hstem : stem ≠ []) (hext : '.' ∉ ext) :
    splitAtLastDot (stem ++ '.' :: ext) = (stem, some ext) := by
  have hrev : (stem ++ '.' :: ext).reverse = ext.reverse ++ '.' :: stem.reverse := by simp
  have hplain : ∀ c ∈ ext.reverse, (decide (c ≠ '.')) = true := fun c hc => by
    simpa using fun h : c = '.' => hext (h ▸ List.mem_reverse.mp hc)
  obtain ⟨s, ss, hs⟩ := List.exists_cons_of_ne_nil (mt List.reverse_eq_nil_iff.mp hstem)
  have hdrop : (ext.reverse ++ '.' :: stem.reverse).dropWhile (· ≠ '.') = '.' :: s :: ss := by
    rw [List.dropWhile_append_of_pos hplain, List.dropWhile_cons_of_neg (by simp), hs]
  have htake : (ext.reverse ++ '.' :: stem.reverse).takeWhile (· ≠ '.') = ext.reverse := by
    rw [List.takeWhile_append_of_pos hplain, List.takeWhile_cons_of_neg (by simp), List.append_nil]
  have hback : (s :: ss).reverse = stem := by rw [← hs, List.reverse_reverse]
  rw [splitAtLastDot, hrev, hdrop, htake]
  simp only [List.reverse_reverse, hback]

theorem mem_components_normal {p : Path} {n : Name} (h : Component.normal n ∈ components p) :
    n ∈ segments p ∧ n ≠ [] := by
  rcases List.mem_append.mp h with h | h
  · rw [leading] at h
    split at h
    · simp at h
    · split at h <;> simp at h
  · obtain ⟨seg, hseg, heq⟩ := List.mem_filterMap.mp h
    rw [segmentComponent] at heq
    split at heq
    · simp at heq
    · next hne =>
      split at heq
      · simp at heq
      · obtain rfl : seg = n := by simpa using heq
        exact ⟨hseg, fun hn => hne (Or.inl hn)⟩

theorem fileName_eq_some {p : Path} {n : Name} (h : fileName p = some n) :
    n ∈ segments p ∧ n ≠ [] := by
  rw [fileName] at h
  split at h
  · next m hm =>
    obtain rfl := Option.some.inj h
    exact mem_components_normal (List.mem_of_getLast? hm)
  · simp at h

theorem fileStem_of_name {p : Path} {n stem : Name} (hn : fileName p = some n) (hne : n ≠ [])
    (h : fileStem p = some stem) : stem ≠ [] ∧ ∀ c ∈ stem, c ∈ n := by
  rw [fileStem, hn, Option.map_some] at h
  have hstem := Option.some.inj h
  split at hstem
  · exact hstem ▸ ⟨hne, fun c hc => hc⟩
  · rcases splitAtLastDot_cases n with hs | ⟨s, ext, hs, hjoin, heq⟩
    · exact hstem ▸ hs.symm ▸ ⟨hne, fun c hc => hc⟩
    · rw [← hstem, heq]
      exact ⟨hs, fun c hc => hjoin ▸ List.mem_append_left _ hc⟩

theorem fileStem_eq_some {p : Path} {stem : Name} (h : fileStem p = some stem) :
    stem ≠ [] ∧ '/' ∉ stem ∧ ∀ c ∈ stem, c ∈ p := by
  obtain ⟨n, hn, -⟩ := Option.map_eq_some_iff.mp h
  obtain ⟨hseg, hne⟩ := fileName_eq_some hn
  have hsub := fileStem_of_name hn hne h
  exact ⟨hsub.1, fun hc => slash_not_mem_segment hseg (hsub.2 _ hc),
    fun c hc => mem_of_mem_segment hseg (hsub.2 c hc)⟩

theorem fileStem_ofLocation {base : Location} {stem ext : Name}
    (h : ∀ n ∈ base ++ [stem ++ '.' :: ext], ProperName n) (hstem : stem ≠ []) (hext : '.' ∉ ext) :
    fileStem (ofLocation (base ++ [stem ++ '.' :: ext])) = some stem := by
  have hname : fileName (ofLocation (base ++ [stem ++ '.' :: ext])) =
      some (stem ++ '.' :: ext) := by
    rw [fileName, components_ofLocation h, List.map_append, List.map_singleton, ← List.cons_append,
      List.getLast?_concat]
  have hne := (h (stem ++ '.' :: ext) (by simp)).ne_dotdot
  rw [fileStem, hname, Option.map_some, if_neg hne, splitAtLastDot_append hstem hext]

theorem fileName_append_slash {dir : Path} {n : Name} (hne : n ≠ []) (hdot : n ≠ ['.'])
    (hdotdot : n ≠ ['.', '.']) (hslash : '/' ∉ n) : fileName (dir ++ '/' :: n) = some n := by
  have hseg : segments (dir ++ '/' :: n) = segments dir ++ [n] := by
    rw [segments_append_slash, segments_name hslash]
  have hn : segmentComponent n = some (.normal n) := by
    simp [segmentComponent, hne, hdot, hdotdot]
  rw [fileName, components, hseg, List.filterMap_append, List.filterMap_cons_some hn,
    List.filterMap_nil, ← List.append_assoc, List.getLast?_concat]

theorem intercalate_concat {base : Location} (hbase : base ≠ []) (n : Name) :
    ['/'].intercalate (base ++ [n]) = ['/'].intercalate base ++ '/' :: n := by
  induction base with
  | nil => exact absurd rfl hbase
  | cons m base ih =>
    cases base with
    | nil => simp [List.intercalate_cons_cons]
    | cons m' base =>
      have hcons := ih (List.cons_ne_nil m' base)
      rw [List.cons_append] at hcons ⊢
      rw [List.cons_append, List.intercalate_cons_cons, hcons, List.intercalate_cons_cons]
      simp

theorem ofLocation_concat (base : Location) (n : Name) :
    ∃ dir, ofLocation (base ++ [n]) = dir ++ '/' :: n := by
  by_cases hbase : base = []
  · exact ⟨[], by simp [hbase, ofLocation]⟩
  · exact ⟨'/' :: ['/'].intercalate base, by rw [ofLocation, intercalate_concat hbase]; rfl⟩

theorem push_ofLocation {base : Location} {n : Name} (hbase : ∀ m ∈ base, ProperName m)
    (hn : '/' ∉ n) : push (ofLocation base) n = ofLocation (base ++ [n]) := by
  rw [push, hasRoot_eq_false hn]
  rcases List.eq_nil_or_concat' base with rfl | ⟨init, m, rfl⟩
  · simp [ofLocation]
  · have hm := hbase m (by simp)
    have hlast : (ofLocation (init ++ [m])).getLast? ≠ some '/' := by
      obtain ⟨c, cs, hcs⟩ := List.exists_cons_of_ne_nil hm.ne_nil
      intro h
      have hsplit : ofLocation (init ++ [m]) = ('/' :: ['/'].intercalate init) ++ '/' :: m ∨
          ofLocation (init ++ [m]) = ['/'] ++ m := by
        by_cases hinit : init = []
        · exact Or.inr (by simp [hinit, ofLocation])
        · exact Or.inl (by rw [ofLocation, intercalate_concat hinit, List.cons_append])
      have hmem : '/' ∈ m := by
        rcases hsplit with hs | hs
        · rw [hs, List.getLast?_append_cons, hcs, List.getLast?_cons_cons] at h
          exact hcs ▸ List.mem_of_getLast? h
        · rw [hs, hcs, List.getLast?_append_cons] at h
          exact hcs ▸ List.mem_of_getLast? h
      exact hm.no_slash hmem
    have hne : ofLocation (init ++ [m]) ≠ [] := List.cons_ne_nil _ _
    simp only [Bool.false_eq_true, if_false, hlast, hne, or_self]
    have hinit : init ++ [m] ≠ [] := by simp
    rw [ofLocation, ofLocation, intercalate_concat hinit, List.cons_append]

theorem leading_append_slash {a : Path} (ha : a ≠ []) (b : Path) :
    leading (a ++ '/' :: b) = leading a := by
  obtain ⟨c, cs, rfl⟩ := List.exists_cons_of_ne_nil ha
  obtain ⟨s, ss, hs⟩ := List.exists_cons_of_ne_nil (segments_ne_nil (c :: cs))
  rw [leading, leading, segments_append_slash, hs]
  rfl

theorem components_append_slash {a : Path} (ha : a ≠ []) (b : Path) :
    components (a ++ '/' :: b) = components a ++ (segments b).filterMap segmentComponent := by
  rw [components, components, leading_append_slash ha, segments_append_slash,
    List.filterMap_append, List.append_assoc]

theorem components_cons_slash (b : Path) :
    components ('/' :: b) = .rootDir :: (segments b).filterMap segmentComponent := by
  rw [components, segments_cons_slash, leading, if_pos (hasRoot_iff.mpr ⟨b, rfl⟩)]
  rfl

theorem components_name {n : Name} (hn : ProperName n) : components n = [.normal n] := by
  rw [components, leading, hasRoot_eq_false hn.no_slash, segments_name hn.no_slash]
  simp [segmentComponent_proper hn, hn.ne_dot]

theorem push_cases {n : Name} (hn : '/' ∉ n) (dir : Path) :
    (dir = [] ∧ push dir n = n) ∨ (∃ d, dir = d ++ ['/'] ∧ push dir n = d ++ '/' :: n) ∨
      (dir ≠ [] ∧ push dir n = dir ++ '/' :: n) := by
  rw [push, hasRoot_eq_false hn, if_neg (by simp)]
  by_cases hdir : dir = []
  · subst hdir
    exact Or.inl ⟨rfl, rfl⟩
  · by_cases hlast : dir.getLast? = some '/'
    · obtain ⟨d, rfl⟩ := List.getLast?_eq_some_iff.mp hlast
      exact Or.inr (Or.inl ⟨d, rfl, by simp⟩)
    · exact Or.inr (Or.inr ⟨hdir, if_neg (not_or.mpr ⟨hdir, hlast⟩)⟩)

theorem components_push {n : Name} (hn : ProperName n) (dir : Path) :
    components (push dir n) = components dir ++ [.normal n] := by
  have hseg : (segments n).filterMap segmentComponent = [.normal n] := by
    rw [segments_name hn.no_slash, List.filterMap_cons_some (segmentComponent_proper hn),
      List.filterMap_nil]
  rcases push_cases hn.no_slash dir with ⟨rfl, hp⟩ | ⟨d, rfl, hp⟩ | ⟨hne, hp⟩
  · rw [hp, components_name hn]
    rfl
  · rw [hp]
    cases d with
    | nil => rw [List.nil_append, List.nil_append, components_cons_slash, hseg]; rfl
    | cons c cs =>
      rw [components_append_slash (List.cons_ne_nil c cs), hseg,
        components_append_slash (List.cons_ne_nil c cs)]
      simp [segments, segmentComponent]
  · rw [hp, components_append_slash hne, hseg]

theorem fileStem_push {stem ext : Name} (hn : ProperName (stem ++ '.' :: ext)) (hstem : stem ≠ [])
    (hext : '.' ∉ ext) (dir : Path) : fileStem (push dir (stem ++ '.' :: ext)) = some stem := by
  rw [fileStem, fileName, components_push hn, List.getLast?_concat, Option.map_some,
    if_neg hn.ne_dotdot, splitAtLastDot_append hstem hext]

theorem hasRoot_push {dir : Path} (hdir : hasRoot dir = true) (p : Path) :
    hasRoot (push dir p) = true := by
  obtain ⟨q, rfl⟩ := hasRoot_iff.mp hdir
  rw [push]
  split
  · next hp => exact hp
  · split <;> rfl

theorem push_ne_self {dir p : Path} (hdir : dir ≠ []) (hp : hasRoot p = false) :
    push dir p ≠ p := by
  have hlen := List.length_pos_iff.mpr hdir
  intro h
  rw [push, hp, if_neg (by simp)] at h
  split at h
  · have hlength := congrArg List.length h
    rw [List.length_append] at hlength
    omega
  · have hlength := congrArg List.length h
    rw [List.length_append, List.length_cons] at hlength
    omega

theorem push_nil (p : Path) : push [] p = p := by simp [push]

theorem trimEnd_front (segs : List Name) : trimEnd segs <+: segs := by
  have h := List.dropWhile_suffix (fun seg => seg = [] || seg = ['.']) (l := segs.reverse)
  simpa [trimEnd] using List.reverse_prefix.mpr h

theorem trimEnd_ne_blank (segs : List Name) : trimEnd segs ≠ [[]] := by
  intro h
  have hhead := List.head?_dropWhile_not (fun seg => seg = [] || seg = ['.']) segs.reverse
  rw [trimEnd, List.reverse_eq_iff] at h
  rw [h] at hhead
  simp at hhead

theorem segmentComponent_ne_curDir (seg : Name) : segmentComponent seg ≠ some .curDir := by
  rw [segmentComponent]
  split
  · simp
  · split <;> simp

theorem hasRoot_parent {p dir : Path} (hp : hasRoot p = true) (h : parent p = some dir) :
    hasRoot dir = true := by
  obtain ⟨q, rfl⟩ := hasRoot_iff.mp hp
  rw [parent] at h
  split at h
  · simp at h
  · simp at h
  · next hcur =>
    rw [components_cons_slash] at hcur
    rcases List.mem_cons.mp (List.mem_of_getLast? hcur) with hroot | hmem
    · simp at hroot
    · obtain ⟨seg, -, hseg⟩ := List.mem_filterMap.mp hmem
      exact (segmentComponent_ne_curDir seg hseg).elim
  · split at h
    · simp only [hp, if_true, Option.some.injEq] at h
      exact h ▸ rfl
    · next kept hne =>
      obtain rfl := Option.some.inj h
      have hblank := trimEnd_ne_blank (trimEnd (segments ('/' :: q))).dropLast
      have hfront := ((trimEnd_front (trimEnd (segments ('/' :: q))).dropLast).trans
        (List.dropLast_prefix _)).trans (trimEnd_front (segments ('/' :: q)))
      rw [segments_cons_slash] at hfront hne hblank ⊢
      revert hfront hne hblank
      cases trimEnd (trimEnd ([] :: segments q)).dropLast with
      | nil => exact fun hne => (hne rfl).elim
      | cons seg kept =>
        intro _ hblank hfront
        obtain ⟨rfl, -⟩ := List.cons_prefix_cons.mp hfront
        cases kept with
        | nil => exact (hblank rfl).elim
        | cons seg kept =>
          rw [List.intercalate_cons_cons]
          rfl

end UnixPath
