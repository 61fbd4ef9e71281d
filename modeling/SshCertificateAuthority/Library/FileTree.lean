import SshCertificateAuthority.Library.ByteStream
import SshCertificateAuthority.Library.UnixPath

namespace FileTree
open UnixPath ByteStream

inductive Node where
  | file (content : Bytes)
  | symlink (target : Path)
  | dir (entries : List (Name × Node))

inductive IoError where
  | notFound
  | notADirectory
  | isADirectory
  | tooManyLinks
  | nulInPath
  | invalidUtf8
deriving DecidableEq, Repr

namespace Node

def get? : Node → Location → Option Node
  | n, [] => some n
  | .dir entries, c :: cs => (entries.lookup c).bind fun n => n.get? cs
  | .file _, _ :: _ => none
  | .symlink _, _ :: _ => none

def isDir : Node → Bool
  | .dir _ => true
  | _ => false

def isSymlink : Node → Bool
  | .symlink _ => true
  | _ => false

theorem get?_append (n : Node) (a b : Location) :
    n.get? (a ++ b) = (n.get? a).bind fun m => m.get? b := by
  induction a generalizing n with
  | nil => cases n <;> simp [get?]
  | cons c cs ih =>
    cases n with
    | file _ => rfl
    | symlink _ => rfl
    | dir entries =>
      simp only [List.cons_append, get?]
      cases entries.lookup c with
      | none => rfl
      | some m => exact ih m

theorem get?_singleton {entries : List (Name × Node)} {c : Name} :
    (Node.dir entries).get? [c] = entries.lookup c := by
  simp only [get?]
  cases h : entries.lookup c with
  | none => rfl
  | some m => cases m <;> rfl

theorem get?_child {root : Node} {loc : Location} {entries : List (Name × Node)}
    (h : root.get? loc = some (.dir entries)) (n : Name) :
    root.get? (loc ++ [n]) = entries.lookup n := by
  rw [get?_append, h, Option.bind_some, get?_singleton]

theorem get?_cons_isDir {n m : Node} {c : Name} {cs : Location} (h : n.get? (c :: cs) = some m) :
    n.isDir = true := by
  cases n <;> simp [get?, isDir] at h ⊢

mutual

def locations : Node → List Location
  | .dir entries => [] :: entryLocations entries
  | .file _ => [[]]
  | .symlink _ => [[]]

def entryLocations : List (Name × Node) → List Location
  | [] => []
  | (c, n) :: entries => n.locations.map (c :: ·) ++ entryLocations entries

end

theorem mem_entryLocations {entries : List (Name × Node)} {c : Name} {n : Node} {cs : Location}
    (hl : entries.lookup c = some n) (hn : cs ∈ n.locations) :
    c :: cs ∈ entryLocations entries := by
  induction entries with
  | nil => simp at hl
  | cons e entries ih =>
    obtain ⟨d, m⟩ := e
    rw [entryLocations, List.mem_append]
    rw [List.lookup_cons] at hl
    by_cases hc : c = d
    · subst hc
      obtain rfl : m = n := by simpa using hl
      exact Or.inl (List.mem_map_of_mem hn)
    · exact Or.inr (ih (by simpa [beq_eq_false_iff_ne.mpr hc] using hl))

theorem mem_locations {root n : Node} {loc : Location} (h : root.get? loc = some n) :
    loc ∈ root.locations := by
  induction loc generalizing root with
  | nil => cases root <;> simp [locations]
  | cons c cs ih =>
    cases root with
    | file _ => simp [get?] at h
    | symlink _ => simp [get?] at h
    | dir entries =>
      simp only [get?, Option.bind_eq_some_iff] at h
      obtain ⟨m, hm, hn⟩ := h
      rw [locations]
      exact List.mem_cons_of_mem _ (mem_entryLocations hm (ih hn))

def linkFree (root : Node) : Prop := ∀ loc target, root.get? loc ≠ some (.symlink target)

theorem linkFree_lookup {root : Node} (h : root.linkFree) {loc : Location}
    {entries : List (Name × Node)} (hd : root.get? loc = some (.dir entries)) (n : Name)
    (target : Path) : entries.lookup n ≠ some (.symlink target) := by
  rw [← get?_child hd]
  exact h (loc ++ [n]) target

theorem linkFree_of_all {root : Node}
    (h : (root.locations.all fun loc => !(root.get? loc).any isSymlink) = true) :
    root.linkFree := by
  intro loc target hloc
  have hno := List.all_eq_true.mp h loc (mem_locations hloc)
  simp [hloc, isSymlink] at hno

end Node

structure FileSystem where
  root : Node
  cwd : Location
  maxLinks : Nat
  -- the characters that stand for bytes which are no UTF-8
  stray : Char → Bool := fun _ => false
  cwd_isDir : (root.get? cwd).any Node.isDir = true
  cwd_proper : ∀ n ∈ cwd, ProperName n
  stray_ascii : ∀ c, c.toNat < 128 → stray c = false := by exact fun _ _ => rfl

inductive Walk where
  | arrived (loc : Location)
  | failed (e : IoError)
  | link (cur : Location) (target : Path) (rest : List Name)

def walk (root : Node) : Location → List Name → Walk
  | cur, [] => .arrived cur
  | cur, seg :: rest =>
    match root.get? cur with
    | none => .failed .notFound
    | some (.dir entries) =>
      if seg = [] ∨ seg = ['.'] then walk root cur rest
      else if seg = ['.', '.'] then walk root cur.dropLast rest
      else
        match entries.lookup seg with
        | none => .failed .notFound
        | some (.symlink target) => .link cur target rest
        | some _ => walk root (cur ++ [seg]) rest
    | some _ => .failed .notADirectory

def resolve (root : Node) : Nat → Location → List Name → Except IoError Location
  | links, cur, segs =>
    match walk root cur segs with
    | .arrived loc => .ok loc
    | .failed e => .error e
    | .link cur target rest =>
      match links with
      | 0 => .error .tooManyLinks
      | links + 1 =>
        -- symlink(2) stores neither an empty target nor one with a NUL
        if target = [] ∨ '\x00' ∈ target then .error .notFound
        else resolve root links (if hasRoot target then [] else cur) (segments target ++ rest)

namespace FileSystem

variable (fs : FileSystem)

def start (p : Path) : Location := if hasRoot p then [] else fs.cwd

def canonicalize (p : Path) : Except IoError Location :=
  if p = [] then .error .notFound
  else if '\x00' ∈ p then .error .nulInPath
  else resolve fs.root fs.maxLinks (fs.start p) (segments p)

def isText (p : Path) : Bool := p.all fun c => !fs.stray c

def pathExists (p : Path) : Bool := (fs.canonicalize p).toOption.isSome

def read (p : Path) : Except IoError Bytes :=
  match fs.canonicalize p with
  | .error e => .error e
  | .ok loc =>
    match fs.root.get? loc with
    | some (.file content) => .ok content
    | some (.dir _) => .error .isADirectory
    | _ => .error .notFound

end FileSystem

structure Real (root : Node) (loc : Location) : Prop where
  present : ∃ n, root.get? loc = some n ∧ n.isSymlink = false
  proper : ∀ n ∈ loc, ProperName n

theorem Real.get_prefix {root : Node} {a b : Location} (h : Real root (a ++ b)) (hb : b ≠ []) :
    ∃ entries, root.get? a = some (.dir entries) := by
  obtain ⟨n, hn, -⟩ := h.present
  rw [Node.get?_append, Option.bind_eq_some_iff] at hn
  obtain ⟨m, hm, hmn⟩ := hn
  obtain ⟨c, cs, rfl⟩ := List.exists_cons_of_ne_nil hb
  have hd := Node.get?_cons_isDir hmn
  cases m with
  | dir entries => exact ⟨entries, hm⟩
  | file _ => simp [Node.isDir] at hd
  | symlink _ => simp [Node.isDir] at hd

theorem Real.of_prefix {root : Node} {a b : Location} (h : Real root (a ++ b)) : Real root a := by
  refine ⟨?_, fun n hn => h.proper n (List.mem_append_left _ hn)⟩
  by_cases hb : b = []
  · subst hb
    simpa using h.present
  · obtain ⟨entries, he⟩ := h.get_prefix hb
    exact ⟨_, he, rfl⟩

theorem Real.dropLast {root : Node} {loc : Location} (h : Real root loc) :
    Real root loc.dropLast := by
  rcases List.eq_nil_or_concat' loc with rfl | ⟨a, n, rfl⟩
  · exact h
  · rw [List.dropLast_concat]
    exact h.of_prefix

theorem Real.child {root : Node} {loc : Location} {entries : List (Name × Node)} {seg : Name}
    {n : Node} (h : Real root loc) (hd : root.get? loc = some (.dir entries))
    (hl : entries.lookup seg = some n) (hn : n.isSymlink = false) (hs : ProperName seg) :
    Real root (loc ++ [seg]) := by
  refine ⟨⟨n, ?_, hn⟩, ?_⟩
  · rw [Node.get?_child hd, hl]
  · intro m hm
    rcases List.mem_append.mp hm with hm | hm
    · exact h.proper m hm
    · exact List.mem_singleton.mp hm ▸ hs

def Clean (segs : List Name) : Prop := ∀ s ∈ segs, '/' ∉ s ∧ '\x00' ∉ s

theorem clean_segments {p : Path} (h : '\x00' ∉ p) : Clean (segments p) := fun _ hs =>
  ⟨slash_not_mem_segment hs, fun hc => h (mem_of_mem_segment hs hc)⟩

inductive WalkSpec (root : Node) : Walk → Prop where
  | arrived {loc} : Real root loc → WalkSpec root (.arrived loc)
  | failed {e} : WalkSpec root (.failed e)
  | link {cur target rest} : Real root cur → Clean rest → WalkSpec root (.link cur target rest)

theorem walk_spec {root : Node} {cur : Location} {segs : List Name} (h : Real root cur)
    (hs : Clean segs) : WalkSpec root (walk root cur segs) := by
  induction segs generalizing cur with
  | nil => exact .arrived h
  | cons seg rest ih =>
    have hrest : Clean rest := fun s hm => hs s (List.mem_cons_of_mem _ hm)
    rw [walk]
    split
    · exact .failed
    · next entries hd =>
      split
      · exact ih h hrest
      · next h1 =>
        split
        · exact ih h.dropLast hrest
        · next h2 =>
          obtain ⟨hslash, hnul⟩ := hs seg (by simp)
          obtain ⟨hne, hdot⟩ := not_or.mp h1
          split
          · exact .failed
          · exact .link h hrest
          · next n hsym hl =>
            refine ih (h.child hd hl ?_ ⟨hne, hdot, h2, hslash, hnul⟩) hrest
            cases n with
            | symlink t => exact (hsym t rfl).elim
            | file _ => rfl
            | dir _ => rfl
    · exact .failed

theorem resolve_real {root : Node} {links : Nat} {cur loc : Location} {segs : List Name}
    (h : Real root cur) (hroot : Real root []) (hs : Clean segs)
    (hr : resolve root links cur segs = .ok loc) : Real root loc := by
  induction links generalizing cur segs with
  | zero =>
    rw [resolve] at hr
    have hw := walk_spec h hs
    cases hw' : walk root cur segs with
    | arrived l =>
      rw [hw'] at hw hr
      cases hw with
      | arrived hl => exact Except.ok.inj hr ▸ hl
    | failed e => simp [hw'] at hr
    | link c t rest => simp [hw'] at hr
  | succ links ih =>
    rw [resolve] at hr
    have hw := walk_spec h hs
    cases hw' : walk root cur segs with
    | arrived l =>
      rw [hw'] at hw hr
      cases hw with
      | arrived hl => exact Except.ok.inj hr ▸ hl
    | failed e => simp [hw'] at hr
    | link c t rest =>
      rw [hw'] at hw hr
      cases hw with
      | link hc hrest =>
        simp only at hr
        split at hr
        · simp at hr
        · next ht =>
          refine ih ?_ ?_ hr
          · split
            · exact hroot
            · exact hc
          · intro s hm
            rcases List.mem_append.mp hm with hm | hm
            · exact clean_segments (not_or.mp ht).2 s hm
            · exact hrest s hm

theorem walk_real {root : Node} {a b : Location} (h : Real root (a ++ b)) :
    walk root a b = .arrived (a ++ b) := by
  induction b generalizing a with
  | nil => simp [walk]
  | cons n rest ih =>
    obtain ⟨entries, hd⟩ := h.get_prefix (by simp)
    have hn := h.proper n (by simp)
    have h' : Real root (a ++ [n] ++ rest) := by simpa using h
    obtain ⟨m, hm, hsym⟩ := h'.of_prefix.present
    rw [Node.get?_child hd] at hm
    rw [walk, hd]
    simp only [hn.ne_nil, hn.ne_dot, hn.ne_dotdot, or_self, if_false, hm]
    cases m with
    | symlink t => simp [Node.isSymlink] at hsym
    | file c => simpa using ih h'
    | dir es => simpa using ih h'

theorem walk_blank {root : Node} (hroot : root.isDir = true) (segs : List Name) :
    walk root [] ([] :: segs) = walk root [] segs := by
  cases root with
  | file _ => simp [Node.isDir] at hroot
  | symlink _ => simp [Node.isDir] at hroot
  | dir entries => simp [walk, Node.get?]

theorem walk_ofLocation {root : Node} (hroot : root.isDir = true) {loc : Location}
    (h : ∀ n ∈ loc, ProperName n) :
    walk root [] (segments (ofLocation loc)) = walk root [] loc := by
  by_cases hl : loc = []
  · subst hl
    change walk root [] ([] :: [[]]) = _
    rw [walk_blank hroot, walk_blank hroot]
  · rw [segments_ofLocation h hl, walk_blank hroot]

theorem walk_linkFree {root : Node} (hfree : root.linkFree) {segs : List Name}
    (hs : ∀ s ∈ segs, ProperName s) {cur : Location} :
    walk root cur segs = .arrived (cur ++ segs) ∨ ∃ e, walk root cur segs = .failed e := by
  induction segs generalizing cur with
  | nil => exact Or.inl (by rw [walk, List.append_nil])
  | cons seg rest ih =>
    obtain ⟨hseg, hrest⟩ := List.forall_mem_cons.mp hs
    rw [walk]
    split
    · exact Or.inr ⟨_, rfl⟩
    · next entries hd =>
      rw [if_neg (not_or.mpr ⟨hseg.ne_nil, hseg.ne_dot⟩), if_neg hseg.ne_dotdot]
      split
      · exact Or.inr ⟨_, rfl⟩
      · next target hl => exact (Node.linkFree_lookup hfree hd seg target hl).elim
      · simpa using @ih hrest (cur ++ [seg])
    · exact Or.inr ⟨_, rfl⟩

theorem walk_ne_link {root : Node} (hfree : root.linkFree) (segs : List Name) {cur at_ : Location}
    {target : Path} {rest : List Name} : walk root cur segs ≠ .link at_ target rest := by
  induction segs generalizing cur with
  | nil => simp [walk]
  | cons seg segs ih =>
    rw [walk]
    split
    · simp
    · next entries hd =>
      split
      · exact ih
      · split
        · exact ih
        · split
          · simp
          · next t hl => exact (Node.linkFree_lookup hfree hd seg t hl).elim
          · exact ih
    · simp

theorem walk_append {root : Node} {as bs : List Name} {cur loc : Location} :
    walk root cur (as ++ bs) = .arrived loc ↔
      ∃ mid, walk root cur as = .arrived mid ∧ walk root mid bs = .arrived loc := by
  induction as generalizing cur with
  | nil => simp [walk]
  | cons seg as ih =>
    rw [List.cons_append, walk, walk]
    split
    · simp
    · split
      · exact ih
      · split
        · exact ih
        · split
          · simp
          · simp
          · exact ih
    · simp

theorem walk_name {root : Node} {cur loc : Location} {n : Name} (hn : ProperName n)
    (h : walk root cur [n] = .arrived loc) :
    (∃ entries, root.get? cur = some (.dir entries)) ∧ loc = cur ++ [n] := by
  rw [walk] at h
  split at h
  · simp at h
  · next entries hd =>
    rw [if_neg (not_or.mpr ⟨hn.ne_nil, hn.ne_dot⟩), if_neg hn.ne_dotdot] at h
    refine ⟨⟨entries, hd⟩, ?_⟩
    split at h
    · simp at h
    · simp at h
    · simpa [walk, eq_comm] using h
  · simp at h

namespace FileSystem

variable {fs : FileSystem}

theorem root_isDir (fs : FileSystem) : fs.root.isDir = true := by
  have h := fs.cwd_isDir
  rw [Option.any_eq_true] at h
  obtain ⟨n, hn, hd⟩ := h
  cases hc : fs.cwd with
  | nil =>
    rw [hc] at hn
    obtain rfl : fs.root = n := by cases hr : fs.root <;> simpa [hr, Node.get?] using hn
    exact hd
  | cons c cs => exact Node.get?_cons_isDir (hc ▸ hn)

theorem real_root (fs : FileSystem) : Real fs.root [] := by
  refine ⟨⟨fs.root, by cases fs.root <;> rfl, ?_⟩, by simp⟩
  have := fs.root_isDir
  cases hr : fs.root <;> simp [hr, Node.isDir, Node.isSymlink] at this ⊢

theorem real_start (fs : FileSystem) (p : Path) : Real fs.root (fs.start p) := by
  rw [start]
  split
  · exact fs.real_root
  · have h := fs.cwd_isDir
    rw [Option.any_eq_true] at h
    obtain ⟨n, hn, hd⟩ := h
    refine ⟨⟨n, hn, ?_⟩, fs.cwd_proper⟩
    cases n <;> simp [Node.isDir, Node.isSymlink] at hd ⊢

theorem canonicalize_real {p : Path} {loc : Location} (h : fs.canonicalize p = .ok loc) :
    Real fs.root loc := by
  rw [canonicalize] at h
  split at h
  · simp at h
  · split at h
    · simp at h
    · next hn => exact resolve_real (fs.real_start p) fs.real_root (clean_segments hn) h

theorem nul_not_mem_of_canonicalize {p : Path} {loc : Location} (h : fs.canonicalize p = .ok loc) :
    '\x00' ∉ p := by
  rw [canonicalize] at h
  split at h
  · simp at h
  · split at h
    · simp at h
    · next hn => exact hn

theorem nul_not_mem_ofLocation {loc : Location} (h : ∀ n ∈ loc, ProperName n) :
    '\x00' ∉ ofLocation loc := by
  have hi : '\x00' ∉ ['/'].intercalate loc := by
    induction loc with
    | nil => simp
    | cons n loc ih =>
      have hn := (h n (by simp)).no_nul
      cases loc with
      | nil => simpa using hn
      | cons m loc =>
        rw [List.intercalate_cons_cons]
        have := ih (fun k hk => h k (List.mem_cons_of_mem _ hk))
        simp [hn, this]
  simp [ofLocation, hi]

theorem canonicalize_ofLocation {loc : Location} (h : Real fs.root loc) :
    fs.canonicalize (ofLocation loc) = .ok loc := by
  have hnil : ofLocation loc ≠ [] := by simp [ofLocation]
  rw [canonicalize, if_neg hnil, if_neg (nul_not_mem_ofLocation h.proper), start,
    if_pos (hasRoot_ofLocation loc)]
  have hw : walk fs.root [] loc = .arrived loc := walk_real (a := []) h
  rw [resolve, walk_ofLocation fs.root_isDir h.proper, hw]

theorem canonicalize_idem {p : Path} {loc : Location} (h : fs.canonicalize p = .ok loc) :
    fs.canonicalize (ofLocation loc) = .ok loc :=
  canonicalize_ofLocation (canonicalize_real h)

theorem read_ofLocation {p : Path} {loc : Location} (h : fs.canonicalize p = .ok loc) :
    fs.read (ofLocation loc) = fs.read p := by
  simp only [read, h, canonicalize_idem h]

theorem read_eq_ok {p : Path} {content : Bytes} (h : fs.read p = .ok content) :
    ∃ loc, fs.canonicalize p = .ok loc ∧ fs.root.get? loc = some (.file content) := by
  rw [read] at h
  split at h
  · simp at h
  · next loc hl =>
    refine ⟨loc, hl, ?_⟩
    split at h
    · next c hc => exact Except.ok.inj h ▸ hc
    · simp at h
    · simp at h

theorem canonicalize_eq_ok_iff (hfree : fs.root.linkFree) {p : Path} {loc : Location} :
    fs.canonicalize p = .ok loc ↔
      p ≠ [] ∧ '\x00' ∉ p ∧ walk fs.root (fs.start p) (segments p) = .arrived loc := by
  rw [canonicalize]
  by_cases hp : p = []
  · simp [hp]
  · by_cases hnul : '\x00' ∈ p
    · simp [hp, hnul]
    · rw [if_neg hp, if_neg hnul, resolve]
      cases hw : walk fs.root (fs.start p) (segments p) with
      | arrived l => simp [hp, hnul]
      | failed e => simp
      | link c t rest => exact (walk_ne_link hfree _ hw).elim

theorem canonicalize_linkFree (hfree : fs.root.linkFree) {ns loc : Location}
    (hns : ∀ n ∈ ns, ProperName n) (h : fs.canonicalize (ofLocation ns) = .ok loc) : loc = ns := by
  obtain ⟨-, -, hwalk⟩ := (canonicalize_eq_ok_iff hfree).mp h
  rw [start, if_pos (hasRoot_ofLocation ns), walk_ofLocation fs.root_isDir hns] at hwalk
  rcases walk_linkFree hfree hns with hw | ⟨e, hw⟩
  · rw [hw] at hwalk
    simpa [eq_comm] using hwalk
  · simp [hw] at hwalk

theorem start_append_slash (fs : FileSystem) (d : Path) (x y : Path) :
    fs.start (d ++ '/' :: x) = fs.start (d ++ '/' :: y) := by
  cases d <;> rfl

theorem start_append (fs : FileSystem) {a : Path} (ha : a ≠ []) (b : Path) :
    fs.start (a ++ b) = fs.start a := by
  obtain ⟨c, cs, rfl⟩ := List.exists_cons_of_ne_nil ha
  rfl

-- A name below a directory, with no link on the way: the directory is where its path says.
theorem canonicalize_push (hfree : fs.root.linkFree) {n : Name} (hn : ProperName n) {dir : Path}
    {loc : Location} (h : fs.canonicalize (push dir n) = .ok loc) :
    ∃ base, (dir = [] → base = fs.cwd) ∧ (dir ≠ [] → fs.canonicalize dir = .ok base) ∧
      loc = base ++ [n] := by
  obtain ⟨-, hnul, hwalk⟩ := (canonicalize_eq_ok_iff hfree).mp h
  have hname := segments_name hn.no_slash
  rcases push_cases hn.no_slash dir with ⟨rfl, hp⟩ | ⟨d, rfl, hp⟩ | ⟨hne, hp⟩
  · rw [hp, start, hasRoot_eq_false hn.no_slash, if_neg (by simp), hname] at hwalk
    exact ⟨fs.cwd, fun _ => rfl, fun h => (h rfl).elim, (walk_name hn hwalk).2⟩
  · rw [hp, segments_append_slash, hname] at hwalk
    obtain ⟨base, hbase, hlast⟩ := walk_append.mp hwalk
    obtain ⟨⟨entries, hdir⟩, hloc⟩ := walk_name hn hlast
    refine ⟨base, fun hnil => absurd hnil (by simp), fun hne => ?_, hloc⟩
    have hblank : walk fs.root base [[]] = .arrived base := by simp [walk, hdir]
    rw [hp] at hnul
    refine (canonicalize_eq_ok_iff hfree).mpr ⟨hne, fun hmem => hnul ?_, ?_⟩
    · rcases List.mem_append.mp hmem with hmem | hmem
      · exact List.mem_append_left _ hmem
      · simp at hmem
    · rw [segments_append_slash, fs.start_append_slash d [] n]
      exact walk_append.mpr ⟨base, hbase, hblank⟩
  · rw [hp, segments_append_slash, hname, fs.start_append hne] at hwalk
    obtain ⟨base, hbase, hlast⟩ := walk_append.mp hwalk
    refine ⟨base, fun hnil => (hne hnil).elim, fun _ => ?_, (walk_name hn hlast).2⟩
    rw [hp] at hnul
    exact (canonicalize_eq_ok_iff hfree).mpr
      ⟨hne, fun hmem => hnul (List.mem_append_left _ hmem), hbase⟩

theorem canonicalize_rooted {fs' : FileSystem} (hroot : fs'.root = fs.root)
    (hlinks : fs'.maxLinks = fs.maxLinks) {p : Path} (hp : hasRoot p = true) :
    fs'.canonicalize p = fs.canonicalize p := by
  rw [canonicalize, canonicalize, start, start, if_pos hp, if_pos hp, hroot, hlinks]

end FileSystem
end FileTree
