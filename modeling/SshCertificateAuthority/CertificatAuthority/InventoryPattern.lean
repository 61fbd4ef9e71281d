import SshCertificateAuthority.CertificatAuthority.InventorySearch
import SshCertificateAuthority.Library.GlobPattern

namespace SshCertificateAuthority
open ByteStream UnixPath FileTree GlobPattern

abbrev Glob := FileSystem → Path → Except String (List (Except String Path))

def Spells (fs : FileSystem) (parts : List Part) (file : Path) : Prop :=
  ∃ ns, (∀ n ∈ ns, ProperName n) ∧ file = ofLocation ns ∧ matchParts fs.isText parts ns = true

structure FollowsSyntax (glob : Glob) (fs : FileSystem) : Prop where
  invalid : ∀ pattern, compile pattern = none → ∃ e, glob fs pattern = .error e
  valid : ∀ pattern parts, compile pattern = some parts →
    ∃ paths, glob fs pattern = .ok paths ∧ ∀ file loc, fs.canonicalize file = .ok loc →
      (file ∈ flattenOk paths ↔ Spells fs parts file)

def TomlBelow (base : Location) (ns : List Name) : Prop :=
  (∀ n ∈ ns, ProperName n) ∧ ∃ sub stem, ns = base ++ sub ++ [stem ++ ".toml".toList]

def Matched (fs : FileSystem) (base : Location) (file : Path) : Prop :=
  ∃ parts, compile (inventoryPattern base) = some parts ∧ Spells fs parts file

-- A file below the inventory, whatever its path is: links are resolved.
structure LeadsTo (fs : FileSystem) (base : Location) (file : Path) (loc : Location) : Prop where
  resolves : fs.canonicalize file = .ok loc
  within : base <+: loc
  isFile : ∃ content, fs.root.get? loc = some (.file content)

structure SearchesInventory (X : Crates) (fs : FileSystem) (config : Ca) (base : Location) :
    Prop where
  no_panic : ∀ publicKey site, (findConfigByPublicKey X fs publicKey config).result ≠ .panic site
  examined : ∀ publicKey key, X.fromOpenssh publicKey = .ok key →
    (findConfigByPublicKey X fs publicKey config).result = .ok none → ∀ loc,
      (∃ file ∈ (findConfigByPublicKey X fs publicKey config).parsed, LeadsTo fs base file loc) ↔
        ∃ ns, TomlBelow base ns ∧ LeadsTo fs base (ofLocation ns) loc
  found : ∀ publicKey key ns hostConfig, X.fromOpenssh publicKey = .ok key → TomlBelow base ns →
    HoldsKey X fs base key (ofLocation ns) hostConfig →
      ∃ hostName c, (findConfigByPublicKey X fs publicKey config).result = .ok (some (hostName, c))

structure PatternFaithful (fs : FileSystem) (base : Location) : Prop where
  text : fs.isText (ofLocation base) = true
  valid : ∀ n ∈ base, parsePart n ≠ none
  covers : ∀ ns loc, TomlBelow base ns → LeadsTo fs base (ofLocation ns) loc →
    ∃ file, Matched fs base file ∧ LeadsTo fs base file loc
  stays : ∀ file loc, Matched fs base file → LeadsTo fs base file loc →
    ∃ ns, TomlBelow base ns ∧ LeadsTo fs base (ofLocation ns) loc

theorem mapM_eq_none {A B : Type} {f : A → Option B} {as : List A} :
    as.mapM f = none ↔ ∃ a ∈ as, f a = none := by
  induction as with
  | nil => simp
  | cons a as ih =>
    rw [List.mapM_cons, List.exists_mem_cons_iff, ← ih]
    cases f a with
    | none => simp
    | some b => cases as.mapM f <;> simp

section

variable {base : Location}

theorem segments_inventoryPattern (base : Location) :
    segments (inventoryPattern base) =
      segments (ofLocation base) ++ [['*', '*'], "*.toml".toList] := by
  have hpattern : inventoryPattern base =
      ofLocation base ++ '/' :: (['*', '*'] ++ '/' :: "*.toml".toList) := rfl
  have hbelow : (['*', '*'] ++ '/' :: "*.toml".toList).splitOn '/' =
      [['*', '*'], "*.toml".toList] := by decide
  rw [hpattern, segments, List.splitOn_append_cons_self, hbelow]
  rfl

theorem compile_inventoryPattern (hbase : ∀ n ∈ base, ProperName n) :
    compile (inventoryPattern base) =
      (base.mapM parsePart).map fun parts =>
        parts ++ [.recursive, .name (suffixTokens ".toml".toList)] := by
  have hnames : (segments (ofLocation base)).filter (· ≠ []) = base := by
    cases base with
    | nil => decide
    | cons n ns =>
      rw [segments_ofLocation hbase (List.cons_ne_nil n ns), List.filter_cons_of_neg (by simp)]
      exact List.filter_eq_self.mpr fun m hm => by simpa using (hbase m hm).ne_nil
  have hlast : [['*', '*'], "*.toml".toList].mapM parsePart =
      some [.recursive, .name (suffixTokens ".toml".toList)] := by decide
  have hkept : [['*', '*'], "*.toml".toList].filter (· ≠ []) = [['*', '*'], "*.toml".toList] := by
    decide
  rw [compile, segments_inventoryPattern, List.filter_append, hnames, hkept, List.mapM_append,
    hlast]
  cases base.mapM parsePart <;> rfl

theorem compile_eq_none_iff (hbase : ∀ n ∈ base, ProperName n) :
    compile (inventoryPattern base) = none ↔ ∃ n ∈ base, parsePart n = none := by
  rw [compile_inventoryPattern hbase, Option.map_eq_none_iff, mapM_eq_none]

end

section

variable {X : Crates} {fs : FileSystem} {config : Ca} {base : Location} {key : PublicKey}
  {file : Path} {files : List Path}

theorem visit_parsed_iff (hbase : ∀ n ∈ base, ProperName n) :
    (visit X fs base key file).parsed = true ↔
      ∃ loc, fs.canonicalize file = .ok loc ∧ base <+: loc := by
  constructor
  · intro h
    obtain ⟨loc, hloc, hs⟩ := visit_parsed h
    exact ⟨loc, hloc, (startsWith_ofLocation (fs.canonicalize_real hloc).proper hbase).mp hs⟩
  · rintro ⟨loc, hloc, hwithin⟩
    have hs := (startsWith_ofLocation (fs.canonicalize_real hloc).proper hbase).mpr hwithin
    simp only [visit, hloc, hs, Bool.not_true, Bool.false_eq_true, if_false]
    split
    · rfl
    · split
      · rfl
      · split <;> rfl

theorem stemOf_ne_none {hostConfig : HostConfig} : stemOf fs file hostConfig ≠ .ok none := by
  rw [stemOf]
  split
  · simp
  · split <;> simp

theorem mem_parsed_of_none (h : (searchFiles X fs base key files).result = .ok none) :
    file ∈ (searchFiles X fs base key files).parsed ↔
      file ∈ files ∧ (visit X fs base key file).parsed = true := by
  induction files with
  | nil => simp [searchFiles]
  | cons f files ih =>
    unfold searchFiles at h ⊢
    split at h
    · exact (stemOf_ne_none h).elim
    · next v hv =>
      have hrest := ih h
      dsimp only
      by_cases hp : (visit X fs base key f).parsed = true
      · rw [if_pos hp, List.mem_cons, hrest, List.mem_cons]
        constructor
        · rintro (rfl | ⟨hmem, hf⟩)
          · exact ⟨Or.inl rfl, hp⟩
          · exact ⟨Or.inr hmem, hf⟩
        · rintro ⟨rfl | hmem, hf⟩
          · exact Or.inl rfl
          · exact Or.inr ⟨hmem, hf⟩
      · rw [if_neg hp, hrest, List.mem_cons]
        constructor
        · rintro ⟨hmem, hf⟩
          exact ⟨Or.inr hmem, hf⟩
        · rintro ⟨rfl | hmem, hf⟩
          · exact (hp hf).elim
          · exact ⟨hmem, hf⟩

end

section

variable {X : Crates} {glob : Glob} {fs : FileSystem} {config : Ca} {base : Location}
  {key : PublicKey} {file : Path} {loc : Location}

theorem tomlPath_of_matched (hbase : ∀ n ∈ base, ProperName n) (h : Matched fs base file) :
    TomlPath fs file := by
  obtain ⟨parts, hparts, ns, hns, rfl, hmatch⟩ := h
  rw [compile_inventoryPattern hbase] at hparts
  obtain ⟨ps, -, rfl⟩ := Option.map_eq_some_iff.mp hparts
  obtain ⟨before, sub, stem, rfl, htext, -⟩ := matchParts_below.mp hmatch
  have hslash := (hns (stem ++ ".toml".toList) (by simp)).no_slash
  obtain ⟨dir, hdir⟩ := ofLocation_concat (before ++ sub) (stem ++ ".toml".toList)
  exact ⟨dir, stem, fun h => hslash (List.mem_append_left _ h), (isText_append.mp htext).1, hdir⟩

theorem matched_iff_globbed (hglob : FollowsSyntax glob fs) {paths : List (Except String Path)}
    (hpaths : glob fs (inventoryPattern base) = .ok paths)
    (hresolves : fs.canonicalize file = .ok loc) :
    file ∈ flattenOk paths ↔ Matched fs base file := by
  cases hc : compile (inventoryPattern base) with
  | none =>
    obtain ⟨e, he⟩ := hglob.invalid _ hc
    simp [hpaths] at he
  | some parts =>
    obtain ⟨paths', hpaths', hmem⟩ := hglob.valid _ _ hc
    obtain rfl : paths = paths' := Except.ok.inj (hpaths.symm.trans hpaths')
    rw [hmem file loc hresolves, Matched]
    exact ⟨fun h => ⟨parts, hc, h⟩, fun ⟨parts', hc', h⟩ => Option.some.inj (hc.symm.trans hc') ▸ h⟩

theorem globbed_iff_matched (hglob : FollowsSyntax glob fs) {paths : List (Except String Path)}
    (hpaths : glob fs (inventoryPattern base) = .ok paths) :
    (∃ file ∈ flattenOk paths, LeadsTo fs base file loc) ↔
      ∃ file, Matched fs base file ∧ LeadsTo fs base file loc :=
  exists_congr fun _ => and_congr_left fun h => matched_iff_globbed hglob hpaths h.resolves

theorem parsed_iff_matched (hglob : FollowsSyntax glob fs) (hbase : ∀ n ∈ base, ProperName n)
    {paths : List (Except String Path)} (hpaths : glob fs (inventoryPattern base) = .ok paths)
    (hnone : (searchFiles X fs base key (flattenOk paths)).result = .ok none) :
    (∃ file ∈ (searchFiles X fs base key (flattenOk paths)).parsed, LeadsTo fs base file loc) ↔
      ∃ file, Matched fs base file ∧ LeadsTo fs base file loc := by
  rw [← globbed_iff_matched hglob hpaths]
  refine exists_congr fun file => and_congr_left fun h => ?_
  rw [mem_parsed_of_none hnone, visit_parsed_iff hbase]
  exact and_iff_left ⟨loc, h.resolves, h.within⟩

theorem findConfigByPublicKey_eq {publicKey : String} {paths : List (Except String Path)}
    (hbase : fs.canonicalize config.hostInventory = .ok base)
    (htext : fs.isText (ofLocation base) = true)
    (hpaths : X.glob fs (inventoryPattern base) = .ok paths)
    (hkey : X.fromOpenssh publicKey = .ok key) :
    findConfigByPublicKey X fs publicKey config = searchFiles X fs base key (flattenOk paths) := by
  rw [findConfigByPublicKey, hkey]
  simp only [hbase, toStr_of_text htext, hpaths]

theorem searchFiles_ne_panic (hbase : ∀ n ∈ base, ProperName n) {files : List Path}
    (h : ∀ file ∈ files, ∀ c, HoldsKey X fs base key file c → ∃ stem, StemText fs file stem)
    (site : String) : (searchFiles X fs base key files).result ≠ .panic site := by
  induction files with
  | nil => simp [searchFiles]
  | cons file files ih =>
    obtain ⟨hfile, hfiles⟩ := List.forall_mem_cons.mp h
    rw [searchFiles]
    split
    · next c hc =>
      obtain ⟨stem, hstem, htext⟩ := hfile c ((visit_found_iff hbase).mp hc)
      simp only [stemOf, hstem, toStr_of_text htext]
      simp
    · exact ih hfiles

theorem holdsKey_moved {other : Path} {hostConfig : HostConfig}
    (h : HoldsKey X fs base key file hostConfig) (hfile : fs.canonicalize file = .ok loc)
    (hother : fs.canonicalize other = .ok loc) : HoldsKey X fs base key other hostConfig := by
  obtain ⟨loc', hloc', hwithin⟩ := h.within
  obtain rfl : loc = loc' := Except.ok.inj (hfile.symm.trans hloc')
  refine ⟨⟨loc, hother, hwithin⟩, ?_, h.key_eq⟩
  rw [readTomlFile, ← readToString_ofLocation hother, readToString_ofLocation hfile]
  exact h.parsed

theorem holdsKey_leadsTo {hostConfig : HostConfig}
    (h : HoldsKey X fs base key file hostConfig) : ∃ loc, LeadsTo fs base file loc := by
  obtain ⟨loc, hloc, hwithin⟩ := h.within
  obtain ⟨text, ht, -⟩ := readTomlFile_eq_ok h.parsed
  obtain ⟨loc', content, hloc', hfile, -⟩ := readToString_eq_ok ht
  obtain rfl : loc = loc' := Except.ok.inj (hloc.symm.trans hloc')
  exact ⟨loc, hloc, hwithin, content, hfile⟩

theorem searchesInventory_of_faithful (hglob : FollowsSyntax X.glob fs)
    (hbase : fs.canonicalize config.hostInventory = .ok base) (h : PatternFaithful fs base) :
    SearchesInventory X fs config base := by
  have hproper := (fs.canonicalize_real hbase).proper
  obtain ⟨parts, hparts⟩ : ∃ parts, compile (inventoryPattern base) = some parts := by
    apply Option.ne_none_iff_exists'.mp
    intro hnone
    obtain ⟨n, hn, hbad⟩ := (compile_eq_none_iff hproper).mp hnone
    exact h.valid n hn hbad
  obtain ⟨paths, hpaths, -⟩ := hglob.valid _ _ hparts
  have hstem : ∀ key, ∀ file ∈ flattenOk paths, ∀ c, HoldsKey X fs base key file c →
      ∃ stem, StemText fs file stem := by
    intro key file hfile c hc
    obtain ⟨loc, hloc, -⟩ := hc.within
    exact stemText_of_toml
      (tomlPath_of_matched hproper ((matched_iff_globbed hglob hpaths hloc).mp hfile))
  refine ⟨fun publicKey site => ?_, fun publicKey key hkey hnone loc => ?_,
    fun publicKey key ns c hkey hns hholds => ?_⟩
  · cases hkey : X.fromOpenssh publicKey with
    | error e => simp [findConfigByPublicKey, hkey]
    | ok key =>
      rw [findConfigByPublicKey_eq hbase h.text hpaths hkey]
      exact searchFiles_ne_panic hproper (hstem key) site
  · rw [findConfigByPublicKey_eq hbase h.text hpaths hkey] at hnone ⊢
    rw [parsed_iff_matched hglob hproper hpaths hnone]
    constructor
    · rintro ⟨file, hm, hl⟩
      exact h.stays file loc hm hl
    · rintro ⟨ns, hn, hl⟩
      exact h.covers ns loc hn hl
  · obtain ⟨loc, hleads⟩ := holdsKey_leadsTo hholds
    obtain ⟨file, hmatched, hfile⟩ := h.covers ns loc hns hleads
    have hmem := (matched_iff_globbed hglob hpaths hfile.resolves).mpr hmatched
    obtain ⟨first, c', hfirst⟩ := exists_firstHolder
      ⟨file, hmem, c, holdsKey_moved hholds hleads.resolves hfile.resolves⟩
    obtain ⟨earlier, later, hsplit, -⟩ := hfirst.first
    obtain ⟨stem, hs⟩ := hstem key first (by simp [hsplit]) c' hfirst.holds
    rw [findConfigByPublicKey_eq hbase h.text hpaths hkey]
    exact ⟨_, c', (searchFiles_result hproper).mpr ⟨first, stem, hfirst, hs, rfl⟩⟩

theorem isText_intercalate (h : ∀ n ∈ base, fs.isText n = true) :
    fs.isText (['/'].intercalate base) = true := by
  induction base with
  | nil => rfl
  | cons n ns ih =>
    obtain ⟨hn, hns⟩ := List.forall_mem_cons.mp h
    cases ns with
    | nil => simpa [List.intercalate] using hn
    | cons m ns =>
      have hjoin : ['/'].intercalate (n :: m :: ns) =
          n ++ (['/'] ++ ['/'].intercalate (m :: ns)) := by simp [List.intercalate]
      rw [hjoin]
      exact isText_append.mpr ⟨hn, isText_append.mpr ⟨isText_ascii (by simp), ih hns⟩⟩

theorem isText_ofLocation (h : ∀ n ∈ base, fs.isText n = true) :
    fs.isText (ofLocation base) = true := by
  have hslash : fs.isText ['/'] = true := isText_ascii (by simp)
  exact isText_append.mpr ⟨hslash, isText_intercalate h⟩

theorem patternFaithful_of_plain (hproper : ∀ n ∈ base, ProperName n)
    (hplain : ∀ n ∈ base, ∀ c ∈ n, plain c = true) (htext : ∀ n ∈ base, fs.isText n = true)
    (hnames : ∀ sub stem loc, LeadsTo fs base (ofLocation (base ++ sub ++ [stem ++ ".toml".toList]))
      loc → fs.isText stem = true) : PatternFaithful fs base := by
  have hparts : base.mapM parsePart = some (base.map fun n => .name (n.map .char)) := by
    clear hproper htext hnames
    induction base with
    | nil => rfl
    | cons n ns ih =>
      obtain ⟨hn, hns⟩ := List.forall_mem_cons.mp hplain
      rw [List.mapM_cons, parsePart_plain hn, ih hns]
      rfl
  have hmatched : ∀ file, Matched fs base file ↔ ∃ sub stem, fs.isText stem = true ∧
      (∀ n ∈ base ++ sub ++ [stem ++ ".toml".toList], ProperName n) ∧
        file = ofLocation (base ++ sub ++ [stem ++ ".toml".toList]) := by
    intro file
    simp only [Matched, compile_inventoryPattern hproper, hparts, Option.map_some,
      Option.some.injEq, Spells, exists_eq_left', matchParts_below, matchParts_chars,
      isText_append, toml_isText, and_true]
    constructor
    · rintro ⟨ns, hns, rfl, before, sub, stem, rfl, hstem, rfl, -⟩
      exact ⟨sub, stem, hstem, hns, rfl⟩
    · rintro ⟨sub, stem, hstem, hns, rfl⟩
      exact ⟨_, hns, rfl, base, sub, stem, rfl, hstem, rfl, htext⟩
  refine ⟨isText_ofLocation htext, fun n hn => ?_, ?_, ?_⟩
  · rw [parsePart_plain (hplain n hn)]
    exact Option.some_ne_none _
  · rintro _ loc ⟨hns, sub, stem, rfl⟩ hl
    exact ⟨_, (hmatched _).mpr ⟨sub, stem, hnames sub stem loc hl, hns, rfl⟩, hl⟩
  · intro file loc hm hl
    obtain ⟨sub, stem, -, hns, rfl⟩ := (hmatched file).mp hm
    exact ⟨_, ⟨hns, sub, stem, rfl⟩, hl⟩

end

-- Every key parses and no file is a configuration: the search goes through all it is given.
def readerCrates (glob : Glob) : Crates :=
  { Crates.refusing with glob, fromOpenssh := fun _ => .ok ed25519Key }

theorem readerCrates_holds {glob : Glob} {fs : FileSystem} {base : Location} {key : PublicKey}
    {file : Path} {hostConfig : HostConfig} :
    ¬ HoldsKey (readerCrates glob) fs base key file hostConfig := by
  intro h
  obtain ⟨text, -, hparse⟩ := readTomlFile_eq_ok h.parsed
  simp [readerCrates, Crates.refusing] at hparse

def treeGlob : Glob := fun fs pattern =>
  match compile pattern with
  | none => .error "Pattern syntax error"
  | some parts =>
    .ok ((fs.root.locations.filter fun ns =>
      (∀ n ∈ ns, ProperName n) ∧ matchParts fs.isText parts ns = true).map fun ns =>
        .ok (ofLocation ns))

theorem treeGlob_follows {fs : FileSystem} (hfree : fs.root.linkFree) :
    FollowsSyntax treeGlob fs where
  invalid pattern h := ⟨"Pattern syntax error", by rw [treeGlob, h]⟩
  valid pattern parts h := by
    refine ⟨_, by rw [treeGlob, h], fun file loc hloc => ?_⟩
    have hmem : ∀ found : List Location,
        (file ∈ flattenOk (found.map fun ns => (.ok (ofLocation ns) : Except String Path))) ↔
          ∃ ns ∈ found, ofLocation ns = file := by
      intro found
      simp [flattenOk, Except.toOption]
    rw [hmem]
    constructor
    · rintro ⟨ns, hns, rfl⟩
      obtain ⟨-, hkept⟩ := List.mem_filter.mp hns
      obtain ⟨hproper, hmatch⟩ := of_decide_eq_true hkept
      exact ⟨ns, hproper, rfl, hmatch⟩
    · rintro ⟨ns, hproper, rfl, hmatch⟩
      obtain rfl := fs.canonicalize_linkFree hfree hproper hloc
      obtain ⟨n, hn, -⟩ := (fs.canonicalize_real hloc).present
      exact ⟨loc, List.mem_filter.mpr ⟨Node.mem_locations hn, decide_eq_true ⟨hproper, hmatch⟩⟩,
        rfl⟩

def placedFs (name : String) : FileSystem where
  root := .dir [("srv".toList, .dir
    [(name.toList, .dir [("web.toml".toList, .file (utf8 webConfigText))])])]
  cwd := []
  maxLinks := 40
  cwd_isDir := rfl
  cwd_proper := proper_nil

def placedConfig (name : String) : Ca :=
  { localConfig with hostInventory := "/srv/".toList ++ name.toList }

def placedCrates : Crates := { webCrates with glob := treeGlob }

theorem placed_follows (name : String)
    (hfree : (placedFs name).root.locations.all fun loc =>
      !((placedFs name).root.get? loc).any Node.isSymlink) :
    FollowsSyntax treeGlob (placedFs name) :=
  treeGlob_follows (Node.linkFree_of_all hfree)

theorem placed_holds {name : String} {base : Location} {file : Path} {loc : Location}
    (hread : (placedFs name).read file = .ok (utf8 webConfigText))
    (hloc : (placedFs name).canonicalize file = .ok loc) (hwithin : base <+: loc) :
    HoldsKey placedCrates (placedFs name) base ed25519Key file webConfig :=
  ⟨⟨loc, hloc, hwithin⟩, readTomlFile_of_read hread, ed25519Key, rfl, rfl⟩

theorem placed_isText {name : String} (p : Path) : (placedFs name).isText p = true :=
  List.all_eq_true.mpr fun _ _ => rfl

end SshCertificateAuthority
