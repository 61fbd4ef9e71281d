import SshCertificateAuthority.CertificatAuthority.HostConfigReader

namespace SshCertificateAuthority
open ByteStream UnixPath FileTree

structure HoldsKey (X : Crates) (fs : FileSystem) (base : Location) (key : PublicKey)
    (file : Path) (hostConfig : HostConfig) : Prop where
  within : ∃ loc, fs.canonicalize file = .ok loc ∧ base <+: loc
  parsed : readTomlFile X.hostConfigFromStr fs file = .ok hostConfig
  key_eq : ∃ configPubKey, X.fromOpenssh hostConfig.publicKey = .ok configPubKey ∧
    configPubKey.keyData = key.keyData

structure FirstHolder (X : Crates) (fs : FileSystem) (base : Location) (key : PublicKey)
    (files : List Path) (file : Path) (hostConfig : HostConfig) : Prop where
  holds : HoldsKey X fs base key file hostConfig
  first : ∃ earlier later, files = earlier ++ file :: later ∧
    ∀ f ∈ earlier, ∀ c, ¬ HoldsKey X fs base key f c

def StemText (fs : FileSystem) (file : Path) (stem : Name) : Prop :=
  fileStem file = some stem ∧ fs.isText stem = true

section

variable {X : Crates} {fs : FileSystem} {base : Location} {key : PublicKey} {file : Path}
  {hostConfig : HostConfig}

theorem visit_found_iff (hbase : ∀ n ∈ base, ProperName n) :
    visit X fs base key file = .found hostConfig ↔ HoldsKey X fs base key file hostConfig := by
  constructor
  · intro h
    rw [visit] at h
    split at h
    · simp at h
    · next loc hl =>
      split at h
      · simp at h
      · next hs =>
        have hwithin := (startsWith_ofLocation (fs.canonicalize_real hl).proper hbase).mp
          (by simpa using hs)
        split at h
        · simp at h
        · next hostConfig' hread =>
          split at h
          · simp at h
          · next k hk =>
            split at h
            · simp at h
            · next hkey =>
              obtain rfl : hostConfig' = hostConfig := by simpa using h
              exact ⟨⟨loc, hl, hwithin⟩, hread, k, hk, not_not.mp hkey⟩
  · rintro ⟨⟨loc, hl, hwithin⟩, hread, k, hk, hkey⟩
    have hs := (startsWith_ofLocation (fs.canonicalize_real hl).proper hbase).mpr hwithin
    simp [visit, hl, hs, hread, hk, hkey]

theorem searchFiles_found {files : List Path} (h : visit X fs base key file = .found hostConfig) :
    (searchFiles X fs base key (file :: files)).result = stemOf fs file hostConfig := by
  rw [searchFiles, h]

theorem searchFiles_passed {files : List Path} (h : ∀ c, visit X fs base key file ≠ .found c) :
    (searchFiles X fs base key (file :: files)).result =
      (searchFiles X fs base key files).result := by
  rw [searchFiles]
  split
  · next c hc => exact (h c hc).elim
  · rfl

theorem stemOf_eq_ok {hostName : String} {c : HostConfig} :
    stemOf fs file hostConfig = .ok (some (hostName, c)) ↔
      ∃ stem, StemText fs file stem ∧ hostName = String.ofList stem ∧ hostConfig = c := by
  rw [stemOf]
  cases hstem : fileStem file with
  | none => simp [StemText, hstem]
  | some stem =>
    dsimp only
    cases htext : toStr fs stem with
    | none => simp [StemText, hstem, toStr_eq_none.mp htext]
    | some text =>
      have hstemText : fs.isText stem = true := by
        by_contra hno
        rw [toStr_eq_none.mpr (by simpa using hno)] at htext
        simp at htext
      obtain rfl : String.ofList stem = text :=
        Option.some.inj ((toStr_of_text hstemText).symm.trans htext)
      constructor
      · intro h
        obtain ⟨rfl, rfl⟩ : String.ofList stem = hostName ∧ hostConfig = c := by simpa using h
        exact ⟨stem, ⟨hstem, hstemText⟩, rfl, rfl⟩
      · rintro ⟨stem', ⟨hstem', -⟩, rfl, rfl⟩
        rw [Option.some.inj (hstem.symm.trans hstem')]

theorem firstHolder_cons {f : Path} {files : List Path} :
    FirstHolder X fs base key (f :: files) file hostConfig ↔
      (f = file ∧ HoldsKey X fs base key file hostConfig) ∨
        (∀ c, ¬ HoldsKey X fs base key f c) ∧ FirstHolder X fs base key files file hostConfig := by
  constructor
  · rintro ⟨hh, earlier, later, hsplit, hfirst⟩
    cases earlier with
    | nil => exact Or.inl ⟨(List.cons.inj hsplit).1, hh⟩
    | cons e earlier =>
      obtain ⟨rfl, hfiles⟩ := List.cons.inj hsplit
      exact Or.inr ⟨hfirst f List.mem_cons_self, hh, earlier, later, hfiles,
        fun g hg => hfirst g (List.mem_cons_of_mem f hg)⟩
  · rintro (⟨rfl, hh⟩ | ⟨hf, hh, earlier, later, rfl, hfirst⟩)
    · exact ⟨hh, [], files, rfl, by simp⟩
    · refine ⟨hh, f :: earlier, later, rfl, fun g hg => ?_⟩
      rcases List.mem_cons.mp hg with rfl | hg
      · exact hf
      · exact hfirst g hg

theorem searchFiles_result (hbase : ∀ n ∈ base, ProperName n) {files : List Path}
    {hostName : String} :
    (searchFiles X fs base key files).result = .ok (some (hostName, hostConfig)) ↔
      ∃ file stem, FirstHolder X fs base key files file hostConfig ∧
        StemText fs file stem ∧ hostName = String.ofList stem := by
  induction files with
  | nil =>
    constructor
    · intro h
      simp [searchFiles] at h
    · rintro ⟨file, stem, ⟨-, earlier, later, hsplit, -⟩, -⟩
      simp at hsplit
  | cons f files ih =>
    simp only [firstHolder_cons]
    by_cases hf : ∃ c, visit X fs base key f = .found c
    · obtain ⟨c, hc⟩ := hf
      have hholds := (visit_found_iff hbase).mp hc
      rw [searchFiles_found hc, stemOf_eq_ok]
      constructor
      · rintro ⟨stem, hstem, rfl, rfl⟩
        exact ⟨f, stem, Or.inl ⟨rfl, hholds⟩, hstem, rfl⟩
      · rintro ⟨file, stem, ⟨rfl, hh⟩ | ⟨hno, -⟩, hstem, rfl⟩
        · exact ⟨stem, hstem, rfl, Except.ok.inj (hholds.parsed.symm.trans hh.parsed)⟩
        · exact (hno c hholds).elim
    · have hno : ∀ c, ¬ HoldsKey X fs base key f c := fun c hh =>
        hf ⟨c, (visit_found_iff hbase).mpr hh⟩
      rw [searchFiles_passed fun c hc => hf ⟨c, hc⟩, ih]
      constructor
      · rintro ⟨file, stem, hfirst, hstem⟩
        exact ⟨file, stem, Or.inr ⟨hno, hfirst⟩, hstem⟩
      · rintro ⟨file, stem, ⟨rfl, hh⟩ | ⟨-, hfirst⟩, hstem⟩
        · exact (hno hostConfig hh).elim
        · exact ⟨file, stem, hfirst, hstem⟩

theorem findConfigByPublicKey_found {config : Ca} {publicKey hostName : String} :
    (findConfigByPublicKey X fs publicKey config).result = .ok (some (hostName, hostConfig)) ↔
      ∃ key base paths file stem, X.fromOpenssh publicKey = .ok key ∧
        fs.canonicalize config.hostInventory = .ok base ∧ fs.isText (ofLocation base) = true ∧
        X.glob fs (inventoryPattern base) = .ok paths ∧
        FirstHolder X fs base key (flattenOk paths) file hostConfig ∧
        StemText fs file stem ∧ hostName = String.ofList stem := by
  rw [findConfigByPublicKey]
  cases hk : X.fromOpenssh publicKey with
  | error e => simp
  | ok key =>
    cases hb : fs.canonicalize config.hostInventory with
    | error e => simp
    | ok base =>
      by_cases htext : fs.isText (ofLocation base) = true
      · cases hg : X.glob fs (inventoryPattern base) with
        | error e => simp [toStr_of_text htext, hg]
        | ok paths =>
          simp [toStr_of_text htext, htext, hg, searchFiles_result (fs.canonicalize_real hb).proper]
      · simp [toStr_eq_none.mpr (by simpa using htext), htext]

end

def TomlPath (fs : FileSystem) (file : Path) : Prop :=
  ∃ dir name, '/' ∉ name ∧ fs.isText name = true ∧ file = dir ++ '/' :: (name ++ ".toml".toList)

def Crates.yielding (X : Crates) (paths : List (Except String Path)) : Crates :=
  { X with glob := fun _ _ => .ok paths }

def Crates.rewriting (X : Crates) (r : HostConfig → HostConfig) : Crates :=
  { X with hostConfigFromStr := fun text => (X.hostConfigFromStr text).map r }

def parsedKeyData (X : Crates) (text : String) : Option KeyData :=
  (X.fromOpenssh text).toOption.map (·.keyData)

open Classical in
noncomputable def holders (X : Crates) (fs : FileSystem) (base : Location) (key : PublicKey)
    (files : List Path) : List Path :=
  files.filter fun file => ∃ hostConfig, HoldsKey X fs base key file hostConfig

section

variable {X : Crates} {fs : FileSystem} {config : Ca} {base : Location} {key : PublicKey}

theorem searchFiles_holders (hbase : ∀ n ∈ base, ProperName n) (files : List Path) :
    (searchFiles X fs base key files).result =
      (searchFiles X fs base key (holders X fs base key files)).result := by
  induction files with
  | nil => rfl
  | cons file files ih =>
    by_cases hf : ∃ hostConfig, HoldsKey X fs base key file hostConfig
    · obtain ⟨hostConfig, hh⟩ := hf
      have hv := (visit_found_iff hbase).mpr hh
      rw [holders, List.filter_cons_of_pos (by simpa using ⟨hostConfig, hh⟩),
        searchFiles_found hv, searchFiles_found hv]
    · rw [holders, List.filter_cons_of_neg (by simpa using hf), searchFiles_passed, ih]
      · rfl
      · exact fun c hc => hf ⟨c, (visit_found_iff hbase).mp hc⟩

theorem exists_firstHolder {files : List Path}
    (h : ∃ file ∈ files, ∃ hostConfig, HoldsKey X fs base key file hostConfig) :
    ∃ file hostConfig, FirstHolder X fs base key files file hostConfig := by
  induction files with
  | nil => simp at h
  | cons f files ih =>
    simp only [firstHolder_cons]
    by_cases hf : ∃ hostConfig, HoldsKey X fs base key f hostConfig
    · obtain ⟨hostConfig, hh⟩ := hf
      exact ⟨f, hostConfig, Or.inl ⟨rfl, hh⟩⟩
    · obtain ⟨g, hg, hh⟩ := h
      rcases List.mem_cons.mp hg with rfl | hg
      · exact (hf hh).elim
      · obtain ⟨file, hostConfig, hfirst⟩ := ih ⟨g, hg, hh⟩
        exact ⟨file, hostConfig, Or.inr ⟨fun c hc => hf ⟨c, hc⟩, hfirst⟩⟩

theorem searchFiles_none (hbase : ∀ n ∈ base, ProperName n) {files : List Path}
    (h : ∀ file ∈ files, ∀ c, ¬ HoldsKey X fs base key file c) :
    (searchFiles X fs base key files).result = .ok none := by
  have hnil : holders X fs base key files = [] :=
    List.filter_eq_nil_iff.mpr fun file hfile => by simpa using h file hfile
  rw [searchFiles_holders hbase, hnil]
  rfl

theorem isText_append {p q : Path} :
    fs.isText (p ++ q) = true ↔ fs.isText p = true ∧ fs.isText q = true := by
  simp [FileSystem.isText]

theorem isText_ascii {p : Path} (h : ∀ c ∈ p, c.toNat < 128) : fs.isText p = true := by
  rw [FileSystem.isText, List.all_eq_true]
  intro c hc
  rw [fs.stray_ascii c (h c hc)]
  rfl

theorem toml_isText : fs.isText ".toml".toList = true := isText_ascii (by simp)

theorem stemText_of_toml {file : Path} (h : TomlPath fs file) : ∃ stem, StemText fs file stem := by
  obtain ⟨dir, name, hslash, htext, rfl⟩ := h
  have hname :
      fileName (dir ++ '/' :: (name ++ ".toml".toList)) = some (name ++ ".toml".toList) := by
    refine fileName_append_slash (by simp) (fun h => ?_) (fun h => ?_) (by simp [hslash])
    · simpa using congrArg List.length h
    · simpa using congrArg List.length h
  obtain ⟨stem, hstem⟩ : ∃ stem, fileStem (dir ++ '/' :: (name ++ ".toml".toList)) = some stem :=
    ⟨_, by rw [fileStem, hname, Option.map_some]⟩
  refine ⟨stem, hstem, List.all_eq_true.mpr fun c hc => ?_⟩
  have hfile : fs.isText (name ++ ".toml".toList) = true := isText_append.mpr ⟨htext, toml_isText⟩
  exact List.all_eq_true.mp hfile c ((fileStem_of_name hname (by simp) hstem).2 c hc)

theorem searchFiles_yielding (paths : List (Except String Path)) (files : List Path) :
    searchFiles (X.yielding paths) fs base key files = searchFiles X fs base key files := by
  induction files with
  | nil => rfl
  | cons file files ih =>
    have hv : visit (X.yielding paths) fs base key file = visit X fs base key file := rfl
    rw [searchFiles, searchFiles, hv, ih]

theorem readTomlFile_map {S T : Type} (fromStr : String → Except String S) (f : S → T)
    (file : Path) :
    readTomlFile (fun text => (fromStr text).map f) fs file =
      (readTomlFile fromStr fs file).map f := by
  unfold readTomlFile
  cases readToString fs file <;> rfl

end

def Visit.rewrite (r : HostConfig → HostConfig) : Visit → Visit
  | .found hostConfig => .found (r hostConfig)
  | v => v

theorem Visit.rewrite_eq_found {r : HostConfig → HostConfig} {v : Visit} {c : HostConfig} :
    v.rewrite r = .found c ↔ ∃ hostConfig, v = .found hostConfig ∧ r hostConfig = c := by
  cases v <;> simp [Visit.rewrite]

def rewriteFound (r : HostConfig → HostConfig) (o : Outcome (Option (String × HostConfig))) :
    Outcome (Option (String × HostConfig)) := do
  let found ← o
  pure (found.map fun f => (f.1, r f.2))

def SameKeys (X : Crates) (r : HostConfig → HostConfig) : Prop :=
  ∀ hostConfig, parsedKeyData X (r hostConfig).publicKey = parsedKeyData X hostConfig.publicKey

section

variable {X : Crates} {fs : FileSystem} {config : Ca} {base : Location} {key key' : PublicKey}
  {r : HostConfig → HostConfig}

theorem visit_rewriting (hr : SameKeys X r) (hkey : key'.keyData = key.keyData) (file : Path) :
    visit (X.rewriting r) fs base key' file = (visit X fs base key file).rewrite r := by
  have hread : readTomlFile (X.rewriting r).hostConfigFromStr fs file =
      (readTomlFile X.hostConfigFromStr fs file).map r := readTomlFile_map _ r file
  unfold visit
  rw [hread, hkey]
  cases fs.canonicalize file with
  | error e => rfl
  | ok loc =>
    by_cases hs : startsWith (ofLocation loc) (ofLocation base) = true
    · simp only [hs, Bool.not_true, Bool.false_eq_true, if_false]
      cases readTomlFile X.hostConfigFromStr fs file with
      | error e => rfl
      | ok hostConfig =>
        have hsame := hr hostConfig
        unfold parsedKeyData at hsame
        simp only [Except.map, Crates.rewriting]
        cases hk : X.fromOpenssh hostConfig.publicKey with
        | error e =>
          cases hk' : X.fromOpenssh (r hostConfig).publicKey with
          | error e' => rfl
          | ok k' => simp [hk, hk', Except.toOption] at hsame
        | ok k =>
          cases hk' : X.fromOpenssh (r hostConfig).publicKey with
          | error e' => simp [hk, hk', Except.toOption] at hsame
          | ok k' =>
            have hdata : k'.keyData = k.keyData := by simpa [hk, hk', Except.toOption] using hsame
            simp only [hdata]
            split <;> rfl
    · simp only [hs, Bool.not_false, if_true]
      rfl

theorem stemOf_rewrite (file : Path) (hostConfig : HostConfig) :
    stemOf fs file (r hostConfig) = rewriteFound r (stemOf fs file hostConfig) := by
  unfold stemOf
  cases fileStem file with
  | none => rfl
  | some stem =>
    dsimp only
    cases toStr fs stem <;> rfl

theorem searchFiles_rewriting (hr : SameKeys X r) (hkey : key'.keyData = key.keyData)
    (files : List Path) :
    (searchFiles (X.rewriting r) fs base key' files).result =
      rewriteFound r (searchFiles X fs base key files).result := by
  induction files with
  | nil => rfl
  | cons file files ih =>
    have hv : visit (X.rewriting r) fs base key' file = (visit X fs base key file).rewrite r :=
      visit_rewriting hr hkey file
    by_cases hf : ∃ hostConfig, visit X fs base key file = .found hostConfig
    · obtain ⟨hostConfig, hc⟩ := hf
      rw [searchFiles_found hc, searchFiles_found (hv.trans (congrArg _ hc)), stemOf_rewrite]
    · rw [searchFiles_passed fun c hc => hf ⟨c, hc⟩, searchFiles_passed, ih]
      intro c hc
      obtain ⟨hostConfig, hx, -⟩ := Visit.rewrite_eq_found.mp (hv.symm.trans hc)
      exact hf ⟨hostConfig, hx⟩

theorem parsedKeyData_eq_some {text : String} {data : KeyData} :
    parsedKeyData X text = some data ↔
      ∃ key, X.fromOpenssh text = .ok key ∧ key.keyData = data := by
  rw [parsedKeyData]
  cases X.fromOpenssh text <;> simp [Except.toOption]

theorem findConfigByPublicKey_yielding {paths : List (Except String Path)} {publicKey : String}
    (hbase : fs.canonicalize config.hostInventory = .ok base)
    (htext : fs.isText (ofLocation base) = true)
    (hkey : X.fromOpenssh publicKey = .ok key) :
    findConfigByPublicKey (X.yielding paths) fs publicKey config =
      searchFiles X fs base key (flattenOk paths) := by
  have hkey' : (X.yielding paths).fromOpenssh publicKey = .ok key := hkey
  rw [findConfigByPublicKey, hkey', ← searchFiles_yielding paths]
  simp only [hbase, toStr_of_text htext]
  rfl

theorem findConfigByPublicKey_unparsed {paths : List (Except String Path)} {publicKey : String}
    (hkey : parsedKeyData X publicKey = none) :
    (findConfigByPublicKey (X.yielding paths) fs publicKey config).result = .ok none := by
  cases hk : X.fromOpenssh publicKey with
  | error e =>
    have hk' : (X.yielding paths).fromOpenssh publicKey = .error e := hk
    rw [findConfigByPublicKey, hk']
  | ok key => simp [parsedKeyData, hk, Except.toOption] at hkey

theorem findConfigByPublicKey_first {paths : List (Except String Path)} {publicKey : String}
    (hbase : fs.canonicalize config.hostInventory = .ok base)
    (htext : fs.isText (ofLocation base) = true)
    (htoml : ∀ file ∈ flattenOk paths, TomlPath fs file)
    (hkey : X.fromOpenssh publicKey = .ok key)
    (hholder : ∃ file ∈ flattenOk paths, ∃ c, HoldsKey X fs base key file c) :
    ∃ file hostConfig stem, FirstHolder X fs base key (flattenOk paths) file hostConfig ∧
      StemText fs file stem ∧
      (findConfigByPublicKey (X.yielding paths) fs publicKey config).result =
        .ok (some (String.ofList stem, hostConfig)) := by
  obtain ⟨file, hostConfig, hf⟩ := exists_firstHolder hholder
  obtain ⟨earlier, later, hsplit, -⟩ := hf.first
  obtain ⟨stem, hstem⟩ := stemText_of_toml (htoml file (by simp [hsplit]))
  refine ⟨file, hostConfig, stem, hf, hstem, ?_⟩
  rw [findConfigByPublicKey_yielding hbase htext hkey]
  exact (searchFiles_result (fs.canonicalize_real hbase).proper).mpr ⟨file, stem, hf, hstem, rfl⟩

theorem findConfigByPublicKey_none_iff {paths : List (Except String Path)} {publicKey : String}
    (hbase : fs.canonicalize config.hostInventory = .ok base)
    (htext : fs.isText (ofLocation base) = true)
    (htoml : ∀ file ∈ flattenOk paths, TomlPath fs file) :
    (findConfigByPublicKey (X.yielding paths) fs publicKey config).result = .ok none ↔
      ∀ key, X.fromOpenssh publicKey = .ok key →
        ∀ file ∈ flattenOk paths, ∀ c, ¬ HoldsKey X fs base key file c := by
  constructor
  · intro h key hkey file hfile c hc
    obtain ⟨_, _, _, -, -, hsome⟩ :=
      findConfigByPublicKey_first hbase htext htoml hkey ⟨file, hfile, c, hc⟩
    rw [h] at hsome
    simp at hsome
  · intro h
    cases hk : parsedKeyData X publicKey with
    | none => exact findConfigByPublicKey_unparsed hk
    | some data =>
      obtain ⟨key, hkey, -⟩ := parsedKeyData_eq_some.mp hk
      rw [findConfigByPublicKey_yielding hbase htext hkey]
      exact searchFiles_none (fs.canonicalize_real hbase).proper (h key hkey)

theorem findConfigByPublicKey_rewriting {paths paths' : List (Except String Path)}
    {publicKey publicKey' : String} (hbase : fs.canonicalize config.hostInventory = .ok base)
    (htext : fs.isText (ofLocation base) = true) (hr : SameKeys X r)
    (hdata : parsedKeyData X publicKey' = parsedKeyData X publicKey)
    (hsame : ∀ key, X.fromOpenssh publicKey = .ok key →
      holders X fs base key (flattenOk paths') = holders X fs base key (flattenOk paths)) :
    (findConfigByPublicKey ((X.rewriting r).yielding paths') fs publicKey' config).result =
      rewriteFound r (findConfigByPublicKey (X.yielding paths) fs publicKey config).result := by
  have hproper := (fs.canonicalize_real hbase).proper
  cases hk : parsedKeyData X publicKey with
  | none =>
    have hk' : parsedKeyData (X.rewriting r) publicKey' = none := hdata.trans hk
    rw [findConfigByPublicKey_unparsed hk, findConfigByPublicKey_unparsed hk']
    rfl
  | some data =>
    obtain ⟨key, hkey, hkeyData⟩ := parsedKeyData_eq_some.mp hk
    obtain ⟨key', hkey', hkeyData'⟩ := parsedKeyData_eq_some.mp (hdata.trans hk)
    have hkey' : (X.rewriting r).fromOpenssh publicKey' = .ok key' := hkey'
    have hkeys : key'.keyData = key.keyData := hkeyData'.trans hkeyData.symm
    rw [findConfigByPublicKey_yielding hbase htext hkey,
      findConfigByPublicKey_yielding hbase htext hkey',
      searchFiles_rewriting hr hkeys, searchFiles_holders hproper (flattenOk paths'),
      hsame key hkey, ← searchFiles_holders hproper]

end

def rackFs : FileSystem := inventoryFs [("web.toml".toList, .file (utf8 webConfigText))]

def mixedPaths : List (Except String Path) :=
  [.error "permission denied", .ok "/etc/ssh_ca/hosts/gone.toml".toList,
    .ok "/etc/ssh_ca/hosts/web.toml".toList]

end SshCertificateAuthority
