import SshCertificateAuthority.CertificatAuthority.Authority
import SshCertificateAuthority.CertificatAuthority.InventorySearch
import SshCertificateAuthority.SshServer.KeySigners

namespace SshCertificateAuthority
open ByteStream UnixPath FileTree

section

variable {X : Crates} {fs : FileSystem} {hostConfig : HostConfig}

theorem validateHostname_eq_ok {hostName : String} :
    validateHostname hostName = .ok () ↔ hostName.toList ≠ [] ∧ '/' ∉ hostName.toList ∧
      '\\' ∉ hostName.toList ∧ ¬ ['.', '.'] <:+: hostName.toList ∧ '\x00' ∉ hostName.toList := by
  unfold validateHostname
  dsimp only
  split
  · next h =>
    apply iff_of_false (by simp)
    tauto
  · next h =>
    apply iff_of_true rfl
    tauto

theorem readHostConfig_iff {config : Ca} {hostName : String} :
    readHostConfig X fs hostName config = .ok hostConfig ↔
      ∃ base loc, fs.canonicalize config.hostInventory = .ok base ∧
        fs.canonicalize (hostConfigPath hostName config) = .ok loc ∧ base <+: loc ∧
        readTomlFile X.hostConfigFromStr fs (ofLocation loc) = .ok hostConfig := by
  unfold readHostConfig ensurePathWithinDirectory
  cases hb : fs.canonicalize config.hostInventory with
  | error e => simp
  | ok base =>
    cases hl : fs.canonicalize (hostConfigPath hostName config) with
    | error e => simp
    | ok loc =>
      have hwithin := startsWith_ofLocation (fs.canonicalize_real hl).proper
        (fs.canonicalize_real hb).proper
      by_cases hs : startsWith (ofLocation loc) (ofLocation base) = true
      · simp [hs, hwithin.mp hs]
      · simp [hs, mt hwithin.mpr hs]

end

structure Locates (X : Crates) (fs : FileSystem) (config : Ca) (base : Location) (file : Path)
    (hostConfig : HostConfig) (stem : Name) : Prop where
  no_backslash : '\\' ∉ stem
  no_dots : ¬ ['.', '.'] <:+: stem
  target : ∃ loc, fs.canonicalize (push config.hostInventory (stem ++ ".toml".toList)) = .ok loc ∧
    base <+: loc ∧ (fs.canonicalize file = .ok loc ∨
      readTomlFile X.hostConfigFromStr fs (ofLocation loc) = .ok hostConfig)

def StemsLocate (X : Crates) (fs : FileSystem) (config : Ca) (publicKey : String) : Prop :=
  ∀ key base paths file hostConfig stem, X.fromOpenssh publicKey = .ok key →
    fs.canonicalize config.hostInventory = .ok base → fs.isText (ofLocation base) = true →
    X.glob fs (inventoryPattern base) = .ok paths →
    FirstHolder X fs base key (flattenOk paths) file hostConfig → StemText fs file stem →
    Locates X fs config base file hostConfig stem

def LoginAgrees (X : Crates) (w : World) (ca : CertificateAuthority) (publicKey : String) : Prop :=
  ∀ hostName hostConfig,
    (findConfigByPublicKey X w.fs publicKey ca.config).result = .ok (some (hostName, hostConfig)) →
    validateHostname hostName = .ok () ∧
    readHostConfig X w.fs hostName ca.config = .ok hostConfig ∧
    ∀ key subject, X.fromOpenssh publicKey = .ok key → subject.keyData = key.keyData →
      ca.signHostCertificate X w hostName subject =
        CertificateAuthority.issue w ca .host "host" hostName hostConfig.validityInDays
          hostConfig.hostnames hostConfig.extensions subject

section

variable {X : Crates} {fs : FileSystem} {config : Ca} {base : Location} {file : Path}
  {hostConfig : HostConfig} {stem : Name}

theorem hostConfigPath_ofList (stem : Name) (config : Ca) :
    hostConfigPath (String.ofList stem) config =
      push config.hostInventory (stem ++ ".toml".toList) := by
  rw [hostConfigPath, String.toList_append, String.toList_ofList]

theorem validateHostname_stem (hstem : fileStem file = some stem) {loc : Location}
    (hloc : fs.canonicalize file = .ok loc) :
    validateHostname (String.ofList stem) = .ok () ↔ '\\' ∉ stem ∧ ¬ ['.', '.'] <:+: stem := by
  obtain ⟨hne, hslash, hsub⟩ := fileStem_eq_some hstem
  have hnul : '\x00' ∉ stem := fun h => fs.nul_not_mem_of_canonicalize hloc (hsub _ h)
  rw [validateHostname_eq_ok, String.toList_ofList]
  tauto

theorem located_iff (hbase : fs.canonicalize config.hostInventory = .ok base)
    {key : PublicKey} (hholds : HoldsKey X fs base key file hostConfig)
    (hstem : fileStem file = some stem) :
    Locates X fs config base file hostConfig stem ↔
      validateHostname (String.ofList stem) = .ok () ∧
        readHostConfig X fs (String.ofList stem) config = .ok hostConfig := by
  obtain ⟨loc, hloc, hwithin⟩ := hholds.within
  rw [validateHostname_stem hstem hloc, readHostConfig_iff, hostConfigPath_ofList]
  constructor
  · rintro ⟨hback, hdots, loc', hloc', hbelow, hsame⟩
    refine ⟨⟨hback, hdots⟩, base, loc', hbase, hloc', hbelow, ?_⟩
    rcases hsame with hsame | htwin
    · rw [readTomlFile, readToString_ofLocation hsame]
      exact hholds.parsed
    · exact htwin
  · rintro ⟨⟨hback, hdots⟩, base', loc', hbase', hloc', hbelow, hread⟩
    obtain rfl : base = base' := Except.ok.inj (hbase.symm.trans hbase')
    exact ⟨hback, hdots, loc', hloc', hbelow, Or.inr hread⟩

end

theorem login_agrees_iff (X : Crates) (w : World) (ca : CertificateAuthority)
    (publicKey : String) :
    LoginAgrees X w ca publicKey ↔ StemsLocate X w.fs ca.config publicKey := by
  constructor
  · intro h key base paths file hostConfig stem hk hb htext hg hfirst hstem
    have hfound := findConfigByPublicKey_found.mpr
      ⟨key, base, paths, file, stem, hk, hb, htext, hg, hfirst, hstem, rfl⟩
    obtain ⟨hvalid, hread, -⟩ := h _ _ hfound
    exact (located_iff hb hfirst.holds hstem.1).mpr ⟨hvalid, hread⟩
  · intro h hostName hostConfig hfound
    obtain ⟨key, base, paths, file, stem, hk, hb, htext, hg, hfirst, hstem, rfl⟩ :=
      findConfigByPublicKey_found.mp hfound
    obtain ⟨hvalid, hread⟩ := (located_iff hb hfirst.holds hstem.1).mp
      (h key base paths file hostConfig stem hk hb htext hg hfirst hstem)
    refine ⟨hvalid, hread, fun key' subject hk' hsubject => ?_⟩
    obtain rfl : key = key' := Except.ok.inj (hk.symm.trans hk')
    obtain ⟨configPubKey, hck, hdata⟩ := hfirst.holds.key_eq
    exact signHostCertificate_of_match hread hck (hdata.trans hsubject.symm)

theorem stemsLocate_of_flat {X : Crates} {fs : FileSystem} {config : Ca} {base : Location}
    (hinventory : config.hostInventory = ofLocation base)
    (hbase : fs.canonicalize config.hostInventory = .ok base)
    (hflat : ∀ paths, X.glob fs (inventoryPattern base) = .ok paths →
      ∀ file ∈ flattenOk paths, ∃ name : String, validateHostname name = .ok () ∧
        file = ofLocation (base ++ [name.toList ++ ".toml".toList]))
    (publicKey : String) : StemsLocate X fs config publicKey := by
  intro key base' paths file hostConfig stem _ hb _ hg hfirst hstem
  obtain rfl : base = base' := Except.ok.inj (hbase.symm.trans hb)
  obtain ⟨earlier, later, hsplit, -⟩ := hfirst.first
  obtain ⟨name, hname, rfl⟩ := hflat paths hg file (by simp [hsplit])
  obtain ⟨hne, hslash, hback, hdots, hnul⟩ := validateHostname_eq_ok.mp hname
  have hproper := (fs.canonicalize_real hbase).proper
  have hfile : ProperName (name.toList ++ ".toml".toList) := by
    refine ⟨by simp, fun h => ?_, fun h => ?_, by simp [hslash], by simp [hnul]⟩
    · simpa using congrArg List.length h
    · simpa using congrArg List.length h
  have hall : ∀ n ∈ base ++ [name.toList ++ ".toml".toList], ProperName n := by
    intro n hn
    rcases List.mem_append.mp hn with hn | hn
    · exact hproper n hn
    · exact List.mem_singleton.mp hn ▸ hfile
  have hstem' : fileStem (ofLocation (base ++ [name.toList ++ '.' :: "toml".toList])) =
    some name.toList := fileStem_ofLocation hall hne (by simp)
  obtain rfl : name.toList = stem := Option.some.inj (hstem'.symm.trans hstem.1)
  obtain ⟨loc, hloc, hwithin⟩ := hfirst.holds.within
  refine ⟨hback, hdots, loc, ?_, hwithin, Or.inl hloc⟩
  rw [hinventory, push_ofLocation hproper hfile.no_slash]
  exact hloc

def nestedWorld : World :=
  { bareWorld with
    fs := inventoryFs [("racks".toList, .dir [("web.toml".toList, .file (utf8 webConfigText))])] }

def nestedCrates : Crates :=
  { webCrates with glob := fun _ _ => .ok [.ok "/etc/ssh_ca/hosts/racks/web.toml".toList] }

theorem nested_host_not_found :
    ¬ LoginAgrees nestedCrates nestedWorld localAuthority ed25519Text := by
  intro h
  have hread : nestedWorld.fs.read "/etc/ssh_ca/hosts/racks/web.toml".toList =
    .ok (utf8 webConfigText) := rfl
  have hfound : (findConfigByPublicKey nestedCrates nestedWorld.fs ed25519Text
      localAuthority.config).result = .ok (some ("web", webConfig)) := by
    refine findConfigByPublicKey_found.mpr ⟨ed25519Key, _, _, _, _, rfl, rfl, rfl, rfl,
      ⟨⟨⟨_, rfl, by decide⟩, ?_, ed25519Key, rfl, rfl⟩, [], [], rfl, by simp⟩,
      ⟨by rfl, by rfl⟩, by rfl⟩
    exact readTomlFile_of_read hread
  obtain ⟨-, hconfig, -⟩ := h "web" webConfig hfound
  have hmissing : readHostConfig nestedCrates nestedWorld.fs "web" localAuthority.config =
    .error "failed to resolve host config path: No such file or directory (os error 2)" := by rfl
  rw [hmissing] at hconfig
  simp at hconfig

end SshCertificateAuthority
