import SshCertificateAuthority.CertificatAuthority.HostConfigReader

namespace SshCertificateAuthority
open ByteStream UnixPath FileTree

structure Confined (fs : FileSystem) (inventory file : Path) (base loc : Location) : Prop where
  inventory_at : fs.canonicalize inventory = .ok base
  file_at : fs.canonicalize file = .ok loc
  inventory_real : Real fs.root base
  file_real : Real fs.root loc
  regular : ∃ content, fs.root.get? loc = some (.file content)
  below : base <+: loc
  strict : (∃ entries, fs.root.get? base = some (.dir entries)) → base ≠ loc

theorem confined_of_read {fs : FileSystem} {inventory file : Path} {base loc : Location}
    {text : String} (hbase : fs.canonicalize inventory = .ok base)
    (hloc : fs.canonicalize file = .ok loc)
    (hwithin : startsWith (ofLocation loc) (ofLocation base) = true)
    (hread : readToString fs file = .ok text) : Confined fs inventory file base loc := by
  have hb := fs.canonicalize_real hbase
  have hl := fs.canonicalize_real hloc
  obtain ⟨loc', content, hloc', hfile, -⟩ := readToString_eq_ok hread
  obtain rfl : loc = loc' := Except.ok.inj (hloc.symm.trans hloc')
  refine ⟨hbase, hloc, hb, hl, ⟨content, hfile⟩,
    (startsWith_ofLocation hl.proper hb.proper).mp hwithin, ?_⟩
  rintro ⟨entries, hdir⟩ rfl
  rw [hdir] at hfile
  simp at hfile

theorem parsed_host_configs_confined (X : Crates) (fs : FileSystem) (config : Ca) :
    (∀ hostName hostConfig, readHostConfig X fs hostName config = .ok hostConfig →
      ∃ base loc text,
        Confined fs config.hostInventory (hostConfigPath hostName config) base loc ∧
        readToString fs (ofLocation loc) = .ok text ∧
        X.hostConfigFromStr text = .ok hostConfig) ∧
    ∀ publicKey file text, file ∈ (findConfigByPublicKey X fs publicKey config).parsed →
      readToString fs file = .ok text →
      ∃ base loc, Confined fs config.hostInventory file base loc := by
  constructor
  · intro hostName hostConfig h
    obtain ⟨base, loc, text, hb, hl, hs, ht, hparse⟩ := readHostConfig_eq_ok h
    exact ⟨base, loc, text, confined_of_read hb hl hs ht, (readToString_ofLocation hl).trans ht,
      hparse⟩
  · intro publicKey file text hfile ht
    obtain ⟨base, loc, hb, hl, hs⟩ := findConfigByPublicKey_parsed hfile
    exact ⟨base, loc, confined_of_read hb hl hs ht⟩

def linkedInventory : FileSystem :=
  inventoryFs [("web.toml".toList, .symlink "../hosts/racks/r1.toml".toList),
    ("racks".toList, .dir [("r1.toml".toList, .file (utf8 webConfigText))])]

theorem linked_config_confined :
    ∃ base loc text,
      Confined linkedInventory localConfig.hostInventory (hostConfigPath "web" localConfig) base
        loc ∧
      readToString linkedInventory (ofLocation loc) = .ok text ∧
      webCrates.hostConfigFromStr text = .ok webConfig := by
  have hread : linkedInventory.read "/etc/ssh_ca/hosts/racks/r1.toml".toList =
    .ok (utf8 webConfigText) := rfl
  have hsafe : readHostConfig webCrates linkedInventory "web" localConfig =
    readTomlFile webCrates.hostConfigFromStr linkedInventory
      "/etc/ssh_ca/hosts/racks/r1.toml".toList := rfl
  have hweb := hsafe.trans (readTomlFile_of_read hread)
  exact (parsed_host_configs_confined webCrates linkedInventory localConfig).1 "web" webConfig hweb

theorem inventory_file_parsed :
    let config := { localConfig with hostInventory := "/etc/ssh_ca/hosts/racks/r1.toml".toList }
    readHostConfig webCrates linkedInventory "/etc/ssh_ca/hosts/racks/r1" config =
        .ok webConfig ∧
      ¬ ∃ base loc, linkedInventory.canonicalize config.hostInventory = .ok base ∧
        linkedInventory.canonicalize (hostConfigPath "/etc/ssh_ca/hosts/racks/r1" config) =
          .ok loc ∧ base <+: loc ∧ base ≠ loc := by
  have hread : linkedInventory.read "/etc/ssh_ca/hosts/racks/r1.toml".toList =
    .ok (utf8 webConfigText) := rfl
  refine ⟨(rfl : _ = readTomlFile webCrates.hostConfigFromStr linkedInventory
    "/etc/ssh_ca/hosts/racks/r1.toml".toList).trans (readTomlFile_of_read hread), ?_⟩
  rintro ⟨base, loc, hbase, hloc, -, hne⟩
  exact hne (Except.ok.inj (hbase.symm.trans hloc))

end SshCertificateAuthority
