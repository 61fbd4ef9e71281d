import SshCertificateAuthority.SshServer.InventoryLookup

namespace SshCertificateAuthority
open ByteStream UnixPath FileTree

def hostFile (hostName : String) : Name := (hostName ++ ".toml").toList

structure AddressesChild (inventory : Path) (hostName : String) (file : Path) : Prop where
  one_component : components file = components inventory ++ [.normal (hostFile hostName)]
  stem : fileStem file = some hostName.toList

-- With no link about, the path alone decides which file is read; the check has nothing to refuse.
structure LooksInside (fs : FileSystem) (config : Ca) (hostName : String) : Prop where
  located : ∀ loc, fs.canonicalize (hostConfigPath hostName config) = .ok loc →
    ∃ base, (config.hostInventory = [] → base = fs.cwd) ∧
      (config.hostInventory ≠ [] → fs.canonicalize config.hostInventory = .ok base) ∧
      loc = base ++ [hostFile hostName]
  unchecked : ∀ X base loc, fs.canonicalize config.hostInventory = .ok base →
    fs.canonicalize (hostConfigPath hostName config) = .ok loc →
      readHostConfig X fs hostName config =
        readTomlFile X.hostConfigFromStr fs (ofLocation (base ++ [hostFile hostName]))

section

variable {fs : FileSystem} {config : Ca} {hostName other : String}

theorem hostFile_eq (hostName : String) :
    hostFile hostName = hostName.toList ++ '.' :: "toml".toList := by
  rw [hostFile, String.toList_append]
  rfl

theorem hostFile_proper (h : validateHostname hostName = .ok ()) :
    ProperName (hostFile hostName) := by
  obtain ⟨-, hslash, -, -, hnul⟩ := validateHostname_eq_ok.mp h
  rw [hostFile_eq]
  refine ⟨by simp, fun heq => ?_, fun heq => ?_, by simp [hslash], by simp [hnul]⟩
  · simpa using congrArg List.length heq
  · simpa using congrArg List.length heq

theorem hostConfigPath_addresses (h : validateHostname hostName = .ok ()) (config : Ca) :
    AddressesChild config.hostInventory hostName (hostConfigPath hostName config) := by
  have hproper := hostFile_proper h
  refine ⟨components_push hproper config.hostInventory, ?_⟩
  have hne := (validateHostname_eq_ok.mp h).1
  rw [hostFile_eq] at hproper
  rw [hostConfigPath, ← hostFile, hostFile_eq]
  exact fileStem_push hproper hne (by decide) config.hostInventory

theorem hostFile_injective (h : hostFile hostName = hostFile other) : hostName = other := by
  rw [hostFile_eq, hostFile_eq] at h
  exact String.toList_inj.mp (List.append_cancel_right h)

theorem looksInside_of_linkFree (hfree : fs.root.linkFree)
    (h : validateHostname hostName = .ok ()) : LooksInside fs config hostName := by
  have hlocated : ∀ loc, fs.canonicalize (hostConfigPath hostName config) = .ok loc →
      ∃ base, (config.hostInventory = [] → base = fs.cwd) ∧
        (config.hostInventory ≠ [] → fs.canonicalize config.hostInventory = .ok base) ∧
        loc = base ++ [hostFile hostName] :=
    fun loc hloc => fs.canonicalize_push hfree (hostFile_proper h) hloc
  refine ⟨hlocated, fun X base loc hbase hloc => ?_⟩
  have hne : config.hostInventory ≠ [] := by
    intro hnil
    simp [hnil, FileSystem.canonicalize] at hbase
  obtain ⟨base', -, hbase', rfl⟩ := hlocated loc hloc
  obtain rfl : base = base' := Except.ok.inj (hbase.symm.trans (hbase' hne))
  have hwithin := (startsWith_ofLocation (fs.canonicalize_real hloc).proper
    (fs.canonicalize_real hbase).proper).mpr (List.prefix_append base _)
  simp only [readHostConfig, ensurePathWithinDirectory, hbase, hloc, hwithin, if_true]

end

theorem host_name_addresses_child {hostName : String} (h : validateHostname hostName = .ok ())
    (config : Ca) :
    AddressesChild config.hostInventory hostName (hostConfigPath hostName config) ∧
      (∀ other, validateHostname other = .ok () →
        components (hostConfigPath hostName config) = components (hostConfigPath other config) →
          hostName = other) ∧
      ∀ fs : FileSystem, fs.root.linkFree → LooksInside fs config hostName := by
  have haddress := hostConfigPath_addresses h config
  refine ⟨haddress, fun other hother heq => ?_, fun fs hfree => looksInside_of_linkFree hfree h⟩
  rw [haddress.one_component, (hostConfigPath_addresses hother config).one_component] at heq
  have hfile := List.append_cancel_left heq
  exact hostFile_injective (by simpa using hfile)

-- The name is one dot: its file is `..toml`.
theorem dot_host_addresses_child :
    AddressesChild "/etc/ssh_ca/hosts".toList "." "/etc/ssh_ca/hosts/..toml".toList :=
  (host_name_addresses_child (by decide) localConfig).1

end SshCertificateAuthority
