import Mathlib.Data.List.Forall2
import SshCertificateAuthority.Config.ReadConfig

namespace SshCertificateAuthority
open ByteStream UnixPath FileTree

def SshServerConfig.paths (config : SshServerConfig) : List Path :=
  config.privateKey.toList :: config.certificate.toList.map String.toList

def Ca.paths (config : Ca) : List Path :=
  [config.caKey, config.userListFile, config.defaultUserTemplate, config.hostInventory]

def Config.paths (config : Config) : List Path := config.ssh.paths ++ config.ca.paths

structure ResolvedAt (dir written setting : Path) : Prop where
  rooted : hasRoot written = true → setting = written
  joined : hasRoot written = false → setting = push dir written

-- Setting by setting: the two lists are as long as each other, so a certificate is not dropped.
def PathsResolved (dir : Path) (written config : Config) : Prop :=
  List.Forall₂ (ResolvedAt dir) written.paths config.paths

structure OpensAnywhere (fs : FileSystem) (config : Config) : Prop where
  rooted : ∀ p ∈ config.paths, hasRoot p = true
  opened : ∀ fs' : FileSystem, fs'.root = fs.root → fs'.maxLinks = fs.maxLinks →
    ∀ p ∈ config.paths, fs'.canonicalize p = fs.canonicalize p

section

variable {dir p : Path}

theorem insertRoot_resolved (dir p : Path) : ResolvedAt dir p (insertRoot dir p) := by
  refine ⟨fun h => ?_, fun h => ?_⟩
  · simp [insertRoot, h]
  · simp [insertRoot, h]

theorem unchanged_resolved_iff : ResolvedAt dir p p ↔ dir = [] ∨ hasRoot p = true := by
  constructor
  · intro h
    by_contra hnot
    obtain ⟨hdir, hp⟩ := not_or.mp hnot
    have hp := Bool.eq_false_iff.mpr hp
    exact push_ne_self hdir hp (h.joined hp).symm
  · rintro (rfl | hp)
    · exact ⟨fun _ => rfl, fun _ => (push_nil p).symm⟩
    · exact ⟨fun _ => rfl, fun h => by simp [hp] at h⟩

theorem ResolvedAt.hasRoot {setting : Path} (h : ResolvedAt dir p setting)
    (hdir : UnixPath.hasRoot dir = true) : UnixPath.hasRoot setting = true := by
  by_cases hp : UnixPath.hasRoot p = true
  · rw [h.rooted hp]
    exact hp
  · rw [h.joined (Bool.eq_false_iff.mpr hp)]
    exact hasRoot_push hdir p

theorem resolved_hasRoot {written settings : List Path}
    (h : List.Forall₂ (ResolvedAt dir) written settings) (hdir : hasRoot dir = true) :
    ∀ p ∈ settings, hasRoot p = true := by
  induction h with
  | nil => simp
  | cons hp _ ih => exact List.forall_mem_cons.mpr ⟨hp.hasRoot hdir, ih⟩

theorem ca_insertConfigPath_resolved (dir : Path) (config : Ca) :
    List.Forall₂ (ResolvedAt dir) config.paths (config.insertConfigPath dir).paths := by
  refine .cons ?_ (.cons ?_ (.cons ?_ (.cons ?_ .nil)))
  all_goals exact insertRoot_resolved dir _

theorem ssh_unchanged_resolved_iff (config : SshServerConfig) :
    List.Forall₂ (ResolvedAt dir) config.paths config.paths ↔
      dir = [] ∨ ∀ p ∈ config.paths, hasRoot p = true := by
  rw [List.forall₂_same]
  simp only [unchanged_resolved_iff]
  constructor
  · intro h
    by_cases hdir : dir = []
    · exact Or.inl hdir
    · exact Or.inr fun p hp => (h p hp).resolve_left hdir
  · rintro (hdir | h) p hp
    · exact Or.inl hdir
    · exact Or.inr (h p hp)

-- `read_config` calls it for no section; the certificate would stay as written even so.
theorem ssh_insertConfigPath_resolved_iff (config : SshServerConfig) :
    List.Forall₂ (ResolvedAt dir) config.paths (config.insertConfigPath dir).paths ↔
      dir = [] ∨ ∀ certificate ∈ config.certificate, hasRoot certificate.toList = true := by
  have hkey := insertRoot_resolved dir config.privateKey.toList
  cases hcertificate : config.certificate with
  | none => simp [SshServerConfig.paths, SshServerConfig.insertConfigPath, hcertificate, hkey]
  | some certificate =>
    simp [SshServerConfig.paths, SshServerConfig.insertConfigPath, hcertificate, hkey,
      unchanged_resolved_iff]

variable {written config : Config}

theorem pathsResolved_iff (hssh : config.ssh = written.ssh)
    (hca : config.ca = written.ca.insertConfigPath dir) :
    PathsResolved dir written config ↔
      dir = [] ∨ ∀ p ∈ written.ssh.paths, hasRoot p = true := by
  rw [← ssh_unchanged_resolved_iff, PathsResolved, Config.paths, Config.paths, hssh, hca]
  constructor
  · intro h
    have hssh := List.forall₂_take_append _ _ _ h
    rwa [List.take_left] at hssh
  · exact fun h => List.rel_append h (ca_insertConfigPath_resolved dir written.ca)

theorem PathsResolved.opensAnywhere (h : PathsResolved dir written config)
    (hdir : hasRoot dir = true) (fs : FileSystem) : OpensAnywhere fs config where
  rooted := resolved_hasRoot h hdir
  opened _ hroot hlinks p hp := fs.canonicalize_rooted hroot hlinks (resolved_hasRoot h hdir p hp)

end

theorem relative_paths_iff {X : Crates} {fromStr : String → Except String Config}
    {fs : FileSystem} {filePath : String} {written config : Config} {dir : Path}
    (hw : Written fromStr fs filePath written dir)
    (h : readConfig X fromStr fs filePath = .ok config) :
    (PathsResolved dir written config ↔
      dir = [] ∨ ∀ p ∈ written.ssh.paths, hasRoot p = true) ∧
    List.Forall₂ (ResolvedAt dir) written.ca.paths config.ca.paths ∧
    (hasRoot filePath.toList = true →
      (PathsResolved dir written config ↔ OpensAnywhere fs config)) := by
  obtain ⟨written', dir', hw', rfl⟩ := readConfig_eq_ok h
  obtain ⟨rfl, rfl⟩ := hw.unique hw'
  have hiff : PathsResolved dir written { written with ca := written.ca.insertConfigPath dir } ↔
      dir = [] ∨ ∀ p ∈ written.ssh.paths, hasRoot p = true := pathsResolved_iff rfl rfl
  refine ⟨hiff, ca_insertConfigPath_resolved dir written.ca, fun hroot => ⟨fun hresolved => ?_,
    fun hopens => hiff.mpr (Or.inr fun p hp => ?_)⟩⟩
  · exact hresolved.opensAnywhere (hasRoot_parent hroot hw.directory) fs
  · exact hopens.rooted p (List.mem_append_left _ hp)

def configText (privateKey : String) : String :=
  "[ssh]\nbind = \"0.0.0.0\"\nport = 2222\nprivate_key = \"" ++ privateKey ++
    "\"\n[ca]\nca_key = \"ca_key\"\nuser_list_file = \"users.toml\"\n" ++
    "default_user_template = \"default.toml\"\nhost_inventory = \"hosts\"\n" ++
    "[identity_handlers]\nuser_authenticators = [\"pam\"]\n"

def configWith (privateKey : String) : Config where
  ssh := ⟨"0.0.0.0", 2222, privateKey, none⟩
  ca := ⟨"users.toml".toList, "default.toml".toList, "hosts".toList, "ca_key".toList⟩
  identityHandlers := ⟨["pam"]⟩

def configFs (privateKey : String) : FileSystem where
  root := .dir [("etc".toList, .dir [("ssh_ca".toList, .dir
    [("config.toml".toList, .file (utf8 (configText privateKey))),
      ("ca_key".toList, .file (utf8 "ca")), ("host_key".toList, .file (utf8 "host"))])])]
  cwd := []
  maxLinks := 40
  cwd_isDir := rfl
  cwd_proper := proper_nil

def configFrom (privateKey : String) : Outcome Config :=
  readConfig .refusing (fun _ => .ok (configWith privateKey)) (configFs privateKey)
    "/etc/ssh_ca/config.toml"

def configRead (privateKey : String) : Config :=
  { configWith privateKey with
    ca := (configWith privateKey).ca.insertConfigPath "/etc/ssh_ca".toList }

theorem readToString_configFs (privateKey : String) :
    readToString (configFs privateKey) "/etc/ssh_ca/config.toml".toList =
      .ok (configText privateKey) :=
  readToString_of_read rfl

theorem configFrom_eq (privateKey : String) :
    configFrom privateKey = .ok (configRead privateKey) := by
  have hexists : (configFs privateKey).pathExists "/etc/ssh_ca/config.toml".toList = true := rfl
  have hparent : parent "/etc/ssh_ca/config.toml".toList = some "/etc/ssh_ca".toList := rfl
  simp only [configFrom, readConfig, hexists, hparent, readToString_configFs, Bool.not_true]
  rfl

theorem configWith_written (privateKey : String) :
    Written (fun _ => .ok (configWith privateKey)) (configFs privateKey) "/etc/ssh_ca/config.toml"
      (configWith privateKey) "/etc/ssh_ca".toList :=
  ⟨⟨_, readToString_configFs privateKey, rfl⟩, rfl⟩

theorem relative_private_key_kept :
    configFrom "host_key" = .ok (configRead "host_key") ∧
      (configRead "host_key").ssh.privateKey = "host_key" ∧
      (configFs "host_key").pathExists "host_key".toList = false ∧
      (configFs "host_key").pathExists "/etc/ssh_ca/host_key".toList = true ∧
      ¬ PathsResolved "/etc/ssh_ca".toList (configWith "host_key") (configRead "host_key") := by
  have hiff : PathsResolved "/etc/ssh_ca".toList (configWith "host_key") (configRead "host_key") ↔
      "/etc/ssh_ca".toList = [] ∨ ∀ p ∈ (configWith "host_key").ssh.paths, hasRoot p = true :=
    pathsResolved_iff rfl rfl
  refine ⟨configFrom_eq "host_key", rfl, rfl, rfl, fun h => ?_⟩
  rcases hiff.mp h with hdir | hrooted
  · simp at hdir
  · have hkey := hrooted "host_key".toList List.mem_cons_self
    simp [hasRoot] at hkey

theorem rooted_private_key_resolved :
    OpensAnywhere (configFs "/etc/ssh_ca/host_key") (configRead "/etc/ssh_ca/host_key") := by
  have hresults := relative_paths_iff (configWith_written "/etc/ssh_ca/host_key")
    (configFrom_eq "/etc/ssh_ca/host_key")
  refine (hresults.2.2 rfl).mp (hresults.1.mpr (Or.inr fun p hp => ?_))
  obtain rfl : p = "/etc/ssh_ca/host_key".toList := by
    simpa [SshServerConfig.paths, configWith] using hp
  rfl

end SshCertificateAuthority
