import SshCertificateAuthority.CertificatAuthority.Environment

namespace SshCertificateAuthority
open ByteStream UnixPath FileTree

structure SshServerConfig where
  bind : String
  port : UInt16
  privateKey : String
  certificate : Option String
deriving DecidableEq, Repr

structure IdentityHandlerConfig where
  userAuthenticators : List String
deriving DecidableEq, Repr

structure Config where
  ssh : SshServerConfig
  ca : Ca
  identityHandlers : IdentityHandlerConfig
deriving DecidableEq, Repr

def insertRoot (configRoot p : Path) : Path := if !hasRoot p then push configRoot p else p

def Ca.insertConfigPath (configRoot : Path) (config : Ca) : Ca where
  caKey := insertRoot configRoot config.caKey
  defaultUserTemplate := insertRoot configRoot config.defaultUserTemplate
  userListFile := insertRoot configRoot config.userListFile
  hostInventory := insertRoot configRoot config.hostInventory

def Ca.checkPaths (X : Crates) (fs : FileSystem) (config : Ca) : Except String Unit :=
  if fs.pathExists config.caKey then .ok ()
  else .error ("CA key file " ++ X.debugPath config.caKey ++ " not found")

def SshServerConfig.insertConfigPath (configRoot : Path) (config : SshServerConfig) :
    SshServerConfig :=
  { config with privateKey := String.ofList (insertRoot configRoot config.privateKey.toList) }

def SshServerConfig.checkPaths (fs : FileSystem) (config : SshServerConfig) : Except String Unit :=
  if fs.pathExists config.privateKey.toList then .ok ()
  else .error ("CA key file " ++ config.privateKey ++ " not found")

def readConfig (X : Crates) (fromStr : String → Except String Config) (fs : FileSystem)
    (filePath : String) : Outcome Config :=
  let configPath := filePath.toList
  if !fs.pathExists configPath then .err ("Config file " ++ filePath ++ " not found")
  else
    match parent configPath with
    | none => .panic "config_path.parent"
    | some configRoot => do
      let text ← Outcome.ofExcept (readToString fs configPath)
      let config ← Outcome.ofExcept (fromStr text)
      let config := { config with ca := config.ca.insertConfigPath configRoot }
      Outcome.ofExcept (config.ca.checkPaths X fs)
      pure config

structure Written (fromStr : String → Except String Config) (fs : FileSystem) (filePath : String)
    (written : Config) (dir : Path) : Prop where
  parsed : ∃ text, readToString fs filePath.toList = .ok text ∧ fromStr text = .ok written
  directory : parent filePath.toList = some dir

theorem readConfig_eq_ok {X : Crates} {fromStr : String → Except String Config} {fs : FileSystem}
    {filePath : String} {config : Config} (h : readConfig X fromStr fs filePath = .ok config) :
    ∃ written dir, Written fromStr fs filePath written dir ∧
      config = { written with ca := written.ca.insertConfigPath dir } := by
  rw [readConfig] at h
  dsimp only at h
  split at h
  · simp at h
  · split at h
    · simp at h
    · next dir hdir =>
      obtain ⟨text, htext, h⟩ := Outcome.bind_eq_ok h
      obtain ⟨written, hwritten, h⟩ := Outcome.bind_eq_ok h
      obtain ⟨-, -, h⟩ := Outcome.bind_eq_ok h
      rw [Outcome.ofExcept_eq_ok] at htext hwritten
      exact ⟨written, dir, ⟨⟨text, htext, hwritten⟩, hdir⟩, (Outcome.ok.inj h).symm⟩

theorem Written.unique {fromStr : String → Except String Config} {fs : FileSystem}
    {filePath : String} {written written' : Config} {dir dir' : Path}
    (h : Written fromStr fs filePath written dir)
    (h' : Written fromStr fs filePath written' dir') : written = written' ∧ dir = dir' := by
  obtain ⟨⟨text, htext, hparsed⟩, hdir⟩ := h
  obtain ⟨⟨text', htext', hparsed'⟩, hdir'⟩ := h'
  obtain rfl : text = text' := Except.ok.inj (htext.symm.trans htext')
  exact ⟨Except.ok.inj (hparsed.symm.trans hparsed'), Option.some.inj (hdir.symm.trans hdir')⟩

end SshCertificateAuthority
