import SshCertificateAuthority.CertificatAuthority.Environment

namespace SshCertificateAuthority
open ByteStream UnixPath FileTree

variable (X : Crates)

def templatePath (users : UserList) (user : String) (config : Ca) : Outcome Path :=
  match users.users.lookup user with
  | some path =>
    if hasRoot path then .ok path
    else
      match parent config.userListFile with
      | none => .panic "user list file does not have parent"
      | some dir => .ok (push dir path)
  | none => .ok config.defaultUserTemplate

def renderUserDefaults (user templateText : String) : Except String UserDefaults :=
  match X.render user templateText user with
  | .error e => .error e
  | .ok userDefaults => X.userDefaultsFromStr userDefaults

def readUserDefaults (fs : FileSystem) (user : String) (config : Ca) : Outcome UserDefaults := do
  let users ← Outcome.ofExcept (readTomlFile X.userListFromStr fs config.userListFile)
  let path ← templatePath users user config
  let templateText ← Outcome.ofExcept (readToString fs path)
  if maxTemplateSize < templateText.utf8ByteSize then
    .err ("user template " ++ X.debugPath path ++
      s!" exceeds maximum allowed size of {maxTemplateSize} bytes")
  else Outcome.ofExcept (renderUserDefaults X user templateText)

theorem readUserDefaults_eq {fs : FileSystem} {user templateText : String} {config : Ca}
    {users : UserList} {path : Path}
    (hu : readTomlFile X.userListFromStr fs config.userListFile = .ok users)
    (hp : templatePath users user config = .ok path)
    (ht : readToString fs path = .ok templateText)
    (hs : templateText.utf8ByteSize ≤ maxTemplateSize) :
    readUserDefaults X fs user config =
      Outcome.ofExcept (renderUserDefaults X user templateText) := by
  simp only [readUserDefaults, hu, Outcome.ofExcept, Outcome.ok_bind, hp, ht,
    Nat.not_lt.mpr hs, if_false]

end SshCertificateAuthority
