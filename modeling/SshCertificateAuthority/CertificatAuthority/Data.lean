import SshCertificateAuthority.Library.FileTree
import SshCertificateAuthority.CertificatAuthority.SshKey

namespace SshCertificateAuthority
open ByteStream UnixPath

structure Ca where
  userListFile : Path
  defaultUserTemplate : Path
  hostInventory : Path
  caKey : Path
deriving DecidableEq, Repr

def localConfig : Ca :=
  ⟨"/etc/ssh_ca/users.toml".toList, "/etc/ssh_ca/default.toml".toList,
    "/etc/ssh_ca/hosts".toList, "/etc/ssh_ca/ca_key".toList⟩

structure UserList where
  users : List (String × Path)
deriving DecidableEq, Repr

structure UserDefaults where
  validityInDays : UInt16
  principals : List String
  extensions : List String
deriving DecidableEq, Repr

structure HostConfig where
  publicKey : String
  validityInDays : UInt16
  hostnames : List String
  extensions : List String
deriving DecidableEq, Repr

inductive CaRequest where
  | signCertificate (user : String) (publicKey : PublicKey)
  | checkPublicKey (publicKey : PublicKey)
  | signHostCertificate (hostName : String) (publicKey : PublicKey)
deriving DecidableEq, Repr

def CaRequest.publicKey : CaRequest → PublicKey
  | .signCertificate _ publicKey => publicKey
  | .checkPublicKey publicKey => publicKey
  | .signHostCertificate _ publicKey => publicKey

inductive CaResponse where
  | signedCertificate (cert : Certificate)
  | error (e : String)
  | keyFound (host : Option String)
deriving DecidableEq, Repr

structure AuthenticatedRequest where
  token : String
  counter : UInt64
  request : CaRequest
deriving DecidableEq, Repr

def maxMessageSize : UInt32 := 65536

def maxTemplateSize : Nat := 64 * 1024

end SshCertificateAuthority
