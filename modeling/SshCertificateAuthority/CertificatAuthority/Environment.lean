import SshCertificateAuthority.Library.Outcome
import SshCertificateAuthority.CertificatAuthority.Messages

namespace SshCertificateAuthority
open ByteStream UnixPath FileTree

structure Crates where
  fromOpenssh : String → Except String PublicKey
  toOpenssh : PublicKey → Except String String
  certificateToOpenssh : Certificate → Except String String
  userListFromStr : String → Except String UserList
  userDefaultsFromStr : String → Except String UserDefaults
  hostConfigFromStr : String → Except String HostConfig
  requestFromStr : String → Except String AuthenticatedRequest
  requestToString : AuthenticatedRequest → Except String String
  responseFromStr : String → Except String CaResponse
  responseToString : CaResponse → Except String String
  render : String → String → String → Except String String
  glob : FileSystem → Path → Except String (List (Except String Path))
  debugPath : Path → String
  -- Only a certificate can fail to be written.
  plain_written : ∀ r, (∀ cert, r ≠ .signedCertificate cert) → ∃ json, responseToString r = .ok json

def Crates.refusing : Crates where
  fromOpenssh _ := .error "encoding invalid"
  toOpenssh := PublicKey.toOpenssh
  certificateToOpenssh := Certificate.toOpenssh
  userListFromStr _ := .error "TOML parse error"
  userDefaultsFromStr _ := .error "TOML parse error"
  hostConfigFromStr _ := .error "TOML parse error"
  requestFromStr _ := .error "EOF while parsing a value"
  requestToString := Json.authenticatedRequest
  responseFromStr _ := .error "EOF while parsing a value"
  responseToString := Json.response
  render _ _ _ := .error "syntax error"
  glob _ _ := .ok []
  debugPath p := "\"" ++ String.ofList p ++ "\""
  plain_written := Json.response_plain

structure Crates.WritesOpenssh (X : Crates) : Prop where
  key : X.toOpenssh = PublicKey.toOpenssh
  certificate : X.certificateToOpenssh = Certificate.toOpenssh

structure Crates.WritesJson (X : Crates) : Prop where
  request : X.requestToString = Json.authenticatedRequest
  response : X.responseToString = Json.response

theorem Crates.refusing_writesJson : Crates.refusing.WritesJson where
  request := by rw [Crates.refusing]
  response := by rw [Crates.refusing]

structure World where
  fs : FileSystem
  clock : Nat → Int
  nonce : Bytes
  nonce_length : nonce.length = 16
  serial : UInt64

def bareWorld : World where
  fs := { root := .dir [], cwd := [], maxLinks := 40, cwd_isDir := rfl, cwd_proper := proper_nil }
  clock _ := 0
  nonce := List.replicate 16 0
  nonce_length := rfl
  serial := 0

def inventoryFs (entries : List (Name × Node)) : FileSystem where
  root := .dir [("etc".toList, .dir [("ssh_ca".toList, .dir [("hosts".toList, .dir entries)])])]
  cwd := []
  maxLinks := 40
  cwd_isDir := rfl
  cwd_proper := proper_nil

def templateFs (template : String) : FileSystem where
  root := .dir [("etc".toList, .dir [("ssh_ca".toList, .dir
    [("users.toml".toList, .file (utf8 "[users]")),
      ("default.toml".toList, .file (utf8 template))])])]
  cwd := []
  maxLinks := 40
  cwd_isDir := rfl
  cwd_proper := proper_nil

def ioMessage : IoError → String
  | .notFound => "No such file or directory (os error 2)"
  | .notADirectory => "Not a directory (os error 20)"
  | .isADirectory => "Is a directory (os error 21)"
  | .tooManyLinks => "Too many levels of symbolic links (os error 40)"
  | .nulInPath => "file name contained an unexpected NUL byte"
  | .invalidUtf8 => "stream did not contain valid UTF-8"

def readToString (fs : FileSystem) (path : Path) : Except String String :=
  match fs.read path with
  | .error e => .error (ioMessage e)
  | .ok content =>
    match fromUtf8 content with
    | none => .error (ioMessage .invalidUtf8)
    | some text => .ok text

def readTomlFile {T : Type} (fromStr : String → Except String T) (fs : FileSystem) (path : Path) :
    Except String T :=
  match readToString fs path with
  | .error e => .error e
  | .ok text => fromStr text

section

variable {fs : FileSystem} {file : Path} {loc : Location} {text : String}

theorem readToString_eq_ok (h : readToString fs file = .ok text) :
    ∃ loc content, fs.canonicalize file = .ok loc ∧
      fs.root.get? loc = some (.file content) ∧ fromUtf8 content = some text := by
  rw [readToString] at h
  split at h
  · simp at h
  · next content hc =>
    obtain ⟨loc, hloc, hfile⟩ := fs.read_eq_ok hc
    split at h
    · simp at h
    · next s hs =>
      obtain rfl := Except.ok.inj h
      exact ⟨loc, content, hloc, hfile, hs⟩

theorem readToString_ofLocation (h : fs.canonicalize file = .ok loc) :
    readToString fs (ofLocation loc) = readToString fs file := by
  rw [readToString, fs.read_ofLocation h, readToString]

theorem readToString_of_read (h : fs.read file = .ok (utf8 text)) :
    readToString fs file = .ok text := by
  simp only [readToString, h, fromUtf8_utf8]

theorem readTomlFile_of_text {T : Type} {fromStr : String → Except String T}
    (h : readToString fs file = .ok text) : readTomlFile fromStr fs file = fromStr text := by
  rw [readTomlFile, h]

theorem readTomlFile_of_read {T : Type} {fromStr : String → Except String T}
    (h : fs.read file = .ok (utf8 text)) : readTomlFile fromStr fs file = fromStr text := by
  rw [readTomlFile_of_text (readToString_of_read h)]

theorem readTomlFile_eq_ok {T : Type} {fromStr : String → Except String T} {file : Path} {t : T}
    (h : readTomlFile fromStr fs file = .ok t) :
    ∃ text, readToString fs file = .ok text ∧ fromStr text = .ok t := by
  rw [readTomlFile] at h
  split at h
  · simp at h
  · next text ht => exact ⟨text, ht, h⟩

end

-- `SystemTime::now().duration_since(UNIX_EPOCH).unwrap().as_secs()`, the i-th of a request
def World.now (w : World) (i : Nat) : Outcome Nat :=
  if w.clock i < 0 then .panic "duration_since" else .ok (w.clock i).toNat

def addU64 (a b : Nat) : Outcome Nat :=
  if a + b < 18446744073709551616 then .ok (a + b) else .panic "attempt to add with overflow"

theorem templateFs_users (template : String) :
    readToString (templateFs template) localConfig.userListFile = .ok "[users]" :=
  readToString_of_read rfl

theorem templateFs_template (template : String) :
    readToString (templateFs template) localConfig.defaultUserTemplate = .ok template :=
  readToString_of_read rfl

end SshCertificateAuthority
