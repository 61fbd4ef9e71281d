import SshCertificateAuthority.CertificatAuthority.Environment

namespace SshCertificateAuthority
open ByteStream UnixPath FileTree

variable (X : Crates)

def ensurePathWithinDirectory (fs : FileSystem) (candidate baseDir : Path) : Except String Path :=
  match fs.canonicalize baseDir with
  | .error e => .error ("failed to resolve inventory directory: " ++ ioMessage e)
  | .ok base =>
    match fs.canonicalize candidate with
    | .error e => .error ("failed to resolve host config path: " ++ ioMessage e)
    | .ok loc =>
      if startsWith (ofLocation loc) (ofLocation base) then .ok (ofLocation loc)
      else .error "path traversal detected in host name"

def hostConfigPath (hostName : String) (config : Ca) : Path :=
  push config.hostInventory (hostName ++ ".toml").toList

def readHostConfig (fs : FileSystem) (hostName : String) (config : Ca) : Except String HostConfig :=
  match ensurePathWithinDirectory fs (hostConfigPath hostName config) config.hostInventory with
  | .error e => .error e
  | .ok safePath => readTomlFile X.hostConfigFromStr fs safePath

inductive Visit where
  | unresolvable
  | outside
  | unreadable
  | malformedKey
  | mismatch
  | found (hostConfig : HostConfig)
deriving DecidableEq, Repr

def visit (fs : FileSystem) (inventory : Location) (searchKey : PublicKey) (file : Path) : Visit :=
  match fs.canonicalize file with
  | .error _ => .unresolvable
  | .ok loc =>
    if !startsWith (ofLocation loc) (ofLocation inventory) then .outside
    else
      match readTomlFile X.hostConfigFromStr fs file with
      | .error _ => .unreadable
      | .ok hostConfig =>
        match X.fromOpenssh hostConfig.publicKey with
        | .error _ => .malformedKey
        | .ok configPubKey =>
          if configPubKey.keyData ≠ searchKey.keyData then .mismatch else .found hostConfig

def Visit.parsed : Visit → Bool
  | .unresolvable | .outside => false
  | _ => true

structure Search where
  parsed : List Path
  result : Outcome (Option (String × HostConfig))

def toStr (fs : FileSystem) (path : Path) : Option String :=
  if fs.isText path then some (String.ofList path) else none

def stemOf (fs : FileSystem) (file : Path) (hostConfig : HostConfig) :
    Outcome (Option (String × HostConfig)) :=
  match fileStem file with
  | none => .panic "file_stem"
  | some stem =>
    match toStr fs stem with
    | none => .panic "to_str"
    | some fileStem => .ok (some (fileStem, hostConfig))

def searchFiles (fs : FileSystem) (inventory : Location) (searchKey : PublicKey) :
    List Path → Search
  | [] => ⟨[], .ok none⟩
  | file :: files =>
    match visit X fs inventory searchKey file with
    | .found hostConfig => ⟨[file], stemOf fs file hostConfig⟩
    | v =>
      let rest := searchFiles fs inventory searchKey files
      ⟨if v.parsed then file :: rest.parsed else rest.parsed, rest.result⟩

def flattenOk {A : Type} (xs : List (Except String A)) : List A := xs.filterMap Except.toOption

def inventoryPattern (inventory : Location) : Path := ofLocation inventory ++ "/**/*.toml".toList

def findConfigByPublicKey (fs : FileSystem) (publicKey : String) (config : Ca) : Search :=
  match X.fromOpenssh publicKey with
  | .error _ => ⟨[], .ok none⟩
  | .ok searchKey =>
    match fs.canonicalize config.hostInventory with
    | .error _ => ⟨[], .ok none⟩
    | .ok inventory =>
      match toStr fs (ofLocation inventory) with
      | none => ⟨[], .panic "to_str"⟩
      | some _ =>
        match X.glob fs (inventoryPattern inventory) with
        | .error _ => ⟨[], .panic "glob"⟩
        | .ok paths => searchFiles X fs inventory searchKey (flattenOk paths)

theorem toStr_of_text {fs : FileSystem} {path : Path} (h : fs.isText path = true) :
    toStr fs path = some (String.ofList path) := if_pos h

theorem toStr_eq_none {fs : FileSystem} {path : Path} :
    toStr fs path = none ↔ fs.isText path = false := by
  rw [toStr]
  split
  · next h => simp [h]
  · next h => simpa using h

theorem stemOf_ne_err {fs : FileSystem} {file : Path} {hostConfig : HostConfig} {e : String} :
    stemOf fs file hostConfig ≠ .err e := by
  rw [stemOf]
  split
  · simp
  · split <;> simp

theorem searchFiles_ne_err {fs : FileSystem} {inventory : Location} {searchKey : PublicKey}
    {files : List Path} {e : String} :
    (searchFiles X fs inventory searchKey files).result ≠ .err e := by
  induction files with
  | nil => simp [searchFiles]
  | cons file files ih =>
    rw [searchFiles]
    split
    · exact stemOf_ne_err
    · exact ih

theorem findConfigByPublicKey_ne_err {fs : FileSystem} {publicKey : String} {config : Ca}
    {e : String} : (findConfigByPublicKey X fs publicKey config).result ≠ .err e := by
  rw [findConfigByPublicKey]
  split
  · simp
  · split
    · simp
    · split
      · simp
      · split
        · simp
        · exact searchFiles_ne_err X

section

variable {X} {fs : FileSystem} {config : Ca}

theorem ensurePathWithinDirectory_eq_ok {candidate baseDir safePath : Path}
    (h : ensurePathWithinDirectory fs candidate baseDir = .ok safePath) :
    ∃ base loc, fs.canonicalize baseDir = .ok base ∧ fs.canonicalize candidate = .ok loc ∧
      startsWith (ofLocation loc) (ofLocation base) = true ∧ safePath = ofLocation loc := by
  rw [ensurePathWithinDirectory] at h
  split at h
  · simp at h
  · next base hb =>
    split at h
    · simp at h
    · next loc hl =>
      split at h
      · next hs => exact ⟨base, loc, hb, hl, hs, (Except.ok.inj h).symm⟩
      · simp at h

theorem readHostConfig_eq_ok {hostName : String} {hostConfig : HostConfig}
    (h : readHostConfig X fs hostName config = .ok hostConfig) :
    ∃ base loc text, fs.canonicalize config.hostInventory = .ok base ∧
      fs.canonicalize (hostConfigPath hostName config) = .ok loc ∧
      startsWith (ofLocation loc) (ofLocation base) = true ∧
      readToString fs (hostConfigPath hostName config) = .ok text ∧
      X.hostConfigFromStr text = .ok hostConfig := by
  rw [readHostConfig] at h
  split at h
  · simp at h
  · next safePath hsafe =>
    obtain ⟨base, loc, hb, hl, hs, rfl⟩ := ensurePathWithinDirectory_eq_ok hsafe
    obtain ⟨text, ht, hparse⟩ := readTomlFile_eq_ok h
    rw [readToString_ofLocation hl] at ht
    exact ⟨base, loc, text, hb, hl, hs, ht, hparse⟩

theorem visit_parsed {inventory : Location} {searchKey : PublicKey} {file : Path}
    (h : (visit X fs inventory searchKey file).parsed = true) :
    ∃ loc, fs.canonicalize file = .ok loc ∧
      startsWith (ofLocation loc) (ofLocation inventory) = true := by
  rw [visit] at h
  split at h
  · simp [Visit.parsed] at h
  · next loc hl =>
    split at h
    · simp [Visit.parsed] at h
    · next hs => exact ⟨loc, hl, by simpa using hs⟩

theorem mem_searchFiles_parsed {inventory : Location} {searchKey : PublicKey} {files : List Path}
    {file : Path} (h : file ∈ (searchFiles X fs inventory searchKey files).parsed) :
    (visit X fs inventory searchKey file).parsed = true := by
  induction files with
  | nil => simp [searchFiles] at h
  | cons f files ih =>
    rw [searchFiles] at h
    split at h
    · next hostConfig hv =>
      obtain rfl : file = f := by simpa using h
      rw [hv]
      rfl
    · next v hv =>
      dsimp only at h
      split at h
      · next hp =>
        rcases List.mem_cons.mp h with rfl | h
        · exact hp
        · exact ih h
      · exact ih h

theorem findConfigByPublicKey_parsed {publicKey : String} {file : Path}
    (h : file ∈ (findConfigByPublicKey X fs publicKey config).parsed) :
    ∃ base loc, fs.canonicalize config.hostInventory = .ok base ∧
      fs.canonicalize file = .ok loc ∧ startsWith (ofLocation loc) (ofLocation base) = true := by
  rw [findConfigByPublicKey] at h
  split at h
  · simp at h
  · split at h
    · simp at h
    · next base hb =>
      split at h
      · simp at h
      · split at h
        · simp at h
        · obtain ⟨loc, hl, hs⟩ := visit_parsed (mem_searchFiles_parsed h)
          exact ⟨base, loc, hb, hl, hs⟩

end

def webConfig : HostConfig := ⟨ed25519Text, 30, ["web"], []⟩

def webConfigText : String :=
  "public_key = \"" ++ ed25519Text ++
    "\"\nvalidity_in_days = 30\nhostnames = [\"web\"]\nextensions = []\n"

def webCrates : Crates :=
  { Crates.refusing with
    fromOpenssh := fun _ => .ok ed25519Key
    hostConfigFromStr := fun _ => .ok webConfig }

end SshCertificateAuthority
