import SshCertificateAuthority.Clients.FailingCalls
import SshCertificateAuthority.Library.ShellWords

namespace SshCertificateAuthority.Clients
open ByteStream UnixPath ShellArith ShellWords

-- What the scripts find where they run; the commands they call may answer anything.
structure Machine where
  locale : ShellLocale
  user : Value
  home : Value
  hostname : UInt8 × Value
  files : Files
  readable : Path → Bool
  getopt : String → String → List Value → Option (List Value)
  mktemp : ∀ output : Path, Option (TempName files output)
  calls : Calls
  command : List Bytes → Nat → Bytes → SshOutcome
  otherText : List Char → Nat → Bytes → SshOutcome
  installed : String → Bool
  succeeds : List String → Bool

namespace Machine

variable (m : Machine)

def isFile (p : Value) : Bool := (m.files p.chars).isSome

-- `HOSTNAME="$(hostname)"` under `set -e`
def settleHostname (given : Value) : Except UInt8 Value :=
  if given.chars ≠ [] then .ok given
  else if m.hostname.1 = 0 then .ok m.hostname.2
  else .error m.hostname.1

def eval (text : List Char) : Nat → Bytes → SshOutcome :=
  match simpleCommand text with
  | some words => m.command words
  | none => m.otherText text

end Machine

inductive Arm (V : Type) where
  | value (assign : V → Value → V)
  | flag (assign : V → V)
  | help
  | done

inductive Parsed (V : Type) where
  | assigned (v : V)
  | exits (status : UInt8)

section

variable {V : Type}

def armOf (arms : List (List String × Arm V)) (option : Value) : Option (Arm V) :=
  (arms.find? fun e => (e.1.map String.toList).contains option.chars).map Prod.snd

-- With `set -u` a missing `$1` or `$2` ends the script.
def parseArgs (arms : List (List String × Arm V)) : V → List Value → Parsed V
  | _, [] => .exits 1
  | v, option :: rest =>
    match armOf arms option, rest with
    | some (.value assign), value :: rest => parseArgs arms (assign v value) rest
    | some (.value _), [] => .exits 1
    | some (.flag assign), rest => parseArgs arms (assign v) rest
    | some .help, _ => .exits 0
    | some .done, _ => .assigned v
    | none, _ => .exits 1

end

structure Settings where
  server : Value
  port : Value
  output : Value
  knownHosts : Value
  noHostCheck : Bool
  retryCount : Value
  retryDelay : Value
  verbose : Bool

def defaultSettings : Settings where
  server := .of ""
  port := .of "2222"
  output := .of ""
  knownHosts := .of ""
  noHostCheck := false
  retryCount := .of "0"
  retryDelay := .of "5"
  verbose := false

structure HostVariables extends Settings where
  identity : Value
  hostname : Value
  reload : Bool

structure UserVariables extends Settings where
  username : Value
  key : Value

def hostArms : List (List String × Arm HostVariables) :=
  [(["-s", "--server"], .value fun v x => { v with server := x }),
    (["-p", "--port"], .value fun v x => { v with port := x }),
    (["-i", "--identity"], .value fun v x => { v with identity := x }),
    (["-n", "--hostname"], .value fun v x => { v with hostname := x }),
    (["-o", "--output"], .value fun v x => { v with output := x }),
    (["--known-hosts"], .value fun v x => { v with knownHosts := x }),
    (["--no-host-check"], .flag fun v => { v with noHostCheck := true }),
    (["--reload"], .flag fun v => { v with reload := true }),
    (["--retry"], .value fun v x => { v with retryCount := x }),
    (["--retry-delay"], .value fun v x => { v with retryDelay := x }),
    (["-v", "--verbose"], .flag fun v => { v with verbose := true }),
    (["-h", "--help"], .help), (["--"], .done)]

def userArms : List (List String × Arm UserVariables) :=
  [(["-s", "--server"], .value fun v x => { v with server := x }),
    (["-p", "--port"], .value fun v x => { v with port := x }),
    (["-u", "--user"], .value fun v x => { v with username := x }),
    (["-k", "--key"], .value fun v x => { v with key := x }),
    (["-o", "--output"], .value fun v x => { v with output := x }),
    (["--known-hosts"], .value fun v x => { v with knownHosts := x }),
    (["--no-host-check"], .flag fun v => { v with noHostCheck := true }),
    (["--retry"], .value fun v x => { v with retryCount := x }),
    (["--retry-delay"], .value fun v x => { v with retryDelay := x }),
    (["-v", "--verbose"], .flag fun v => { v with verbose := true }),
    (["-h", "--help"], .help), (["--"], .done)]

-- An arithmetic error in `((..))` counts as false there, so such a port passes.
def validPort (digits : Digits) : Bool :=
  validRetryCount digits && match constant digits with
    | none => true
    | some v => decide (1 ≤ v ∧ v ≤ 65535)

def validateSettings (m : Machine) (s : Settings) : Except UInt8 RetryCount :=
  if s.knownHosts.chars ≠ [] ∧ !m.isFile s.knownHosts then .error 1
  else if !validPort s.port.chars then .error 1
  else if h : validRetryCount s.retryCount.chars then
    if validRetryCount s.retryDelay.chars then .ok ⟨s.retryCount.chars, h⟩ else .error 1
  else .error 1

def orDefault (given default : Value) : Value := if given.chars = [] then default else given

def validateHost (m : Machine) (v : HostVariables) : Except UInt8 (HostVariables × RetryCount) :=
  if v.server.chars = [] then .error 1
  else if !m.isFile v.identity then .error 1
  else if !m.readable v.identity.chars then .error 1
  else (m.settleHostname v.hostname).bind fun hostname =>
    let output := orDefault v.output (v.identity ++ .of "-cert.pub")
    let v : HostVariables := { v with hostname := hostname, output := output }
    (validateSettings m v.toSettings).map fun retryCount => (v, retryCount)

def looksLikeKey (line : Bytes) : Bool :=
  decide (utf8 "ssh-" <+: line) || decide (utf8 "ecdsa-" <+: line)

-- `${KEY%.pub}`
def stripPub (key : Value) : Value :=
  if ".pub".toList <:+ key.chars then
    ⟨key.chars.take (key.chars.length - 4), fun h => key.noNul (List.mem_of_mem_take h)⟩
  else key

def validateUser (m : Machine) (v : UserVariables) : Except UInt8 (UserVariables × RetryCount) :=
  if v.server.chars = [] then .error 1
  else if v.username.chars = [] then .error 1
  else if !m.isFile v.key then .error 1
  else if !m.readable v.key.chars then .error 1
  else if !looksLikeKey (firstLine ((m.files v.key.chars).getD [])) then .error 1
  else
    let output := orDefault v.output (stripPub v.key ++ .of "-cert.pub")
    let v : UserVariables := { v with output := output }
    (validateSettings m v.toSettings).map fun retryCount => (v, retryCount)

def checkOptions (s : Settings) : List Value :=
  (if s.noHostCheck then
    [.of "-o", .of "StrictHostKeyChecking=no", .of "-o", .of "UserKnownHostsFile=/dev/null"]
    else []) ++
  (if s.knownHosts.chars = [] then [] else [.of "-o", .of "UserKnownHostsFile=" ++ s.knownHosts]) ++
  if s.verbose then [.of "-v"] else []

def hostCmd (v : HostVariables) : List Value :=
  [.of "ssh", .of "-i", v.identity, .of "-p", v.port, .of "-n", .of "-T", .of "-o",
    .of "RequestTTY=no", .of "-o", .of "BatchMode=yes"] ++ checkOptions v.toSettings ++
    [v.hostname ++ .of "@" ++ v.server, .of "sign_host_key"]

def userCmd (v : UserVariables) : List Value :=
  [.of "ssh", .of "-T", .of "-p", v.port, .of "-o", .of "EscapeChar=none", .of "-o",
    .of "PreferredAuthentications=keyboard-interactive,password"] ++ checkOptions v.toSettings ++
    [v.username ++ .of "@" ++ v.server]

def reloadSshd (m : Machine) (v : HostVariables) : UInt8 :=
  if !v.reload then 0
  else if m.installed "systemctl" then
    if m.succeeds ["systemctl", "reload", "sshd"] || m.succeeds ["systemctl", "reload", "ssh"]
    then 0 else 1
  else if m.installed "service" then
    if m.succeeds ["service", "sshd", "reload"] || m.succeeds ["service", "ssh", "reload"]
    then 0 else 1
  else 1

structure ClientScript (V : Type) where
  shortOptions : String
  longOptions : String
  initial : Machine → V
  arms : List (List String × Arm V)
  validate : Machine → V → Except UInt8 (V × RetryCount)
  cmd : V → List Value
  stdin : Machine → V → Bytes
  output : V → Path
  afterwards : Machine → V → UInt8

def hostScript : ClientScript HostVariables where
  shortOptions := "s:p:i:n:o:vh"
  longOptions := "server:,port:,identity:,hostname:,output:,known-hosts:,no-host-check," ++
    "reload,retry:,retry-delay:,verbose,help"
  initial _ := ⟨defaultSettings, .of "/etc/ssh/ssh_host_ed25519_key", .of "", false⟩
  arms := hostArms
  validate := validateHost
  cmd := hostCmd
  stdin _ _ := []
  output v := v.output.chars
  afterwards := reloadSshd

def userScript : ClientScript UserVariables where
  shortOptions := "s:p:u:k:o:vh"
  longOptions := "server:,port:,user:,key:,output:,known-hosts:,no-host-check," ++
    "retry:,retry-delay:,verbose,help"
  initial m := ⟨defaultSettings, m.user, m.home ++ .of "/.ssh/id_ed25519.pub"⟩
  arms := userArms
  validate := validateUser
  cmd := userCmd
  stdin m v := (m.files v.key.chars).getD []
  output v := v.output.chars
  afterwards _ _ := 0

structure ScriptEnd where
  status : UInt8
  files : Files

namespace ClientScript

variable {V : Type} (script : ClientScript V) (m : Machine)

def buildSshCmd (v : V) : List Char := printfQ m.locale (script.cmd v)

-- `mktemp` runs before there is a trap: where it fails, nothing is left.
def sign (v : V) (retryCount : RetryCount) : Renewal :=
  match m.mktemp (script.output v) with
  | none => ⟨.exited 1, 0, m.files⟩
  | some tmp =>
    m.calls.signKey
      (m.eval (commandSubstitution (script.buildSshCmd m v)) · (script.stdin m v)) retryCount
      (script.output v) m.files tmp

def main (args : List Value) : ScriptEnd :=
  match m.getopt script.shortOptions script.longOptions args with
  | none => ⟨1, m.files⟩
  | some params =>
    match parseArgs script.arms (script.initial m) params with
    | .exits status => ⟨status, m.files⟩
    | .assigned given =>
      match script.validate m given with
      | .error status => ⟨status, m.files⟩
      | .ok (v, retryCount) =>
        let r := script.sign m v retryCount
        match r.ending with
        | .exited status => ⟨status, r.files⟩
        | .returned => ⟨script.afterwards m v, r.files⟩

end ClientScript

section

variable {V : Type}

theorem Machine.eval_printfQ (m : Machine) {word : Value} (words : List Value)
    (hreserved : word.bytes ∉ reservedWords) (hassign : 61 ∉ word.bytes) :
    m.eval (commandSubstitution (printfQ m.locale (word :: words))) =
      m.command ((word :: words).map Value.bytes) := by
  rw [commandSubstitution_printfQ, Machine.eval, simpleCommand_printfQ hreserved hassign]

theorem parseArgs_exits {arms : List (List String × Arm V)} {v : V} {params : List Value}
    (h : parseArgs arms v params = .exits 0) : ∃ o ∈ params, armOf arms o = some .help := by
  fun_induction parseArgs arms v params with
  | case1 => simp at h
  | case2 v option assign value rest harm ih =>
    obtain ⟨o, hmem, hhelp⟩ := ih h
    exact ⟨o, by simp [hmem], hhelp⟩
  | case3 => simp at h
  | case4 v option rest assign harm ih =>
    obtain ⟨o, hmem, hhelp⟩ := ih h
    exact ⟨o, by simp [hmem], hhelp⟩
  | case5 v option rest harm => exact ⟨option, List.mem_cons_self, harm⟩
  | case6 => simp at h
  | case7 => simp at h

end

structure ValidSettings (s : Settings) (retryCount : RetryCount) : Prop where
  server : s.server.chars ≠ []
  port : validPort s.port.chars = true
  retryCount : retryCount.digits = s.retryCount.chars
  retryDelay : validRetryCount s.retryDelay.chars = true

section

variable {A B : Type} {x : Except UInt8 A} {f : A → B} {status : UInt8}

theorem except_map_ok {b : B} (h : x.map f = .ok b) : ∃ a, x = .ok a ∧ f a = b := by
  cases x with
  | error status => simp [Except.map] at h
  | ok a => exact ⟨a, rfl, Except.ok.inj h⟩

theorem except_map_error (h : x.map f = .error status) : x = .error status := by
  cases x with
  | error e => rw [Except.error.inj h]
  | ok a => simp [Except.map] at h

theorem ne_zero_of_one (h : 1 = status) : status ≠ 0 := by
  obtain rfl := h
  decide

end

section

variable {m : Machine} {retryCount : RetryCount} {status : UInt8}

theorem validateSettings_ok {s : Settings} (h : validateSettings m s = .ok retryCount)
    (hserver : s.server.chars ≠ []) : ValidSettings s retryCount := by
  rw [validateSettings] at h
  split_ifs at h with hfile hport hcount hdelay
  obtain rfl := Except.ok.inj h
  exact ⟨hserver, by simpa using hport, rfl, hdelay⟩

theorem validateSettings_error {s : Settings} (h : validateSettings m s = .error status) :
    status = 1 := by
  rw [validateSettings] at h
  split_ifs at h <;> exact (Except.error.inj h).symm

theorem validateHost_ok {u v : HostVariables} (h : validateHost m u = .ok (v, retryCount)) :
    ValidSettings v.toSettings retryCount := by
  rw [validateHost] at h
  split_ifs at h with hserver
  cases hname : m.settleHostname u.hostname with
  | error status => simp [hname, Except.bind] at h
  | ok hostname =>
    rw [hname, Except.bind] at h
    obtain ⟨count, hcount, hpair⟩ := except_map_ok h
    obtain ⟨rfl, rfl⟩ := Prod.mk.inj hpair
    exact validateSettings_ok hcount hserver

theorem validateUser_ok {u v : UserVariables} (h : validateUser m u = .ok (v, retryCount)) :
    ValidSettings v.toSettings retryCount := by
  rw [validateUser] at h
  split_ifs at h with hserver
  obtain ⟨count, hcount, hpair⟩ := except_map_ok h
  obtain ⟨rfl, rfl⟩ := Prod.mk.inj hpair
  exact validateSettings_ok hcount hserver

theorem settleHostname_error {given : Value} (h : m.settleHostname given = .error status) :
    status ≠ 0 := by
  rw [Machine.settleHostname] at h
  split_ifs at h with hgiven hzero
  obtain rfl := Except.error.inj h
  exact hzero

theorem validateHost_error {u : HostVariables} (h : validateHost m u = .error status) :
    status ≠ 0 := by
  rw [validateHost] at h
  split_ifs at h
  · exact ne_zero_of_one (Except.error.inj h)
  · exact ne_zero_of_one (Except.error.inj h)
  · exact ne_zero_of_one (Except.error.inj h)
  · cases hname : m.settleHostname u.hostname with
    | error e =>
      rw [hname] at h
      obtain rfl := Except.error.inj h
      exact settleHostname_error hname
    | ok hostname =>
      rw [hname, Except.bind] at h
      exact ne_zero_of_one (validateSettings_error (except_map_error h)).symm

theorem validateUser_error {u : UserVariables} (h : validateUser m u = .error status) :
    status ≠ 0 := by
  rw [validateUser] at h
  split_ifs at h
  · exact ne_zero_of_one (Except.error.inj h)
  · exact ne_zero_of_one (Except.error.inj h)
  · exact ne_zero_of_one (Except.error.inj h)
  · exact ne_zero_of_one (Except.error.inj h)
  · exact ne_zero_of_one (Except.error.inj h)
  · exact ne_zero_of_one (validateSettings_error (except_map_error h)).symm

end

namespace ClientScript

variable {V : Type} (script : ClientScript V) (m : Machine) (args : List Value)

def Settled (v : V) (retryCount : RetryCount) : Prop :=
  ∃ params given, m.getopt script.shortOptions script.longOptions args = some params ∧
    parseArgs script.arms (script.initial m) params = .assigned given ∧
    script.validate m given = .ok (v, retryCount)

-- The answers to `"${cmd[@]}"` itself, without printing it and reading it back.
def ssh (v : V) (attempt : Nat) : SshOutcome :=
  m.command ((script.cmd v).map Value.bytes) attempt (script.stdin m v)

inductive Ends (settings : V → Settings) : ScriptEnd → Prop where
  | helped {params : List Value} {option : Value}
      (parsed : m.getopt script.shortOptions script.longOptions args = some params)
      (given : option ∈ params) (help : armOf script.arms option = some .help) :
      Ends settings ⟨0, m.files⟩
  | rejected {status : UInt8} (failure : status ≠ 0) : Ends settings ⟨status, m.files⟩
  | refused {v : V} {retryCount : RetryCount} {tmp : TempName m.files (script.output v)}
      {files : Files} (settled : script.Settled m args v retryCount)
      (valid : ValidSettings (settings v) retryCount)
      (made : m.mktemp (script.output v) = some tmp)
      (reason : (∀ k, Reached retryCount k → (script.ssh m v k).accepted = false) ∨
        m.calls.Fails tmp.path (script.output v))
      (frame : ∀ p ≠ tmp.path, files p = m.files p) : Ends settings ⟨1, files⟩
  | renewed {v : V} {retryCount : RetryCount} {tmp : TempName m.files (script.output v)} {k : Nat}
      (settled : script.Settled m args v retryCount)
      (valid : ValidSettings (settings v) retryCount)
      (made : m.mktemp (script.output v) = some tmp) (le : k ≤ retryCount.value)
      (accepted : (script.ssh m v k).accepted = true)
      (first : ∀ j < k, (script.ssh m v j).accepted = false) :
      Ends settings ⟨script.afterwards m v, Function.update m.files
        (m.calls.target tmp.path (script.output v)) (some (script.ssh m v k).stdout)⟩

variable {script m args}

theorem ends_main {settings : V → Settings}
    (hcmd : ∀ v, ∃ rest, script.cmd v = .of "ssh" :: rest)
    (hok : ∀ u v retryCount, script.validate m u = .ok (v, retryCount) →
      ValidSettings (settings v) retryCount)
    (herror : ∀ u status, script.validate m u = .error status → status ≠ 0) :
    script.Ends m args settings (script.main m args) := by
  rw [main]
  cases hparams : m.getopt script.shortOptions script.longOptions args with
  | none => exact .rejected (by decide)
  | some params =>
    dsimp only
    cases hparse : parseArgs script.arms (script.initial m) params with
    | exits status =>
      by_cases hzero : status = 0
      · subst hzero
        obtain ⟨option, hgiven, hhelp⟩ := parseArgs_exits hparse
        exact .helped hparams hgiven hhelp
      · exact .rejected hzero
    | assigned given =>
      dsimp only
      cases hvalid : script.validate m given with
      | error status => exact .rejected (herror given status hvalid)
      | ok settled =>
        obtain ⟨v, retryCount⟩ := settled
        have hsettled : script.Settled m args v retryCount :=
          ⟨params, given, hparams, hparse, hvalid⟩
        have hsettings := hok given v retryCount hvalid
        have hdirect : script.sign m v retryCount = match m.mktemp (script.output v) with
            | none => ⟨.exited 1, 0, m.files⟩
            | some tmp =>
              m.calls.signKey (script.ssh m v) retryCount (script.output v) m.files tmp := by
          obtain ⟨rest, hrest⟩ := hcmd v
          rw [sign, buildSshCmd, hrest, m.eval_printfQ rest (by decide) (by decide), ← hrest]
          rfl
        dsimp only
        rw [hdirect]
        cases hmade : m.mktemp (script.output v) with
        | none => exact .rejected (by decide)
        | some tmp =>
          dsimp only
          rcases @signKey_ends (script.ssh m v) (script.output v) m.calls m.files retryCount tmp
            with
            ⟨k, hle, hacc, hfirst, hrun⟩ | ⟨attempts, files, hreason, hframe, hrun⟩
          · rw [hrun]
            exact .renewed hsettled hsettings hmade hle hacc hfirst
          · rw [hrun]
            exact .refused hsettled hsettings hmade hreason hframe

end ClientScript

end SshCertificateAuthority.Clients
