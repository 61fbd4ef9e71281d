import SshCertificateAuthority.Library.FileTable
import SshCertificateAuthority.Library.Run

namespace SshCertificateAuthority.RunServer
open UnixPath FileTable

inductive Content where
  | token
  | socket
  | other
deriving DecidableEq, Repr

def writable : Content → Bool
  | .socket => false
  | _ => true

inductive End where
  | failed (message : String)
  | panicked (site : String)
  | shutDown
deriving DecidableEq, Repr

inductive ParentPc where
  | writeToken
  | restrictToken
  | spawn
  | poll (n : Nat)
  | check
  | authenticators
  | run
  | serving
  | ended (how : End)
deriving DecidableEq, Repr

inductive ChildPc where
  | readConfig
  | readToken
  | removeToken
  | loadKey
  | removeSocket
  | bind
  | restrictSocket
  | serving
deriving DecidableEq, Repr

inductive Child where
  | notSpawned
  | running (pc : ChildPc)
  | gone
deriving DecidableEq, Repr

structure Args where
  socketPath : Path
  userAuthenticators : List String

structure State where
  files : Files Content
  parent : ParentPc
  child : Child
  bound : Bool

inductive Spawn where
  | spawned
  | failed (removed : Bool)
  | noCurrentExe

-- What a step leaves open: whether a call fails, what a failed write leaves, whether cleanup works.
inductive Step where
  | writeToken (ok created : Bool)
  | restrictToken (ok removed : Bool)
  | spawn (o : Spawn)
  | poll
  | check (killed : Bool)
  | authenticators
  | run (ok : Bool)
  | shutDown
  | child (ok : Bool)

def tokenFilePath (args : Args) : Path := setExtension args.socketPath "token".toList

-- The command line, and the directory that `tempdir()` makes where it names no socket path.
structure Launch where
  socketPath : Option Path
  userAuthenticators : List String
  tempDir : Path
  processId : Nat

namespace Launch

variable (l : Launch)

def socketName : Path :=
  "ssh_ca.".toList ++ (toString l.processId).toList ++ ".sock".toList

def args : Args := ⟨l.socketPath.getD (push l.tempDir l.socketName), l.userAuthenticators⟩

-- The directory is kept: `disable_cleanup(true)`.
def prepared (files : Files Content) : Files Content :=
  match l.socketPath with
  | some _ => files
  | none => Function.update files l.tempDir .directory

end Launch

def start (files : Files Content) : State := ⟨files, .writeToken, .notSpawned, false⟩

def maxPolls : Nat := 10

def unknownAuthenticator (args : Args) : Option String :=
  args.userAuthenticators.find? fun name => name ≠ "pam"

namespace State

variable (args : Args) (s : State)

def ending (how : End) : State := { s with parent := .ended how }

def kill : State := { s with child := if s.child = .notSpawned then .notSpawned else .gone }

def removeToken (removed : Bool) : State :=
  if removed then { s with files := (removeFile s.files (tokenFilePath args)).getD s.files } else s

def writeToken (ok created : Bool) : Option State :=
  let written := writeFile writable s.files (tokenFilePath args) .token
  if ok then written.map fun files => { s with files := files, parent := .restrictToken }
  else
    let left := if created then { s with files := written.getD s.files } else s
    some (left.ending (.failed "Failed to write token file"))

def restrictToken (ok removed : Bool) : State :=
  if ok then { s with parent := .spawn }
  else (s.removeToken args removed).ending (.failed "Failed to set token file permissions")

-- The token path is made of a `String`, so that `to_str().unwrap()` cannot panic.
def spawn : Spawn → State
  | .spawned => { s with parent := .poll 0, child := .running .readConfig }
  | .failed removed =>
    (s.removeToken args removed).ending (.failed "Failed to spawn CA server process")
  | .noCurrentExe => s.ending (.panicked "env::current_exe")

def poll (n : Nat) : State :=
  if pathExists s.files args.socketPath then { s with parent := .check }
  else if n + 1 < maxPolls then { s with parent := .poll (n + 1) }
  else { s with parent := .check }

def check (killed : Bool) : State :=
  if pathExists s.files args.socketPath then { s with parent := .authenticators }
  else (if killed then s.kill else s).ending (.failed "CA server did not start in time")

def authenticators : State :=
  match unknownAuthenticator args with
  | none => { s with parent := .run }
  | some name => s.ending (.panicked ("unknown user authenticator: " ++ name))

def run (ok : Bool) : State :=
  if ok then { s with parent := .serving } else s.ending (.panicked "SshCaServer::run")

def shutDown : State :=
  { s.kill with
    files := (removeFile s.files args.socketPath).getD s.files
    parent := .ended .shutDown }

def childDies : State := { s with child := .gone }

def childAt (pc : ChildPc) (files : Files Content) : State :=
  { s with files := files, child := .running pc }

def childStep (pc : ChildPc) : State :=
  match pc with
  | .readConfig => s.childAt .readToken s.files
  | .readToken =>
    match readFile s.files (tokenFilePath args) with
    | some .token | some .other => s.childAt .removeToken s.files
    | _ => s.childDies
  | .removeToken =>
    match removeFile s.files (tokenFilePath args) with
    | some files => s.childAt .loadKey files
    | none => s.childDies
  | .loadKey => s.childAt .removeSocket s.files
  | .removeSocket =>
    if pathExists s.files args.socketPath then
      match removeFile s.files args.socketPath with
      | some files => s.childAt .bind files
      | none => s.childDies
    else s.childAt .bind s.files
  | .bind =>
    match createFile s.files args.socketPath .socket with
    | some files => { s.childAt .restrictSocket files with bound := true }
    | none => s.childDies
  | .restrictSocket => s.childAt .serving s.files
  | .serving => s

end State

def step (args : Args) (s : State) : Step → Option State
  | .writeToken ok created =>
    if s.parent = .writeToken then s.writeToken args ok created else none
  | .restrictToken ok removed =>
    if s.parent = .restrictToken then some (s.restrictToken args ok removed) else none
  | .spawn o => if s.parent = .spawn then some (s.spawn args o) else none
  | .poll =>
    match s.parent with
    | .poll n => some (s.poll args n)
    | _ => none
  | .check killed => if s.parent = .check then some (s.check args killed) else none
  | .authenticators =>
    if s.parent = .authenticators then some (s.authenticators args) else none
  | .run ok => if s.parent = .run then some (s.run ok) else none
  | .shutDown => if s.parent = .serving then some (s.shutDown args) else none
  | .child ok =>
    match s.child with
    | .running pc => some (if ok then s.childStep args pc else s.childDies)
    | _ => none

section

variable {args : Args} {s t : State}

structure ChildMoved (args : Args) (s t : State) : Prop where
  parent : t.parent = s.parent
  spawned : t.child ≠ .notSpawned
  files : t.files = s.files ∨ (∃ p, t.files = Function.update s.files p .absent) ∨
    (t.files = Function.update s.files args.socketPath (.file .socket) ∧ t.bound = true)
  bound : s.bound = true → t.bound = true

theorem childStep_moved (args : Args) (pc : ChildPc) (hs : s.child = .running pc) :
    ChildMoved args s (s.childStep args pc) := by
  have hdies : ChildMoved args s s.childDies :=
    ⟨rfl, Child.noConfusion, Or.inl rfl, fun h => h⟩
  have hstays : ∀ pc', ChildMoved args s (s.childAt pc' s.files) := fun pc' =>
    ⟨rfl, Child.noConfusion, Or.inl rfl, fun h => h⟩
  have hremoves : ∀ pc' p files, removeFile s.files p = some files →
      ChildMoved args s (s.childAt pc' files) := fun pc' p files h =>
    ⟨rfl, Child.noConfusion, Or.inr (Or.inl ⟨p, removeFile_eq_some h⟩), fun h => h⟩
  cases pc with
  | readConfig => exact hstays _
  | readToken =>
    simp only [State.childStep]
    split
    · exact hstays _
    · exact hstays _
    · exact hdies
  | removeToken =>
    simp only [State.childStep]
    split
    · next files h => exact hremoves _ _ files h
    · exact hdies
  | loadKey => exact hstays _
  | removeSocket =>
    simp only [State.childStep]
    split
    · split
      · next files h => exact hremoves _ _ files h
      · exact hdies
    · exact hstays _
  | bind =>
    simp only [State.childStep]
    split
    · next files h =>
      exact ⟨rfl, Child.noConfusion, Or.inr (Or.inr ⟨(createFile_eq_some h).2, rfl⟩), fun _ => rfl⟩
    · exact hdies
  | restrictSocket => exact hstays _
  | serving => exact ⟨rfl, hs ▸ Child.noConfusion, Or.inl rfl, fun h => h⟩

theorem running_ne_notSpawned {pc : ChildPc} (h : s.child = .running pc) :
    s.child ≠ .notSpawned := by simp [h]

theorem kill_child (h : s.child ≠ .notSpawned) : s.kill.child = .gone := by
  rw [State.kill, if_neg h]

inductive Moved (args : Args) (s : State) : Step → State → Prop where
  | writeToken {ok created : Bool} {t : State} :
    s.parent = .writeToken → s.writeToken args ok created = some t →
      Moved args s (.writeToken ok created) t
  | restrictToken {ok removed : Bool} :
    s.parent = .restrictToken →
      Moved args s (.restrictToken ok removed) (s.restrictToken args ok removed)
  | spawn {o : Spawn} : s.parent = .spawn → Moved args s (.spawn o) (s.spawn args o)
  | poll {n : Nat} : s.parent = .poll n → Moved args s .poll (s.poll args n)
  | check {killed : Bool} : s.parent = .check → Moved args s (.check killed) (s.check args killed)
  | authenticators : s.parent = .authenticators →
      Moved args s .authenticators (s.authenticators args)
  | run {ok : Bool} : s.parent = .run → Moved args s (.run ok) (s.run ok)
  | shutDown : s.parent = .serving → Moved args s .shutDown (s.shutDown args)
  | child {ok : Bool} {pc : ChildPc} {t : State} :
    s.child = .running pc → ChildMoved args s t → Moved args s (.child ok) t

theorem step_moved {a : Step} (h : step args s a = some t) : Moved args s a t := by
  unfold step at h
  split at h
  · obtain ⟨hp, h⟩ := Option.ite_none_right_eq_some.mp h
    exact .writeToken hp h
  · obtain ⟨hp, h⟩ := Option.ite_none_right_eq_some.mp h
    exact Option.some.inj h ▸ .restrictToken hp
  · obtain ⟨hp, h⟩ := Option.ite_none_right_eq_some.mp h
    exact Option.some.inj h ▸ .spawn hp
  · split at h
    · next n hp => exact Option.some.inj h ▸ .poll hp
    · simp at h
  · obtain ⟨hp, h⟩ := Option.ite_none_right_eq_some.mp h
    exact Option.some.inj h ▸ .check hp
  · obtain ⟨hp, h⟩ := Option.ite_none_right_eq_some.mp h
    exact Option.some.inj h ▸ .authenticators hp
  · obtain ⟨hp, h⟩ := Option.ite_none_right_eq_some.mp h
    exact Option.some.inj h ▸ .run hp
  · obtain ⟨hp, h⟩ := Option.ite_none_right_eq_some.mp h
    exact Option.some.inj h ▸ .shutDown hp
  · next ok =>
    split at h
    · next pc hpc =>
      obtain rfl := Option.some.inj h
      cases ok with
      | false => exact .child hpc ⟨rfl, Child.noConfusion, Or.inl rfl, fun h => h⟩
      | true => exact .child hpc (childStep_moved args pc hpc)
    · simp at h

end

def runArgs (socketPath : String) : Args := ⟨socketPath.toList, ["pam"]⟩

def emptyFiles : Files Content := fun _ => .absent

end SshCertificateAuthority.RunServer
