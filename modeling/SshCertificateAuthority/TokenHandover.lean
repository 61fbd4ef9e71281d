import SshCertificateAuthority.Library.Base64
import SshCertificateAuthority.Library.FileTable
import SshCertificateAuthority.Library.Run
import SshCertificateAuthority.Library.Text
import Mathlib.Data.List.Nodup

namespace SshCertificateAuthority.TokenHandover
open UnixPath FileTable ByteStream

-- An inode carries the number of the creation that made it, or `none` from before the run.
inductive Content where
  | data (inode : Option Nat) (bytes : Bytes)
  | socket
deriving DecidableEq, Repr

def writable : Content → Bool
  | .data _ _ => true
  | .socket => false

structure CliArgs where
  certificateAuthority : Bool
  socketPath : Option Path
  disableCa : Bool
  tokenFile : Option Path
deriving DecidableEq, Repr

-- A file that a process has opened, what it is to hold, and how much of that is written.
structure Write where
  file : Path
  inode : Option Nat
  text : Bytes
  written : Nat
deriving DecidableEq, Repr

inductive Pc where
  | readConfig
  | caReadToken (socketPath tokenFile : Path)
  | caRemoveToken (socketPath tokenFile : Path) (authToken : String)
  | caLoadKey (socketPath tokenFile : Path) (authToken : String)
  | caRemoveSocket (socketPath tokenFile : Path) (authToken : String)
  | caBind (socketPath tokenFile : Path) (authToken : String)
  | caServing (socketPath tokenFile : Path) (authToken : String)
  | sshToken (socketPath : Path)
  | sshWriteToken (socketPath : Path) (authToken : String)
  | sshFillToken (socketPath : Path) (authToken : String) (w : Write)
  | sshRestrictToken (socketPath : Path) (authToken : String)
  | sshSpawn (socketPath : Path) (authToken : String)
  | sshAwait (socketPath : Path) (authToken : String) (caProcess : Option Nat)
  | sshServing (socketPath : Path) (authToken : String) (caProcess : Option Nat)
  | shellOpen (tokenFile : Path) (text : Bytes)
  | shellFill (w : Write)
  | ended
deriving DecidableEq, Repr

structure Process where
  args : CliArgs
  pc : Pc
deriving DecidableEq, Repr

structure Made where
  path : Path
  maker : Nat
  text : Option Bytes
deriving DecidableEq, Repr

structure Host where
  files : Files Content
  processes : Nat → Option Process
  made : List Made
  taken : List (Nat × Path)

-- What a process meets: a call that works or fails, a fresh path, random bytes, its own death.
inductive Choice where
  | ok
  | fails
  | tempdir (socketPath : Path)
  | random (tokenBytes : List UInt8)
  | partly (n : Nat)
  | spawned (child : Nat)
  | dies

inductive Step where
  | launch (process : Nat) (args : CliArgs)
  | provision (process : Nat) (tokenFile : Path) (text : Bytes)
  | advance (process : Nat) (choice : Choice)

def tokenFilePath (socketPath : Path) : Path := setExtension socketPath "token".toList

namespace CliArgs

variable (args : CliArgs)

def configured (tempSocket : Path) : Pc :=
  if args.certificateAuthority then
    match args.socketPath, args.tokenFile with
    | some socketPath, some tokenFile => .caReadToken socketPath tokenFile
    | _, _ => .ended
  else .sshToken (args.socketPath.getD tempSocket)

def withToken (socketPath : Path) (authToken : String) : Pc :=
  if args.disableCa then .sshAwait socketPath authToken none
  else .sshWriteToken socketPath authToken

def ofChild (socketPath : Path) : CliArgs :=
  ⟨true, some socketPath, false, some (tokenFilePath socketPath)⟩

def ofShell : CliArgs := ⟨false, none, false, none⟩

end CliArgs

-- `write(2)` at an offset: what lies between the end of the file and the offset reads as zeros.
def overwrite (old : Bytes) (offset : Nat) (bytes : Bytes) : Bytes :=
  (old ++ List.replicate (offset - old.length) 0).take offset ++ bytes ++
    old.drop (offset + bytes.length)

namespace Host

variable (h : Host)

def start (files : Files Content) : Host := ⟨files, fun _ => none, [], []⟩

def goto (i : Nat) (args : CliArgs) (pc : Pc) : Host :=
  { h with processes := Function.update h.processes i (some ⟨args, pc⟩) }

def inodeAt (p : Path) : Option Nat :=
  match h.files p with
  | .file (.data inode _) => inode
  | _ => some h.made.length

-- `File::create`: an existing file is cut to nothing, and a reader sees it so.
def truncate (i : Nat) (p : Path) (text : Bytes) : Option (Host × Write) :=
  (follow h.files maxLinks p).bind fun q =>
    (writeFile writable h.files p (.data (h.inodeAt q) [])).map fun files =>
      ({ h with files := files, made := h.made ++ [⟨q, i, some text⟩] },
        ⟨q, h.inodeAt q, text, 0⟩)

def writeAt (p : Path) (inode : Option Nat) (offset : Nat) (bytes : Bytes) : Host :=
  match h.files p with
  | .file (.data inode' old) =>
    if inode' = inode then
      { h with files :=
          Function.update h.files p (.file (.data inode (overwrite old offset bytes))) }
    else h
  | _ => h

-- A file that was unlinked meanwhile takes the bytes where no path leads.
def fill (w : Write) (n : Nat) : Host :=
  h.writeAt w.file w.inode w.written ((w.text.drop w.written).take n)

def create (i : Nat) (p : Path) : Option Host :=
  (createFile h.files p .socket).map fun files =>
    { h with files := files, made := h.made ++ [⟨p, i, none⟩] }

def remove (p : Path) : Option Host :=
  (removeFile h.files p).map fun files => { h with files := files }

def kill (caProcess : Option Nat) : Host :=
  match caProcess with
  | none => h
  | some j =>
    match h.processes j with
    | none => h
    | some proc => h.goto j proc.args .ended

def readToken (p : Path) : Option String :=
  match readFile h.files p with
  | some (.data _ bytes) => fromUtf8 bytes
  | _ => none

def advance (i : Nat) (args : CliArgs) : Pc → Choice → Option Host
  | .ended, _ => none
  | _, .dies => some (h.goto i args .ended)
  | .readConfig, .tempdir socketPath => some (h.goto i args (args.configured socketPath))
  | .caReadToken socketPath tokenFile, .ok =>
    match h.readToken tokenFile with
    | some authToken => some (h.goto i args (.caRemoveToken socketPath tokenFile authToken))
    | none => some (h.goto i args .ended)
  | .caRemoveToken socketPath tokenFile authToken, .ok =>
    match h.remove tokenFile with
    | some removed => some ({ removed with taken := h.taken ++ [(i, tokenFile)] }.goto i args
        (.caLoadKey socketPath tokenFile authToken))
    | none => some (h.goto i args .ended)
  | .caLoadKey socketPath tokenFile authToken, .ok =>
    some (h.goto i args (.caRemoveSocket socketPath tokenFile authToken))
  | .caRemoveSocket socketPath tokenFile authToken, .ok =>
    if pathExists h.files socketPath then
      match h.remove socketPath with
      | some removed => some (removed.goto i args (.caBind socketPath tokenFile authToken))
      | none => some (h.goto i args .ended)
    else some (h.goto i args (.caBind socketPath tokenFile authToken))
  | .caBind socketPath tokenFile authToken, .ok =>
    match h.create i socketPath with
    | some bound => some (bound.goto i args (.caServing socketPath tokenFile authToken))
    | none => some (h.goto i args .ended)
  | .sshToken socketPath, .ok =>
    args.tokenFile.map fun tokenFile =>
      match h.readToken tokenFile with
      | some authToken => h.goto i args (args.withToken socketPath authToken)
      | none => h.goto i args .ended
  | .sshToken socketPath, .random tokenBytes =>
    if args.tokenFile = none ∧ tokenBytes.length = 32 then
      some (h.goto i args (args.withToken socketPath (String.ofList (Base64.encode tokenBytes))))
    else none
  | .sshWriteToken socketPath authToken, .ok =>
    (h.truncate i (tokenFilePath socketPath) (utf8 authToken)).map fun opened =>
      opened.1.goto i args (.sshFillToken socketPath authToken opened.2)
  | .sshFillToken socketPath authToken w, .partly n =>
    if 0 < n ∧ w.written + n ≤ w.text.length then
      some ((h.fill w n).goto i args
        (.sshFillToken socketPath authToken { w with written := w.written + n }))
    else none
  | .sshFillToken socketPath authToken w, .ok =>
    if w.written = w.text.length then
      some (h.goto i args (.sshRestrictToken socketPath authToken))
    else none
  | .sshRestrictToken socketPath authToken, .ok =>
    some (h.goto i args (.sshSpawn socketPath authToken))
  | .sshRestrictToken socketPath _, .fails | .sshSpawn socketPath _, .fails =>
    some (((h.remove (tokenFilePath socketPath)).getD h).goto i args .ended)
  | .sshSpawn socketPath authToken, .spawned child =>
    let waiting := h.goto i args (.sshAwait socketPath authToken (some child))
    match waiting.processes child with
    | none => some (waiting.goto child (.ofChild socketPath) .readConfig)
    | some _ => none
  | .sshAwait socketPath authToken caProcess, .ok =>
    if pathExists h.files socketPath then
      some (h.goto i args (.sshServing socketPath authToken caProcess))
    else none
  | .sshAwait _ _ caProcess, .fails => some ((h.kill caProcess).goto i args .ended)
  | .sshServing socketPath _ caProcess, .fails =>
    let killed := h.kill caProcess
    some (((killed.remove socketPath).getD killed).goto i args .ended)
  | .shellOpen tokenFile text, .ok =>
    (h.truncate i tokenFile text).map fun opened => opened.1.goto i args (.shellFill opened.2)
  | .shellFill w, .partly n =>
    if 0 < n ∧ w.written + n ≤ w.text.length then
      some ((h.fill w n).goto i args (.shellFill { w with written := w.written + n }))
    else none
  | _, _ => none

def step : Step → Option Host
  | .launch i args =>
    match h.processes i with
    | none => some (h.goto i args .readConfig)
    | some _ => none
  | .provision i tokenFile text =>
    match h.processes i with
    | none => some (h.goto i .ofShell (.shellOpen tokenFile text))
    | some _ => none
  | .advance i choice => (h.processes i).bind fun proc => h.advance i proc.args proc.pc choice

end Host

namespace Pc

def consumed : Pc → Option Path
  | .caLoadKey _ tokenFile _ | .caRemoveSocket _ tokenFile _ | .caBind _ tokenFile _
  | .caServing _ tokenFile _ => some tokenFile
  | _ => none

def past : Pc → Bool
  | .ended => true
  | pc => pc.consumed.isSome

def writing : Pc → Option Write
  | .sshFillToken _ _ w | .shellFill w => some w
  | _ => none

def wrote : Pc → Option (Path × String)
  | .sshRestrictToken socketPath authToken | .sshSpawn socketPath authToken
  | .sshAwait socketPath authToken (some _) | .sshServing socketPath authToken (some _) =>
    some (tokenFilePath socketPath, authToken)
  | _ => none

def child : Pc → Option Nat
  | .sshAwait _ _ caProcess | .sshServing _ _ caProcess => caProcess
  | _ => none

end Pc

-- The token a process uses, under every path it was read from or written to.
def CliArgs.holds (args : CliArgs) : Pc → List (Path × String)
  | .caRemoveToken _ tokenFile authToken | .caLoadKey _ tokenFile authToken
  | .caRemoveSocket _ tokenFile authToken | .caBind _ tokenFile authToken
  | .caServing _ tokenFile authToken => [(tokenFile, authToken)]
  | .sshWriteToken _ authToken => args.tokenFile.toList.map fun p => (p, authToken)
  | .sshFillToken socketPath authToken _ | .sshRestrictToken socketPath authToken
  | .sshSpawn socketPath authToken =>
    (tokenFilePath socketPath, authToken) :: args.tokenFile.toList.map fun p => (p, authToken)
  | .sshAwait socketPath authToken caProcess | .sshServing socketPath authToken caProcess =>
    (caProcess.toList.map fun _ => (tokenFilePath socketPath, authToken)) ++
      args.tokenFile.toList.map fun p => (p, authToken)
  | _ => []

-- A step of one process that writes nothing: it may have read a token meanwhile.
structure Follows (h : Host) (args : CliArgs) (pc pc' : Pc) : Prop where
  past : pc.past → pc'.past
  consumed : ∀ p, pc'.consumed = some p → pc.consumed = some p
  gains : ∀ p authToken, (p, authToken) ∈ args.holds pc' →
    (p, authToken) ∈ args.holds pc ∨ h.readToken p = some authToken
  writing : pc'.writing = none
  wrote : ∀ p authToken, pc'.wrote = some (p, authToken) → pc.wrote = some (p, authToken)
  child : ∀ j, pc'.child = some j → pc.child = some j

inductive Effect (h : Host) (i : Nat) (args : CliArgs) : Pc → Host → Prop where
  | moves {pc pc' : Pc} (follows : Follows h args pc pc') : Effect h i args pc (h.goto i args pc')
  | removes {pc pc' : Pc} {h' : Host} {p : Path} (removed : h.remove p = some h')
      (follows : Follows h args pc pc') : Effect h i args pc (h'.goto i args pc')
  | takes {socketPath tokenFile : Path} {authToken : String} {h' : Host}
      (removed : h.remove tokenFile = some h') :
      Effect h i args (.caRemoveToken socketPath tokenFile authToken)
        ({ h' with taken := h.taken ++ [(i, tokenFile)] }.goto i args
          (.caLoadKey socketPath tokenFile authToken))
  | binds {socketPath tokenFile : Path} {authToken : String} {h' : Host}
      (created : h.create i socketPath = some h') :
      Effect h i args (.caBind socketPath tokenFile authToken)
        (h'.goto i args (.caServing socketPath tokenFile authToken))
  | truncates {socketPath : Path} {authToken : String} {h' : Host} {w : Write}
      (opened : h.truncate i (tokenFilePath socketPath) (utf8 authToken) = some (h', w)) :
      Effect h i args (.sshWriteToken socketPath authToken)
        (h'.goto i args (.sshFillToken socketPath authToken w))
  | provides {tokenFile : Path} {text : Bytes} {h' : Host} {w : Write}
      (opened : h.truncate i tokenFile text = some (h', w)) :
      Effect h i args (.shellOpen tokenFile text) (h'.goto i args (.shellFill w))
  | fills {pc pc' : Pc} {w : Write} {n : Nat} (writing : pc.writing = some w)
      (further : pc'.writing = some { w with written := w.written + n })
      (within : w.written + n ≤ w.text.length) (holds : args.holds pc' = args.holds pc)
      (filling : ∀ socketPath authToken w', pc' = .sshFillToken socketPath authToken w' →
        pc = .sshFillToken socketPath authToken w) :
      Effect h i args pc ((h.fill w n).goto i args pc')
  | filled {socketPath : Path} {authToken : String} {w : Write}
      (complete : w.written = w.text.length) :
      Effect h i args (.sshFillToken socketPath authToken w)
        (h.goto i args (.sshRestrictToken socketPath authToken))
  | spawns {socketPath : Path} {authToken : String} {child : Nat}
      (free :
        (h.goto i args (.sshAwait socketPath authToken (some child))).processes child = none) :
      Effect h i args (.sshSpawn socketPath authToken)
        ((h.goto i args (.sshAwait socketPath authToken (some child))).goto child
          (.ofChild socketPath) .readConfig)
  | kills {pc : Pc} {caProcess : Option Nat} :
      Effect h i args pc ((h.kill caProcess).goto i args .ended)
  | killsAndRemoves {pc : Pc} {caProcess : Option Nat} {h' : Host} {p : Path}
      (removed : (h.kill caProcess).remove p = some h') :
      Effect h i args pc (h'.goto i args .ended)

section

variable {h h' : Host} {i : Nat} {args : CliArgs} {pc : Pc} {p : Path} {authToken : String}

theorem goto_processes (h : Host) (i j : Nat) (args : CliArgs) (pc : Pc) :
    (h.goto i args pc).processes j = if j = i then some ⟨args, pc⟩ else h.processes j := by
  simp [Host.goto, Function.update_apply]

theorem remove_eq_some (hr : h.remove p = some h') :
    h' = { h with files := Function.update h.files p .absent } ∧ present (h.files p) = true := by
  obtain ⟨files, hfiles, rfl⟩ := Option.map_eq_some_iff.mp hr
  obtain rfl := removeFile_eq_some hfiles
  refine ⟨rfl, ?_⟩
  rw [removeFile] at hfiles
  cases hf : h.files p with
  | absent => simp [hf] at hfiles
  | _ => rfl

theorem create_eq_some (hc : h.create i p = some h') : h' = { h with
    files := Function.update h.files p (.file .socket), made := h.made ++ [⟨p, i, none⟩] } := by
  obtain ⟨files, hfiles, rfl⟩ := Option.map_eq_some_iff.mp hc
  obtain ⟨-, rfl⟩ := createFile_eq_some hfiles
  rfl

theorem truncate_eq_some {text : Bytes} {w : Write} (ho : h.truncate i p text = some (h', w)) :
    follow h.files maxLinks p = some w.file ∧ w = ⟨w.file, h.inodeAt w.file, text, 0⟩ ∧
      h' = { h with
        files := Function.update h.files w.file (.file (.data w.inode []))
        made := h.made ++ [⟨w.file, i, some text⟩] } := by
  obtain ⟨q, hq, ho⟩ := Option.bind_eq_some_iff.mp ho
  obtain ⟨files, hfiles, heq⟩ := Option.map_eq_some_iff.mp ho
  obtain ⟨rfl, rfl⟩ := Prod.mk.inj heq
  obtain ⟨q', hq', -, rfl⟩ := writeFile_eq_some hfiles
  obtain rfl := Option.some.inj (hq.symm.trans hq')
  exact ⟨hq, rfl, rfl⟩

theorem writing_idle {w : Write} (h : pc.writing = some w) :
    pc.past = false ∧ pc.consumed = none ∧ pc.wrote = none := by
  cases pc with
  | sshFillToken socketPath authToken w' => exact ⟨rfl, rfl, rfl⟩
  | shellFill w' => exact ⟨rfl, rfl, rfl⟩
  | _ => simp [Pc.writing] at h

theorem follows_ended (h : Host) (args : CliArgs) (pc : Pc) : Follows h args pc .ended :=
  ⟨fun _ => rfl, by simp [Pc.consumed], by simp [CliArgs.holds], rfl, by simp [Pc.wrote],
    by simp [Pc.child]⟩

theorem effect_ended (h : Host) (i : Nat) (args : CliArgs) (pc : Pc) :
    Effect h i args pc (h.goto i args .ended) := .moves (follows_ended h args pc)

theorem effect_removing (h : Host) (i : Nat) (args : CliArgs) (pc : Pc) (p : Path) :
    Effect h i args pc (((h.remove p).getD h).goto i args .ended) := by
  cases hr : h.remove p with
  | none => exact effect_ended h i args pc
  | some h' => exact .removes hr (follows_ended h args pc)

theorem follows_configured (h : Host) (args : CliArgs) (tempSocket : Path) :
    Follows h args .readConfig (args.configured tempSocket) := by
  rw [CliArgs.configured]
  split
  · split
    · exact ⟨by simp [Pc.past, Pc.consumed], by simp [Pc.consumed], by simp [CliArgs.holds], rfl,
        by simp [Pc.wrote], by simp [Pc.child]⟩
    · exact follows_ended h args _
  · exact ⟨by simp [Pc.past, Pc.consumed], by simp [Pc.consumed], by simp [CliArgs.holds], rfl,
      by simp [Pc.wrote], by simp [Pc.child]⟩

theorem follows_withToken {socketPath : Path}
    (hread : ∀ p ∈ args.tokenFile, h.readToken p = some authToken) :
    Follows h args (.sshToken socketPath) (args.withToken socketPath authToken) := by
  have hgains : ∀ p token, (p, token) ∈ args.tokenFile.toList.map (fun p => (p, authToken)) →
      (p, token) ∈ args.holds (.sshToken socketPath) ∨ h.readToken p = some token := by
    intro p token hmem
    obtain ⟨q, hq, heq⟩ := List.mem_map.mp hmem
    obtain ⟨rfl, rfl⟩ := Prod.mk.inj heq
    exact Or.inr (hread q (Option.mem_toList.mp hq))
  rw [CliArgs.withToken]
  split
  · exact ⟨by simp [Pc.past, Pc.consumed], by simp [Pc.consumed], hgains, rfl,
      by simp [Pc.wrote], by simp [Pc.child]⟩
  · exact ⟨by simp [Pc.past, Pc.consumed], by simp [Pc.consumed], hgains, rfl,
      by simp [Pc.wrote], by simp [Pc.child]⟩

theorem advance_dies (hlive : pc ≠ .ended) :
    h.advance i args pc .dies = some (h.goto i args .ended) := by
  cases pc with
  | ended => exact absurd rfl hlive
  | _ => rfl

theorem effect_advance {choice : Choice} (hs : h.advance i args pc choice = some h') :
    Effect h i args pc h' := by
  by_cases hdies : choice = .dies
  · subst hdies
    have hlive : pc ≠ .ended := by
      rintro rfl
      simp [Host.advance] at hs
    rw [advance_dies hlive] at hs
    exact Option.some.inj hs ▸ effect_ended h i args pc
  cases pc with
  | ended => simp [Host.advance] at hs
  | readConfig =>
    cases choice with
    | tempdir socketPath => exact Option.some.inj hs ▸ .moves (follows_configured h args socketPath)
    | _ => simp [Host.advance] at hs hdies
  | caReadToken socketPath tokenFile =>
    cases choice with
    | ok =>
      simp only [Host.advance] at hs
      split at hs
      · next token hread =>
        refine Option.some.inj hs ▸ .moves ⟨by simp [Pc.past, Pc.consumed], by simp [Pc.consumed],
          fun p t hmem => ?_, rfl, by simp [Pc.wrote], by simp [Pc.child]⟩
        obtain ⟨rfl, rfl⟩ := Prod.mk.inj (List.mem_singleton.mp hmem)
        exact Or.inr hread
      · exact Option.some.inj hs ▸ effect_ended h i args _
    | _ => simp [Host.advance] at hs hdies
  | caRemoveToken socketPath tokenFile token =>
    cases choice with
    | ok =>
      simp only [Host.advance] at hs
      split at hs
      · next removed hr => exact Option.some.inj hs ▸ .takes hr
      · exact Option.some.inj hs ▸ effect_ended h i args _
    | _ => simp [Host.advance] at hs hdies
  | caLoadKey socketPath tokenFile token =>
    cases choice with
    | ok =>
      exact Option.some.inj hs ▸ .moves ⟨fun _ => rfl, fun p hp => hp, fun p t hmem => Or.inl hmem,
        rfl, by simp [Pc.wrote], by simp [Pc.child]⟩
    | _ => simp [Host.advance] at hs hdies
  | caRemoveSocket socketPath tokenFile token =>
    have hfollows : Follows h args (.caRemoveSocket socketPath tokenFile token)
        (.caBind socketPath tokenFile token) :=
      ⟨fun _ => rfl, fun p hp => hp, fun p t hmem => Or.inl hmem, rfl, by simp [Pc.wrote],
        by simp [Pc.child]⟩
    cases choice with
    | ok =>
      simp only [Host.advance] at hs
      split at hs
      · split at hs
        · next removed hr => exact Option.some.inj hs ▸ .removes hr hfollows
        · exact Option.some.inj hs ▸ effect_ended h i args _
      · exact Option.some.inj hs ▸ .moves hfollows
    | _ => simp [Host.advance] at hs hdies
  | caBind socketPath tokenFile token =>
    cases choice with
    | ok =>
      simp only [Host.advance] at hs
      split at hs
      · next bound hc => exact Option.some.inj hs ▸ .binds hc
      · exact Option.some.inj hs ▸ effect_ended h i args _
    | _ => simp [Host.advance] at hs hdies
  | caServing socketPath tokenFile token => cases choice <;> simp [Host.advance] at hs hdies
  | sshToken socketPath =>
    cases choice with
    | ok =>
      obtain ⟨tokenFile, htoken, rfl⟩ := Option.map_eq_some_iff.mp hs
      split
      · next token hread =>
        refine .moves (follows_withToken fun p hp => ?_)
        obtain rfl : tokenFile = p := Option.some.inj (htoken.symm.trans hp)
        exact hread
      · exact effect_ended h i args _
    | random tokenBytes =>
      simp only [Host.advance] at hs
      obtain ⟨⟨hnone, -⟩, hs⟩ := Option.ite_none_right_eq_some.mp hs
      exact Option.some.inj hs ▸ .moves (follows_withToken (by simp [hnone]))
    | _ => simp [Host.advance] at hs hdies
  | sshWriteToken socketPath token =>
    cases choice with
    | ok =>
      obtain ⟨⟨opened, w⟩, ho, rfl⟩ := Option.map_eq_some_iff.mp hs
      exact .truncates ho
    | _ => simp [Host.advance] at hs hdies
  | sshFillToken socketPath token w =>
    cases choice with
    | partly n =>
      simp only [Host.advance] at hs
      obtain ⟨⟨-, hwithin⟩, hs⟩ := Option.ite_none_right_eq_some.mp hs
      exact Option.some.inj hs ▸ .fills rfl rfl hwithin rfl (by simp)
    | ok =>
      simp only [Host.advance] at hs
      obtain ⟨hcomplete, hs⟩ := Option.ite_none_right_eq_some.mp hs
      exact Option.some.inj hs ▸ .filled hcomplete
    | _ => simp [Host.advance] at hs hdies
  | sshRestrictToken socketPath token =>
    cases choice with
    | ok =>
      exact Option.some.inj hs ▸ .moves ⟨by simp [Pc.past, Pc.consumed], by simp [Pc.consumed],
        fun p t hmem => Or.inl hmem, rfl, fun p t hp => hp, by simp [Pc.child]⟩
    | fails => exact Option.some.inj hs ▸ effect_removing h i args _ _
    | _ => simp [Host.advance] at hs hdies
  | sshSpawn socketPath token =>
    cases choice with
    | spawned child =>
      simp only [Host.advance] at hs
      split at hs
      · next hfree => exact Option.some.inj hs ▸ .spawns hfree
      · simp at hs
    | fails => exact Option.some.inj hs ▸ effect_removing h i args _ _
    | _ => simp [Host.advance] at hs hdies
  | sshAwait socketPath token caProcess =>
    cases choice with
    | ok =>
      simp only [Host.advance] at hs
      obtain ⟨-, hs⟩ := Option.ite_none_right_eq_some.mp hs
      refine Option.some.inj hs ▸ .moves ⟨by simp [Pc.past, Pc.consumed], by simp [Pc.consumed],
        fun p t hmem => Or.inl hmem, rfl, fun p t hp => ?_, fun j hj => hj⟩
      cases caProcess <;> exact hp
    | fails => exact Option.some.inj hs ▸ .kills
    | _ => simp [Host.advance] at hs hdies
  | sshServing socketPath token caProcess =>
    cases choice with
    | fails =>
      obtain rfl := Option.some.inj hs
      cases hr : (h.kill caProcess).remove socketPath with
      | none => exact .kills
      | some removed => exact .killsAndRemoves hr
    | _ => simp [Host.advance] at hs hdies
  | shellOpen tokenFile text =>
    cases choice with
    | ok =>
      obtain ⟨⟨opened, w⟩, ho, rfl⟩ := Option.map_eq_some_iff.mp hs
      exact .provides ho
    | _ => simp [Host.advance] at hs hdies
  | shellFill w =>
    cases choice with
    | partly n =>
      simp only [Host.advance] at hs
      obtain ⟨⟨-, hwithin⟩, hs⟩ := Option.ite_none_right_eq_some.mp hs
      exact Option.some.inj hs ▸ .fills rfl rfl hwithin rfl (by simp)
    | _ => simp [Host.advance] at hs hdies

end

end SshCertificateAuthority.TokenHandover
