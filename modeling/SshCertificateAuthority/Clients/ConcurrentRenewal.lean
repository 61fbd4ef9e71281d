import Mathlib.Data.List.Nodup
import SshCertificateAuthority.Clients.CertificateRenewal
import SshCertificateAuthority.Library.Run

namespace SshCertificateAuthority.Clients
open ByteStream UnixPath ShellArith

inductive Pc where
  | mktemp
  | countAttempts (tmpfile : Path)
  | attempt (tmpfile : Path) (attempt : Nat)
  | transfer (tmpfile : Path) (attempt : Nat) (received : Bytes)
  | check (tmpfile : Path) (attempt : Nat) (outcome : SshOutcome)
  | mv (tmpfile : Path) (outcome : SshOutcome)
  | rm (tmpfile : Path)
  | clearTrap (tmpfile : Path) (ending : Ending)
  | ended (tmpfile : Path) (ending : Ending)
  | orphanedSsh (tmpfile : Path)
  | died
deriving DecidableEq, Repr

structure Script where
  output : Path
  retryCount : RetryCount
  pc : Pc

structure Host where
  files : Files
  scripts : Nat → Option Script
  outputs : List Path
  names : List (Nat × Path)
  answers : List (Path × SshOutcome)

-- Steps of any number of scripts: a death leaves or removes the file, whether or not the trap ran.
inductive ScriptStep where
  | launch (script : Nat) (output : Path) (retryCount : RetryCount)
  | mktemp (script : Nat) (suffix : Name)
  | receive (script : Nat) (stdout : Bytes)
  | sshExits (script : Nat) (exitCode : UInt8)
  | advance (script : Nat)
  | dies (script : Nat) (removed : Bool)

namespace Pc

def tmpfile : Pc → Option Path
  | .mktemp | .died => none
  | .countAttempts t | .attempt t _ | .transfer t _ _ | .check t _ _ | .mv t _ | .rm t
  | .clearTrap t _ | .ended t _ | .orphanedSsh t => some t

def alive : Pc → Bool
  | .ended _ _ | .orphanedSsh _ | .died => false
  | _ => true

def abandoned : Pc → Pc
  | .transfer t _ _ => .orphanedSsh t
  | _ => .died

end Pc

namespace Script

variable (script : Script)

def maxAttempts : Int :=
  match constant script.retryCount.digits with
  | none => 0
  | some n => plus n 1

def retry (tmpfile : Path) (attempt : Nat) : Pc :=
  if (attempt : Int) < script.maxAttempts then .attempt tmpfile attempt else .rm tmpfile

def checked (tmpfile : Path) (attempt : Nat) (outcome : SshOutcome) (content : Bytes) : Pc :=
  if outcome.exitCode = 0 then
    if content = [] then script.retry tmpfile (attempt + 1)
    else if !looksLikeCertificate (firstLine content) then script.retry tmpfile (attempt + 1)
    else .mv tmpfile outcome
  else .attempt tmpfile (attempt + 1)

end Script

namespace Host

variable (h : Host)

def start (files : Files) : Host := ⟨files, fun _ => none, [], [], []⟩

def goto (i : Nat) (script : Script) (pc : Pc) : Host :=
  { h with scripts := Function.update h.scripts i (some { script with pc := pc }) }

def put (p : Path) (content : Option Bytes) : Host :=
  { h with files := Function.update h.files p content }

def advance (i : Nat) (script : Script) : Option Host :=
  match script.pc with
  | .countAttempts tmpfile =>
    match constant script.retryCount.digits with
    | none => some (h.goto i script .died)
    | some _ => some (h.goto i script (.attempt tmpfile 0))
  | .attempt tmpfile k =>
    if (k : Int) < script.maxAttempts then
      some ((h.put tmpfile (some [])).goto i script (.transfer tmpfile k []))
    else some (h.goto i script (.rm tmpfile))
  | .check tmpfile k outcome =>
    some (h.goto i script (script.checked tmpfile k outcome ((h.files tmpfile).getD [])))
  | .mv tmpfile _ =>
    some (((h.put tmpfile none).put script.output (h.files tmpfile)).goto i script
      (.clearTrap tmpfile .returned))
  | .rm tmpfile => some ((h.put tmpfile none).goto i script (.clearTrap tmpfile (.exited 1)))
  | .clearTrap tmpfile ending => some (h.goto i script (.ended tmpfile ending))
  | _ => none

def append (tmpfile : Path) (stdout : Bytes) : Host :=
  h.put tmpfile ((h.files tmpfile).map fun content => content ++ stdout)

def step : ScriptStep → Option Host
  | .launch i output retryCount =>
    match h.scripts i with
    | some _ => none
    | none =>
      some ({ h with outputs := h.outputs ++ [output] }.goto i ⟨output, retryCount, .mktemp⟩
        .mktemp)
  | .mktemp i suffix =>
    (h.scripts i).bind fun script =>
      let tmpfile := script.output ++ '.' :: suffix
      if script.pc = .mktemp ∧ suffix.length = 6 ∧ h.files tmpfile = none then
        some (({ h with names := h.names ++ [(i, tmpfile)] }.put tmpfile (some [])).goto i script
          (.countAttempts tmpfile))
      else none
  | .receive i stdout =>
    (h.scripts i).bind fun script =>
      match script.pc with
      | .transfer tmpfile k received =>
        some ((h.append tmpfile stdout).goto i script (.transfer tmpfile k (received ++ stdout)))
      | .orphanedSsh tmpfile => some (h.append tmpfile stdout)
      | _ => none
  | .sshExits i exitCode =>
    (h.scripts i).bind fun script =>
      match script.pc with
      | .transfer tmpfile k received =>
        let outcome : SshOutcome := ⟨exitCode, received⟩
        some ({ h with answers := h.answers ++ [(script.output, outcome)] }.goto i script
          (.check tmpfile k outcome))
      | .orphanedSsh _ => some (h.goto i script .died)
      | _ => none
  | .advance i => (h.scripts i).bind fun script => h.advance i script
  | .dies i removed =>
    (h.scripts i).bind fun script =>
      if script.pc.alive then
        match script.pc.tmpfile with
        | none => some (h.goto i script .died)
        | some tmpfile =>
          if removed then some ((h.put tmpfile none).goto i script .died)
          else some (h.goto i script script.pc.abandoned)
      else none

@[simp] theorem goto_script (i : Nat) (script : Script) (pc : Pc) :
    (h.goto i script pc).scripts i = some { script with pc := pc } :=
  Function.update_self ..

end Host

def Apart (outputs : List Path) : Prop :=
  ∀ p ∈ outputs, ∀ q ∈ outputs, ∀ suffix : Name, suffix.length = 6 → p ≠ q ++ '.' :: suffix

-- What a script that is at this point knows of its temporary file.
def Knows (answers : List (Path × SshOutcome)) (output : Path) (content : Option Bytes) :
    Pc → Prop
  | .transfer _ _ received => content = some received
  | .check _ _ outcome => content = some outcome.stdout ∧ (output, outcome) ∈ answers
  | .mv _ outcome =>
    content = some outcome.stdout ∧ (output, outcome) ∈ answers ∧ outcome.accepted = true
  | .clearTrap _ _ | .ended _ _ => content = none
  | _ => True

structure Kept (initial : Files) (h : Host) : Prop where
  named : ∀ e ∈ h.names, ∃ output ∈ h.outputs, ∃ suffix : Name,
    suffix.length = 6 ∧ e.2 = output ++ '.' :: suffix
  launched : ∀ i script, h.scripts i = some script → script.output ∈ h.outputs
  scripts : ∀ i script tmpfile, h.scripts i = some script → script.pc.tmpfile = some tmpfile →
    (i, tmpfile) ∈ h.names ∧ Knows h.answers script.output (h.files tmpfile) script.pc
  outputs : ∀ p ∈ h.outputs, h.files p = initial p ∨ ∃ outcome, (p, outcome) ∈ h.answers ∧
    outcome.accepted = true ∧ h.files p = some outcome.stdout
  frame : ∀ p, p ∉ h.outputs → p ∉ h.names.map Prod.snd → h.files p = initial p
  unborn : ∀ p ∈ h.names.map Prod.snd, initial p = none

section

variable {initial : Files} {h h' : Host} {i : Nat} {script : Script} {tmpfile : Path}

theorem knows_mono {answers answers' : List (Path × SshOutcome)} {output : Path}
    {content : Option Bytes} {pc : Pc} (hsub : answers ⊆ answers')
    (hk : Knows answers output content pc) : Knows answers' output content pc := by
  cases pc with
  | check t k outcome => exact ⟨hk.1, hsub hk.2⟩
  | mv t outcome => exact ⟨hk.1, hsub hk.2.1, hk.2.2⟩
  | _ => exact hk

theorem name_ne_output {e : Nat × Path} {output : Path} (hi : Kept initial h)
    (hapart : Apart h.outputs) (he : e ∈ h.names) (ho : output ∈ h.outputs) : e.2 ≠ output := by
  obtain ⟨q, hq, suffix, hlength, htmp⟩ := hi.named e he
  exact fun heq => hapart output ho q hq suffix hlength (heq.symm.trans htmp)

theorem name_owner {e e' : Nat × Path} (hnames : (h.names.map Prod.snd).Nodup) (he : e ∈ h.names)
    (he' : e' ∈ h.names) (hsame : e.2 = e'.2) : e = e' :=
  List.inj_on_of_nodup_map hnames he he' hsame

theorem kept_start (initial : Files) : Kept initial (Host.start initial) where
  named := by simp [Host.start]
  launched := by simp [Host.start]
  scripts := by simp [Host.start]
  outputs := by simp [Host.start]
  frame _ _ _ := rfl
  unborn := by simp [Host.start]

-- What a script does to its own temporary file concerns neither the others nor any output.
theorem kept_own {answers : List (Path × SshOutcome)} (hi : Kept initial h)
    (hnames : (h.names.map Prod.snd).Nodup) (hapart : Apart h.outputs)
    (at_i : h.scripts i = some script) (htmp : (i, tmpfile) ∈ h.names) (content : Option Bytes)
    (pc : Pc) (hpc : ∀ t, pc.tmpfile = some t → t = tmpfile) (hsub : h.answers ⊆ answers)
    (hknows : Knows answers script.output content pc) :
    Kept initial (({ h with answers := answers }.put tmpfile content).goto i script pc) := by
  have hother : ∀ p ∈ h.outputs, p ≠ tmpfile :=
    fun p hp heq => name_ne_output hi hapart htmp hp heq.symm
  refine ⟨hi.named, fun j other hj => ?_, fun j other t hj ht => ?_, fun p hp => ?_,
    fun p hp hp' => ?_, hi.unborn⟩
  · simp only [Host.goto, Host.put, Function.update_apply] at hj
    split at hj
    · obtain rfl := Option.some.inj hj
      exact hi.launched i script at_i
    · exact hi.launched j other hj
  · simp only [Host.goto, Host.put, Function.update_apply] at hj ⊢
    split at hj
    · next heq =>
      obtain rfl := Option.some.inj hj
      obtain rfl := hpc t ht
      rw [if_pos rfl, heq]
      exact ⟨htmp, hknows⟩
    · next hne =>
      obtain ⟨hmem, hk⟩ := hi.scripts j other t hj ht
      have hapart' : t ≠ tmpfile := fun heq =>
        hne (Prod.mk.inj (name_owner hnames hmem htmp heq)).1
      rw [if_neg hapart']
      exact ⟨hmem, knows_mono hsub hk⟩
  · have hsame : (({ h with answers := answers }.put tmpfile content).goto i script pc).files p =
        h.files p := Function.update_of_ne (hother p hp) ..
    rw [hsame]
    rcases hi.outputs p hp with hp' | ⟨outcome, hmem, hacc, hp'⟩
    · exact Or.inl hp'
    · exact Or.inr ⟨outcome, hsub hmem, hacc, hp'⟩
  · have hne : p ≠ tmpfile := fun heq => hp' (List.mem_map.mpr ⟨_, htmp, heq.symm⟩)
    exact (Function.update_of_ne hne ..).trans (hi.frame p hp hp')

theorem kept_published {output : Path} {outcome : SshOutcome} (hi : Kept initial h)
    (hapart : Apart h.outputs) (ho : output ∈ h.outputs) (hmem : (output, outcome) ∈ h.answers)
    (hacc : outcome.accepted = true) : Kept initial (h.put output (some outcome.stdout)) := by
  refine ⟨hi.named, hi.launched, fun j other t hj ht => ?_, fun p hp => ?_, fun p hp hp' => ?_,
    hi.unborn⟩
  · obtain ⟨hname, hk⟩ := hi.scripts j other t hj ht
    have hne : t ≠ output := name_ne_output hi hapart hname ho
    have hsame : (h.put output (some outcome.stdout)).files t = h.files t :=
      Function.update_of_ne hne ..
    rw [hsame]
    exact ⟨hname, hk⟩
  · simp only [Host.put, Function.update_apply]
    split
    · next heq =>
      rw [heq]
      exact Or.inr ⟨outcome, hmem, hacc, rfl⟩
    · exact hi.outputs p hp
  · have hne : p ≠ output := fun heq => hp (heq ▸ ho)
    exact (Function.update_of_ne hne ..).trans (hi.frame p hp hp')

theorem kept_named {suffix : Name} (hi : Kept initial h) (hapart : Apart h.outputs)
    (at_i : h.scripts i = some script) (hlength : suffix.length = 6)
    (hfree : h.files (script.output ++ '.' :: suffix) = none)
    (hnew : script.output ++ '.' :: suffix ∉ h.names.map Prod.snd) :
    Kept initial { h with names := h.names ++ [(i, script.output ++ '.' :: suffix)] } := by
  have hlaunched := hi.launched i script at_i
  refine ⟨fun e he => ?_, hi.launched, fun j other t hj ht => ?_, hi.outputs, fun p hp hp' => ?_,
    fun p hp => ?_⟩
  · rcases List.mem_append.mp he with he | he
    · exact hi.named e he
    · rw [List.mem_singleton.mp he]
      exact ⟨script.output, hlaunched, suffix, hlength, rfl⟩
  · obtain ⟨hname, hk⟩ := hi.scripts j other t hj ht
    exact ⟨List.mem_append_left _ hname, hk⟩
  · refine hi.frame p hp fun hmem => hp' ?_
    rw [List.map_append]
    exact List.mem_append_left _ hmem
  · rw [List.map_append] at hp
    rcases List.mem_append.mp hp with hp | hp
    · exact hi.unborn p hp
    · obtain rfl := List.mem_singleton.mp hp
      have hout : script.output ++ '.' :: suffix ∉ h.outputs := fun hmem =>
        hapart _ hmem script.output hlaunched suffix hlength rfl
      exact (hi.frame _ hout hnew).symm.trans hfree

theorem kept_launched {output : Path} {retryCount : RetryCount} (hi : Kept initial h)
    (hapart : Apart (h.outputs ++ [output])) :
    Kept initial ({ h with outputs := h.outputs ++ [output] }.goto i ⟨output, retryCount, .mktemp⟩
      .mktemp) := by
  have hmine : output ∈ h.outputs ++ [output] := List.mem_append_right _ List.mem_cons_self
  refine ⟨fun e he => ?_, fun j other hj => ?_, fun j other t hj ht => ?_, fun p hp => ?_,
    fun p hp hp' => ?_, hi.unborn⟩
  · obtain ⟨q, hq, hrest⟩ := hi.named e he
    exact ⟨q, List.mem_append_left _ hq, hrest⟩
  · simp only [Host.goto, Function.update_apply] at hj
    split at hj
    · obtain rfl := Option.some.inj hj
      exact hmine
    · exact List.mem_append_left _ (hi.launched j other hj)
  · simp only [Host.goto, Function.update_apply] at hj
    split at hj
    · obtain rfl := Option.some.inj hj
      simp [Pc.tmpfile] at ht
    · exact hi.scripts j other t hj ht
  · by_cases hold : p ∈ h.outputs
    · exact hi.outputs p hold
    · obtain rfl : p = output := by
        rcases List.mem_append.mp hp with hp | hp
        · exact (hold hp).elim
        · exact List.mem_singleton.mp hp
      refine Or.inl (hi.frame p hold fun hname => ?_)
      obtain ⟨e, he, hpath⟩ := List.mem_map.mp hname
      obtain ⟨q, hq, suffix, hlength, htmp⟩ := hi.named e he
      exact hapart p hmine q (List.mem_append_left _ hq) suffix hlength (hpath.symm.trans htmp)
  · exact hi.frame p (fun hmem => hp (List.mem_append_left _ hmem)) hp'

theorem checked_accepted {outcome : SshOutcome} (k : Nat) (hacc : outcome.accepted = true) :
    script.checked tmpfile k outcome outcome.stdout = .mv tmpfile outcome := by
  simp only [SshOutcome.accepted, Bool.and_eq_true, beq_iff_eq, Bool.not_eq_true',
    List.isEmpty_eq_false_iff] at hacc
  obtain ⟨⟨hexit, hcontent⟩, hlooks⟩ := hacc
  rw [Script.checked, if_pos hexit, if_neg hcontent, if_neg (by simp [hlooks])]

theorem checked_rejected {outcome : SshOutcome} (k : Nat) (hrej : outcome.accepted = false) :
    script.checked tmpfile k outcome outcome.stdout = .attempt tmpfile (k + 1) ∨
      script.maxAttempts ≤ (k + 1 : Nat) ∧
        script.checked tmpfile k outcome outcome.stdout = .rm tmpfile := by
  have hretry : script.retry tmpfile (k + 1) = .attempt tmpfile (k + 1) ∨
      script.maxAttempts ≤ (k + 1 : Nat) ∧ script.retry tmpfile (k + 1) = .rm tmpfile := by
    rw [Script.retry]
    split
    · exact Or.inl rfl
    · next hover => exact Or.inr ⟨Int.not_lt.mp hover, rfl⟩
  rw [Script.checked]
  split
  · next hexit =>
    split
    · exact hretry
    · next hcontent =>
      split
      · exact hretry
      · next hlooks =>
        rw [Bool.not_eq_true', Bool.not_eq_false] at hlooks
        simp [SshOutcome.accepted, hexit, hcontent, hlooks] at hrej
  · exact Or.inl rfl

theorem checked_knows {answers : List (Path × SshOutcome)} {outcome : SshOutcome} (k : Nat)
    (hmem : (script.output, outcome) ∈ answers) :
    (script.checked tmpfile k outcome outcome.stdout).tmpfile = some tmpfile ∧
      Knows answers script.output (some outcome.stdout)
        (script.checked tmpfile k outcome outcome.stdout) := by
  cases hacc : outcome.accepted with
  | true =>
    rw [checked_accepted k hacc]
    exact ⟨rfl, rfl, hmem, hacc⟩
  | false =>
    rcases @checked_rejected script tmpfile outcome k hacc with hr | ⟨-, hr⟩
    · rw [hr]
      exact ⟨rfl, trivial⟩
    · rw [hr]
      exact ⟨rfl, trivial⟩

theorem kept_stays {pc : Pc} (hi : Kept initial h) (hnames : (h.names.map Prod.snd).Nodup)
    (hapart : Apart h.outputs) (at_i : h.scripts i = some script)
    (htmp : script.pc.tmpfile = some tmpfile) (hpc : ∀ t, pc.tmpfile = some t → t = tmpfile)
    (hknows : Knows h.answers script.output (h.files tmpfile) pc) :
    Kept initial (h.goto i script pc) := by
  have hown := kept_own hi hnames hapart at_i (hi.scripts i script tmpfile at_i htmp).1
    (h.files tmpfile) pc hpc (List.Subset.refl _) hknows
  rw [Host.put, Function.update_eq_self] at hown
  exact hown

theorem kept_advance (hi : Kept initial h) (hnames : (h.names.map Prod.snd).Nodup)
    (hapart : Apart h.outputs) (at_i : h.scripts i = some script)
    (ha : h.advance i script = some h') : Kept initial h' := by
  have hscript := fun t ht => hi.scripts i script t at_i ht
  have hstays := fun pc t ht => @kept_stays initial h i script t pc hi hnames hapart at_i ht
  cases hpc : script.pc with
  | countAttempts t =>
    rw [hpc] at hscript hstays
    simp only [Host.advance, hpc] at ha
    split at ha
    · obtain rfl := Option.some.inj ha
      exact hstays _ t rfl (by simp [Pc.tmpfile]) trivial
    · obtain rfl := Option.some.inj ha
      exact hstays _ t rfl (by simp [Pc.tmpfile]) trivial
  | attempt t k =>
    rw [hpc] at hscript hstays
    simp only [Host.advance, hpc] at ha
    split at ha
    · obtain rfl := Option.some.inj ha
      exact kept_own hi hnames hapart at_i (hscript t rfl).1 _ _ (by simp [Pc.tmpfile])
        (List.Subset.refl _) rfl
    · obtain rfl := Option.some.inj ha
      exact hstays _ t rfl (by simp [Pc.tmpfile]) trivial
  | check t k outcome =>
    rw [hpc] at hscript hstays
    simp only [Host.advance, hpc] at ha
    obtain rfl := Option.some.inj ha
    obtain ⟨-, hcontent, hmem⟩ := hscript t rfl
    obtain ⟨htmp, hknows⟩ := @checked_knows script t h.answers outcome k hmem
    rw [hcontent, Option.getD_some]
    refine hstays _ t rfl (fun u hu => ?_) (hcontent ▸ hknows)
    exact (Option.some.inj (htmp.symm.trans hu)).symm
  | mv t outcome =>
    rw [hpc] at hscript
    simp only [Host.advance, hpc] at ha
    obtain rfl := Option.some.inj ha
    obtain ⟨hname, hcontent, hmem, hacc⟩ := hscript t rfl
    have hown := kept_own hi hnames hapart at_i hname none (.clearTrap t .returned)
      (by simp [Pc.tmpfile]) (List.Subset.refl _) rfl
    rw [hcontent]
    exact kept_published hown hapart (hi.launched i script at_i) hmem hacc
  | rm t =>
    rw [hpc] at hscript
    simp only [Host.advance, hpc] at ha
    obtain rfl := Option.some.inj ha
    exact kept_own hi hnames hapart at_i (hscript t rfl).1 _ _ (by simp [Pc.tmpfile])
      (List.Subset.refl _) rfl
  | clearTrap t ending =>
    rw [hpc] at hscript hstays
    simp only [Host.advance, hpc] at ha
    obtain rfl := Option.some.inj ha
    exact hstays _ t rfl (by simp [Pc.tmpfile]) (hscript t rfl).2
  | _ => simp [Host.advance, hpc] at ha

theorem kept_append (hi : Kept initial h) (hnames : (h.names.map Prod.snd).Nodup)
    (hapart : Apart h.outputs) (at_i : h.scripts i = some script)
    (htmp : script.pc = .orphanedSsh tmpfile) (stdout : Bytes) :
    Kept initial (h.append tmpfile stdout) := by
  have hname := (hi.scripts i script tmpfile at_i (by rw [htmp]; rfl)).1
  have hown := kept_own hi hnames hapart at_i hname
    ((h.files tmpfile).map fun content => content ++ stdout) script.pc
    (by simp [htmp, Pc.tmpfile]) (List.Subset.refl _) (by rw [htmp]; trivial)
  have hsame : Function.update h.scripts i (some script) = h.scripts := by
    rw [← at_i]
    exact Function.update_eq_self ..
  rw [Host.goto] at hown
  simp only [Host.put, hsame] at hown
  exact hown

theorem kept_died (hi : Kept initial h) (at_i : h.scripts i = some script) :
    Kept initial (h.goto i script .died) := by
  refine ⟨hi.named, fun j other hj => ?_, fun j other t hj ht => ?_, hi.outputs, hi.frame,
    hi.unborn⟩
  · simp only [Host.goto, Function.update_apply] at hj
    split at hj
    · obtain rfl := Option.some.inj hj
      exact hi.launched i script at_i
    · exact hi.launched j other hj
  · simp only [Host.goto, Function.update_apply] at hj
    split at hj
    · obtain rfl := Option.some.inj hj
      simp [Pc.tmpfile] at ht
    · exact hi.scripts j other t hj ht

theorem abandoned_knows (answers : List (Path × SshOutcome)) (output : Path)
    (content : Option Bytes) (pc : Pc) :
    (∀ t, pc.abandoned.tmpfile = some t → pc.tmpfile = some t) ∧
      Knows answers output content pc.abandoned := by
  cases pc with
  | transfer t k received => exact ⟨fun _ ht => ht, trivial⟩
  | _ => exact ⟨by simp [Pc.abandoned, Pc.tmpfile], trivial⟩

theorem kept_dies {removed : Bool} (hi : Kept initial h) (hnames : (h.names.map Prod.snd).Nodup)
    (hapart : Apart h.outputs) (at_i : h.scripts i = some script)
    (hs : h.step (.dies i removed) = some h') : Kept initial h' := by
  simp only [Host.step, at_i, Option.bind_some] at hs
  obtain ⟨-, hs⟩ := Option.ite_none_right_eq_some.mp hs
  split at hs
  · obtain rfl := Option.some.inj hs
    exact kept_died hi at_i
  · next tmpfile htmp =>
    split at hs
    · obtain rfl := Option.some.inj hs
      exact kept_own hi hnames hapart at_i (hi.scripts i script tmpfile at_i htmp).1 none .died
        (by simp [Pc.tmpfile]) (List.Subset.refl _) trivial
    · obtain rfl := Option.some.inj hs
      obtain ⟨hsame, hknows⟩ := abandoned_knows h.answers script.output (h.files tmpfile) script.pc
      refine kept_stays hi hnames hapart at_i htmp (fun t ht => ?_) hknows
      exact Option.some.inj ((hsame t ht).symm.trans htmp)

theorem kept_script {a : ScriptStep} (hi : Kept initial h)
    (hnames : (h.names.map Prod.snd).Nodup) (hapart : Apart h.outputs)
    (hlaunch : ∀ i output retryCount, a ≠ .launch i output retryCount)
    (hmktemp : ∀ i suffix, a ≠ .mktemp i suffix) (hs : h.step a = some h') : Kept initial h' := by
  cases a with
  | launch i output retryCount => exact (hlaunch i output retryCount rfl).elim
  | mktemp i suffix => exact (hmktemp i suffix rfl).elim
  | receive i stdout =>
    obtain ⟨script, at_i, hs⟩ := Option.bind_eq_some_iff.mp hs
    split at hs
    · next t k received hpc =>
      obtain rfl := Option.some.inj hs
      obtain ⟨hname, hknows⟩ := hi.scripts i script t at_i (by rw [hpc]; rfl)
      rw [hpc] at hknows
      refine kept_own hi hnames hapart at_i hname _ _ (by simp [Pc.tmpfile]) (List.Subset.refl _) ?_
      rw [Knows, hknows]
      rfl
    · next t hpc =>
      obtain rfl := Option.some.inj hs
      exact kept_append hi hnames hapart at_i hpc stdout
    · simp at hs
  | sshExits i exitCode =>
    obtain ⟨script, at_i, hs⟩ := Option.bind_eq_some_iff.mp hs
    split at hs
    · next t k received hpc =>
      obtain rfl := Option.some.inj hs
      obtain ⟨hname, hknows⟩ := hi.scripts i script t at_i (by rw [hpc]; rfl)
      rw [hpc] at hknows
      have hown := kept_own hi hnames hapart at_i hname (h.files t)
        (.check t k ⟨exitCode, received⟩) (by simp [Pc.tmpfile])
        (List.subset_append_left h.answers [(script.output, ⟨exitCode, received⟩)])
        ⟨hknows, List.mem_append_right _ List.mem_cons_self⟩
      rw [Host.put, Function.update_eq_self] at hown
      exact hown
    · obtain rfl := Option.some.inj hs
      exact kept_died hi at_i
    · simp at hs
  | advance i =>
    obtain ⟨script, at_i, hs⟩ := Option.bind_eq_some_iff.mp hs
    exact kept_advance hi hnames hapart at_i hs
  | dies i removed =>
    obtain ⟨script, at_i, -⟩ := Option.bind_eq_some_iff.mp hs
    exact kept_dies hi hnames hapart at_i hs

theorem advance_grown (ha : h.advance i script = some h') :
    h'.names = h.names ∧ h'.outputs = h.outputs := by
  rw [Host.advance] at ha
  split at ha
  · split at ha <;> exact Option.some.inj ha ▸ ⟨rfl, rfl⟩
  · split at ha <;> exact Option.some.inj ha ▸ ⟨rfl, rfl⟩
  · exact Option.some.inj ha ▸ ⟨rfl, rfl⟩
  · exact Option.some.inj ha ▸ ⟨rfl, rfl⟩
  · exact Option.some.inj ha ▸ ⟨rfl, rfl⟩
  · exact Option.some.inj ha ▸ ⟨rfl, rfl⟩
  · simp at ha

theorem step_grown {a : ScriptStep} (hs : h.step a = some h') :
    h.names <+: h'.names ∧ h.outputs <+: h'.outputs := by
  cases a with
  | launch i output retryCount =>
    simp only [Host.step] at hs
    split at hs
    · simp at hs
    · exact Option.some.inj hs ▸ ⟨List.prefix_rfl, List.prefix_append ..⟩
  | mktemp i suffix =>
    obtain ⟨script, -, hs⟩ := Option.bind_eq_some_iff.mp hs
    obtain ⟨-, hs⟩ := Option.ite_none_right_eq_some.mp hs
    exact Option.some.inj hs ▸ ⟨List.prefix_append .., List.prefix_rfl⟩
  | receive i stdout =>
    obtain ⟨script, -, hs⟩ := Option.bind_eq_some_iff.mp hs
    split at hs
    · exact Option.some.inj hs ▸ ⟨List.prefix_rfl, List.prefix_rfl⟩
    · exact Option.some.inj hs ▸ ⟨List.prefix_rfl, List.prefix_rfl⟩
    · simp at hs
  | sshExits i exitCode =>
    obtain ⟨script, -, hs⟩ := Option.bind_eq_some_iff.mp hs
    split at hs
    · exact Option.some.inj hs ▸ ⟨List.prefix_rfl, List.prefix_rfl⟩
    · exact Option.some.inj hs ▸ ⟨List.prefix_rfl, List.prefix_rfl⟩
    · simp at hs
  | advance i =>
    obtain ⟨script, -, hs⟩ := Option.bind_eq_some_iff.mp hs
    obtain ⟨hnames, houtputs⟩ := advance_grown hs
    rw [hnames, houtputs]
    exact ⟨List.prefix_rfl, List.prefix_rfl⟩
  | dies i removed =>
    obtain ⟨script, -, hs⟩ := Option.bind_eq_some_iff.mp hs
    obtain ⟨-, hs⟩ := Option.ite_none_right_eq_some.mp hs
    split at hs
    · exact Option.some.inj hs ▸ ⟨List.prefix_rfl, List.prefix_rfl⟩
    · split at hs <;> exact Option.some.inj hs ▸ ⟨List.prefix_rfl, List.prefix_rfl⟩

theorem apart_subset {outputs outputs' : List Path} (hsub : outputs ⊆ outputs')
    (hapart : Apart outputs') : Apart outputs :=
  fun p hp q hq => hapart p (hsub hp) q (hsub hq)

theorem kept_step {a : ScriptStep} (hi : Kept initial h) (hnames : (h'.names.map Prod.snd).Nodup)
    (hapart : Apart h'.outputs) (hs : h.step a = some h') : Kept initial h' := by
  obtain ⟨hgrown, hlaunched⟩ := step_grown hs
  have hnames' : (h.names.map Prod.snd).Nodup := hnames.sublist (hgrown.sublist.map Prod.snd)
  have hapart' : Apart h.outputs := apart_subset hlaunched.subset hapart
  cases a with
  | launch i output retryCount =>
    simp only [Host.step] at hs
    split at hs
    · simp at hs
    · obtain rfl := Option.some.inj hs
      exact kept_launched hi hapart
  | mktemp i suffix =>
    obtain ⟨script, at_i, hs⟩ := Option.bind_eq_some_iff.mp hs
    obtain ⟨⟨-, hlength, hfree⟩, hs⟩ := Option.ite_none_right_eq_some.mp hs
    obtain rfl := Option.some.inj hs
    have hnew : script.output ++ '.' :: suffix ∉ h.names.map Prod.snd := by
      have hlast := hnames
      simp only [Host.goto, Host.put, List.map_append, List.map_cons, List.map_nil] at hlast
      exact fun hmem => (List.nodup_append.mp hlast).2.2 _ hmem _ List.mem_cons_self rfl
    exact kept_own (kept_named hi hapart' at_i hlength hfree hnew) hnames hapart at_i
      (List.mem_append_right _ List.mem_cons_self) _ _ (by simp [Pc.tmpfile]) (List.Subset.refl _)
      trivial
  | _ => exact kept_script hi hnames' hapart' (by simp) (by simp) hs

end

section

variable {ssh : Nat → SshOutcome} {h : Host} {i : Nat} {script : Script} {tmpfile : Path}

structure Finished (h : Host) (i : Nat) (tmpfile : Path) (ending : Ending) (files : Files) :
    Prop where
  ended : ∃ script, h.scripts i = some script ∧ script.pc = .ended tmpfile ending
  files : h.files = files

theorem rm_run (at_i : h.scripts i = some script) (hpc : script.pc = .rm tmpfile) :
    ∃ h', Run.run Host.step h [.advance i, .advance i] = some h' ∧
      Finished h' i tmpfile (.exited 1) (Function.update h.files tmpfile none) := by
  refine ⟨((h.put tmpfile none).goto i script (.clearTrap tmpfile (.exited 1))).goto i
    { script with pc := .clearTrap tmpfile (.exited 1) } (.ended tmpfile (.exited 1)), ?_,
    ⟨⟨_, Host.goto_script .., rfl⟩, rfl⟩⟩
  simp [Run.run, Host.step, at_i, Host.advance, hpc, Host.goto, Host.put]

theorem mv_run {outcome : SshOutcome} (at_i : h.scripts i = some script)
    (hpc : script.pc = .mv tmpfile outcome) :
    ∃ h', Run.run Host.step h [.advance i, .advance i] = some h' ∧
      Finished h' i tmpfile .returned (Function.update (Function.update h.files tmpfile none)
        script.output (h.files tmpfile)) := by
  refine ⟨(((h.put tmpfile none).put script.output (h.files tmpfile)).goto i script
    (.clearTrap tmpfile .returned)).goto i { script with pc := .clearTrap tmpfile .returned }
    (.ended tmpfile .returned), ?_, ⟨⟨_, Function.update_self .., rfl⟩, rfl⟩⟩
  simp [Run.run, Host.step, at_i, Host.advance, hpc, Host.goto, Host.put]

def tryOnce (i : Nat) (outcome : SshOutcome) : List ScriptStep :=
  [.advance i, .receive i outcome.stdout, .sshExits i outcome.exitCode, .advance i]

theorem attempt_run {k : Nat} (at_i : h.scripts i = some script)
    (hpc : script.pc = .attempt tmpfile k) (hlt : (k : Int) < script.maxAttempts)
    (outcome : SshOutcome) :
    ∃ h', Run.run Host.step h (tryOnce i outcome) = some h' ∧
      h'.scripts i = some { script with
        pc := script.checked tmpfile k outcome outcome.stdout } ∧
      h'.files = Function.update h.files tmpfile (some outcome.stdout) := by
  refine ⟨⟨Function.update h.files tmpfile (some outcome.stdout), Function.update h.scripts i (some
    { script with pc := script.checked tmpfile k outcome outcome.stdout }), h.outputs, h.names,
    h.answers ++ [(script.output, outcome)]⟩, ?_, Function.update_self .., rfl⟩
  simp [tryOnce, Run.run, Host.step, at_i, Host.advance, hpc, hlt, Host.goto, Host.put, Host.append]
  rfl

theorem loop_run {s : Shell} (at_i : h.scripts i = some script)
    (hpc : script.pc = .attempt tmpfile s.attempt) (hfiles : s.files = h.files) :
    ∃ labels h', Run.run Host.step h labels = some h' ∧
      Finished h' i tmpfile (attemptLoop ssh script.output tmpfile script.maxAttempts s).ending
        (attemptLoop ssh script.output tmpfile script.maxAttempts s).files := by
  generalize hd : (script.maxAttempts - s.attempt).toNat = d
  induction d generalizing h script s with
  | zero =>
    have hover : script.maxAttempts ≤ s.attempt := by omega
    have hleft : Run.run Host.step h [.advance i] = some (h.goto i script (.rm tmpfile)) := by
      have hnot : ¬ (s.attempt : Int) < script.maxAttempts := by omega
      simp [Run.run, Host.step, at_i, Host.advance, hpc, hnot]
    obtain ⟨h', hrun, hfinished⟩ := rm_run (Host.goto_script h i script (.rm tmpfile)) rfl
    refine ⟨_, h', (Run.run_append_eq_some _).mpr ⟨_, hleft, hrun⟩, ?_⟩
    rw [attemptLoop_over hover, Shell.giveUp_eq, hfiles]
    exact hfinished
  | succ d ih =>
    have hlt : (s.attempt : Int) < script.maxAttempts := by omega
    obtain ⟨h1, hrun, at_i', hfiles'⟩ := attempt_run at_i hpc hlt (ssh s.attempt)
    cases hacc : (ssh s.attempt).accepted with
    | true =>
      rw [checked_accepted _ hacc] at at_i'
      obtain ⟨h', hrun', hfinished⟩ := mv_run at_i' rfl
      refine ⟨_, h', (Run.run_append_eq_some _).mpr ⟨h1, hrun, hrun'⟩, ?_⟩
      rw [attemptLoop_accepted hlt hacc, hfiles]
      rw [hfiles', Function.update_idem, Function.update_self] at hfinished
      exact hfinished
    | false =>
      have htried : (s.tried tmpfile (ssh s.attempt)).files = h1.files := by
        rw [hfiles', ← hfiles]
        rfl
      rw [attemptLoop_rejected hlt hacc]
      rcases @checked_rejected script tmpfile _ s.attempt hacc with hr | ⟨hover, hr⟩
      · rw [hr] at at_i'
        have hleft : (script.maxAttempts - ((s.attempt + 1 : Nat) : Int)).toNat = d := by omega
        obtain ⟨labels, h', hrun', hfinished⟩ := ih (s := s.tried tmpfile (ssh s.attempt)) at_i' rfl
          htried hleft
        exact ⟨_, h', (Run.run_append_eq_some _).mpr ⟨h1, hrun, hrun'⟩, hfinished⟩
      · rw [hr] at at_i'
        obtain ⟨h', hrun', hfinished⟩ := rm_run at_i' rfl
        refine ⟨_, h', (Run.run_append_eq_some _).mpr ⟨h1, hrun, hrun'⟩, ?_⟩
        rw [attemptLoop_over hover, Shell.giveUp_eq, htried]
        exact hfinished

-- A script that runs alone and undisturbed does what the sequential model of it does.
theorem signKey_scheduled {retryCount : RetryCount} {output : Path} {files : Files}
    (tmp : TempName files output) : ∃ labels h script,
      Run.run Host.step (Host.start files) labels = some h ∧ h.scripts 0 = some script ∧
        h.files = (signKey ssh retryCount output files tmp).files ∧
        (script.pc = .ended tmp.path (signKey ssh retryCount output files tmp).ending ∨
          script.pc = .died ∧ constant retryCount.digits = none) := by
  have hstart : ∃ h, Run.run Host.step (Host.start files)
      [.launch 0 output retryCount, .mktemp 0 tmp.suffix] = some h ∧
        h.scripts 0 = some ⟨output, retryCount, .countAttempts tmp.path⟩ ∧
        h.files = Function.update files tmp.path (some []) := by
    refine ⟨⟨Function.update files tmp.path (some []), Function.update (fun _ => none) 0
      (some ⟨output, retryCount, .countAttempts tmp.path⟩), [output], [(0, tmp.path)], []⟩, ?_,
      rfl, rfl⟩
    simp [Run.run, Host.step, Host.start, Host.goto, Host.put, tmp.random, tmp.fresh, TempName.path]
  obtain ⟨h, hrun, at_0, hfiles⟩ := hstart
  rw [signKey]
  cases hcount : constant retryCount.digits with
  | none =>
    have hdied : Run.run Host.step h [.advance 0] = some (h.goto 0
        ⟨output, retryCount, .countAttempts tmp.path⟩ .died) := by
      simp [Run.run, Host.step, at_0, Host.advance, hcount]
    have hall := (Run.run_append_eq_some _).mpr ⟨h, hrun, hdied⟩
    exact ⟨_, _, _, hall, Host.goto_script .., hfiles, Or.inr ⟨rfl, rfl⟩⟩
  | some n =>
    have hattempt : Run.run Host.step h [.advance 0] = some (h.goto 0
        ⟨output, retryCount, .countAttempts tmp.path⟩ (.attempt tmp.path 0)) := by
      simp [Run.run, Host.step, at_0, Host.advance, hcount]
    have hmax : Script.maxAttempts ⟨output, retryCount, .attempt tmp.path 0⟩ = plus n 1 := by
      simp [Script.maxAttempts, hcount]
    have hloop := @loop_run ssh _ 0 ⟨output, retryCount, .attempt tmp.path 0⟩ tmp.path
      ⟨Function.update files tmp.path (some []), some tmp.path, 0⟩
      (Host.goto_script h 0 ⟨output, retryCount, .countAttempts tmp.path⟩ (.attempt tmp.path 0)) rfl
      hfiles.symm
    obtain ⟨labels, h', hrun', ⟨script, at_0', hended⟩, hfiles'⟩ := hloop
    rw [hmax] at hended hfiles'
    have hall := (Run.run_append_eq_some _).mpr ⟨h, hrun,
      (Run.run_append_eq_some _).mpr ⟨_, hattempt, hrun'⟩⟩
    exact ⟨_, h', script, hall, at_0', hfiles', Or.inl hended⟩

end

theorem apart_replicate (n : Nat) (output : Path) : Apart (List.replicate n output) := by
  intro p hp q hq suffix hlength heq
  obtain rfl := List.eq_of_mem_replicate hp
  obtain rfl := List.eq_of_mem_replicate hq
  have hlonger := congrArg List.length heq
  rw [List.length_append, List.length_cons] at hlonger
  omega

def noRetries : RetryCount := ⟨"0".toList, rfl⟩

def oneKilled : List ScriptStep :=
  [.launch 0 hostCertificate noRetries, .launch 1 hostCertificate noRetries,
    .mktemp 0 "k3Xw9a".toList, .mktemp 1 "Zp41Qr".toList, .advance 0, .advance 1, .advance 0,
    .advance 1, .receive 1 (utf8 "ssh-"), .receive 0 certificateSent.stdout, .dies 1 false,
    .sshExits 0 0, .advance 0, .advance 0, .receive 1 (utf8 "ed25519"), .advance 0]

end SshCertificateAuthority.Clients
