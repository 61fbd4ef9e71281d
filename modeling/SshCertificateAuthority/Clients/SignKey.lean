import Mathlib.Logic.Function.Basic
import SshCertificateAuthority.CertificatAuthority.SshKey
import SshCertificateAuthority.Library.ShellArith
import SshCertificateAuthority.Library.UnixPath

namespace SshCertificateAuthority.Clients
open ByteStream UnixPath ShellArith

abbrev Files := Path → Option Bytes

structure SshOutcome where
  exitCode : UInt8
  stdout : Bytes
deriving DecidableEq, Repr

inductive Ending where
  | returned
  | exited (status : UInt8)
deriving DecidableEq, Repr

structure Renewal where
  ending : Ending
  attempts : Nat
  files : Files

def validRetryCount (digits : Digits) : Bool := !digits.isEmpty && digits.all Char.isDigit

structure RetryCount where
  digits : Digits
  valid : validRetryCount digits = true

def RetryCount.value (n : RetryCount) : Nat := decimal n.digits

-- `mktemp "${OUTPUT}.XXXXXX"` makes a file that was not there.
structure TempName (files : Files) (output : Path) where
  suffix : Name
  random : suffix.length = 6
  fresh : files (output ++ '.' :: suffix) = none

def TempName.path {files : Files} {output : Path} (tmp : TempName files output) : Path :=
  output ++ '.' :: tmp.suffix

structure Shell where
  files : Files
  exitTrap : Option Path
  attempt : Nat

namespace Shell

def write (s : Shell) (p : Path) (content : Bytes) : Shell :=
  { s with files := Function.update s.files p (some content) }

def tried (s : Shell) (tmpfile : Path) (outcome : SshOutcome) : Shell :=
  ({ s with attempt := s.attempt + 1 } : Shell).write tmpfile outcome.stdout

def rm (s : Shell) (p : Path) : Shell := { s with files := Function.update s.files p none }

def mv (s : Shell) (source target : Path) : Shell :=
  { s with files := Function.update (Function.update s.files source none) target (s.files source) }

def clearTrap (s : Shell) : Shell := { s with exitTrap := none }

def exit (s : Shell) (status : UInt8) : Renewal :=
  ⟨.exited status, s.attempt, match s.exitTrap with
    | none => s.files
    | some p => Function.update s.files p none⟩

def giveUp (s : Shell) (tmpfile : Path) : Renewal := (s.rm tmpfile).clearTrap.exit 1

-- The function is left before the trap runs: `$tmpfile` is unbound then, and nothing is removed.
def expansionError (s : Shell) : Renewal := ⟨.exited 1, s.attempt, s.files⟩

end Shell

def firstLine (content : Bytes) : Bytes := (content.takeWhile (· ≠ 10)).filter (· ≠ 0)

def looksLikeCertificate (line : Bytes) : Bool :=
  decide (utf8 "-cert-" <:+: line) || decide (utf8 "ssh-" <+: line)

def attemptLoop (ssh : Nat → SshOutcome) (output tmpfile : Path) (maxAttempts : Int)
    (s : Shell) : Renewal :=
  if (s.attempt : Int) < maxAttempts then
    let outcome := ssh s.attempt
    let t := s.tried tmpfile outcome
    let content := (t.files tmpfile).getD []
    if outcome.exitCode = 0 then
      if content = [] then
        if (t.attempt : Int) < maxAttempts then attemptLoop ssh output tmpfile maxAttempts t
        else t.giveUp tmpfile
      else if !looksLikeCertificate (firstLine content) then
        if (t.attempt : Int) < maxAttempts then attemptLoop ssh output tmpfile maxAttempts t
        else t.giveUp tmpfile
      else
        let moved := (t.mv tmpfile output).clearTrap
        ⟨.returned, moved.attempt, moved.files⟩
    else attemptLoop ssh output tmpfile maxAttempts t
  else s.giveUp tmpfile
termination_by (maxAttempts - s.attempt).toNat
decreasing_by all_goals simp only [Shell.tried, Shell.write]; omega

def signKey (ssh : Nat → SshOutcome) (retryCount : RetryCount) (output : Path) (files : Files)
    (tmp : TempName files output) : Renewal :=
  let s : Shell := ⟨Function.update files tmp.path (some []), some tmp.path, 0⟩
  match constant retryCount.digits with
  | none => s.expansionError
  | some n => attemptLoop ssh output tmp.path (plus n 1) s

def signHostKey (ssh : Nat → Bytes → SshOutcome) (retryCount : RetryCount) (output : Path)
    (files : Files) (tmp : TempName files output) : Renewal :=
  signKey (ssh · []) retryCount output files tmp

def signUserKey (ssh : Nat → Bytes → SshOutcome) (key : Path) (retryCount : RetryCount)
    (output : Path) (files : Files) (tmp : TempName files output) : Renewal :=
  signKey (ssh · ((files key).getD [])) retryCount output files tmp

def SshOutcome.accepted (outcome : SshOutcome) : Bool :=
  outcome.exitCode == 0 && !outcome.stdout.isEmpty &&
    looksLikeCertificate (firstLine outcome.stdout)

namespace Shell

variable (s : Shell) (tmpfile output : Path) (outcome : SshOutcome)

@[simp] theorem tried_attempt : (s.tried tmpfile outcome).attempt = s.attempt + 1 := rfl

@[simp] theorem tried_content :
    ((s.tried tmpfile outcome).files tmpfile).getD [] = outcome.stdout := by
  simp [tried, write]

@[simp] theorem tried_removed : Function.update (s.tried tmpfile outcome).files tmpfile none =
    Function.update s.files tmpfile none :=
  Function.update_idem _ _ _

theorem tried_moved : ((s.tried tmpfile outcome).mv tmpfile output).files =
    Function.update (Function.update s.files tmpfile none) output (some outcome.stdout) := by
  rw [mv, tried_removed]
  simp [tried, write]

theorem giveUp_eq : s.giveUp tmpfile =
    ⟨.exited 1, s.attempt, Function.update s.files tmpfile none⟩ := rfl

end Shell

section

variable {ssh : Nat → SshOutcome} {output tmpfile : Path} {maxAttempts : Int} {s : Shell}

theorem attemptLoop_over (h : maxAttempts ≤ s.attempt) :
    attemptLoop ssh output tmpfile maxAttempts s = s.giveUp tmpfile := by
  rw [attemptLoop, if_neg (by omega)]

theorem attemptLoop_accepted (hlt : (s.attempt : Int) < maxAttempts)
    (h : (ssh s.attempt).accepted = true) : attemptLoop ssh output tmpfile maxAttempts s =
      ⟨.returned, s.attempt + 1, Function.update (Function.update s.files tmpfile none) output
        (some (ssh s.attempt).stdout)⟩ := by
  simp only [SshOutcome.accepted, Bool.and_eq_true, beq_iff_eq, Bool.not_eq_true',
    List.isEmpty_eq_false_iff] at h
  obtain ⟨⟨hexit, hcontent⟩, hlooks⟩ := h
  rw [attemptLoop, if_pos hlt]
  simp only [Shell.tried_content, hexit, hcontent, hlooks, if_true, if_false, Bool.not_true,
    Bool.false_eq_true, ← Shell.tried_moved]
  rfl

-- Whichever of the four checks an attempt fails, the loop goes on as if it had just been entered.
theorem attemptLoop_rejected (hlt : (s.attempt : Int) < maxAttempts)
    (h : (ssh s.attempt).accepted = false) : attemptLoop ssh output tmpfile maxAttempts s =
      attemptLoop ssh output tmpfile maxAttempts (s.tried tmpfile (ssh s.attempt)) := by
  have hlast : (if ((s.tried tmpfile (ssh s.attempt)).attempt : Int) < maxAttempts then
      attemptLoop ssh output tmpfile maxAttempts (s.tried tmpfile (ssh s.attempt))
      else (s.tried tmpfile (ssh s.attempt)).giveUp tmpfile) =
        attemptLoop ssh output tmpfile maxAttempts (s.tried tmpfile (ssh s.attempt)) := by
    split
    · rfl
    · next hover => exact (attemptLoop_over (by omega)).symm
  rw [attemptLoop, if_pos hlt]
  dsimp only
  rw [Shell.tried_content, hlast]
  split
  · next hexit =>
    split
    · rfl
    · next hcontent =>
      split
      · rfl
      · next hlooks =>
        simp only [Bool.not_eq_true', Bool.not_eq_false] at hlooks
        simp [SshOutcome.accepted, hexit, hcontent, hlooks] at h
  · rfl

theorem attemptLoop_first {k : Nat} (hk : (k : Int) < maxAttempts)
    (hacc : (ssh k).accepted = true) (hle : s.attempt ≤ k)
    (hfirst : ∀ j, s.attempt ≤ j → j < k → (ssh j).accepted = false) :
    attemptLoop ssh output tmpfile maxAttempts s =
      ⟨.returned, k + 1, Function.update (Function.update s.files tmpfile none) output
        (some (ssh k).stdout)⟩ := by
  obtain ⟨d, rfl⟩ := Nat.exists_eq_add_of_le hle
  induction d generalizing s with
  | zero => exact attemptLoop_accepted hk hacc
  | succ d ih =>
    rw [attemptLoop_rejected (by omega) (hfirst s.attempt le_rfl (by omega))]
    have hshift : (s.tried tmpfile (ssh s.attempt)).attempt + d = s.attempt + (d + 1) := by
      rw [Shell.tried_attempt]
      omega
    rw [← hshift] at hk hacc hfirst ⊢
    rw [ih hk hacc (by omega) fun j hj => hfirst j (by rw [Shell.tried_attempt] at hj; omega),
      Shell.tried_removed]

theorem attemptLoop_none (hle : s.attempt ≤ maxAttempts.toNat)
    (hnone : ∀ j : Nat, s.attempt ≤ j → (j : Int) < maxAttempts → (ssh j).accepted = false) :
    attemptLoop ssh output tmpfile maxAttempts s =
      ⟨.exited 1, maxAttempts.toNat, Function.update s.files tmpfile none⟩ := by
  obtain ⟨d, hd⟩ := Nat.exists_eq_add_of_le hle
  induction d generalizing s with
  | zero =>
    rw [attemptLoop_over (by omega), Shell.giveUp_eq, hd, Nat.add_zero]
  | succ d ih =>
    rw [attemptLoop_rejected (by omega) (hnone s.attempt le_rfl (by omega)),
      ih (by rw [Shell.tried_attempt]; omega)
        (fun j hj => hnone j (by rw [Shell.tried_attempt] at hj; omega))
        (by rw [Shell.tried_attempt]; omega), Shell.tried_removed]

end

end SshCertificateAuthority.Clients
