import SshCertificateAuthority.Clients.CertificateRenewal

namespace SshCertificateAuthority.Clients
open ByteStream UnixPath ShellArith

-- How the calls other than `ssh` go: `sleep` and `head` by attempt; `mv` looks for directories.
structure Calls where
  sleep : Nat → Bool
  head : Nat → Bool
  mv : Bool
  rm : Bool
  isDirectory : Path → Bool

namespace Calls

variable (calls : Calls)

def target (tmpfile output : Path) : Path :=
  if calls.isDirectory output then push output ((fileName tmpfile).getD []) else output

-- A failure under `set -e` leaves the function: `$tmpfile` is unbound in the trap, the file stays.
def abandoned (s : Shell) : Renewal := s.expansionError

def giveUp (s : Shell) (tmpfile : Path) : Renewal :=
  if calls.rm then s.giveUp tmpfile else abandoned s

-- `mv` refuses to move a file onto itself.
def place (s : Shell) (tmpfile output : Path) : Renewal :=
  if calls.mv ∧ calls.target tmpfile output ≠ tmpfile then
    let moved := (s.mv tmpfile (calls.target tmpfile output)).clearTrap
    ⟨.returned, moved.attempt, moved.files⟩
  else abandoned s

def attemptLoop (ssh : Nat → SshOutcome) (output tmpfile : Path) (maxAttempts : Int) (s : Shell) :
    Renewal :=
  if (s.attempt : Int) < maxAttempts then
    if 0 < s.attempt ∧ !calls.sleep s.attempt then abandoned s
    else
      let outcome := ssh s.attempt
      let t := s.tried tmpfile outcome
      let content := (t.files tmpfile).getD []
      if outcome.exitCode = 0 then
        if content = [] then
          if (t.attempt : Int) < maxAttempts then attemptLoop ssh output tmpfile maxAttempts t
          else calls.giveUp t tmpfile
        else if !calls.head s.attempt then abandoned t
        else if !looksLikeCertificate (firstLine content) then
          if (t.attempt : Int) < maxAttempts then attemptLoop ssh output tmpfile maxAttempts t
          else calls.giveUp t tmpfile
        else calls.place t tmpfile output
      else attemptLoop ssh output tmpfile maxAttempts t
  else calls.giveUp s tmpfile
termination_by (maxAttempts - s.attempt).toNat
decreasing_by all_goals simp only [Shell.tried, Shell.write]; omega

def signKey (ssh : Nat → SshOutcome) (retryCount : RetryCount) (output : Path) (files : Files)
    (tmp : TempName files output) : Renewal :=
  let s : Shell := ⟨Function.update files tmp.path (some []), some tmp.path, 0⟩
  match constant retryCount.digits with
  | none => s.expansionError
  | some n => calls.attemptLoop ssh output tmp.path (plus n 1) s

structure Works (output : Path) : Prop where
  sleep : ∀ k, calls.sleep k = true
  head : ∀ k, calls.head k = true
  mv : calls.mv = true
  rm : calls.rm = true
  file : calls.isDirectory output = false

def Fails (tmpfile output : Path) : Prop :=
  (∃ k, calls.sleep k = false) ∨ (∃ k, calls.head k = false) ∨ calls.mv = false ∨
    calls.target tmpfile output = tmpfile

end Calls

section

variable {calls : Calls} {ssh : Nat → SshOutcome} {output tmpfile : Path} {maxAttempts : Int}
  {s : Shell}

theorem target_of_works (h : calls.Works output) : calls.target tmpfile output = output := by
  rw [Calls.target, h.file]
  rfl

inductive LoopEnd (calls : Calls) (ssh : Nat → SshOutcome) (output tmpfile : Path)
    (maxAttempts : Int) (s : Shell) : Renewal → Prop where
  | renewed {k : Nat} (le : s.attempt ≤ k) (lt : (k : Int) < maxAttempts)
      (accepted : (ssh k).accepted = true)
      (first : ∀ j, s.attempt ≤ j → j < k → (ssh j).accepted = false)
      (placed : calls.mv = true ∧ calls.target tmpfile output ≠ tmpfile) :
      LoopEnd calls ssh output tmpfile maxAttempts s ⟨.returned, k + 1,
        Function.update (Function.update s.files tmpfile none) (calls.target tmpfile output)
          (some (ssh k).stdout)⟩
  | exited {attempts : Nat} {files : Files} (frame : ∀ p ≠ tmpfile, files p = s.files p)
      (reason : (∀ j : Nat, s.attempt ≤ j → (j : Int) < maxAttempts → (ssh j).accepted = false) ∨
        calls.Fails tmpfile output) :
      LoopEnd calls ssh output tmpfile maxAttempts s ⟨.exited 1, attempts, files⟩

theorem accepted_iff {outcome : SshOutcome} : outcome.accepted = true ↔
    outcome.exitCode = 0 ∧ outcome.stdout ≠ [] ∧
      looksLikeCertificate (firstLine outcome.stdout) = true := by
  simp [SshOutcome.accepted, and_assoc]

theorem tried_frame (outcome : SshOutcome) {p : Path} (hp : p ≠ tmpfile) :
    (s.tried tmpfile outcome).files p = s.files p := by
  simp [Shell.tried, Shell.write, hp]

theorem loopEnd_rejected {r : Renewal}
    (hrejected : (ssh s.attempt).accepted = false)
    (h : LoopEnd calls ssh output tmpfile maxAttempts (s.tried tmpfile (ssh s.attempt)) r) :
    LoopEnd calls ssh output tmpfile maxAttempts s r := by
  have hearlier : ∀ {j : Nat}, s.attempt ≤ j → j ≠ s.attempt → s.attempt + 1 ≤ j := by
    intro j hj hne
    omega
  cases h with
  | renewed le lt accepted first placed =>
    rw [Shell.tried_removed]
    refine .renewed (Nat.le_of_succ_le le) lt accepted (fun j hj hjk => ?_) placed
    by_cases hsame : j = s.attempt
    · rw [hsame, hrejected]
    · exact first j (hearlier hj hsame) hjk
  | exited frame reason =>
    refine .exited (fun p hp => (frame p hp).trans (tried_frame _ hp)) (reason.imp_left ?_)
    intro hlater j hj hjm
    by_cases hsame : j = s.attempt
    · rw [hsame, hrejected]
    · exact hlater j (hearlier hj hsame) hjm

theorem loopEnd_over (h : ¬ (s.attempt : Int) < maxAttempts) :
    LoopEnd calls ssh output tmpfile maxAttempts s (calls.giveUp s tmpfile) := by
  have hnone : ∀ j : Nat, s.attempt ≤ j → (j : Int) < maxAttempts → (ssh j).accepted = false := by
    intro j hj hjm
    omega
  rw [Calls.giveUp]
  split
  · exact .exited (fun p hp => Function.update_of_ne hp _ _) (Or.inl hnone)
  · exact .exited (fun _ _ => rfl) (Or.inl hnone)

theorem loopEnd_placed (hlt : (s.attempt : Int) < maxAttempts)
    (haccepted : (ssh s.attempt).accepted = true) :
    LoopEnd calls ssh output tmpfile maxAttempts s
      (calls.place (s.tried tmpfile (ssh s.attempt)) tmpfile output) := by
  rw [Calls.place]
  split
  · next hplaced =>
    have hmoved := Shell.tried_moved s tmpfile (calls.target tmpfile output) (ssh s.attempt)
    dsimp only [Shell.clearTrap]
    rw [hmoved]
    exact .renewed le_rfl hlt haccepted (fun j hj hjk => absurd hj (by omega)) hplaced
  · next hfailed =>
    refine .exited (fun p hp => tried_frame _ hp) (Or.inr ?_)
    by_cases hmv : calls.mv = true
    · exact Or.inr (Or.inr (Or.inr (by_contra fun hne => hfailed ⟨hmv, hne⟩)))
    · exact Or.inr (Or.inr (Or.inl (Bool.eq_false_iff.mpr hmv)))

-- Whichever check an attempt fails, what is left to do is what a loop entered there would do.
theorem attemptLoop_ends (calls : Calls) (ssh : Nat → SshOutcome) (output tmpfile : Path)
    (maxAttempts : Int) (s : Shell) : LoopEnd calls ssh output tmpfile maxAttempts s
      (calls.attemptLoop ssh output tmpfile maxAttempts s) := by
  have hrejected : ∀ {k : Nat}, ¬ ((ssh k).exitCode = 0 ∧ (ssh k).stdout ≠ [] ∧
      looksLikeCertificate (firstLine (ssh k).stdout) = true) → (ssh k).accepted = false := by
    intro k hk
    exact Bool.eq_false_iff.mpr fun haccepted => hk (accepted_iff.mp haccepted)
  fun_induction calls.attemptLoop ssh output tmpfile maxAttempts s with
  | case1 s hlt hsleep =>
    exact .exited (fun _ _ => rfl) (Or.inr (Or.inl ⟨s.attempt, by simpa using hsleep.2⟩))
  | case2 s hlt _ outcome t content hexit hempty _ ih =>
    have hsent : content = outcome.stdout := Shell.tried_content s tmpfile outcome
    rw [hsent] at hempty
    exact loopEnd_rejected (hrejected fun h => h.2.1 hempty) ih
  | case3 s hlt _ outcome t content hexit hempty hlast =>
    have hsent : content = outcome.stdout := Shell.tried_content s tmpfile outcome
    rw [hsent] at hempty
    exact loopEnd_rejected (hrejected fun h => h.2.1 hempty) (loopEnd_over hlast)
  | case4 s hlt _ outcome t content hexit hcontent hhead =>
    exact .exited (fun p hp => tried_frame _ hp)
      (Or.inr (Or.inr (Or.inl ⟨s.attempt, by simpa using hhead⟩)))
  | case5 s hlt _ outcome t content hexit hcontent _ hlooks _ ih =>
    have hsent : content = outcome.stdout := Shell.tried_content s tmpfile outcome
    rw [hsent, Bool.not_eq_true'] at hlooks
    exact loopEnd_rejected (hrejected fun h => absurd h.2.2 (Bool.eq_false_iff.mp hlooks)) ih
  | case6 s hlt _ outcome t content hexit hcontent _ hlooks hlast =>
    have hsent : content = outcome.stdout := Shell.tried_content s tmpfile outcome
    rw [hsent, Bool.not_eq_true'] at hlooks
    exact loopEnd_rejected (hrejected fun h => absurd h.2.2 (Bool.eq_false_iff.mp hlooks))
      (loopEnd_over hlast)
  | case7 s hlt _ outcome t content hexit hcontent _ hlooks =>
    have hsent : content = outcome.stdout := Shell.tried_content s tmpfile outcome
    rw [hsent] at hcontent hlooks
    exact loopEnd_placed hlt (accepted_iff.mpr ⟨hexit, hcontent, by simpa using hlooks⟩)
  | case8 s hlt _ outcome t hexit ih =>
    exact loopEnd_rejected (hrejected fun h => hexit h.1) ih
  | case9 s hover => exact loopEnd_over hover

theorem attemptLoop_works (h : calls.Works output) (hne : tmpfile ≠ output) :
    calls.attemptLoop ssh output tmpfile maxAttempts s =
      attemptLoop ssh output tmpfile maxAttempts s := by
  have hsleep : ∀ s : Shell, ¬ (0 < s.attempt ∧ (!calls.sleep s.attempt) = true) := by
    simp [h.sleep]
  have hgiveUp : ∀ s : Shell, calls.giveUp s tmpfile = s.giveUp tmpfile := by
    simp [Calls.giveUp, h.rm]
  have hplace : ∀ s : Shell, calls.place s tmpfile output =
      ⟨.returned, (s.mv tmpfile output).clearTrap.attempt,
        (s.mv tmpfile output).clearTrap.files⟩ := by
    intro s
    rw [Calls.place, target_of_works h, if_pos ⟨h.mv, hne.symm⟩]
  generalize hn : (maxAttempts - s.attempt).toNat = n
  induction n using Nat.strong_induction_on generalizing s with
  | _ n ih =>
    rw [Calls.attemptLoop, attemptLoop]
    by_cases hlt : (s.attempt : Int) < maxAttempts
    · have hnext := ih _ (by rw [Shell.tried_attempt]; omega)
        (s := s.tried tmpfile (ssh s.attempt)) rfl
      rw [if_pos hlt, if_pos hlt, if_neg (hsleep s)]
      simp only [hnext, hgiveUp, hplace, h.head, Bool.not_true, Bool.false_eq_true, if_false]
    · rw [if_neg hlt, if_neg hlt, hgiveUp]

theorem signKey_works (h : calls.Works output) {files : Files} {retryCount : RetryCount}
    (tmp : TempName files output) : calls.signKey ssh retryCount output files tmp =
      signKey ssh retryCount output files tmp := by
  rw [Calls.signKey, signKey]
  cases constant retryCount.digits with
  | none => rfl
  | some n => exact attemptLoop_works h tmp.path_ne_output

theorem signKey_ends (calls : Calls) {files : Files} {retryCount : RetryCount}
    (tmp : TempName files output) :
    (∃ k ≤ retryCount.value, (ssh k).accepted = true ∧ (∀ j < k, (ssh j).accepted = false) ∧
      calls.signKey ssh retryCount output files tmp = ⟨.returned, k + 1,
        Function.update files (calls.target tmp.path output) (some (ssh k).stdout)⟩) ∨
    ∃ attempts files', ((∀ k, Reached retryCount k → (ssh k).accepted = false) ∨
        calls.Fails tmp.path output) ∧
      (∀ p ≠ tmp.path, files' p = files p) ∧
      calls.signKey ssh retryCount output files tmp = ⟨.exited 1, attempts, files'⟩ := by
  cases hv : constant retryCount.digits with
  | none =>
    refine Or.inr ⟨0, Function.update files tmp.path (some []), Or.inl ?_, fun p hp =>
      Function.update_of_ne hp _ _, by rw [Calls.signKey, hv]; rfl⟩
    rintro k ⟨v, hv', -⟩
    simp [hv] at hv'
  | some v =>
    have hend := attemptLoop_ends calls ssh output tmp.path (plus v 1)
      ⟨Function.update files tmp.path (some []), some tmp.path, 0⟩
    rw [Calls.signKey, hv]
    dsimp only
    generalize calls.attemptLoop ssh output tmp.path (plus v 1)
      ⟨Function.update files tmp.path (some []), some tmp.path, 0⟩ = r at hend
    cases hend with
    | @renewed k le lt accepted first placed =>
      have hle : k ≤ retryCount.value := Reached.le_value ⟨v, hv, lt⟩
      refine Or.inl ⟨k, hle, accepted, fun j hj => first j (Nat.zero_le j) hj, ?_⟩
      rw [tmp.removed]
    | exited frame reason =>
      refine Or.inr ⟨_, _, reason.imp_left fun hnone k hk => ?_, fun p hp => ?_, rfl⟩
      · obtain ⟨v', hv', hk⟩ := hk
        obtain rfl := Option.some.inj (hv.symm.trans hv')
        exact hnone k (Nat.zero_le k) hk
      · exact (frame p hp).trans (Function.update_of_ne hp _ _)

end

end SshCertificateAuthority.Clients
