import Mathlib.Data.Nat.Find
import SshCertificateAuthority.Clients.SignKey

namespace SshCertificateAuthority.Clients
open ByteStream UnixPath ShellArith

structure AllOrNothing (n : Nat) (ssh : Nat → SshOutcome) (output : Path) (files : Files)
    (r : Renewal) : Prop where
  renewed : ∀ k ≤ n, (ssh k).accepted = true → (∀ j < k, (ssh j).accepted = false) →
    r = ⟨.returned, k + 1, Function.update files output (some (ssh k).stdout)⟩
  refused : (∀ k ≤ n, (ssh k).accepted = false) → r = ⟨.exited 1, n + 1, files⟩

-- The shell takes the digits for the number they spell, and can add one to it.
def ReadAsWritten (retryCount : RetryCount) : Prop :=
  retryCount.value + 1 < 2 ^ 63 ∧ (retryCount.digits.head? ≠ some '0' ∨ retryCount.value < 8)

instance (retryCount : RetryCount) : Decidable (ReadAsWritten retryCount) :=
  inferInstanceAs (Decidable (_ ∧ _))

def Reached (retryCount : RetryCount) (k : Nat) : Prop :=
  ∃ v, constant retryCount.digits = some v ∧ (k : Int) < plus v 1

section

variable {ssh : Nat → SshOutcome} {retryCount : RetryCount} {output : Path} {files : Files}
  {tmp : TempName files output}

theorem exists_first_accepted {k : Nat} (h : (ssh k).accepted = true) :
    ∃ i ≤ k, (ssh i).accepted = true ∧ ∀ j < i, (ssh j).accepted = false := by
  have hex : ∃ i, (ssh i).accepted = true := ⟨k, h⟩
  exact ⟨Nat.find hex, Nat.find_min' hex h, Nat.find_spec hex,
    fun j hj => Bool.eq_false_iff.mpr (Nat.find_min hex hj)⟩

theorem TempName.removed (tmp : TempName files output) (content : Option Bytes) :
    Function.update (Function.update files tmp.path content) tmp.path none = files := by
  rw [Function.update_idem, ← tmp.fresh]
  exact Function.update_eq_self _ _

theorem signKey_error (h : constant retryCount.digits = none) :
    signKey ssh retryCount output files tmp =
      ⟨.exited 1, 0, Function.update files tmp.path (some [])⟩ := by
  rw [signKey, h]
  rfl

theorem signKey_first {v : Int} {k : Nat} (h : constant retryCount.digits = some v)
    (hk : (k : Int) < plus v 1) (hacc : (ssh k).accepted = true)
    (hfirst : ∀ j < k, (ssh j).accepted = false) :
    signKey ssh retryCount output files tmp =
      ⟨.returned, k + 1, Function.update files output (some (ssh k).stdout)⟩ := by
  rw [signKey, h]
  dsimp only
  rw [attemptLoop_first hk hacc (Nat.zero_le k) fun j _ hj => hfirst j hj, tmp.removed]

theorem signKey_none {v : Int} (h : constant retryCount.digits = some v)
    (hnone : ∀ j : Nat, (j : Int) < plus v 1 → (ssh j).accepted = false) :
    signKey ssh retryCount output files tmp = ⟨.exited 1, (plus v 1).toNat, files⟩ := by
  rw [signKey, h]
  dsimp only
  rw [attemptLoop_none (Nat.zero_le _) fun j _ hj => hnone j hj, tmp.removed]

theorem readAsWritten_iff :
    ReadAsWritten retryCount ↔
      ∃ v, constant retryCount.digits = some v ∧ plus v 1 = retryCount.value + 1 :=
  (plus_constant_eq_iff retryCount.digits 1).symm

theorem Reached.le_value {k : Nat} (h : Reached retryCount k) : k ≤ retryCount.value := by
  obtain ⟨v, hv, hk⟩ := h
  have hle : plus v 1 ≤ retryCount.value + 1 := plus_constant_le hv 1
  omega

theorem allOrNothing_reached {k : Nat} (h : Reached retryCount k)
    (hacc : (ssh k).accepted = true) :
    AllOrNothing retryCount.value ssh output files (signKey ssh retryCount output files tmp) := by
  obtain ⟨i, hi, hacc, hfirst⟩ := exists_first_accepted hacc
  have hle := h.le_value
  obtain ⟨v, hv, hk⟩ := h
  have hrun : signKey ssh retryCount output files tmp =
      ⟨.returned, i + 1, Function.update files output (some (ssh i).stdout)⟩ :=
    signKey_first hv (by omega) hacc hfirst
  refine ⟨fun m _ hm hbefore => ?_, fun hnone => ?_⟩
  · have hsame : m = i := by
      by_contra hne
      rcases Nat.lt_or_gt_of_ne hne with hlt | hlt
      · simp [hfirst m hlt] at hm
      · simp [hbefore i hlt] at hacc
    rw [hrun, hsame]
  · simp [hnone i (by omega)] at hacc

theorem allOrNothing_readAsWritten (h : ReadAsWritten retryCount)
    (hnone : ∀ k, Reached retryCount k → (ssh k).accepted = false) :
    AllOrNothing retryCount.value ssh output files (signKey ssh retryCount output files tmp) := by
  obtain ⟨v, hv, hsum⟩ := readAsWritten_iff.mp h
  have hreached : ∀ k ≤ retryCount.value, Reached retryCount k :=
    fun k hk => ⟨v, hv, by omega⟩
  refine ⟨fun k hk hacc _ => ?_, fun _ => ?_⟩
  · simp [hnone k (hreached k hk)] at hacc
  · rw [signKey_none hv fun k hk => hnone k ⟨v, hv, hk⟩, hsum]
    rfl

theorem not_allOrNothing (hread : ¬ ReadAsWritten retryCount)
    (hnone : ∀ k, Reached retryCount k → (ssh k).accepted = false) :
    ¬ AllOrNothing retryCount.value ssh output files
      (signKey ssh retryCount output files tmp) := by
  intro h
  have hexit : ∃ attempts files', signKey ssh retryCount output files tmp =
      ⟨.exited 1, attempts, files'⟩ ∧ attempts ≠ retryCount.value + 1 := by
    cases hv : constant retryCount.digits with
    | none => exact ⟨_, _, signKey_error hv, by omega⟩
    | some v =>
      refine ⟨_, _, signKey_none hv fun k hk => hnone k ⟨v, hv, hk⟩, fun heq => hread ?_⟩
      exact readAsWritten_iff.mpr ⟨v, hv, by omega⟩
  obtain ⟨attempts, files', hrun, hattempts⟩ := hexit
  by_cases hacc : ∃ k ≤ retryCount.value, (ssh k).accepted = true
  · obtain ⟨k, hk, hacc⟩ := hacc
    obtain ⟨i, hi, hacc, hfirst⟩ := exists_first_accepted hacc
    have hrenewed := h.renewed i (by omega) hacc hfirst
    rw [hrun] at hrenewed
    simp at hrenewed
  · have hrefused := h.refused fun k hk => Bool.eq_false_iff.mpr fun hk' => hacc ⟨k, hk, hk'⟩
    rw [hrun] at hrefused
    exact hattempts (congrArg Renewal.attempts hrefused)

theorem signKey_allOrNothing_iff (tmp : TempName files output) :
    AllOrNothing retryCount.value ssh output files (signKey ssh retryCount output files tmp) ↔
      ReadAsWritten retryCount ∨ ∃ k, Reached retryCount k ∧ (ssh k).accepted = true := by
  by_cases hreached : ∃ k, Reached retryCount k ∧ (ssh k).accepted = true
  · obtain ⟨k, hk, hacc⟩ := hreached
    exact iff_of_true (allOrNothing_reached hk hacc) (Or.inr ⟨k, hk, hacc⟩)
  · have hnone : ∀ k, Reached retryCount k → (ssh k).accepted = false :=
      fun k hk => Bool.eq_false_iff.mpr fun hacc => hreached ⟨k, hk, hacc⟩
    refine ⟨fun h => Or.inl ?_, fun h => ?_⟩
    · by_contra hread
      exact not_allOrNothing hread hnone h
    · exact allOrNothing_readAsWritten (h.resolve_right hreached) hnone

theorem TempName.path_ne_output (tmp : TempName files output) : tmp.path ≠ output := by
  intro h
  have hlength := congrArg List.length h
  rw [TempName.path, List.length_append, List.length_cons] at hlength
  omega

-- Whatever the retry count: the old certificate stays until the first accepted one replaces it.
theorem signKey_output (tmp : TempName files output) :
    (∃ k ≤ retryCount.value, (ssh k).accepted = true ∧ (∀ j < k, (ssh j).accepted = false) ∧
      signKey ssh retryCount output files tmp =
        ⟨.returned, k + 1, Function.update files output (some (ssh k).stdout)⟩) ∨
    (signKey ssh retryCount output files tmp).ending = .exited 1 ∧
      (signKey ssh retryCount output files tmp).attempts ≤ retryCount.value + 1 ∧
      (signKey ssh retryCount output files tmp).files output = files output := by
  cases hv : constant retryCount.digits with
  | none =>
    rw [signKey_error hv]
    exact Or.inr ⟨rfl, Nat.zero_le _, Function.update_of_ne tmp.path_ne_output.symm _ _⟩
  | some v =>
    have hle : plus v 1 ≤ retryCount.value + 1 := plus_constant_le hv 1
    by_cases hacc : ∃ k, Reached retryCount k ∧ (ssh k).accepted = true
    · obtain ⟨k, hk, hacc⟩ := hacc
      obtain ⟨i, hi, hacc, hfirst⟩ := exists_first_accepted hacc
      have hvalue := hk.le_value
      obtain ⟨v', hv', hlt⟩ := hk
      obtain rfl := Option.some.inj (hv.symm.trans hv')
      exact Or.inl ⟨i, by omega, hacc, hfirst, signKey_first hv (by omega) hacc hfirst⟩
    · rw [signKey_none hv fun k hk =>
        Bool.eq_false_iff.mpr fun hk' => hacc ⟨k, ⟨v, hv, hk⟩, hk'⟩]
      exact Or.inr ⟨rfl, by change (plus v 1).toNat ≤ _; omega, rfl⟩

end

theorem renewal_all_or_nothing_iff (ssh : Nat → Bytes → SshOutcome) (key : Path)
    (retryCount : RetryCount) {output : Path} {files : Files} (tmp : TempName files output) :
    (AllOrNothing retryCount.value (ssh · []) output files
        (signHostKey ssh retryCount output files tmp) ↔
      ReadAsWritten retryCount ∨ ∃ k, Reached retryCount k ∧ (ssh k []).accepted = true) ∧
    (AllOrNothing retryCount.value (ssh · ((files key).getD [])) output files
        (signUserKey ssh key retryCount output files tmp) ↔
      ReadAsWritten retryCount ∨
        ∃ k, Reached retryCount k ∧ (ssh k ((files key).getD [])).accepted = true) :=
  ⟨signKey_allOrNothing_iff tmp, signKey_allOrNothing_iff tmp⟩

def noFiles : Files := fun _ => none

def hostCertificate : Path := "/etc/ssh/ssh_host_ed25519_key-cert.pub".toList

def hostTmp : TempName noFiles hostCertificate := ⟨"k3Xw9a".toList, rfl, rfl⟩

def certificateSent : SshOutcome := ⟨0, utf8 "ssh-ed25519-cert-v01@openssh.com AAAA\n"⟩

def connectionRefused : SshOutcome := ⟨255, []⟩

def eightRetries : RetryCount := ⟨"08".toList, rfl⟩

def tenRetries : RetryCount := ⟨"010".toList, rfl⟩

def manyRetries : RetryCount := ⟨"9223372036854775807".toList, rfl⟩

-- The first never asks the CA and leaves its file, the second never asks, the third stops early.
theorem misread_retry_counts :
    (signHostKey (fun _ _ => certificateSent) eightRetries hostCertificate noFiles hostTmp =
        ⟨.exited 1, 0, Function.update noFiles hostTmp.path (some [])⟩ ∧
      ¬ AllOrNothing 8 (fun _ => certificateSent) hostCertificate noFiles
        (signHostKey (fun _ _ => certificateSent) eightRetries hostCertificate noFiles hostTmp)) ∧
    (signHostKey (fun _ _ => certificateSent) manyRetries hostCertificate noFiles hostTmp =
        ⟨.exited 1, 0, noFiles⟩ ∧
      ¬ AllOrNothing 9223372036854775807 (fun _ => certificateSent) hostCertificate noFiles
        (signHostKey (fun _ _ => certificateSent) manyRetries hostCertificate noFiles hostTmp)) ∧
    (signHostKey (fun _ _ => connectionRefused) tenRetries hostCertificate noFiles hostTmp =
        ⟨.exited 1, 9, noFiles⟩ ∧
      ¬ AllOrNothing 10 (fun _ => connectionRefused) hostCertificate noFiles
        (signHostKey (fun _ _ => connectionRefused) tenRetries hostCertificate noFiles
          hostTmp)) := by
  have height : constant eightRetries.digits = none := rfl
  have hmany : constant manyRetries.digits = some (wrap 9223372036854775807) := rfl
  have hten : constant tenRetries.digits = some (wrap 8) := rfl
  have hsum : plus (wrap 9223372036854775807) 1 = -9223372036854775808 := rfl
  have hmisread : ¬ ReadAsWritten eightRetries ∧ ¬ ReadAsWritten manyRetries ∧
    ¬ ReadAsWritten tenRetries := by decide
  have hnone : ∀ k, ¬ Reached eightRetries k := by
    rintro k ⟨v, hv, -⟩
    simp [height] at hv
  have hnever : ∀ k, ¬ Reached manyRetries k := by
    rintro k ⟨v, hv, hk⟩
    obtain rfl := Option.some.inj (hmany.symm.trans hv)
    omega
  refine ⟨⟨signKey_error height, ?_⟩, ⟨signKey_none hmany fun j hj => ?_, ?_⟩,
    ⟨signKey_none hten fun _ _ => rfl, ?_⟩⟩
  · exact not_allOrNothing hmisread.1 fun k hk => (hnone k hk).elim
  · exact (hnever j ⟨_, hmany, hj⟩).elim
  · exact not_allOrNothing hmisread.2.1 fun k hk => (hnever k hk).elim
  · exact not_allOrNothing hmisread.2.2 fun _ _ => rfl

end SshCertificateAuthority.Clients
