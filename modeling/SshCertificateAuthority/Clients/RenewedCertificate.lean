import SshCertificateAuthority.CertificatAuthority.EnvelopeUniqueness
import SshCertificateAuthority.Clients.CertificateRenewal
import SshCertificateAuthority.SshServer.Authorisation
import SshCertificateAuthority.SshServer.CertificateDelivery

namespace SshCertificateAuthority

def Session.output (session : Session) : List SessionOutput :=
  session.state.log.flatMap fun e => e.2.output

def SessionOutput.isDisconnect : SessionOutput → Bool
  | .disconnect _ => true
  | _ => false

def untilDisconnect (output : List SessionOutput) : List SessionOutput :=
  output.takeWhile fun o => !o.isDisconnect

namespace Clients
open ByteStream UnixPath ShellArith

-- `ssh` writes the channel to its stdout until it closes and exits with the status it was sent.
structure ReportsRemote (ssh : List SessionOutput → SshOutcome) : Prop where
  completed : ∀ channel text rest, ssh (certificateReply channel text ++ rest) = ⟨0, utf8 text⟩
  failed : ∀ output, (∀ channel status, .exitStatus channel status ∉ untilDisconnect output) →
    (ssh output).exitCode ≠ 0

inductive Granted : List (Callback × Reply) → Callback → String → Prop where
  | first {cb : Callback} {reply : Reply} {log : List (Callback × Reply)} {channel : Nat}
      {text : String} (output : reply.output = certificateReply channel text) :
      Granted ((cb, reply) :: log) cb text
  | later {e : Callback × Reply} {log : List (Callback × Reply)} {cb : Callback} {text : String}
      (silent : e.2.output = []) (h : Granted log cb text) : Granted (e :: log) cb text

def Shaped (log : List (Callback × Reply)) : Prop :=
  ∀ e ∈ log, Quiet e.2.output ∨ ∃ channel text, e.2.output = certificateReply channel text

section

variable {ssh : List SessionOutput → SshOutcome} {log : List (Callback × Reply)}

theorem shaped_outcome (hssh : ReportsRemote ssh) (h : Shaped log) :
    (∃ cb text, Granted log cb text ∧ ssh (log.flatMap fun e => e.2.output) = ⟨0, utf8 text⟩) ∨
      (∀ cb text, ¬ Granted log cb text) ∧
        (ssh (log.flatMap fun e => e.2.output)).exitCode ≠ 0 := by
  induction log with
  | nil =>
    refine Or.inr ⟨nofun, hssh.failed _ ?_⟩
    simp [untilDisconnect]
  | cons e log ih =>
    rw [List.flatMap_cons]
    rcases h e List.mem_cons_self with (hout | ⟨message, hout⟩) | ⟨channel, text, hout⟩
    · rw [hout, List.nil_append]
      rcases ih fun e' he' => h e' (List.mem_cons_of_mem e he') with
        ⟨cb, text, hgranted, hview⟩ | ⟨hnone, hexit⟩
      · exact Or.inl ⟨cb, text, .later hout hgranted, hview⟩
      · refine Or.inr ⟨fun cb text hgranted => ?_, hexit⟩
        cases hgranted with
        | first output =>
          rw [output] at hout
          simp [certificateReply] at hout
        | later silent hgranted => exact hnone cb text hgranted
    · refine Or.inr ⟨fun cb text hgranted => ?_, hssh.failed _ ?_⟩
      · cases hgranted with
        | first output =>
          rw [output] at hout
          simp [certificateReply] at hout
        | later silent hgranted =>
          rw [silent] at hout
          simp at hout
      · rw [hout]
        simp [untilDisconnect, SessionOutput.isDisconnect]
    · refine Or.inl ⟨e.1, text, .first hout, ?_⟩
      rw [hout]
      exact hssh.completed channel text _

theorem granted_at {cb : Callback} {text : String} (h : Granted log cb text) :
    ∃ (j : Nat) (reply : Reply) (channel : Nat), log[j]? = some (cb, reply) ∧
      .data channel text ∈ reply.output := by
  induction h with
  | @first cb reply log channel text output =>
    exact ⟨0, reply, channel, rfl, by simp [output, certificateReply]⟩
  | later silent h ih =>
    obtain ⟨j, reply, channel, hj, hdata⟩ := ih
    exact ⟨j + 1, reply, channel, hj, hdata⟩

end

theorem utf8EncodeChar_printable {c : Char} (h : 32 < c.toNat) :
    ∀ b ∈ String.utf8EncodeChar c, 32 < b.toNat := by
  have hv : 32 < c.val.toNat := h
  intro b hb
  rw [String.utf8EncodeChar] at hb
  split_ifs at hb <;>
    simp only [List.mem_cons, List.not_mem_nil, or_false] at hb <;>
    rcases hb with rfl | rfl | rfl | rfl <;>
    rw [UInt8.toNat_ofNat'] <;> omega

theorem utf8_printable {s : String} (h : ∀ c ∈ s.toList, 32 < c.toNat) :
    ∀ b ∈ utf8 s, 32 < b.toNat := by
  intro b hb
  rw [utf8_eq_flatMap] at hb
  obtain ⟨c, hc, hb⟩ := List.mem_flatMap.mp hb
  exact utf8EncodeChar_printable (h c hc) b hb

theorem firstLine_printable {word : Bytes} (h : ∀ b ∈ word, 32 < b.toNat) (rest : Bytes) :
    word <+: firstLine (word ++ rest) := by
  have hline : ∀ b ∈ word, b ≠ 10 ∧ b ≠ 0 := by
    intro b hb
    have hlarge := h b hb
    constructor
    · rintro rfl
      simp at hlarge
    · rintro rfl
      simp at hlarge
  rw [firstLine, List.takeWhile_append_of_pos fun b hb => by simpa using (hline b hb).1,
    List.filter_append, List.filter_eq_self.mpr fun b hb => by simpa using (hline b hb).2]
  exact List.prefix_append _ _

theorem certAlgorithm_parts {algorithm : String} (h : ∀ c ∈ algorithm.toList, 32 < c.toNat) :
    (∀ c ∈ (certAlgorithm algorithm).toList, 32 < c.toNat) ∧
      "-cert-".toList <:+: (certAlgorithm algorithm).toList := by
  have hsuffix : ∀ c ∈ "-cert-v01@openssh.com".toList, 32 < c.toNat := by simp
  have hinfix : "-cert-".toList <:+: "-cert-v01@openssh.com".toList :=
    ⟨[], "v01@openssh.com".toList, rfl⟩
  rw [certAlgorithm]
  split
  · rw [String.toList_append, String.toList_ofList]
    refine ⟨fun c hc => ?_, hinfix.trans (List.suffix_append _ _).isInfix⟩
    rcases List.mem_append.mp hc with hc | hc
    · exact h c (List.mem_of_mem_take hc)
    · exact hsuffix c hc
  · rw [String.toList_append]
    refine ⟨fun c hc => ?_, hinfix.trans (List.suffix_append _ _).isInfix⟩
    rcases List.mem_append.mp hc with hc | hc
    · exact h c hc
    · exact hsuffix c hc

theorem certificate_accepted {cert : Certificate} {text : String}
    (h : cert.toOpenssh = .ok text) : (⟨0, utf8 text⟩ : SshOutcome).accepted = true := by
  obtain ⟨hprintable, before, after, hmarker⟩ := certAlgorithm_parts cert.publicKey.algorithm_word
  obtain ⟨rest, hrest⟩ : ∃ rest, text = certAlgorithm cert.publicKey.algorithm ++ rest := by
    rw [Certificate.toOpenssh, opensshText] at h
    split at h
    · obtain rfl := Except.ok.inj h
      exact ⟨_, by rw [String.append_assoc, String.append_assoc]⟩
    · simp at h
  have hbytes : utf8 text = utf8 (certAlgorithm cert.publicKey.algorithm) ++ utf8 rest := by
    rw [hrest, utf8_eq_flatMap, utf8_eq_flatMap, utf8_eq_flatMap, String.toList_append,
      List.flatMap_append]
  have hword : utf8 "-cert-" <:+: utf8 (certAlgorithm cert.publicKey.algorithm) := by
    rw [utf8_eq_flatMap, utf8_eq_flatMap, ← hmarker, List.flatMap_append, List.flatMap_append]
    exact ⟨_, _, rfl⟩
  have hline : utf8 "-cert-" <:+: firstLine (utf8 text) := by
    rw [hbytes]
    exact hword.trans (firstLine_printable (utf8_printable hprintable) _).isInfix
  have hnonempty : utf8 text ≠ [] := by
    intro hnil
    rw [hnil] at hline
    exact absurd hline.length_le (by decide)
  simp [SshOutcome.accepted, looksLikeCertificate, hline, hnonempty]

theorem signKey_refused {ssh : Nat → SshOutcome} {retryCount : RetryCount} {output : Path}
    {files : Files} {tmp : TempName files output} {k : Nat}
    (hending : (signKey ssh retryCount output files tmp).ending ≠ .returned)
    (hk : k < (signKey ssh retryCount output files tmp).attempts) : (ssh k).accepted = false := by
  cases hv : constant retryCount.digits with
  | none =>
    rw [signKey_error hv] at hk
    exact absurd hk (Nat.not_lt_zero k)
  | some v =>
    by_cases hacc : ∃ i, Reached retryCount i ∧ (ssh i).accepted = true
    · obtain ⟨i, ⟨v', hv', hi⟩, hacc⟩ := hacc
      obtain rfl := Option.some.inj (hv.symm.trans hv')
      obtain ⟨j, hj, hacc, hfirst⟩ := exists_first_accepted hacc
      rw [signKey_first hv (by omega) hacc hfirst] at hending
      exact absurd rfl hending
    · have hnone : ∀ i, Reached retryCount i → (ssh i).accepted = false :=
        fun i hi => Bool.eq_false_iff.mpr fun hacc' => hacc ⟨i, hi, hacc'⟩
      rw [signKey_none hv fun i hi => hnone i ⟨v, hv, hi⟩] at hk
      exact hnone k ⟨v, hv, by dsimp only at hk; omega⟩

section

variable {X : Crates} {ssh : List SessionOutput → SshOutcome} {session : Session}

theorem concluded_shaped {cb : Callback} {reply : Reply}
    {said : List (CaRequest × Except String CaResponse)} (h : Concluded X cb reply said) :
    Quiet reply.output ∨ ∃ channel text, reply.output = certificateReply channel text := by
  cases h with
  | silent output => exact Or.inl output
  | lookup output none => exact Or.inl (Or.inl output)
  | signed asks output =>
    generalize reply.output = out at output ⊢
    cases output with
    | issued written => exact Or.inr ⟨_, _, rfl⟩
    | refused none => exact Or.inl (Or.inr ⟨_, rfl⟩)

theorem logged_shaped {past : List (List Turn)} {log : List (Callback × Reply)}
    (h : List.Forall₂ (fun turns e => Concluded X e.1 e.2 (turns.map Turn.said)) past log) :
    Shaped log := by
  induction h with
  | nil => simp [Shaped]
  | cons hconcluded hrest ih =>
    intro e he
    rcases List.mem_cons.mp he with rfl | he
    · exact concluded_shaped hconcluded
    · exact ih e he

theorem accepted_granted (hssh : ReportsRemote ssh) (hshape : Shaped session.state.log)
    (h : (ssh session.output).accepted = true) :
    ∃ cb text, Granted session.state.log cb text ∧ ssh session.output = ⟨0, utf8 text⟩ := by
  rcases shaped_outcome hssh hshape with hgranted | ⟨-, hexit⟩
  · exact hgranted
  · have hzero : (ssh session.output).exitCode = 0 := by
      simp only [SshOutcome.accepted, Bool.and_eq_true, beq_iff_eq] at h
      exact h.1.1
    exact absurd hzero hexit

theorem granted_accepted (hX : X.WritesOpenssh) (hssh : ReportsRemote ssh)
    (hshape : Shaped session.state.log)
    (htext : ∀ cb text, Granted session.state.log cb text →
      ∃ cert : Certificate, X.certificateToOpenssh cert = .ok text)
    {cb : Callback} {text : String} (h : Granted session.state.log cb text) :
    (ssh session.output).accepted = true := by
  rcases shaped_outcome hssh hshape with ⟨cb', text', hgranted, hview⟩ | ⟨hnone, -⟩
  · obtain ⟨cert, hcert⟩ := htext cb' text' hgranted
    rw [hX.certificate] at hcert
    rw [Session.output, hview]
    exact certificate_accepted hcert
  · exact absurd h (hnone cb text)

end

def sshClient (stdout : Bytes) (status : UInt8) : List SessionOutput → SshOutcome
  | [] | .disconnect _ :: _ => ⟨255, stdout⟩
  | .data _ text :: output => sshClient (stdout ++ utf8 text) status output
  | .exitStatus _ n :: output => sshClient stdout (.ofNat n) output
  | .eof _ :: output => sshClient stdout status output
  | .close _ :: _ => ⟨status, stdout⟩

theorem sshClient_failed {output : List SessionOutput} (stdout : Bytes)
    (h : ∀ channel status, .exitStatus channel status ∉ untilDisconnect output) :
    (sshClient stdout 255 output).exitCode ≠ 0 := by
  induction output generalizing stdout with
  | nil => simp [sshClient]
  | cons o output ih =>
    cases o with
    | disconnect message => simp [sshClient]
    | close channel => simp [sshClient]
    | exitStatus channel status =>
      exact absurd (by simp [untilDisconnect, SessionOutput.isDisconnect]) (h channel status)
    | data channel text =>
      refine ih _ fun channel' status hmem => h channel' status ?_
      exact List.mem_cons_of_mem _ hmem
    | eof channel =>
      refine ih _ fun channel' status hmem => h channel' status ?_
      exact List.mem_cons_of_mem _ hmem

theorem sshClient_reports : ReportsRemote (sshClient [] 255) where
  completed channel text rest := by simp [certificateReply, sshClient]
  failed _ h := sshClient_failed [] h

theorem hostState_accepted :
    (sshClient [] 255 (Session.output ⟨hostState, .idle⟩)).accepted = true := by
  have hmem : .signedCertificate webCertificate ∈ answers := by simp [answers]
  have hprinted := (answers_text hmem).1
  obtain ⟨text, htext⟩ := certificate_printed hprinted
  have hout : Session.output ⟨hostState, .idle⟩ =
      sendCertAndClose readingCrates webCertificate 0 := by
    simp [Session.output, hostState, SessionState.finish, SessionState.new,
      ConnectionHandler.keyReply]
  have hwritten : readingCrates.certificateToOpenssh webCertificate = .ok text := by
    rw [readingCrates_writesOpenssh.certificate, htext]
  rw [hout, sendCertAndClose_of_text 0 hwritten]
  exact certificate_accepted htext

end Clients
end SshCertificateAuthority
