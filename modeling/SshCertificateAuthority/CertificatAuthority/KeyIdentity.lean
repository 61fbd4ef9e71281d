import SshCertificateAuthority.CertificatAuthority.CertificateContents
import SshCertificateAuthority.Library.Delimited

namespace SshCertificateAuthority
open Delimited

def kindName : CertType → String
  | .user => "user"
  | .host => "host"

structure KeyIdentity where
  certType : CertType
  name : String
  seconds : Nat
deriving DecidableEq, Repr

def KeyIdentity.keyId (i : KeyIdentity) : String :=
  SshCertificateAuthority.keyId (kindName i.certType) i.name i.seconds

def readKind (kind : List Char) : Option CertType :=
  if kind = "user".toList then some .user
  else if kind = "host".toList then some .host
  else none

def readKeyId (id : String) : Option KeyIdentity := do
  let (issued, seconds) ← splitAtLast '-' id.toList
  let (kind, name) ← splitAtFirst '-' issued
  let certType ← readKind kind
  pure ⟨certType, String.ofList name, Nat.ofDigitChars 10 seconds 0⟩

theorem dash_not_mem_kindName (certType : CertType) : '-' ∉ (kindName certType).toList := by
  cases certType <;> decide

theorem readKind_kindName (certType : CertType) :
    readKind (kindName certType).toList = some certType := by
  cases certType <;> decide

theorem dash_not_mem_digits (n : Nat) : '-' ∉ Nat.toDigits 10 n := fun h =>
  absurd (Nat.isDigit_of_mem_toDigits (by decide) (by decide) h) (by decide)

theorem keyId_toList (i : KeyIdentity) :
    i.keyId.toList = ((kindName i.certType).toList ++ '-' :: i.name.toList) ++
      '-' :: Nat.toDigits 10 i.seconds := by
  have hdash : "-".toList = ['-'] := rfl
  have hshown : ∀ s : String, toString s = s := fun _ => rfl
  simp [KeyIdentity.keyId, keyId, hdash, hshown]

theorem readKeyId_keyId (i : KeyIdentity) : readKeyId i.keyId = some i := by
  rw [readKeyId, keyId_toList, splitAtLast_append _ (dash_not_mem_digits i.seconds)]
  simp [splitAtFirst_append (dash_not_mem_kindName i.certType), readKind_kindName]

example : readKeyId "user-deploy-host-2-1755000000" =
    some ⟨.user, "deploy-host-2", 1755000000⟩ := by
  decide +kernel

inductive SignedAs : KeyIdentity → Certificate → Prop where
  | user {X : Crates} {w : World} {ca : CertificateAuthority} {user : String}
    {publicKey : PublicKey} {cert : Certificate} :
    ca.signCertificate X w user publicKey = .ok cert →
      SignedAs ⟨.user, user, CertificateAuthority.validAfter w⟩ cert
  | host {X : Crates} {w : World} {ca : CertificateAuthority} {hostName : String}
    {publicKey : PublicKey} {cert : Certificate} :
    ca.signHostCertificate X w hostName publicKey = .ok cert →
      SignedAs ⟨.host, hostName, CertificateAuthority.validAfter w⟩ cert

theorem issue_keyId {w : World} {ca : CertificateAuthority} {certType : CertType}
    {kind name : String} {validityInDays : UInt16} {principals extensions : List String}
    {publicKey : PublicKey} {cert : Certificate}
    (h : ca.issue w certType kind name validityInDays principals extensions publicKey =
      .ok cert) : cert.keyId = keyId kind name (CertificateAuthority.validAfter w) := by
  obtain ⟨-, signature, -, rfl⟩ := CertificateAuthority.issue_ok_iff.mp h
  rfl

theorem keyId_of_signed {i : KeyIdentity} {cert : Certificate} (h : SignedAs i cert) :
    cert.keyId = i.keyId := by
  cases h with
  | user h =>
    obtain ⟨d, -, hissue⟩ := Outcome.bind_eq_ok h
    exact issue_keyId hissue
  | host h =>
    obtain ⟨-, -, hostConfig, configPubKey, hread, hkey, hsame, -⟩ :=
      CertificateAuthority.signHostCertificate_eq_ok _ _ _ h
    rw [signHostCertificate_of_match hread hkey hsame] at h
    exact issue_keyId h

theorem key_id_identifies {i : KeyIdentity} {cert : Certificate} (h : SignedAs i cert) :
    readKeyId cert.keyId = some i ∧
      ∀ j other, SignedAs j other → (cert.keyId = other.keyId ↔ i = j) := by
  have hi : readKeyId cert.keyId = some i := by rw [keyId_of_signed h, readKeyId_keyId]
  refine ⟨hi, fun j other hother => ?_⟩
  constructor
  · intro heq
    rw [heq, keyId_of_signed hother, readKeyId_keyId] at hi
    exact (Option.some.inj hi).symm
  · rintro rfl
    rw [keyId_of_signed h, keyId_of_signed hother]

theorem alice_key_id_read :
    ∃ cert, localAuthority.signCertificate weekCrates (weekWorld 1) "alice" ed25519Key = .ok cert ∧
      readKeyId cert.keyId = some ⟨.user, "alice", 1755000000⟩ := by
  have hissued : FaithfullyIssued .user weekDefaults.principals weekDefaults.extensions ed25519Key
      (localAuthority.signCertificate weekCrates (weekWorld 1) "alice" ed25519Key) := by
    rw [CertificateAuthority.signCertificate_of_defaults (weekDefaults_read 1 "alice")]
    exact CertificateAuthority.faithfullyIssued_issue weekWorld_steady localAuthority_works
  obtain ⟨cert, hcert⟩ := hissued.issued_iff.mpr ⟨by decide, by decide⟩
  exact ⟨cert, hcert, (key_id_identifies (.user hcert)).1⟩

end SshCertificateAuthority
