import SshCertificateAuthority.CertificatAuthority.UserDefaultsReader
import SshCertificateAuthority.CertificatAuthority.HostConfigReader

namespace SshCertificateAuthority
open ByteStream UnixPath FileTree

structure CertificateAuthority where
  privateKey : PrivateKey
  config : Ca

def wrongPublicKey (hostName : String) : String := "wrong public key for host: " ++ hostName

def addPrincipals (b : CertBuilder) (principals : List String) : CertBuilder :=
  principals.foldl (fun b p => (b.validPrincipal p).toOption.getD b) b

def addExtensions (b : CertBuilder) (extensions : List String) : Except String CertBuilder :=
  extensions.foldlM (fun b e => b.extension e "") b

def keyId (kind name : String) (validAfter : Nat) : String := s!"{kind}-{name}-{validAfter}"

theorem addPrincipals_cons (b : CertBuilder) (principal : String) (principals : List String) :
    addPrincipals b (principal :: principals) =
      { b with
        validPrincipals := some (b.validPrincipals.getD [] ++ principal :: principals) } := by
  induction principals generalizing b principal with
  | nil => rfl
  | cons p ps ih =>
    have hstep : addPrincipals b (principal :: p :: ps) =
      addPrincipals { b with validPrincipals := some (b.validPrincipals.getD [] ++ [principal]) }
        (p :: ps) := rfl
    rw [hstep, ih]
    simp

theorem addPrincipals_of_none {b : CertBuilder} (h : b.validPrincipals = none)
    (principals : List String) :
    addPrincipals b principals =
      { b with validPrincipals := if principals = [] then none else some principals } := by
  cases principals with
  | nil =>
    rw [if_pos rfl, ← h]
    rfl
  | cons p ps => rw [addPrincipals_cons, h, if_neg (List.cons_ne_nil p ps), Option.getD_none,
      List.nil_append]

def insertExtensions (extensions : List String) (os : List (String × String)) :
    List (String × String) :=
  extensions.foldl (fun os e => CertBuilder.insertOption (e, "") os) os

theorem insertExtensions_perm (extensions : List String) (os : List (String × String)) :
    (insertExtensions extensions os).Perm (extensions.map (·, "") ++ os) := by
  induction extensions generalizing os with
  | nil => exact List.Perm.refl _
  | cons e es ih =>
    have hins := (CertBuilder.insertOption_perm (e, "") os).append_left (es.map (·, ""))
    exact ((ih _).trans hins).trans List.perm_middle

theorem addExtensions_cons (b : CertBuilder) (e : String) (es : List String) :
    addExtensions b (e :: es) =
      if e ∈ b.extensions.map Prod.fst then .error "certificate field invalid: extensions"
      else
        addExtensions { b with
          extensions := CertBuilder.insertOption (e, "") b.extensions } es := by
  rw [addExtensions]
  rw [List.foldlM_cons]
  rw [CertBuilder.extension]
  split <;> rfl

theorem addExtensions_of_fresh {b : CertBuilder} {extensions : List String}
    (hnodup : extensions.Nodup) (hfresh : ∀ e ∈ extensions, e ∉ b.extensions.map Prod.fst) :
    addExtensions b extensions =
      .ok { b with extensions := insertExtensions extensions b.extensions } := by
  induction extensions generalizing b with
  | nil => rfl
  | cons e es ih =>
    obtain ⟨he, hes⟩ := List.nodup_cons.mp hnodup
    rw [addExtensions_cons, if_neg (hfresh e List.mem_cons_self), ih hes]
    · rfl
    · intro e' he'
      have hperm := (CertBuilder.insertOption_perm (e, "") b.extensions).map Prod.fst
      rw [hperm.mem_iff, List.map_cons, List.mem_cons, not_or]
      exact ⟨fun h : e' = e => he (h ▸ he'), hfresh e' (List.mem_cons_of_mem e he')⟩

theorem addExtensions_of_repeat {b : CertBuilder} {extensions : List String}
    (h : ¬ (extensions.Nodup ∧ ∀ e ∈ extensions, e ∉ b.extensions.map Prod.fst)) :
    addExtensions b extensions = .error "certificate field invalid: extensions" := by
  induction extensions generalizing b with
  | nil => exact absurd ⟨List.nodup_nil, by simp⟩ h
  | cons e es ih =>
    rw [addExtensions_cons]
    split
    · rfl
    · next he =>
      refine ih fun hes => h ⟨List.nodup_cons.mpr ⟨fun hmem => ?_, hes.1⟩, fun e' he' => ?_⟩
      · have hperm := (CertBuilder.insertOption_perm (e, "") b.extensions).map Prod.fst
        exact hes.2 e hmem (hperm.mem_iff.mpr List.mem_cons_self)
      · rcases List.mem_cons.mp he' with rfl | he'
        · exact he
        · have hperm := (CertBuilder.insertOption_perm (e, "") b.extensions).map Prod.fst
          exact fun hmem => hes.2 e' he' (hperm.mem_iff.mpr (List.mem_cons_of_mem e hmem))

namespace CertificateAuthority

variable (X : Crates) (w : World) (ca : CertificateAuthority)

def issue (certType : CertType) (kind name : String) (validityInDays : UInt16)
    (principals extensions : List String) (publicKey : PublicKey) : Outcome Certificate := do
  let validAfter ← w.now 0
  let signedAt ← w.now 1
  let validBefore ← addU64 signedAt (validityInDays.toNat * 86400)
  let b ← Outcome.ofExcept (CertBuilder.new w.nonce publicKey.keyData validAfter validBefore)
  let b ← Outcome.ofExcept (b.setSerial w.serial)
  let b ← Outcome.ofExcept (b.setKeyId (keyId kind name validAfter))
  let b ← Outcome.ofExcept (b.setCertType certType)
  let b := addPrincipals b principals
  let b ← Outcome.ofExcept (b.setComment publicKey.comment)
  let b ← Outcome.ofExcept (addExtensions b extensions)
  Outcome.ofExcept (b.sign ca.privateKey)

def signCertificate (user : String) (publicKey : PublicKey) : Outcome Certificate := do
  let d ← readUserDefaults X w.fs user ca.config
  issue w ca .user "user" user d.validityInDays d.principals d.extensions publicKey

def checkPublicKey (publicKey : String) : Outcome (Option String) := do
  let found ← (findConfigByPublicKey X w.fs publicKey ca.config).result
  pure (found.map Prod.fst)

def signHostCertificate (hostName : String) (publicKey : PublicKey) : Outcome Certificate := do
  let hostConfig ← Outcome.ofExcept (readHostConfig X w.fs hostName ca.config)
  match X.fromOpenssh hostConfig.publicKey with
  | .error _ => .err (wrongPublicKey hostName)
  | .ok configPubKey =>
    if configPubKey.keyData ≠ publicKey.keyData then
      -- both keys are logged through `to_openssh().unwrap()`
      match X.toOpenssh configPubKey, X.toOpenssh publicKey with
      | .ok _, .ok _ => .err (wrongPublicKey hostName)
      | _, _ => .panic "to_openssh"
    else
      issue w ca .host "host" hostName hostConfig.validityInDays hostConfig.hostnames
        hostConfig.extensions publicKey

def certificateOf (certType : CertType) (kind name : String) (validAfter validBefore : Nat)
    (principals extensions : List String) (publicKey : PublicKey) : Certificate where
  nonce := w.nonce
  publicKey := publicKey.keyData
  serial := w.serial
  certType := certType
  keyId := keyId kind name validAfter
  validPrincipals := principals
  validAfter := validAfter
  validBefore := validBefore
  criticalOptions := []
  extensions := insertExtensions extensions []
  comment := publicKey.comment
  signatureKey := ca.privateKey.publicKey
  signature := []

def validAfter : Nat := (w.clock 0).toNat

def validBefore (validityInDays : UInt16) : Nat :=
  (w.clock 1).toNat + validityInDays.toNat * 86400

structure Issuable (validityInDays : UInt16) (principals extensions : List String) : Prop where
  clock : 0 ≤ w.clock 0 ∧ 0 ≤ w.clock 1
  order : validAfter w ≤ validBefore w validityInDays
  bound : validBefore w validityInDays ≤ CertBuilder.maxSecs
  distinct : extensions.Nodup
  principals : principals ≠ []

def issueErrors : List String :=
  ["certificate field invalid: valid after", "certificate field invalid: valid before",
    "certificate field invalid: extensions", "certificate field invalid: valid principals",
    "cryptographic error"]

def Refused (o : Outcome Certificate) : Prop :=
  (∃ site, o = .panic site) ∨ ∃ e ∈ issueErrors, o = .err e

section

variable {certType : CertType} {kind name : String} {validityInDays : UInt16}
  {principals extensions : List String} {publicKey : PublicKey}

def begunBuilder (certType : CertType) (kind name : String) (validAfter validBefore : Nat)
    (publicKey : PublicKey) : CertBuilder where
  nonce := w.nonce
  publicKey := publicKey.keyData
  serial := some w.serial
  certType := some certType
  keyId := some (keyId kind name validAfter)
  validPrincipals := none
  validAfter := validAfter
  validBefore := validBefore
  criticalOptions := []
  extensions := []
  comment := none

theorem now_of_nonneg {i : Nat} (h : 0 ≤ w.clock i) : w.now i = .ok (w.clock i).toNat :=
  if_neg (Int.not_lt.mpr h)

theorem issue_of_times (h₀ : 0 ≤ w.clock 0) (h₁ : 0 ≤ w.clock 1)
    (horder : validAfter w ≤ validBefore w validityInDays)
    (hbound : validBefore w validityInDays ≤ CertBuilder.maxSecs) :
    issue w ca certType kind name validityInDays principals extensions publicKey = (do
      let b := addPrincipals (begunBuilder w certType kind name (validAfter w)
        (validBefore w validityInDays) publicKey) principals
      let b ← Outcome.ofExcept (b.setComment publicKey.comment)
      let b ← Outcome.ofExcept (addExtensions b extensions)
      Outcome.ofExcept (b.sign ca.privateKey)) := by
  have hmax : CertBuilder.maxSecs = 9223372036854775807 := rfl
  have e₀ : w.now 0 = .ok (validAfter w) := now_of_nonneg w h₀
  have e₁ : w.now 1 = .ok (w.clock 1).toNat := now_of_nonneg w h₁
  have hadd : addU64 (w.clock 1).toNat (validityInDays.toNat * 86400) =
      .ok (validBefore w validityInDays) := if_pos (by unfold validBefore at hbound; omega)
  have hnew : CertBuilder.new w.nonce publicKey.keyData (validAfter w)
      (validBefore w validityInDays) = .ok ⟨w.nonce, publicKey.keyData, none, none, none, none,
        validAfter w, validBefore w validityInDays, [], [], none⟩ := by
    rw [CertBuilder.new, if_neg (by omega), if_neg (by omega)]
  rw [issue]
  rw [e₀, Outcome.ok_bind, e₁, Outcome.ok_bind, hadd, Outcome.ok_bind, hnew]
  rfl

theorem issue_of_issuable (h : Issuable w validityInDays principals extensions) :
    issue w ca certType kind name validityInDays principals extensions publicKey =
      let cert := certificateOf w ca certType kind name (validAfter w)
        (validBefore w validityInDays) principals extensions publicKey
      match ca.privateKey.sign cert.toBeSigned with
      | none => .err "cryptographic error"
      | some signature => .ok { cert with signature } := by
  rw [issue_of_times w ca h.clock.1 h.clock.2 h.order h.bound]
  obtain ⟨p, ps, rfl⟩ := List.exists_cons_of_ne_nil h.principals
  have hext := addExtensions_of_fresh (b := { begunBuilder w certType kind name (validAfter w)
    (validBefore w validityInDays) publicKey with
      validPrincipals := some (p :: ps), comment := some publicKey.comment }) h.distinct
    fun e _ => by simp [begunBuilder]
  rw [addPrincipals_cons]
  dsimp only [CertBuilder.setComment, begunBuilder] at hext ⊢
  simp only [Option.isSome_none, Bool.false_eq_true, if_false, Outcome.ofExcept, Outcome.ok_bind,
    Option.getD_none, List.nil_append, hext, CertBuilder.sign, CertBuilder.certificate,
    certificateOf, Option.getD_some]
  generalize ca.privateKey.sign _ = signed
  cases signed <;> rfl

theorem refused_bind {A : Type} {o : Outcome A} {f : A → Outcome Certificate}
    (h : (∃ site, o = .panic site) ∨ ∃ e ∈ issueErrors, o = .err e) : Refused (o >>= f) := by
  rcases h with ⟨site, rfl⟩ | ⟨e, he, rfl⟩
  · exact Or.inl ⟨site, rfl⟩
  · exact Or.inr ⟨e, he, rfl⟩

theorem issue_refused (h : ¬ Issuable w validityInDays principals extensions) :
    Refused (issue w ca certType kind name validityInDays principals extensions publicKey) := by
  by_cases htimes : 0 ≤ w.clock 0 ∧ 0 ≤ w.clock 1 ∧ validAfter w ≤ validBefore w validityInDays ∧
      validBefore w validityInDays ≤ CertBuilder.maxSecs
  · obtain ⟨h₀, h₁, horder, hbound⟩ := htimes
    rw [issue_of_times w ca h₀ h₁ horder hbound,
      addPrincipals_of_none (b := begunBuilder w _ _ _ _ _ _) rfl]
    dsimp only [CertBuilder.setComment, begunBuilder]
    rw [if_neg (by simp)]
    by_cases hdistinct : extensions.Nodup
    · have hnone : principals = [] := by
        by_contra hp
        exact h ⟨⟨h₀, h₁⟩, horder, hbound, hdistinct, hp⟩
      have hsome := addExtensions_of_fresh (b := { begunBuilder w certType kind name (validAfter w)
        (validBefore w validityInDays) publicKey with comment := some publicKey.comment })
        hdistinct fun e _ => by simp [begunBuilder]
      dsimp only [begunBuilder] at hsome
      rw [if_pos hnone]
      refine Or.inr ⟨"certificate field invalid: valid principals", by simp [issueErrors], ?_⟩
      simp only [Outcome.ofExcept, Outcome.ok_bind, hsome, CertBuilder.sign]
    · refine Or.inr ⟨"certificate field invalid: extensions", by simp [issueErrors], ?_⟩
      simp only [Outcome.ofExcept, Outcome.ok_bind]
      rw [addExtensions_of_repeat fun hfresh => hdistinct hfresh.1]
      rfl
  · rw [issue]
    by_cases h₀ : 0 ≤ w.clock 0
    · by_cases h₁ : 0 ≤ w.clock 1
      · rw [now_of_nonneg w h₀, now_of_nonneg w h₁, Outcome.ok_bind, Outcome.ok_bind]
        by_cases hadd : (w.clock 1).toNat + validityInDays.toNat * 86400 < 18446744073709551616
        · rw [addU64, if_pos hadd, Outcome.ok_bind]
          refine refused_bind (Or.inr ?_)
          have htimes : ¬ (validAfter w ≤ validBefore w validityInDays ∧
            validBefore w validityInDays ≤ CertBuilder.maxSecs) := fun ht => htimes ⟨h₀, h₁, ht⟩
          unfold validAfter validBefore at htimes
          rw [CertBuilder.new]
          split
          · exact ⟨"certificate field invalid: valid after", by simp [issueErrors], rfl⟩
          · rw [if_pos (by omega)]
            exact ⟨"certificate field invalid: valid before", by simp [issueErrors], rfl⟩
        · rw [addU64, if_neg hadd]
          exact refused_bind (Or.inl ⟨_, rfl⟩)
      · rw [now_of_nonneg w h₀, Outcome.ok_bind, World.now, if_pos (Int.not_le.mp h₁)]
        exact refused_bind (Or.inl ⟨_, rfl⟩)
    · rw [World.now, if_pos (Int.not_le.mp h₀)]
      exact refused_bind (Or.inl ⟨_, rfl⟩)

theorem issue_eq_ok {cert : Certificate}
    (h : issue w ca certType kind name validityInDays principals extensions publicKey = .ok cert) :
    cert.certType = certType ∧ cert.publicKey = publicKey.keyData ∧
      cert.validPrincipals = principals := by
  by_cases hi : Issuable w validityInDays principals extensions
  · rw [issue_of_issuable w ca hi] at h
    dsimp only at h
    split at h
    · simp at h
    · obtain rfl := Outcome.ok.inj h
      exact ⟨rfl, rfl, rfl⟩
  · rcases issue_refused w ca hi with ⟨site, hr⟩ | ⟨e, -, hr⟩
    · rw [hr] at h
      simp at h
    · rw [hr] at h
      simp at h

end

theorem signCertificate_eq_ok {user : String} {publicKey : PublicKey} {cert : Certificate}
    (h : signCertificate X w ca user publicKey = .ok cert) :
    cert.certType = .user ∧ cert.publicKey = publicKey.keyData ∧
      ∃ d, readUserDefaults X w.fs user ca.config = .ok d ∧
        cert.validPrincipals = d.principals := by
  obtain ⟨d, hd, h⟩ := Outcome.bind_eq_ok h
  obtain ⟨htype, hkey, hprincipals⟩ := issue_eq_ok w ca h
  exact ⟨htype, hkey, d, hd, hprincipals⟩

theorem signHostCertificate_eq_ok {hostName : String} {publicKey : PublicKey} {cert : Certificate}
    (h : signHostCertificate X w ca hostName publicKey = .ok cert) :
    cert.certType = .host ∧ cert.publicKey = publicKey.keyData ∧
      ∃ hostConfig key, readHostConfig X w.fs hostName ca.config = .ok hostConfig ∧
        X.fromOpenssh hostConfig.publicKey = .ok key ∧ key.keyData = publicKey.keyData ∧
        cert.validPrincipals = hostConfig.hostnames := by
  obtain ⟨hostConfig, hc, h⟩ := Outcome.bind_eq_ok h
  rw [Outcome.ofExcept_eq_ok] at hc
  cases hk : X.fromOpenssh hostConfig.publicKey with
  | error e => simp [hk] at h
  | ok key =>
    simp only [hk] at h
    split at h
    · split at h <;> simp at h
    · next hsame =>
      obtain ⟨htype, hkey, hprincipals⟩ := issue_eq_ok w ca h
      exact ⟨htype, hkey, hostConfig, key, hc, hk, not_ne_iff.mp hsame, hprincipals⟩

end CertificateAuthority

theorem signHostCertificate_of_match {X : Crates} {w : World} {ca : CertificateAuthority}
    {hostName : String} {hostConfig : HostConfig} {configPubKey subject : PublicKey}
    (hread : readHostConfig X w.fs hostName ca.config = .ok hostConfig)
    (hkey : X.fromOpenssh hostConfig.publicKey = .ok configPubKey)
    (hsame : configPubKey.keyData = subject.keyData) :
    ca.signHostCertificate X w hostName subject =
      CertificateAuthority.issue w ca .host "host" hostName hostConfig.validityInDays
        hostConfig.hostnames hostConfig.extensions subject := by
  simp only [CertificateAuthority.signHostCertificate, hread, Outcome.ofExcept, Outcome.ok_bind,
    hkey, hsame, ne_eq, not_true_eq_false, if_false]

def localAuthority : CertificateAuthority where
  privateKey := ⟨ed25519Key.keyData, fun _ => some ed25519Signature⟩
  config := localConfig

end SshCertificateAuthority
