import SshCertificateAuthority.CertificatAuthority.Authority

namespace SshCertificateAuthority
open ByteStream UnixPath FileTree

-- Both readings of a signing, in seconds since the epoch.
structure SteadyClock (w : World) : Prop where
  nonneg : 0 ≤ w.clock 0
  ordered : w.clock 0 ≤ w.clock 1
  bounded : w.clock 1 < 9223372036854775808 - 65535 * 86400

def WorkingKey (ca : CertificateAuthority) : Prop :=
  ∀ message, (ca.privateKey.sign message).isSome = true

structure Faithful (certType : CertType) (principals extensions : List String)
    (publicKey : PublicKey) (cert : Certificate) : Prop where
  certType : cert.certType = certType
  publicKey : cert.publicKey = publicKey.keyData
  principals : cert.validPrincipals = principals
  nonempty : cert.validPrincipals ≠ []
  extensions : cert.extensions.Perm (extensions.map (·, ""))
  criticalOptions : cert.criticalOptions = []

structure FaithfullyIssued (certType : CertType) (ps es : List String) (publicKey : PublicKey)
    (o : Outcome Certificate) : Prop where
  issued_iff : (∃ cert, o = .ok cert) ↔ ps ≠ [] ∧ es.Nodup
  faithful : ∀ cert, o = .ok cert → Faithful certType ps es publicKey cert

structure LifetimeExact (kind name : String) (validityInDays : UInt16) (cert : Certificate) :
    Prop where
  lifetime : cert.validBefore - cert.validAfter = validityInDays.toNat * 86400
  named : cert.keyId = keyId kind name cert.validAfter

structure UserLifetimes (X : Crates) (w : World) (ca : CertificateAuthority) (user : String)
    (publicKey : PublicKey) : Prop where
  no_overflow : ca.signCertificate X w user publicKey ≠ .panic "attempt to add with overflow"
  kept : ∀ cert, ca.signCertificate X w user publicKey = .ok cert →
    ∃ d, readUserDefaults X w.fs user ca.config = .ok d ∧
      LifetimeExact "user" user d.validityInDays cert

structure HostLifetimes (X : Crates) (w : World) (ca : CertificateAuthority) (hostName : String)
    (publicKey : PublicKey) : Prop where
  no_overflow : ca.signHostCertificate X w hostName publicKey ≠
    .panic "attempt to add with overflow"
  kept : ∀ cert, ca.signHostCertificate X w hostName publicKey = .ok cert →
    ∃ hostConfig, readHostConfig X w.fs hostName ca.config = .ok hostConfig ∧
      LifetimeExact "host" hostName hostConfig.validityInDays cert

namespace CertificateAuthority

variable {X : Crates} {w : World} {ca : CertificateAuthority} {certType : CertType}
  {kind name : String} {validityInDays : UInt16} {principals extensions : List String}
  {publicKey : PublicKey} {cert : Certificate}

def issuedCertificate (w : World) (ca : CertificateAuthority) (certType : CertType)
    (kind name : String) (validityInDays : UInt16) (principals extensions : List String)
    (publicKey : PublicKey) : Certificate :=
  certificateOf w ca certType kind name (validAfter w) (validBefore w validityInDays) principals
    extensions publicKey

structure Issues (w : World) (ca : CertificateAuthority) (certType : CertType)
    (kind name : String) (validityInDays : UInt16) (ps es : List String)
    (publicKey : PublicKey) : Prop where
  principals : ps ≠ []
  distinct : es.Nodup
  signs : (ca.privateKey.sign (issuedCertificate w ca certType kind name validityInDays ps es
    publicKey).toBeSigned).isSome = true

theorem issue_ok_iff :
    issue w ca certType kind name validityInDays principals extensions publicKey = .ok cert ↔
      Issuable w validityInDays principals extensions ∧ ∃ signature,
        ca.privateKey.sign (issuedCertificate w ca certType kind name validityInDays principals
          extensions publicKey).toBeSigned = some signature ∧
        { issuedCertificate w ca certType kind name validityInDays principals extensions
          publicKey with signature } = cert := by
  by_cases hi : Issuable w validityInDays principals extensions
  · rw [issue_of_issuable w ca hi, issuedCertificate]
    dsimp only
    cases ca.privateKey.sign _ with
    | none => simp
    | some signature => simp [hi]
  · refine iff_of_false (fun h => ?_) fun h => hi h.1
    rcases issue_refused w ca hi with ⟨site, hr⟩ | ⟨e, -, hr⟩
    · exact absurd (hr.symm.trans h) (by simp)
    · exact absurd (hr.symm.trans h) (by simp)

theorem faithful_of_issue
    (h : issue w ca certType kind name validityInDays principals extensions publicKey = .ok cert) :
    Faithful certType principals extensions publicKey cert := by
  obtain ⟨hi, signature, -, rfl⟩ := issue_ok_iff.mp h
  have hperm := insertExtensions_perm extensions []
  rw [List.append_nil] at hperm
  exact ⟨rfl, rfl, rfl, hi.principals, hperm, rfl⟩

theorem validBefore_bounded (hw : SteadyClock w) (validityInDays : UInt16) :
    validAfter w ≤ validBefore w validityInDays ∧
      validBefore w validityInDays ≤ CertBuilder.maxSecs := by
  obtain ⟨h₀, hle, hlt⟩ := hw
  have hdays := validityInDays.toNat_lt
  unfold validAfter validBefore CertBuilder.maxSecs
  omega

theorem issuable_iff (hw : SteadyClock w) :
    Issuable w validityInDays principals extensions ↔ principals ≠ [] ∧ extensions.Nodup := by
  obtain ⟨horder, hbound⟩ := validBefore_bounded hw validityInDays
  constructor
  · exact fun h => ⟨h.principals, h.distinct⟩
  · rintro ⟨hp, he⟩
    exact ⟨⟨hw.nonneg, hw.nonneg.trans hw.ordered⟩, horder, hbound, he, hp⟩

theorem issue_isOk_iff (hw : SteadyClock w) :
    (∃ cert, issue w ca certType kind name validityInDays principals extensions publicKey =
      .ok cert) ↔
        Issues w ca certType kind name validityInDays principals extensions publicKey := by
  constructor
  · rintro ⟨cert, h⟩
    obtain ⟨hi, signature, hs, -⟩ := issue_ok_iff.mp h
    exact ⟨hi.principals, hi.distinct, by rw [hs, Option.isSome_some]⟩
  · rintro ⟨hp, he, hs⟩
    obtain ⟨signature, hs⟩ := Option.isSome_iff_exists.mp hs
    exact ⟨_, issue_ok_iff.mpr ⟨(issuable_iff hw).mpr ⟨hp, he⟩, signature, hs, rfl⟩⟩

theorem issues_of_workingKey (hkey : WorkingKey ca) :
    Issues w ca certType kind name validityInDays principals extensions publicKey ↔
      principals ≠ [] ∧ extensions.Nodup :=
  ⟨fun h => ⟨h.principals, h.distinct⟩, fun h => ⟨h.1, h.2, hkey _⟩⟩

theorem signCertificate_of_defaults {user : String} {d : UserDefaults}
    (hd : readUserDefaults X w.fs user ca.config = .ok d) :
    signCertificate X w ca user publicKey =
      issue w ca .user "user" user d.validityInDays d.principals d.extensions publicKey := by
  rw [signCertificate, hd, Outcome.ok_bind]

theorem faithfullyIssued_issue (hw : SteadyClock w) (hkey : WorkingKey ca) :
    FaithfullyIssued certType principals extensions publicKey
      (issue w ca certType kind name validityInDays principals extensions publicKey) where
  issued_iff := (issue_isOk_iff hw).trans (issues_of_workingKey hkey)
  faithful _ h := faithful_of_issue h

theorem issue_ne_overflow (hw : SteadyClock w) :
    issue w ca certType kind name validityInDays principals extensions publicKey ≠
      .panic "attempt to add with overflow" := by
  have hclock : 0 ≤ w.clock 1 := hw.nonneg.trans hw.ordered
  obtain ⟨horder, hbound⟩ := validBefore_bounded hw validityInDays
  rw [issue_of_times w ca hw.nonneg hclock horder hbound]
  apply Outcome.bind_ne_panic (Outcome.ofExcept_ne_panic _ _)
  intro b _
  apply Outcome.bind_ne_panic (Outcome.ofExcept_ne_panic _ _)
  intro b _
  exact Outcome.ofExcept_ne_panic _ _

theorem lifetimeExact_iff (hw : SteadyClock w)
    (h : issue w ca certType kind name validityInDays principals extensions publicKey = .ok cert) :
    LifetimeExact kind name validityInDays cert ↔ w.clock 0 = w.clock 1 := by
  obtain ⟨-, signature, -, rfl⟩ := issue_ok_iff.mp h
  have hlife : validBefore w validityInDays - validAfter w = validityInDays.toNat * 86400 ↔
      w.clock 0 = w.clock 1 := by
    obtain ⟨h₀, hle, -⟩ := hw
    unfold validAfter validBefore
    omega
  exact ⟨fun hl => hlife.mp hl.lifetime, fun heq => ⟨hlife.mpr heq, rfl⟩⟩

theorem templatePath_ne_overflow (users : UserList) (user : String) (config : Ca) :
    templatePath users user config ≠ .panic "attempt to add with overflow" := by
  rw [templatePath]
  split
  · split
    · simp
    · split <;> simp
  · simp

theorem readUserDefaults_ne_overflow (X : Crates) (fs : FileSystem) (user : String) (config : Ca) :
    readUserDefaults X fs user config ≠ .panic "attempt to add with overflow" := by
  apply Outcome.bind_ne_panic (Outcome.ofExcept_ne_panic _ _)
  intro users _
  apply Outcome.bind_ne_panic (templatePath_ne_overflow users user config)
  intro path _
  apply Outcome.bind_ne_panic (Outcome.ofExcept_ne_panic _ _)
  intro text _
  split
  · simp
  · exact Outcome.ofExcept_ne_panic _ _

theorem signCertificate_ne_overflow (X : Crates) (hw : SteadyClock w) (user : String) :
    signCertificate X w ca user publicKey ≠ .panic "attempt to add with overflow" :=
  Outcome.bind_ne_panic (readUserDefaults_ne_overflow X w.fs user ca.config)
    fun _ _ => issue_ne_overflow hw

theorem signHostCertificate_ne_overflow (X : Crates) (hw : SteadyClock w) (hostName : String) :
    signHostCertificate X w ca hostName publicKey ≠ .panic "attempt to add with overflow" := by
  apply Outcome.bind_ne_panic (Outcome.ofExcept_ne_panic _ _)
  intro hostConfig _
  split
  · simp
  · split
    · split <;> simp
    · exact issue_ne_overflow hw

end CertificateAuthority

def weekDefaults : UserDefaults := ⟨7, ["alice"], ["permit-pty"]⟩

def weekFs : FileSystem where
  root := .dir [("etc".toList, .dir [("ssh_ca".toList, .dir
    [("users.toml".toList, .file (utf8 "[users]")),
      ("default.toml".toList, .file (utf8 "")),
      ("hosts".toList, .dir [("web.toml".toList, .file (utf8 webConfigText))])])])]
  cwd := []
  maxLinks := 40
  cwd_isDir := rfl
  cwd_proper := proper_nil

def weekWorld (seconds : Int) : World :=
  { bareWorld with fs := weekFs, clock := fun i => 1755000000 + seconds * i }

def weekCrates : Crates :=
  { webCrates with
    userListFromStr := fun _ => .ok ⟨[]⟩
    userDefaultsFromStr := fun _ => .ok weekDefaults
    render := fun _ t _ => .ok t }

theorem weekDefaults_read (seconds : Int) (user : String) :
    readUserDefaults weekCrates (weekWorld seconds).fs user localAuthority.config =
      .ok weekDefaults := by
  have husers : readToString weekFs localConfig.userListFile = .ok "[users]" :=
    readToString_of_read rfl
  have htemplate : readToString weekFs localConfig.defaultUserTemplate = .ok "" :=
    readToString_of_read rfl
  exact readUserDefaults_eq weekCrates (readTomlFile_of_text husers) rfl htemplate (by decide)

theorem webConfig_read (seconds : Int) :
    readHostConfig weekCrates (weekWorld seconds).fs "web" localAuthority.config =
      .ok webConfig := by
  have hsafe : ensurePathWithinDirectory weekFs (hostConfigPath "web" localConfig)
    localConfig.hostInventory = .ok "/etc/ssh_ca/hosts/web.toml".toList := rfl
  have hread : weekFs.read "/etc/ssh_ca/hosts/web.toml".toList = .ok (utf8 webConfigText) := rfl
  change readHostConfig weekCrates weekFs "web" localConfig = .ok webConfig
  rw [readHostConfig, hsafe]
  exact readTomlFile_of_read hread

theorem localAuthority_works : WorkingKey localAuthority := fun _ => rfl

theorem weekWorld_steady : SteadyClock (weekWorld 1) := ⟨by decide, by decide, by decide⟩

namespace CertificateAuthority

variable {w : World} {ca : CertificateAuthority}

theorem certificates_faithful (X : Crates) (hw : SteadyClock w) (hkey : WorkingKey ca)
    (publicKey : PublicKey) :
    (∀ user d, readUserDefaults X w.fs user ca.config = .ok d →
      FaithfullyIssued .user d.principals d.extensions publicKey
        (signCertificate X w ca user publicKey)) ∧
    ∀ hostName hostConfig configPubKey,
      readHostConfig X w.fs hostName ca.config = .ok hostConfig →
      X.fromOpenssh hostConfig.publicKey = .ok configPubKey →
      configPubKey.keyData = publicKey.keyData →
      FaithfullyIssued .host hostConfig.hostnames hostConfig.extensions publicKey
        (signHostCertificate X w ca hostName publicKey) := by
  refine ⟨fun user d hd => ?_, fun hostName hostConfig configPubKey hc hk hsame => ?_⟩
  · rw [signCertificate_of_defaults hd]
    exact faithfullyIssued_issue hw hkey
  · rw [signHostCertificate_of_match hc hk hsame]
    exact faithfullyIssued_issue hw hkey

theorem week_certificate_faithful :
    (∃ cert, signCertificate weekCrates (weekWorld 1) localAuthority "alice" ed25519Key =
      .ok cert ∧ Faithful .user ["alice"] ["permit-pty"] ed25519Key cert) ∧
    ∃ cert, signHostCertificate weekCrates (weekWorld 1) localAuthority "web" ed25519Key =
      .ok cert ∧ Faithful .host ["web"] [] ed25519Key cert := by
  obtain ⟨huser, hhost⟩ := certificates_faithful weekCrates weekWorld_steady
    localAuthority_works ed25519Key
  have hu := huser "alice" weekDefaults (weekDefaults_read 1 "alice")
  have hh := hhost "web" webConfig ed25519Key (webConfig_read 1) rfl rfl
  obtain ⟨userCert, hucert⟩ := hu.issued_iff.mpr ⟨by decide, by decide⟩
  obtain ⟨hostCert, hhcert⟩ := hh.issued_iff.mpr ⟨by decide, by decide⟩
  exact ⟨⟨userCert, hucert, hu.faithful userCert hucert⟩,
    hostCert, hhcert, hh.faithful hostCert hhcert⟩

theorem lifetimes_exact_iff (X : Crates) (hw : SteadyClock w) (publicKey : PublicKey) :
    (∀ user, UserLifetimes X w ca user publicKey ↔
      ∀ d, readUserDefaults X w.fs user ca.config = .ok d →
        Issues w ca .user "user" user d.validityInDays d.principals d.extensions publicKey →
        w.clock 0 = w.clock 1) ∧
    ∀ hostName, HostLifetimes X w ca hostName publicKey ↔
      ∀ hostConfig configPubKey, readHostConfig X w.fs hostName ca.config = .ok hostConfig →
        X.fromOpenssh hostConfig.publicKey = .ok configPubKey →
        configPubKey.keyData = publicKey.keyData →
        Issues w ca .host "host" hostName hostConfig.validityInDays hostConfig.hostnames
          hostConfig.extensions publicKey → w.clock 0 = w.clock 1 := by
  refine ⟨fun user => ⟨fun h d hd hissues => ?_, fun h => ?_⟩, fun hostName =>
    ⟨fun h hostConfig configPubKey hc hk hsame hissues => ?_, fun h => ?_⟩⟩
  · obtain ⟨cert, hcert⟩ := (issue_isOk_iff hw).mpr hissues
    obtain ⟨d', hd', hlife⟩ := h.kept cert ((signCertificate_of_defaults hd).trans hcert)
    obtain rfl : d = d' := Outcome.ok.inj (hd.symm.trans hd')
    exact (lifetimeExact_iff hw hcert).mp hlife
  · refine ⟨signCertificate_ne_overflow X hw user, fun cert hcert => ?_⟩
    obtain ⟨-, -, d, hd, -⟩ := signCertificate_eq_ok X w ca hcert
    rw [signCertificate_of_defaults hd] at hcert
    have heq := h d hd ((issue_isOk_iff hw).mp ⟨cert, hcert⟩)
    exact ⟨d, hd, (lifetimeExact_iff hw hcert).mpr heq⟩
  · obtain ⟨cert, hcert⟩ := (issue_isOk_iff hw).mpr hissues
    obtain ⟨c, hc', hlife⟩ := h.kept cert ((signHostCertificate_of_match hc hk hsame).trans hcert)
    obtain rfl : hostConfig = c := Except.ok.inj (hc.symm.trans hc')
    exact (lifetimeExact_iff hw hcert).mp hlife
  · refine ⟨signHostCertificate_ne_overflow X hw hostName, fun cert hcert => ?_⟩
    obtain ⟨-, -, hostConfig, configPubKey, hc, hk, hsame, -⟩ :=
      signHostCertificate_eq_ok X w ca hcert
    rw [signHostCertificate_of_match hc hk hsame] at hcert
    have heq := h hostConfig configPubKey hc hk hsame ((issue_isOk_iff hw).mp ⟨cert, hcert⟩)
    exact ⟨hostConfig, hc, (lifetimeExact_iff hw hcert).mpr heq⟩

theorem same_second_lifetimes :
    UserLifetimes weekCrates (weekWorld 0) localAuthority "alice" ed25519Key ∧
      HostLifetimes weekCrates (weekWorld 0) localAuthority "web" ed25519Key := by
  have hsteady : SteadyClock (weekWorld 0) := ⟨by decide, by decide, by decide⟩
  obtain ⟨huser, hhost⟩ := lifetimes_exact_iff weekCrates hsteady ed25519Key
  exact ⟨(huser "alice").mpr fun _ _ _ => rfl, (hhost "web").mpr fun _ _ _ _ _ _ => rfl⟩

-- The second boundary falls between the two readings.
theorem next_second_lifetimes :
    SteadyClock (weekWorld 1) ∧
      ¬ UserLifetimes weekCrates (weekWorld 1) localAuthority "alice" ed25519Key ∧
      ¬ HostLifetimes weekCrates (weekWorld 1) localAuthority "web" ed25519Key := by
  have hclock : (weekWorld 1).clock 0 ≠ (weekWorld 1).clock 1 := by decide
  refine ⟨weekWorld_steady, fun h => ?_, fun h => ?_⟩
  · have hissues : Issues (weekWorld 1) localAuthority .user "user" "alice" 7 ["alice"]
      ["permit-pty"] ed25519Key :=
        (issues_of_workingKey localAuthority_works).mpr ⟨by decide, by decide⟩
    obtain ⟨cert, hcert⟩ := (issue_isOk_iff weekWorld_steady).mpr hissues
    have hread := weekDefaults_read 1 "alice"
    obtain ⟨d, hd, hlife⟩ := h.kept cert ((signCertificate_of_defaults hread).trans hcert)
    obtain rfl : weekDefaults = d := Outcome.ok.inj (hread.symm.trans hd)
    exact hclock ((lifetimeExact_iff weekWorld_steady hcert).mp hlife)
  · have hissues : Issues (weekWorld 1) localAuthority .host "host" "web" 30 ["web"] []
      ed25519Key := (issues_of_workingKey localAuthority_works).mpr ⟨by decide, by decide⟩
    obtain ⟨cert, hcert⟩ := (issue_isOk_iff weekWorld_steady).mpr hissues
    have hread := webConfig_read 1
    obtain ⟨c, hc, hlife⟩ := h.kept cert ((signHostCertificate_of_match hread rfl rfl).trans hcert)
    obtain rfl : webConfig = c := Except.ok.inj (hread.symm.trans hc)
    exact hclock ((lifetimeExact_iff weekWorld_steady hcert).mp hlife)

end CertificateAuthority
end SshCertificateAuthority
