import SshCertificateAuthority.CertificatAuthority.CertificateContents
import SshCertificateAuthority.CertificatAuthority.InventorySearch
import SshCertificateAuthority.CertificatAuthority.Linearization

namespace SshCertificateAuthority
open ByteStream UnixPath FileTree Outcome Sequential

def ClockStops (w : World) (validityInDays : UInt16) : Prop :=
  w.clock 0 < 0 ∨ w.clock 1 < 0 ∨
    18446744073709551616 ≤ (w.clock 1).toNat + validityInDays.toNat * 86400

def Unwritten (X : Crates) (cert : Certificate) : Prop :=
  ∃ e, X.responseToString (.signedCertificate cert) = .error e

def Unserialisable (X : Crates) (o : Outcome Certificate) : Prop :=
  ∃ cert, o = .ok cert ∧ Unwritten X cert

inductive Fatal (X : Crates) (w : World) (ca : CertificateAuthority) : CaRequest → Prop where
  | userListParent {user : String} {publicKey : PublicKey} {users : UserList} {path : Path}
      (read : readTomlFile X.userListFromStr w.fs ca.config.userListFile = .ok users)
      (listed : users.users.lookup user = some path) (relative : hasRoot path = false)
      (orphan : parent ca.config.userListFile = none) :
      Fatal X w ca (.signCertificate user publicKey)
  | userClock {user : String} {publicKey : PublicKey} {d : UserDefaults}
      (read : readUserDefaults X w.fs user ca.config = .ok d)
      (clock : ClockStops w d.validityInDays) : Fatal X w ca (.signCertificate user publicKey)
  | userCertificate {user : String} {publicKey : PublicKey}
      (long : Unserialisable X (ca.signCertificate X w user publicKey)) :
      Fatal X w ca (.signCertificate user publicKey)
  | hostKeyText {hostName : String} {publicKey configPubKey : PublicKey} {hostConfig : HostConfig}
      (read : readHostConfig X w.fs hostName ca.config = .ok hostConfig)
      (parsed : X.fromOpenssh hostConfig.publicKey = .ok configPubKey)
      (differ : configPubKey.keyData ≠ publicKey.keyData)
      (unprintable : ∃ e, X.toOpenssh configPubKey = .error e ∨ X.toOpenssh publicKey = .error e) :
      Fatal X w ca (.signHostCertificate hostName publicKey)
  | hostClock {hostName : String} {publicKey configPubKey : PublicKey} {hostConfig : HostConfig}
      (read : readHostConfig X w.fs hostName ca.config = .ok hostConfig)
      (parsed : X.fromOpenssh hostConfig.publicKey = .ok configPubKey)
      (agree : configPubKey.keyData = publicKey.keyData)
      (clock : ClockStops w hostConfig.validityInDays) :
      Fatal X w ca (.signHostCertificate hostName publicKey)
  | hostCertificate {hostName : String} {publicKey : PublicKey}
      (long : Unserialisable X (ca.signHostCertificate X w hostName publicKey)) :
      Fatal X w ca (.signHostCertificate hostName publicKey)
  | inventoryText {publicKey searchKey : PublicKey} {text : String} {base : Location}
      (printed : X.toOpenssh publicKey = .ok text) (parsed : X.fromOpenssh text = .ok searchKey)
      (inventory : w.fs.canonicalize ca.config.hostInventory = .ok base)
      (stray : w.fs.isText (ofLocation base) = false) : Fatal X w ca (.checkPublicKey publicKey)
  | glob {publicKey searchKey : PublicKey} {text e : String} {base : Location}
      (printed : X.toOpenssh publicKey = .ok text) (parsed : X.fromOpenssh text = .ok searchKey)
      (inventory : w.fs.canonicalize ca.config.hostInventory = .ok base)
      (readable : w.fs.isText (ofLocation base) = true)
      (pattern : X.glob w.fs (inventoryPattern base) = .error e) :
      Fatal X w ca (.checkPublicKey publicKey)
  | fileStem {publicKey searchKey : PublicKey} {text : String} {base : Location}
      {paths : List (Except String Path)} {file : Path} {hostConfig : HostConfig}
      (printed : X.toOpenssh publicKey = .ok text) (parsed : X.fromOpenssh text = .ok searchKey)
      (inventory : w.fs.canonicalize ca.config.hostInventory = .ok base)
      (readable : w.fs.isText (ofLocation base) = true)
      (globbed : X.glob w.fs (inventoryPattern base) = .ok paths)
      (first : FirstHolder X w.fs base searchKey (flattenOk paths) file hostConfig)
      (stemless : ∀ stem, ¬ StemText w.fs file stem) :
      Fatal X w ca (.checkPublicKey publicKey)

-- As documented, what does not fit its 32-bit length prefix cannot be written.
theorem unwritten_iff {X : Crates} (hX : X.WritesJson) {cert : Certificate} :
    Unwritten X cert ↔ 4294967296 ≤ cert.body.length := by
  rw [Unwritten, hX.response]
  by_cases hlen : cert.body.length < 4294967296
  · simp [Json.response, Certificate.toOpenssh, opensshText, hlen, Except.map]
  · simp [Json.response, Certificate.toOpenssh, opensshText, hlen, Except.map,
      Nat.not_lt.mp hlen]

theorem World.now_panics {w : World} {i : Nat} : (w.now i).Panics ↔ w.clock i < 0 := by
  rw [now]
  split
  · next h => simp [h]
  · next h => simp [h]

theorem addU64_panics {a b : Nat} : (addU64 a b).Panics ↔ 18446744073709551616 ≤ a + b := by
  rw [addU64]
  split
  · next h => simp [h]
  · next h => simp [Nat.not_lt.mp h]

namespace CertificateAuthority

variable {X : Crates} {w : World} {ca : CertificateAuthority}

theorem issue_panics {certType : CertType} {kind name : String} {validityInDays : UInt16}
    {principals extensions : List String} {publicKey : PublicKey} :
    (issue w ca certType kind name validityInDays principals extensions publicKey).Panics ↔
      ClockStops w validityInDays := by
  by_cases h₀ : w.clock 0 < 0
  · have hnow : (w.now 0).Panics := World.now_panics.mpr h₀
    exact iff_of_true (panics_bind.mpr (Or.inl hnow)) (Or.inl h₀)
  by_cases h₁ : w.clock 1 < 0
  · have hnow : (w.now 1).Panics := World.now_panics.mpr h₁
    refine iff_of_true ?_ (Or.inr (Or.inl h₁))
    exact panics_bind.mpr (Or.inr ⟨_, now_of_nonneg w (Int.not_lt.mp h₀),
      panics_bind.mpr (Or.inl hnow)⟩)
  rw [issue, now_of_nonneg w (Int.not_lt.mp h₀), now_of_nonneg w (Int.not_lt.mp h₁)]
  simp only [ok_bind, panics_bind, addU64_panics, not_panics_ofExcept, and_false, exists_false,
    or_false]
  simp [ClockStops, h₀, h₁]

theorem templatePath_panics {users : UserList} {user : String} {config : Ca} :
    (templatePath users user config).Panics ↔ ∃ path, users.users.lookup user = some path ∧
      hasRoot path = false ∧ parent config.userListFile = none := by
  rw [templatePath]
  cases hl : users.users.lookup user with
  | none => simp
  | some path =>
    cases hr : hasRoot path with
    | true => simp [hr]
    | false =>
      cases hp : parent config.userListFile with
      | none => simp [hr]
      | some dir => simp [hr]

theorem readUserDefaults_panics {user : String} :
    (readUserDefaults X w.fs user ca.config).Panics ↔ ∃ users path,
      readTomlFile X.userListFromStr w.fs ca.config.userListFile = .ok users ∧
        users.users.lookup user = some path ∧ hasRoot path = false ∧
          parent ca.config.userListFile = none := by
  rw [readUserDefaults, panics_ofExcept_bind]
  refine exists_congr fun users => ?_
  rw [panics_bind, templatePath_panics]
  constructor
  · rintro ⟨hu, ⟨path, hpath⟩ | ⟨path, -, hlater⟩⟩
    · exact ⟨path, hu, hpath⟩
    · obtain ⟨text, -, htext⟩ := panics_ofExcept_bind.mp hlater
      split at htext
      · simp at htext
      · simp at htext
  · rintro ⟨path, hu, hpath⟩
    exact ⟨hu, Or.inl ⟨path, hpath⟩⟩

theorem signCertificate_panics {user : String} {publicKey : PublicKey} :
    (ca.signCertificate X w user publicKey).Panics ↔
      (readUserDefaults X w.fs user ca.config).Panics ∨
        ∃ d, readUserDefaults X w.fs user ca.config = .ok d ∧ ClockStops w d.validityInDays := by
  rw [signCertificate, panics_bind]
  simp only [issue_panics]

theorem signHostCertificate_panics {hostName : String} {publicKey : PublicKey} :
    (ca.signHostCertificate X w hostName publicKey).Panics ↔ ∃ hostConfig configPubKey,
      readHostConfig X w.fs hostName ca.config = .ok hostConfig ∧
        X.fromOpenssh hostConfig.publicKey = .ok configPubKey ∧
          ((configPubKey.keyData ≠ publicKey.keyData ∧
              ∃ e, X.toOpenssh configPubKey = .error e ∨ X.toOpenssh publicKey = .error e) ∨
            configPubKey.keyData = publicKey.keyData ∧ ClockStops w hostConfig.validityInDays) := by
  rw [signHostCertificate, panics_ofExcept_bind]
  refine exists_congr fun hostConfig => ?_
  cases hk : X.fromOpenssh hostConfig.publicKey with
  | error e => simp
  | ok key =>
    by_cases hsame : key.keyData = publicKey.keyData
    · simp [hsame, issue_panics]
    · cases hconf : X.toOpenssh key with
      | error e => simp [hsame, hconf]
      | ok text => cases hpub : X.toOpenssh publicKey <;> simp [hsame, hconf]

theorem stemOf_panics {fs : FileSystem} {file : Path} {hostConfig : HostConfig} :
    (stemOf fs file hostConfig).Panics ↔ ∀ stem, ¬ StemText fs file stem := by
  rw [stemOf]
  cases hstem : fileStem file with
  | none => simp [StemText, hstem]
  | some stem =>
    by_cases htext : fs.isText stem = true
    · simp [StemText, hstem, toStr_of_text htext, htext]
    · simp [StemText, hstem, toStr_eq_none.mpr (by simpa using htext), htext]

theorem searchFiles_panics {fs : FileSystem} {base : Location} {key : PublicKey}
    (hbase : ∀ n ∈ base, ProperName n) {files : List Path} :
    (searchFiles X fs base key files).result.Panics ↔ ∃ file hostConfig,
      FirstHolder X fs base key files file hostConfig ∧ ∀ stem, ¬ StemText fs file stem := by
  induction files with
  | nil =>
    constructor
    · intro h
      simp [searchFiles] at h
    · rintro ⟨file, hostConfig, ⟨-, earlier, later, hsplit, -⟩, -⟩
      simp at hsplit
  | cons f files ih =>
    simp only [firstHolder_cons]
    by_cases hf : ∃ c, visit X fs base key f = .found c
    · obtain ⟨c, hc⟩ := hf
      have hholds := (visit_found_iff hbase).mp hc
      rw [searchFiles_found hc, stemOf_panics]
      constructor
      · exact fun hstem => ⟨f, c, Or.inl ⟨rfl, hholds⟩, hstem⟩
      · rintro ⟨file, hostConfig, ⟨rfl, -⟩ | ⟨hno, -⟩, hstem⟩
        · exact hstem
        · exact (hno c hholds).elim
    · have hno : ∀ c, ¬ HoldsKey X fs base key f c := fun c hh =>
        hf ⟨c, (visit_found_iff hbase).mpr hh⟩
      rw [searchFiles_passed fun c hc => hf ⟨c, hc⟩, ih]
      constructor
      · rintro ⟨file, hostConfig, hfirst, hstem⟩
        exact ⟨file, hostConfig, Or.inr ⟨hno, hfirst⟩, hstem⟩
      · rintro ⟨file, hostConfig, ⟨rfl, hh⟩ | ⟨-, hfirst⟩, hstem⟩
        · exact (hno hostConfig hh).elim
        · exact ⟨file, hostConfig, hfirst, hstem⟩

theorem checkPublicKey_panics {text : String} :
    (ca.checkPublicKey X w text).Panics ↔ ∃ key base, X.fromOpenssh text = .ok key ∧
      w.fs.canonicalize ca.config.hostInventory = .ok base ∧
        (w.fs.isText (ofLocation base) = false ∨ w.fs.isText (ofLocation base) = true ∧
          ((∃ e, X.glob w.fs (inventoryPattern base) = .error e) ∨
            ∃ paths file hostConfig, X.glob w.fs (inventoryPattern base) = .ok paths ∧
              FirstHolder X w.fs base key (flattenOk paths) file hostConfig ∧
                ∀ stem, ¬ StemText w.fs file stem)) := by
  have hbind : (ca.checkPublicKey X w text).Panics ↔
      (findConfigByPublicKey X w.fs text ca.config).result.Panics := by
    rw [checkPublicKey, panics_bind]
    simp
  rw [hbind, findConfigByPublicKey]
  cases hk : X.fromOpenssh text with
  | error e => simp
  | ok key =>
    cases hb : w.fs.canonicalize ca.config.hostInventory with
    | error e => simp
    | ok base =>
      by_cases htext : w.fs.isText (ofLocation base) = true
      · cases hg : X.glob w.fs (inventoryPattern base) with
        | error e => simp [toStr_of_text htext, htext, hg]
        | ok paths =>
          have hproper := (w.fs.canonicalize_real hb).proper
          simp [toStr_of_text htext, htext, hg, searchFiles_panics hproper]
      · have hstray : w.fs.isText (ofLocation base) = false := by simpa using htext
        simp [toStr_eq_none.mpr hstray, hstray]

end CertificateAuthority

namespace CaServer

variable {X : Crates} {w : World} {s : CaServer}

def Stops (X : Crates) (w : World) (s : CaServer) (q : CaRequest) : Prop :=
  (s.handleRequest X w q).Panics ∨
    ∃ cert, s.handleRequest X w q = .ok (.signedCertificate cert) ∧ Unwritten X cert

theorem signed_stops {o : Outcome Certificate} {r : Outcome CaResponse}
    (h : r = o >>= fun cert => pure (.signedCertificate cert)) :
    (r.Panics ∨ ∃ cert, r = .ok (.signedCertificate cert) ∧ Unwritten X cert) ↔
      o.Panics ∨ Unserialisable X o := by
  subst h
  rw [panics_bind]
  cases o with
  | ok cert => simp [Unserialisable]
  | err e => simp [Unserialisable]
  | panic site => simp

theorem stops_iff_fatal (q : CaRequest) : s.Stops X w q ↔ Fatal X w s.ca q := by
  cases q with
  | signCertificate user publicKey =>
    have hsigned : s.Stops X w (.signCertificate user publicKey) ↔
        (s.ca.signCertificate X w user publicKey).Panics ∨
          Unserialisable X (s.ca.signCertificate X w user publicKey) := signed_stops rfl
    rw [hsigned, CertificateAuthority.signCertificate_panics,
      CertificateAuthority.readUserDefaults_panics]
    constructor
    · rintro ((⟨users, path, hu, hl, hr, hp⟩ | ⟨d, hd, hclock⟩) | hlong)
      · exact .userListParent hu hl hr hp
      · exact .userClock hd hclock
      · exact .userCertificate hlong
    · rintro (⟨hu, hl, hr, hp⟩ | ⟨hd, hclock⟩ | hlong)
      · exact Or.inl (Or.inl ⟨_, _, hu, hl, hr, hp⟩)
      · exact Or.inl (Or.inr ⟨_, hd, hclock⟩)
      · exact Or.inr hlong
  | signHostCertificate hostName publicKey =>
    have hsigned : s.Stops X w (.signHostCertificate hostName publicKey) ↔
        (s.ca.signHostCertificate X w hostName publicKey).Panics ∨
          Unserialisable X (s.ca.signHostCertificate X w hostName publicKey) := signed_stops rfl
    rw [hsigned, CertificateAuthority.signHostCertificate_panics]
    constructor
    · rintro (⟨c, k, hc, hk, ⟨hne, he⟩ | ⟨hsame, hclock⟩⟩ | hlong)
      · exact .hostKeyText hc hk hne he
      · exact .hostClock hc hk hsame hclock
      · exact .hostCertificate hlong
    · intro h
      cases h with
      | hostKeyText hc hk hne he => exact Or.inl ⟨_, _, hc, hk, Or.inl ⟨hne, he⟩⟩
      | hostClock hc hk hsame hclock => exact Or.inl ⟨_, _, hc, hk, Or.inr ⟨hsame, hclock⟩⟩
      | hostCertificate hlong => exact Or.inr hlong
  | checkPublicKey publicKey =>
    have hpanic : s.Stops X w (.checkPublicKey publicKey) ↔
        ∃ text, X.toOpenssh publicKey = .ok text ∧ (s.ca.checkPublicKey X w text).Panics := by
      rw [Stops, handleRequest]
      cases hp : X.toOpenssh publicKey with
      | error e => simp
      | ok text =>
        dsimp only
        rw [panics_bind]
        cases hc : s.ca.checkPublicKey X w text <;> simp [hc]
    rw [hpanic]
    simp only [CertificateAuthority.checkPublicKey_panics]
    constructor
    · rintro ⟨text, ht, key, base, hk, hb, hstray | ⟨hread, ⟨e, he⟩ | ⟨paths, file, c, hg, hfirst,
        hstem⟩⟩⟩
      · exact .inventoryText ht hk hb hstray
      · exact .glob ht hk hb hread he
      · exact .fileStem ht hk hb hread hg hfirst hstem
    · intro h
      cases h with
      | inventoryText ht hk hb hstray => exact ⟨_, ht, _, _, hk, hb, Or.inl hstray⟩
      | glob ht hk hb hread he =>
        exact ⟨_, ht, _, _, hk, hb, Or.inr ⟨hread, Or.inl ⟨_, he⟩⟩⟩
      | fileStem ht hk hb hread hg hfirst hstem =>
        exact ⟨_, ht, _, _, hk, hb, Or.inr ⟨hread, Or.inr ⟨_, _, _, hg, hfirst, hstem⟩⟩⟩

theorem response_unprintable {r : CaResponse} : (∀ json, X.responseToString r ≠ .ok json) ↔
    ∃ cert, r = .signedCertificate cert ∧ Unwritten X cert := by
  constructor
  · intro h
    by_cases hplain : ∀ cert, r ≠ .signedCertificate cert
    · obtain ⟨json, hjson⟩ := X.plain_written r hplain
      exact absurd hjson (h json)
    · obtain ⟨cert, hcert⟩ := not_forall.mp hplain
      obtain rfl := not_not.mp hcert
      refine ⟨cert, rfl, ?_⟩
      cases hwritten : X.responseToString (.signedCertificate cert) with
      | error e => exact ⟨e, hwritten⟩
      | ok json => exact absurd hwritten (h json)
  · rintro ⟨cert, rfl, e, he⟩ json hjson
    simp [he] at hjson

theorem respond_isOk {r : CaResponse} :
    (∃ written, respond X (some r) = .ok written) ↔ ∃ json, X.responseToString r = .ok json := by
  rw [respond]
  cases X.responseToString r with
  | error e => simp [Except.map, Outcome.ofExcept]
  | ok json => simp [Except.map, Outcome.ofExcept]

theorem accept_isOk {c : Connection} : (∃ r, s.accept X w c = .ok r) ↔
    ∃ resp written, answer X w (s.noted (s.receive X c)) (s.receive X c) = .ok resp ∧
      respond X resp = .ok written := by
  constructor
  · rintro ⟨r, h⟩
    obtain ⟨resp, hresp, h⟩ := Outcome.bind_eq_ok h
    obtain ⟨written, hwritten, -⟩ := Outcome.bind_eq_ok h
    exact ⟨resp, written, hresp, hwritten⟩
  · rintro ⟨resp, written, hresp, hwritten⟩
    refine ⟨(s.noted (s.receive X c), written), ?_⟩
    rw [accept, hresp, ok_bind, hwritten, ok_bind]
    rfl

theorem accept_isOk_iff {c : Connection} : (∃ r, s.accept X w c = .ok r) ↔
    ∀ q, s.receive X c = .dispatched q → ¬ Fatal X w s.ca q.request := by
  rw [accept_isOk]
  cases hr : s.receive X c with
  | dropped => exact iff_of_true ⟨none, [], rfl, rfl⟩ (by simp)
  | refused r =>
    obtain ⟨e, rfl⟩ := receive_refused X hr
    obtain ⟨written, hwritten⟩ := respond_error X e
    exact iff_of_true ⟨_, written, rfl, hwritten⟩ (by simp)
  | dispatched q =>
    have hstops : (s.noted (.dispatched q)).Stops X w q.request ↔ Fatal X w s.ca q.request :=
      stops_iff_fatal q.request
    simp only [Received.dispatched.injEq, forall_eq', ← hstops, answer]
    cases hq : (s.noted (.dispatched q)).handleRequest X w q.request with
    | panic site => simp [Stops, hq]
    | err e =>
      obtain ⟨written, hwritten⟩ := respond_error X e
      exact iff_of_true ⟨_, written, rfl, hwritten⟩ (by simp [Stops, hq])
    | ok r =>
      have hunprintable := response_unprintable (X := X) (r := r)
      rw [← not_exists] at hunprintable
      simp only [ok.injEq, exists_eq_left', respond_isOk, Stops, hq, not_panics_ok, false_or,
        exists_and_left]
      rw [← not_iff_not, hunprintable, not_not]

def receipts (X : Crates) (s : CaServer) : List (World × Peer) → List (World × Received)
  | [] => []
  | (w, p) :: peers =>
    (w, s.receive X p.connection) :: receipts X (s.noted (s.receive X p.connection)) peers

theorem attend_eq_ok {p : Peer} {r : CaServer × Bytes} :
    s.attend X (w, p) = .ok r ↔ s.blockedBy p = false ∧ s.accept X w p.connection = .ok r := by
  rw [attend]
  dsimp only
  split
  · next h => simp [h]
  · next h => simpa using fun _ => by simpa using h

end CaServer

end SshCertificateAuthority
