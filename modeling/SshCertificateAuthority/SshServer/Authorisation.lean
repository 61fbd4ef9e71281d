import SshCertificateAuthority.SshServer.SessionPanics

namespace SshCertificateAuthority
open ByteStream Coroutine

section

variable (X : Crates) (ca : CertificateAuthority)

structure UserIssued (w : World) (user : String) (key : KeyData) (cert : Certificate) : Prop where
  certType : cert.certType = .user
  subject : cert.publicKey = key
  principals : ∃ d, readUserDefaults X w.fs user ca.config = .ok d ∧
    cert.validPrincipals = d.principals

structure HostIssued (w : World) (hostName : String) (key : KeyData) (cert : Certificate) :
    Prop where
  certType : cert.certType = .host
  subject : cert.publicKey = key
  principals : ∃ hostConfig k, readHostConfig X w.fs hostName ca.config = .ok hostConfig ∧
    X.fromOpenssh hostConfig.publicKey = .ok k ∧ k.keyData = key ∧
    cert.validPrincipals = hostConfig.hostnames

def HostFound (w : World) (hostName : String) (key : KeyData) : Prop :=
  ∃ (k : PublicKey) (text : String), k.keyData = key ∧ X.toOpenssh k = .ok text ∧
    ca.checkPublicKey X w text = .ok (some hostName)

-- `W j` holds the world in which the call of the session's `j`-th callback was served.
variable (W : Nat → Set World)

def FoundAtLogin (log : List (Callback × Reply)) (user : String) (key : PublicKey)
    (hostName : String) : Prop :=
  ∃ j reply, log[j]? = some (.authPublickey user key, reply) ∧
    reply.result = .ok (some .accept) ∧ ∃ w ∈ W j, HostFound X ca w hostName key.keyData

def AuthorisedLogin (server : SshCaServer) (handler : ConnectionHandler)
    (log : List (Callback × Reply)) : Option (Callback × World) → Prop
  | none => handler = .new
  | some (.authPassword user password, w) =>
    handler = ⟨some user, some .password, none⟩ ∧ validateUsername user = true ∧
      ∃ a ∈ server.userAuthenticators, a w user password = .ok true
  | some (.authPublickey user key, _) =>
    ∃ hostName, handler = ⟨some hostName, some .publicKey, some key⟩ ∧
      Parsed X key.keyData ∧ FoundAtLogin X ca W log user key hostName
  | _ => False

def Authorised (server : SshCaServer) (cert : Certificate) (log : List (Callback × Reply))
    (j : Nat) : Option (Callback × World) → Callback → Prop
  | some (.authPassword user password, w), .data _ payload =>
    validateUsername user = true ∧ (∃ a ∈ server.userAuthenticators, a w user password = .ok true) ∧
      ∃ key, X.fromOpenssh (Text.fromUtf8Lossy payload) = .ok key ∧
        ∃ w' ∈ W j, UserIssued X ca w' user key.keyData cert
  | some (.authPublickey user key, _), .execRequest _ _ =>
    ∃ hostName, FoundAtLogin X ca W log user key hostName ∧ validateHostname hostName = .ok () ∧
      ∃ w' ∈ W j, HostIssued X ca w' hostName key.keyData cert
  | _, _ => False

end

section

variable {X : Crates} {ca : CertificateAuthority} {U : Set World} {W : Nat → Set World}

theorem exchange_content (hk : KeepsKind X) (hc : KeepsContent X) {q : CaRequest} {a : CaResponse}
    (h : Exchange X ca U q a) (hp : Parsed X q.publicKey.keyData) (ha : ∀ e, a ≠ .error e) :
    ∃ q' r w, w ∈ U ∧ q.Denotes q' ∧ (∃ server : CaServer, server.ca = ca ∧
      server.handleRequest X w q' = .ok r) ∧
      ((∀ c, r = .signedCertificate c → Parsed X c.publicKey) → r.Denotes a) := by
  obtain ⟨r, json, text, hr, hjson, hfront, hparse⟩ := h
  have hkind := hk.response r json text a hjson hfront hparse
  rcases hr with ⟨e, rfl⟩ | ⟨asked, qjson, qtext, received, rfl, hq, hqprefix, hqparse, server, w,
    hw, hca, hhandle⟩
  · cases a with
    | error e' => exact absurd rfl (ha e')
    | signedCertificate cert => simp [CaResponse.kind] at hkind
    | keyFound host => simp [CaResponse.kind] at hkind
  · exact ⟨received.request, r, w, hw, hc.request asked qjson qtext received hp hq hqprefix hqparse,
      ⟨server, hca, hhandle⟩, fun hparsed => hc.response r json text a hparsed hjson hfront hparse⟩

theorem exchange_user (hk : KeepsKind X) (hc : KeepsContent X) {user : String} {key : PublicKey}
    {cert : Certificate} (hp : Parsed X key.keyData)
    (h : Exchange X ca U (.signCertificate user key) (.signedCertificate cert)) :
    ∃ w ∈ U, UserIssued X ca w user key.keyData cert := by
  obtain ⟨q', r, w, hw, hq, ⟨server, rfl, hhandle⟩, hr⟩ := exchange_content hk hc h hp (by simp)
  cases q' with
  | signCertificate user' key' =>
    obtain ⟨rfl, hkey⟩ := hq
    obtain ⟨c, hsign, hok⟩ := Outcome.bind_eq_ok hhandle
    obtain rfl := Outcome.ok.inj hok
    obtain ⟨htype, hsubject, d, hd, hprincipals⟩ :=
      CertificateAuthority.signCertificate_eq_ok X w server.ca hsign
    rw [hkey] at hsubject
    obtain ⟨ht, hs, hv⟩ := hr fun c' hc' => by
      obtain rfl : c = c' := by simpa using hc'
      exact hsubject ▸ hp
    exact ⟨w, hw, ht.trans htype, hs.trans hsubject, d, hd, hv.trans hprincipals⟩
  | checkPublicKey key' => exact hq.elim
  | signHostCertificate hostName key' => exact hq.elim

theorem exchange_host (hk : KeepsKind X) (hc : KeepsContent X) {hostName : String}
    {key : PublicKey} {cert : Certificate} (hp : Parsed X key.keyData)
    (h : Exchange X ca U (.signHostCertificate hostName key) (.signedCertificate cert)) :
    ∃ w ∈ U, HostIssued X ca w hostName key.keyData cert := by
  obtain ⟨q', r, w, hw, hq, ⟨server, rfl, hhandle⟩, hr⟩ := exchange_content hk hc h hp (by simp)
  cases q' with
  | signHostCertificate hostName' key' =>
    obtain ⟨rfl, hkey⟩ := hq
    obtain ⟨c, hsign, hok⟩ := Outcome.bind_eq_ok hhandle
    obtain rfl := Outcome.ok.inj hok
    obtain ⟨htype, hsubject, hostConfig, k, hread, hparse, hsame, hprincipals⟩ :=
      CertificateAuthority.signHostCertificate_eq_ok X w server.ca hsign
    rw [hkey] at hsubject hsame
    obtain ⟨ht, hs, hv⟩ := hr fun c' hc' => by
      obtain rfl : c = c' := by simpa using hc'
      exact hsubject ▸ hp
    exact ⟨w, hw, ht.trans htype, hs.trans hsubject, hostConfig, k, hread, hparse, hsame,
      hv.trans hprincipals⟩
  | checkPublicKey key' => exact hq.elim
  | signCertificate user key' => exact hq.elim

theorem exchange_found (hk : KeepsKind X) (hc : KeepsContent X) {hostName : String}
    {key : PublicKey} (hp : Parsed X key.keyData)
    (h : Exchange X ca U (.checkPublicKey key) (.keyFound (some hostName))) :
    ∃ w ∈ U, HostFound X ca w hostName key.keyData := by
  obtain ⟨q', r, w, hw, hq, ⟨server, rfl, hhandle⟩, hr⟩ := exchange_content hk hc h hp (by simp)
  cases q' with
  | checkPublicKey key' =>
    unfold CaServer.handleRequest at hhandle
    dsimp only at hhandle
    split at hhandle
    · obtain rfl := Outcome.ok.inj hhandle
      exact absurd (hr (by simp)) (by simp [CaResponse.Denotes])
    · next text htext =>
      obtain ⟨found, hfound, hok⟩ := Outcome.bind_eq_ok hhandle
      obtain rfl := Outcome.ok.inj hok
      obtain rfl : some hostName = found := hr (by simp)
      exact ⟨w, hw, key', text, hq, htext, hfound⟩
  | signHostCertificate hostName key' => exact hq.elim
  | signCertificate user key' => exact hq.elim

structure Sanctioned (X : Crates) (ca : CertificateAuthority) (W : Nat → Set World)
    (server : SshCaServer) (st : SessionState) : Prop where
  login : AuthorisedLogin X ca W server st.handler st.log st.login
  log : ∀ j cb reply, st.log[j]? = some (cb, reply) →
    ∀ channel text, .data channel text ∈ reply.output →
      ∃ cert, X.certificateToOpenssh cert = .ok text ∧
        Authorised X ca W server cert st.log j st.login cb

theorem foundAtLogin_append {log : List (Callback × Reply)} {user hostName : String}
    {key : PublicKey} (h : FoundAtLogin X ca W log user key hostName) (e : Callback × Reply) :
    FoundAtLogin X ca W (log ++ [e]) user key hostName := by
  obtain ⟨j, reply, hj, hrest⟩ := h
  refine ⟨j, reply, ?_, hrest⟩
  rw [List.getElem?_append_left (List.getElem?_eq_some_iff.mp hj).1]
  exact hj

theorem authorisedLogin_append {server : SshCaServer} {handler : ConnectionHandler}
    {log : List (Callback × Reply)} {login : Option (Callback × World)}
    (h : AuthorisedLogin X ca W server handler log login) (e : Callback × Reply) :
    AuthorisedLogin X ca W server handler (log ++ [e]) login := by
  unfold AuthorisedLogin at h ⊢
  split at h
  · exact h
  · exact h
  · obtain ⟨hostName, hh, hp, hfound⟩ := h
    exact ⟨hostName, hh, hp, foundAtLogin_append hfound e⟩
  · exact h.elim

theorem authorised_append {server : SshCaServer} {cert : Certificate}
    {log : List (Callback × Reply)} {j : Nat} {login : Option (Callback × World)} {cb : Callback}
    (h : Authorised X ca W server cert log j login cb) (e : Callback × Reply) :
    Authorised X ca W server cert (log ++ [e]) j login cb := by
  unfold Authorised at h ⊢
  split at h
  · exact h
  · obtain ⟨hostName, hfound, hrest⟩ := h
    exact ⟨hostName, foundAtLogin_append hfound e, hrest⟩
  · exact h.elim

theorem log_concat_cases {log : List (Callback × Reply)} {e e' : Callback × Reply} {j : Nat}
    (h : (log ++ [e])[j]? = some e') : log[j]? = some e' ∨ j = log.length ∧ e' = e := by
  rcases Nat.lt_trichotomy j log.length with hj | hj | hj
  · rw [List.getElem?_append_left hj] at h
    exact Or.inl h
  · rw [hj, List.getElem?_concat_length] at h
    exact Or.inr ⟨hj, (Option.some.inj h).symm⟩
  · rw [List.getElem?_eq_none (by simp; omega)] at h
    simp at h

theorem sanctioned_kept {server : SshCaServer} {st : SessionState} {cb : Callback} {w : World}
    {reply : Reply} (hi : Sanctioned X ca W server st) (hh : reply.handler = st.handler)
    (hr : reply.result ≠ .ok (some .accept))
    (hout : ∀ channel text, .data channel text ∈ reply.output →
      ∃ cert, X.certificateToOpenssh cert = .ok text ∧
        Authorised X ca W server cert st.log st.log.length st.login cb) :
    Sanctioned X ca W server (st.finish cb w reply) := by
  have hlogin := finish_login_unchanged st cb w hr
  constructor
  · rw [hlogin]
    simp only [SessionState.finish, hh]
    exact authorisedLogin_append hi.login _
  · rw [hlogin]
    intro j cb' reply' hj channel text hdata
    rcases log_concat_cases hj with hj | ⟨rfl, he⟩
    · obtain ⟨cert, hcert, hauth⟩ := hi.log j cb' reply' hj channel text hdata
      exact ⟨cert, hcert, authorised_append hauth _⟩
    · obtain ⟨rfl, rfl⟩ := Prod.mk.inj he
      obtain ⟨cert, hcert, hauth⟩ := hout channel text hdata
      exact ⟨cert, hcert, authorised_append hauth _⟩

theorem sanctioned_accepted {server : SshCaServer} {st : SessionState} {cb : Callback} {w : World}
    {reply : Reply} (hi : Sanctioned X ca W server st) (hnone : st.login = none)
    (hr : reply.result = .ok (some .accept)) (hout : reply.output = [])
    (hlogin : AuthorisedLogin X ca W server reply.handler (st.log ++ [(cb, reply)])
      (some (cb, w))) : Sanctioned X ca W server (st.finish cb w reply) := by
  have hnew : (st.finish cb w reply).login = some (cb, w) := by
    simp only [SessionState.finish, hr]
  constructor
  · rw [hnew]
    exact hlogin
  · intro j cb' reply' hj channel text hdata
    rcases log_concat_cases hj with hj | ⟨-, he⟩
    · obtain ⟨cert, -, hfalse⟩ := hi.log j cb' reply' hj channel text hdata
      rw [hnone] at hfalse
      exact hfalse.elim
    · obtain ⟨-, rfl⟩ := Prod.mk.inj he
      simp [hout] at hdata

def KeysDelivered (X : Crates) (cb : Callback) (_ : World) : Prop :=
  ∀ user key, cb = .authPublickey user key → Parsed X key.keyData

theorem authPassword_sanctioned {server : SshCaServer} {st : SessionState} {user password : String}
    {w : World} (hi : Sanctioned X ca W server st) (hnone : st.login = none)
    (htest : server.testAuth = false) :
    Sanctioned X ca W server (st.finish (.authPassword user password) w
      (st.handler.authPassword server w user password)) := by
  obtain ⟨hout, ⟨hh, hr⟩ | ⟨hh, hr, hvalid, hpass⟩⟩ :=
    st.handler.authPassword_reply server w user password
  · exact sanctioned_kept hi hh hr (by simp [hout])
  · have hnew : st.handler = .new := by
      have := hi.login
      rwa [hnone] at this
    refine sanctioned_accepted hi hnone hr hout ⟨?_, hvalid, hpass.resolve_left (by simp [htest])⟩
    rw [hh, hnew]
    rfl

theorem authPublickey_sanctioned {server : SshCaServer} {st : SessionState} {user : String}
    {key : PublicKey} {w : World} (hk : KeepsKind X) (hc : KeepsContent X)
    (hi : Sanctioned X ca W server st) (hnone : st.login = none) (hp : Parsed X key.keyData) :
    SessionSafe X ca (W st.log.length) keyTextPanic (Sanctioned X ca W server) st
      (.authPublickey user key) w (st.handler.authPublickey X key) := by
  apply safe_mono (authPublickey_safe st.handler key hk)
  rintro reply (rfl | ⟨text, key', hostName, htext, hkey, hex, rfl⟩)
  · exact sanctioned_kept hi rfl (by simp [ConnectionHandler.keyReply]) (by
      simp [ConnectionHandler.keyReply])
  · have hsame := hc.keyText key text key' hp htext hkey
    have hfound := exchange_found hk hc ⟨text, key', hkey, rfl⟩ hex
    rw [hsame] at hfound
    exact sanctioned_accepted hi hnone rfl rfl ⟨hostName, rfl, hp, st.log.length, _,
      List.getElem?_concat_length, rfl, hfound⟩

theorem data_sanctioned {server : SshCaServer} {st : SessionState} {channel : Nat} {data : Bytes}
    {w : World} (hk : KeepsKind X) (hc : KeepsContent X) (hi : Sanctioned X ca W server st)
    (hsome : st.login.isSome) :
    SessionSafe X ca (W st.log.length) keyTextPanic (Sanctioned X ca W server) st
      (.data channel data) w (st.handler.callback X server w (.data channel data)) := by
  obtain ⟨⟨cb, w₀⟩, hlogin⟩ := Option.isSome_iff_exists.mp hsome
  have hauth := hi.login
  rw [hlogin] at hauth
  cases cb with
  | authPassword user password =>
    obtain ⟨hh, hvalid, hpass⟩ := hauth
    apply safe_mono (data_safe server w channel data hk (by rw [hh]))
    rintro reply ⟨hsame, hresult, hout⟩
    apply sanctioned_kept hi hsame hresult
    intro channel text hmem
    obtain ⟨-, key, hkey, hdel⟩ := hout channel text hmem
    obtain ⟨cert, hcert, hex⟩ := hdel channel text hmem
    rw [hlogin]
    exact ⟨cert, hcert, hvalid, hpass, key, hkey, exchange_user hk hc ⟨_, key, hkey, rfl⟩ hex⟩
  | authPublickey user key =>
    obtain ⟨hostName, hh, -, -⟩ := hauth
    apply safe_mono (data_safe server w channel data hk (by rw [hh]))
    rintro reply ⟨hsame, hresult, hout⟩
    apply sanctioned_kept hi hsame hresult
    intro channel text hmem
    obtain ⟨hmethod, -⟩ := hout channel text hmem
    exact absurd (by rw [hh]) hmethod
  | channelOpenSession channel => exact hauth.elim
  | data channel data => exact hauth.elim
  | execRequest channel data => exact hauth.elim

theorem execRequest_sanctioned {server : SshCaServer} {st : SessionState} {channel : Nat}
    {data : Bytes} {w : World} (hk : KeepsKind X) (hc : KeepsContent X)
    (hi : Sanctioned X ca W server st) (hsome : st.login.isSome) :
    SessionSafe X ca (W st.log.length) keyTextPanic (Sanctioned X ca W server) st
      (.execRequest channel data) w (st.handler.execRequest X channel data) := by
  obtain ⟨⟨cb, w₀⟩, hlogin⟩ := Option.isSome_iff_exists.mp hsome
  have hauth := hi.login
  rw [hlogin] at hauth
  apply safe_mono (execRequest_safe channel data hk)
  rintro reply ⟨hsame, hresult, hout⟩
  apply sanctioned_kept hi hsame hresult
  intro channel text hmem
  obtain ⟨publicKey, pubKey, hostName, key, hpk, huser, htext, hvalid, hkey, hdel⟩ :=
    hout channel text hmem
  cases cb with
  | authPassword user password =>
    rw [hauth.1] at hpk
    simp at hpk
  | authPublickey user key₀ =>
    obtain ⟨hostName', hh, hp, hfound⟩ := hauth
    obtain rfl : key₀ = publicKey := by simpa [hh] using hpk
    obtain rfl : hostName' = hostName := by simpa [hh] using huser
    obtain ⟨cert, hcert, hex⟩ := hdel channel text hmem
    have hissued := exchange_host hk hc ⟨pubKey, key, hkey, rfl⟩ hex
    rw [hc.keyText key₀ pubKey key hp htext hkey] at hissued
    rw [hlogin]
    exact ⟨cert, hcert, hostName', hfound, hvalid, hissued⟩
  | channelOpenSession channel => exact hauth.elim
  | data channel data => exact hauth.elim
  | execRequest channel data => exact hauth.elim

theorem callback_sanctioned {server : SshCaServer} (hk : KeepsKind X) (hc : KeepsContent X)
    (htest : server.testAuth = false) {st : SessionState} {cb : Callback} {w : World}
    (hi : Sanctioned X ca W server st) (hd : KeysDelivered X cb w) (hallow : st.deliverable cb) :
    SessionSafe X ca (W st.log.length) keyTextPanic (Sanctioned X ca W server) st cb w
      (st.handler.callback X server w cb) := by
  cases cb with
  | authPassword user password =>
    exact authPassword_sanctioned hi (Option.isNone_iff_eq_none.mp hallow) htest
  | authPublickey user key =>
    exact authPublickey_sanctioned hk hc hi (Option.isNone_iff_eq_none.mp hallow)
      (hd user key rfl)
  | channelOpenSession channel => exact sanctioned_kept hi rfl (by simp) (by simp)
  | data channel data => exact data_sanctioned hk hc hi hallow
  | execRequest channel data => exact execRequest_sanctioned hk hc hi hallow

end

theorem sanctioned_run {X : Crates} (hk : KeepsKind X) (hc : KeepsContent X)
    {server : SshCaServer} (htest : server.testAuth = false) {socketPath token : String}
    {ca : CertificateAuthority} {uid : Nat} {labels : List ServiceStep} {s : Service}
    (hkeys : ∀ i cb w, ServiceStep.deliver i cb w ∈ labels → KeysDelivered X cb w)
    (h : Run.run (Service.step X) (Service.start server socketPath token ca uid) labels = some s)
    {i : Nat} {session : Session} (hsession : s.sessions i = some session) :
    Sanctioned X ca (servedFor X (Service.start server socketPath token ca uid) labels i) server
      session.state := by
  have hs := serviceSound_run (E := keyTextPanic)
    (I := fun i => Sanctioned X ca
      (servedFor X (Service.start server socketPath token ca uid) labels i) server)
    (fun i => ⟨rfl, by simp [SessionState.new]⟩)
    (fun i st cb w hi hd hallow => callback_sanctioned hk hc htest hi hd hallow)
    (attributed_along hkeys) h
  exact (hs.sessions i session hsession).1

theorem certificates_are_authorised (X : Crates) (hk : KeepsKind X) (hc : KeepsContent X)
    (server : SshCaServer) (htest : server.testAuth = false) (socketPath token : String)
    (ca : CertificateAuthority) (uid : Nat) (labels : List ServiceStep) (s : Service)
    (hkeys : ∀ i cb w, ServiceStep.deliver i cb w ∈ labels → KeysDelivered X cb w)
    (h : Run.run (Service.step X) (Service.start server socketPath token ca uid) labels = some s) :
    ∀ i session, s.sessions i = some session →
      ∀ j cb reply, session.state.log[j]? = some (cb, reply) →
        ∀ channel text, .data channel text ∈ reply.output →
          ∃ cert, X.certificateToOpenssh cert = .ok text ∧ Authorised X ca
            (servedFor X (Service.start server socketPath token ca uid) labels i) server cert
            session.state.log j session.state.login cb := by
  intro i session hsession
  exact (sanctioned_run hk hc htest hkeys h hsession).log

theorem keysDelivered_signing :
    ∀ i cb w, ServiceStep.deliver i cb w ∈ signingRun → KeysDelivered readingCrates cb w := by
  intro i cb w hmem user key hcb
  obtain rfl := signingRun_delivers hmem user key hcb
  exact ⟨ed25519Text, ed25519Key, ed25519Text_read, rfl⟩

theorem certificates_are_authorised_signing :
    ∃ s, Run.run (Service.step readingCrates) signingService signingRun = some s ∧
      s.sessions 0 = some ⟨hostState, .idle⟩ ∧ hostState.Handed webCertificate ∧
      s.sessions 1 = some ⟨userState, .idle⟩ ∧ userState.Handed aliceCertificate ∧
      ∀ i session, s.sessions i = some session →
        ∀ j cb reply, session.state.log[j]? = some (cb, reply) →
          ∀ channel text, .data channel text ∈ reply.output →
            ∃ cert, readingCrates.certificateToOpenssh cert = .ok text ∧
              Authorised readingCrates localAuthority
                (servedFor readingCrates signingService signingRun i) passwordServer cert
                session.state.log j session.state.login cb := by
  obtain ⟨s, hs, hrest⟩ := signing_run
  exact ⟨s, hs, hrest.sessions ▸ rfl, host_handed, hrest.sessions ▸ rfl, user_handed,
    certificates_are_authorised readingCrates keepsKind_reading keepsContent_reading
      passwordServer rfl _ _ localAuthority _ signingRun s keysDelivered_signing hs⟩

end SshCertificateAuthority
