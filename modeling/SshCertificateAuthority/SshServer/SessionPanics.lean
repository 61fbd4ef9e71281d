import SshCertificateAuthority.SshServer.SigningRun

namespace SshCertificateAuthority
open ByteStream Coroutine

theorem CaServer.handleRequest_kind {X : Crates} {w : World} {s : CaServer} {q : CaRequest}
    {r : CaResponse} (h : s.handleRequest X w q = .ok r) : r.kind = some q.kind := by
  cases q with
  | signCertificate user publicKey =>
    obtain ⟨cert, -, hr⟩ := Outcome.bind_eq_ok h
    obtain rfl := Outcome.ok.inj hr
    rfl
  | signHostCertificate hostName publicKey =>
    obtain ⟨cert, -, hr⟩ := Outcome.bind_eq_ok h
    obtain rfl := Outcome.ok.inj hr
    rfl
  | checkPublicKey publicKey =>
    unfold handleRequest at h
    dsimp only at h
    split at h
    · obtain rfl := Outcome.ok.inj h
      rfl
    · obtain ⟨host, -, hr⟩ := Outcome.bind_eq_ok h
      obtain rfl := Outcome.ok.inj hr
      rfl

theorem exchange_fits {X : Crates} {ca : CertificateAuthority} {W : Set World} (hk : KeepsKind X)
    {q : CaRequest} {a : CaResponse} (h : Exchange X ca W q a) : Fits q a := by
  obtain ⟨r, json, text, hr, hjson, hfront, hparse⟩ := h
  have hkind := hk.response r json text a hjson hfront hparse
  rw [Fits]
  rw [hkind]
  rcases hr with ⟨e, rfl⟩ | ⟨asked, qjson, qtext, received, rfl, hq, hqprefix, hqparse, server, w,
    -, -, hhandle⟩
  · exact Or.inl rfl
  · have hsame := hk.request asked qjson qtext received hq hqprefix hqparse
    exact Or.inr (by rw [CaServer.handleRequest_kind hhandle, hsame])

def keyTextPanic (site : PanicSite) : Prop := site = .toOpenssh ∨ site = .fromOpenssh

section

variable {X : Crates} {ca : CertificateAuthority} {W : Set World}

def Delivers (X : Crates) (ca : CertificateAuthority) (W : Set World) (q : CaRequest)
    (output : List SessionOutput) : Prop :=
  ∀ channel text, .data channel text ∈ output →
    ∃ cert, X.certificateToOpenssh cert = .ok text ∧ Exchange X ca W q (.signedCertificate cert)

theorem sendCertAndClose_delivers {q : CaRequest} {cert : Certificate} (channel : Nat)
    (h : Exchange X ca W q (.signedCertificate cert)) :
    Delivers X ca W q (sendCertAndClose X cert channel) := by
  intro channel' text hmem
  unfold sendCertAndClose at hmem
  cases hc : X.certificateToOpenssh cert with
  | error e => simp [hc] at hmem
  | ok opensshCert =>
    obtain ⟨-, rfl⟩ : channel' = channel ∧ text = opensshCert := by simpa [hc] using hmem
    exact ⟨cert, hc, h⟩

theorem sendSignRequest_safe {q : CaRequest} (hk : KeepsKind X) (hq : q.kind = .certificate) :
    Safe (Answers X ca W) keyTextPanic
      (fun r => (∃ cert, r = (some cert, []) ∧ Exchange X ca W q (.signedCertificate cert)) ∨
        ∃ message, r = (none, [.disconnect message]))
      (sendSignRequest q) := by
  intro a ha
  cases a with
  | error e => exact Or.inr ⟨_, rfl⟩
  | ok r =>
    have hr := ha r rfl
    cases r with
    | error e => exact Or.inr ⟨_, rfl⟩
    | signedCertificate cert => exact Or.inl ⟨cert, rfl, hr⟩
    | keyFound found =>
      have hfit := exchange_fits hk hr
      simp [Fits, CaResponse.kind, hq] at hfit

theorem signAndClose_safe {q : CaRequest} (channel : Nat) (hk : KeepsKind X)
    (hq : q.kind = .certificate) :
    Safe (Answers X ca W) keyTextPanic (Delivers X ca W q) (signAndClose X channel q) := by
  refine safe_bind (safe_mono (sendSignRequest_safe hk hq) ?_)
  rintro r (⟨cert, rfl, h⟩ | ⟨message, rfl⟩)
  · simp only [List.nil_append, pure_eq, Safe]
    exact sendCertAndClose_delivers channel h
  · simp [Safe, Delivers]

theorem handlerSignUserKey_safe {handler : ConnectionHandler} {user : String} (channel : Nat)
    (data : Bytes) (hk : KeepsKind X) (huser : handler.username = some user) :
    Safe (Answers X ca W) keyTextPanic
      (fun output => ∀ channel text, .data channel text ∈ output →
        handler.authMethod ≠ some .publicKey ∧
        ∃ key, X.fromOpenssh (Text.fromUtf8Lossy data) = .ok key ∧
          Delivers X ca W (.signCertificate user key) output)
      (handlerSignUserKey X handler channel data) := by
  rw [handlerSignUserKey]
  rw [huser]
  dsimp only
  split
  · simp [Safe]
  · next hmethod =>
    rw [parseOpensshKey]
    cases hkey : X.fromOpenssh (Text.fromUtf8Lossy data) with
    | error e => simp [Safe]
    | ok key =>
      apply safe_mono (signAndClose_safe channel hk rfl)
      intro output hout _ _ _
      exact ⟨hmethod, key, rfl, hout⟩

theorem handleSignHostKey_safe {handler : ConnectionHandler} {hostName : String} (channel : Nat)
    (pubKey : String) (hk : KeepsKind X) (huser : handler.username = some hostName) :
    Safe (Answers X ca W) keyTextPanic
      (fun output => ∀ channel text, .data channel text ∈ output →
        validateHostname hostName = .ok () ∧
        ∃ key, X.fromOpenssh pubKey = .ok key ∧
          Delivers X ca W (.signHostCertificate hostName key) output)
      (handleSignHostKey X handler channel [hostName, pubKey]) := by
  unfold handleSignHostKey
  dsimp only
  cases hv : validateHostname hostName with
  | error e => simp [Safe]
  | ok u =>
    have hjoin : " ".intercalate [pubKey] = pubKey := rfl
    rw [parseOpensshKey]
    rw [hjoin]
    cases hkey : X.fromOpenssh pubKey with
    | error e => simp [Safe]
    | ok key =>
      rw [huser]
      apply safe_mono (signAndClose_safe channel hk rfl)
      intro output hout _ _ _
      exact ⟨rfl, key, rfl, hout⟩

theorem authPublickey_safe (handler : ConnectionHandler) (publicKey : PublicKey)
    (hk : KeepsKind X) :
    Safe (Answers X ca W) keyTextPanic
      (fun reply => reply = handler.keyReply publicKey none ∨
        ∃ text key host, X.toOpenssh publicKey = .ok text ∧ X.fromOpenssh text = .ok key ∧
          Exchange X ca W (.checkPublicKey key) (.keyFound (some host)) ∧
            reply = handler.keyReply publicKey (some host))
      (handler.authPublickey X publicKey) := by
  rw [ConnectionHandler.authPublickey]
  cases htext : X.toOpenssh publicKey with
  | error e => exact Or.inl rfl
  | ok text =>
    dsimp only
    cases hkey : X.fromOpenssh text with
    | error e => exact Or.inr rfl
    | ok key =>
      intro a ha
      cases a with
      | error e => exact Or.inl rfl
      | ok r =>
        have hr := ha r rfl
        cases r with
        | error e => exact Or.inl rfl
        | signedCertificate cert =>
          have hfit := exchange_fits hk hr
          simp [Fits, CaResponse.kind, CaRequest.kind] at hfit
        | keyFound found =>
          cases found with
          | none => exact Or.inl rfl
          | some host => exact Or.inr ⟨text, key, host, rfl, hkey, hr, rfl⟩

theorem execRequest_safe {handler : ConnectionHandler} (channel : Nat) (data : Bytes)
    (hk : KeepsKind X) :
    Safe (Answers X ca W) keyTextPanic
      (fun reply => reply.handler = handler ∧ reply.result ≠ .ok (some .accept) ∧
        ∀ channel text, .data channel text ∈ reply.output →
          ∃ publicKey pubKey hostName key, handler.publicKey = some publicKey ∧
            handler.username = some hostName ∧ X.toOpenssh publicKey = .ok pubKey ∧
            validateHostname hostName = .ok () ∧ X.fromOpenssh pubKey = .ok key ∧
            Delivers X ca W (.signHostCertificate hostName key) reply.output)
      (handler.execRequest X channel data) := by
  rw [ConnectionHandler.execRequest]
  cases hpk : handler.publicKey with
  | none => simp [Safe]
  | some publicKey =>
    dsimp only
    cases htext : X.toOpenssh publicKey with
    | error e => simp [Safe]
    | ok pubKey =>
      cases huser : handler.username with
      | none => simp [Safe]
      | some hostName =>
        dsimp only
        split
        · refine safe_bind (safe_mono (handleSignHostKey_safe channel pubKey hk huser) ?_)
          intro output hout
          refine ⟨rfl, by simp, fun channel text hmem => ?_⟩
          obtain ⟨hvalid, key, hkey, hdel⟩ := hout channel text hmem
          exact ⟨publicKey, pubKey, hostName, key, rfl, rfl, htext, hvalid, hkey, hdel⟩
        · simp [Safe]

theorem data_safe {handler : ConnectionHandler} {user : String} (server : SshCaServer) (w : World)
    (channel : Nat) (data : Bytes) (hk : KeepsKind X) (huser : handler.username = some user) :
    Safe (Answers X ca W) keyTextPanic
      (fun reply => reply.handler = handler ∧ reply.result ≠ .ok (some .accept) ∧
        ∀ channel text, .data channel text ∈ reply.output →
          handler.authMethod ≠ some .publicKey ∧
          ∃ key, X.fromOpenssh (Text.fromUtf8Lossy data) = .ok key ∧
            Delivers X ca W (.signCertificate user key) reply.output)
      (handler.callback X server w (.data channel data)) := by
  refine safe_bind (safe_mono (handlerSignUserKey_safe channel data hk huser) ?_)
  intro output hout
  exact ⟨rfl, by simp, hout⟩

end

theorem ConnectionHandler.authPassword_reply (handler : ConnectionHandler) (server : SshCaServer)
    (w : World) (user password : String) :
    let reply := handler.authPassword server w user password
    reply.output = [] ∧
      ((reply.handler = handler ∧ reply.result ≠ .ok (some .accept)) ∨
        (reply.handler = handler.loginWithPassword user ∧ reply.result = .ok (some .accept) ∧
          validateUsername user = true ∧ (server.testAuth = true ∨
            ∃ a ∈ server.userAuthenticators, a w user password = .ok true))) := by
  intro reply
  simp only [reply, authPassword]
  by_cases hv : validateUsername user = true
  · by_cases ht : server.testAuth = true
    · simp only [hv, ht, Bool.not_true, Bool.false_eq_true, if_false, if_true]
      split <;> simp
    · simp only [hv, ht, Bool.not_true, Bool.false_eq_true, if_false]
      split
      · next hany =>
        obtain ⟨a, ha, hok⟩ := List.any_eq_true.mp hany
        refine ⟨rfl, Or.inr ⟨rfl, rfl, trivial, Or.inr ⟨a, ha, ?_⟩⟩⟩
        split at hok
        · next h => exact h
        · simp at hok
      · simp
  · simp [hv]

def LoggedIn (st : SessionState) : Prop :=
  st.login.isSome → st.handler.username.isSome ∧ st.handler.authMethod.isSome

theorem finish_login_unchanged (st : SessionState) (cb : Callback) (w : World) {reply : Reply}
    (h : reply.result ≠ .ok (some .accept)) : (st.finish cb w reply).login = st.login := by
  rw [SessionState.finish]
  dsimp only
  split
  · next hr => exact absurd hr h
  · rfl

theorem loggedIn_finish {st : SessionState} {cb : Callback} {w : World} {reply : Reply}
    (hi : LoggedIn st) (hh : reply.handler = st.handler)
    (hr : reply.result ≠ .ok (some .accept)) : LoggedIn (st.finish cb w reply) := by
  intro hlogin
  rw [finish_login_unchanged st cb w hr] at hlogin
  obtain ⟨hu, hm⟩ := hi hlogin
  exact ⟨by simpa [SessionState.finish, hh] using hu, by simpa [SessionState.finish, hh] using hm⟩

theorem callback_loggedIn {X : Crates} {ca : CertificateAuthority} {W : Set World}
    (hk : KeepsKind X) (server : SshCaServer) {st : SessionState} (cb : Callback) (w : World)
    (hi : LoggedIn st) (hd : st.deliverable cb) :
    SessionSafe X ca W keyTextPanic LoggedIn st cb w (st.handler.callback X server w cb) := by
  cases cb with
  | authPassword user password =>
    obtain ⟨-, ⟨hh, hr⟩ | ⟨hh, -⟩⟩ := st.handler.authPassword_reply server w user password
    · exact loggedIn_finish hi hh hr
    · intro _
      simp [SessionState.finish, hh, ConnectionHandler.loginWithPassword]
  | authPublickey user publicKey =>
    apply safe_mono (authPublickey_safe st.handler publicKey hk)
    rintro reply (rfl | ⟨text, key, host, -, -, -, rfl⟩)
    · exact loggedIn_finish hi rfl (by simp [ConnectionHandler.keyReply])
    · intro _
      simp [SessionState.finish, ConnectionHandler.keyReply]
  | channelOpenSession channel => exact loggedIn_finish hi rfl (by simp)
  | data channel data =>
    have hlogin : st.login.isSome := hd
    obtain ⟨user, huser⟩ := Option.isSome_iff_exists.mp (hi hlogin).1
    apply safe_mono (data_safe server w channel data hk huser)
    rintro reply ⟨hh, hr, -⟩
    exact loggedIn_finish hi hh hr
  | execRequest channel data =>
    apply safe_mono (execRequest_safe channel data hk)
    rintro reply ⟨hh, hr, -⟩
    exact loggedIn_finish hi hh hr

theorem attributed_all (s : Service) (a : ServiceStep) :
    Attributed (fun _ => Set.univ) (fun _ _ => Set.univ) (fun _ _ => True) s a := by
  cases a with
  | send i t => exact fun _ _ => Set.subset_univ _
  | ipc b =>
    cases b with
    | serve w chunks => exact fun t _ => Set.mem_univ w
    | _ => trivial
  | _ => trivial

def Session.panicked (session : Session) (site : PanicSite) : Prop :=
  ∃ cb w, session.task = .running cb w (.stop site)

theorem login_moved {X : Crates} {s s' : Service} {a : ServiceStep} {old new : Session}
    {i : Nat} (h : SessionMoved X s s' i a (some old) new) (hl : old.state.login.isSome) :
    new.state.login.isSome := by
  cases h with
  | finished =>
    simp only [SessionState.finish]
    split
    · rfl
    · exact hl
  | _ => exact hl

def LoggedInAt (s : Service) (i : Nat) : Prop :=
  ∃ session, s.sessions i = some session ∧ session.state.login.isSome

theorem loggedInAt_step {X : Crates} {s s' : Service} {a : ServiceStep} {i : Nat}
    (hi : LoggedInAt s i) (h : Service.step X s a = some s') : LoggedInAt s' i := by
  obtain ⟨session, hsession, hl⟩ := hi
  rcases (Service.step_advanced h).sessions with hsame | ⟨j, old, new, at_j, hmoved, hsessions⟩
  · exact ⟨session, hsame ▸ hsession, hl⟩
  · rw [LoggedInAt]
    rw [hsessions]
    split
    · next hij =>
      obtain rfl : old = some session := by rw [← at_j, ← hij, hsession]
      exact ⟨new, rfl, login_moved hmoved hl⟩
    · exact ⟨session, hsession, hl⟩

def Session.ready (session : Session) : Prop :=
  session.state.handler.username.isSome ∧ session.state.handler.authMethod.isSome

theorem session_task_never_panics (X : Crates) (hk : KeepsKind X) (server : SshCaServer)
    (socketPath token : String) (ca : CertificateAuthority) (uid : Nat)
    (before after : List ServiceStep) (s s' : Service)
    (h : Run.run (Service.step X) (Service.start server socketPath token ca uid) before = some s)
    (h' : Run.run (Service.step X) s after = some s') :
    (∀ i session, s.sessions i = some session →
      (∀ site, session.panicked site → keyTextPanic site) ∧
        (session.state.login.isSome → session.ready ∧
          ∃ session', s'.sessions i = some session' ∧ session'.ready)) ∧
      ∀ t call a, s.ipc.calls t = some call → call.phase = .returned (.ok a) →
        Fits call.request a := by
  have hsound : ∀ labels s,
      Run.run (Service.step X) (Service.start server socketPath token ca uid) labels = some s →
        ServiceSound X ca (fun _ => Set.univ) (fun _ _ => Set.univ) keyTextPanic (fun _ => LoggedIn)
          server s := by
    intro labels s h
    exact serviceSound_run (D := fun _ _ => True) (by simp [LoggedIn, SessionState.new])
      (fun _ st cb w hi _ hd => callback_loggedIn hk server cb w hi hd)
      (Run.along_of_forall (fun s a _ => attributed_all s a) _) h
  have hs := hsound before s h
  have hs' := hsound (before ++ after) s' ((Run.run_append_eq_some _).mpr ⟨s, h, h'⟩)
  refine ⟨fun i session hsession => ?_, fun t call a hcall hphase => ?_⟩
  · obtain ⟨hst, htask⟩ := hs.sessions i session hsession
    refine ⟨?_, fun hl => ⟨hst hl, ?_⟩⟩
    · rintro site ⟨cb, w, hrun⟩
      rw [hrun] at htask
      exact htask
    · obtain ⟨session', hsession', hl'⟩ :=
        Run.invariant (fun _ _ _ => loggedInAt_step) ⟨session, hsession, hl⟩ h'
      exact ⟨session', hsession', (hs'.sessions i session' hsession').1 hl'⟩
  · exact exchange_fits hk ((hs.ipc.conversing t call hcall).returned a hphase)

theorem session_task_never_panics_signing :
    ∃ s s', Run.run (Service.step readingCrates) signingService hostRun = some s ∧
      Run.run (Service.step readingCrates) s (userLogin ++ userAsk) = some s' ∧
      s'.sessions 0 = some ⟨hostState, .idle⟩ ∧ s'.sessions 1 = some ⟨userState, .idle⟩ ∧
      (∀ i session, s.sessions i = some session →
        (∀ site, session.panicked site → keyTextPanic site) ∧
          (session.state.login.isSome → session.ready ∧
            ∃ session', s'.sessions i = some session' ∧ session'.ready)) ∧
      ∀ t call a, s.ipc.calls t = some call → call.phase = .returned (.ok a) →
        Fits call.request a := by
  obtain ⟨s, hs, hrest⟩ := host_run
  obtain ⟨s', hs', hrest'⟩ := user_run hrest
  exact ⟨s, s', hs, hs', hrest'.sessions ▸ rfl, hrest'.sessions ▸ rfl,
    session_task_never_panics readingCrates keepsKind_reading passwordServer _ _ localAuthority _
      hostRun (userLogin ++ userAsk) s s' hs hs'⟩

end SshCertificateAuthority
