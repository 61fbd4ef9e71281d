import SshCertificateAuthority.CertificatAuthority.CaClient
import SshCertificateAuthority.CertificatAuthority.ResponseSize
import SshCertificateAuthority.CertificatAuthority.RequestFraming
import SshCertificateAuthority.Library.Run

namespace SshCertificateAuthority
open ByteStream Run

def ErrorFits (e : String) : Prop := 12 + Json.escapedSize e ≤ maxMessageSize.toNat

namespace CertificateAuthority

variable (X : Crates) (w : World) (ca : CertificateAuthority)

def CertificateFits (certType : CertType) (kind name : String) (validityInDays : UInt16)
    (principals extensions : List String) (publicKey : PublicKey) : Prop :=
  Issuable w validityInDays principals extensions →
    ∀ signature, ca.privateKey.sign (certificateOf w ca certType kind name (validAfter w)
        (validBefore w validityInDays) principals extensions publicKey).toBeSigned =
      some signature →
    24 + opensshSize (certAlgorithm publicKey.keyData.algorithm) publicKey.comment
      (certificateBodySize ca.privateKey.publicKey publicKey.keyData
        (keyId kind name (validAfter w)) principals extensions signature) ≤ maxMessageSize.toNat

def RequestFits : CaRequest → Prop
  | .signCertificate user publicKey =>
    match readUserDefaults X w.fs user ca.config with
    | .ok d =>
      CertificateFits w ca .user "user" user d.validityInDays d.principals d.extensions publicKey
    | .err e => ErrorFits e
    | .panic _ => True
  | .checkPublicKey publicKey =>
    ∀ strKey host, X.toOpenssh publicKey = .ok strKey →
      ca.checkPublicKey X w strKey = .ok (some host) →
        15 + Json.escapedSize host ≤ maxMessageSize.toNat
  | .signHostCertificate hostName publicKey =>
    match readHostConfig X w.fs hostName ca.config with
    | .error e => ErrorFits e
    | .ok hostConfig =>
      match X.fromOpenssh hostConfig.publicKey with
      | .error _ => ErrorFits (wrongPublicKey hostName)
      | .ok configPubKey =>
        if configPubKey.keyData ≠ publicKey.keyData then
          ∀ a b, X.toOpenssh configPubKey = .ok a → X.toOpenssh publicKey = .ok b →
            ErrorFits (wrongPublicKey hostName)
        else
          CertificateFits w ca .host "host" hostName hostConfig.validityInDays
            hostConfig.hostnames hostConfig.extensions publicKey

end CertificateAuthority

def OutcomeFits {A : Type} (size : A → Nat) : Outcome A → Prop
  | .ok a => size a ≤ maxMessageSize.toNat
  | .err e => ErrorFits e
  | .panic _ => True

theorem outcomeFits_bind_pure {A B : Type} (size : B → Nat) (f : A → B) (o : Outcome A) :
    OutcomeFits size (o >>= fun a => pure (f a)) ↔ OutcomeFits (fun a => size (f a)) o := by
  cases o <;> rfl

namespace CertificateAuthority

variable (X : Crates) (w : World) (ca : CertificateAuthority)

theorem issueErrors_fit {e : String} (h : e ∈ issueErrors) : ErrorFits e := by
  have hall : issueErrors.all fun e => 12 + Json.escapedSize e ≤ maxMessageSize.toNat := by
    decide +kernel
  rw [ErrorFits]
  exact of_decide_eq_true (List.all_eq_true.mp hall e h)

theorem certificateOf_size (certType : CertType) (kind name : String) (after before : Nat)
    (principals extensions : List String) (publicKey : PublicKey) (signature : Bytes) :
    responseSize (.signedCertificate { certificateOf w ca certType kind name after before principals
        extensions publicKey with signature := signature }) =
      24 + opensshSize (certAlgorithm publicKey.keyData.algorithm) publicKey.comment
        (certificateBodySize ca.privateKey.publicKey publicKey.keyData (keyId kind name after)
          principals extensions signature) := by
  rw [responseSize, certificate_body_length extensions w.nonce_length rfl]
  · rfl
  · simpa [certificateOf] using insertExtensions_perm extensions []

theorem issue_fits (certType : CertType) (kind name : String) (validityInDays : UInt16)
    (principals extensions : List String) (publicKey : PublicKey) :
    OutcomeFits (fun cert => responseSize (.signedCertificate cert))
        (issue w ca certType kind name validityInDays principals extensions publicKey) ↔
      CertificateFits w ca certType kind name validityInDays principals extensions publicKey := by
  by_cases hi : Issuable w validityInDays principals extensions
  · rw [issue_of_issuable w ca hi]
    dsimp only
    split
    · next hs =>
      have hfit : ErrorFits "cryptographic error" := issueErrors_fit (by simp [issueErrors])
      exact ⟨fun _ _ signature hsig => by simp [hs] at hsig, fun _ => hfit⟩
    · next signature hs =>
      rw [OutcomeFits, certificateOf_size]
      constructor
      · intro hfit _ signature' hs'
        obtain rfl : signature = signature' := by simpa [hs] using hs'
        exact hfit
      · intro hfit
        exact hfit hi signature hs
  · refine iff_of_true ?_ fun h => (hi h).elim
    have hrefused : Refused (issue w ca certType kind name validityInDays principals extensions
      publicKey) := issue_refused w ca hi
    rcases hrefused with ⟨site, hp⟩ | ⟨e, he, hp⟩
    · rw [hp]
      trivial
    · rw [hp]
      exact issueErrors_fit he

theorem signCertificate_fits (user : String) (publicKey : PublicKey) :
    OutcomeFits (fun cert => responseSize (.signedCertificate cert))
        (signCertificate X w ca user publicKey) ↔
      RequestFits X w ca (.signCertificate user publicKey) := by
  simp only [signCertificate, RequestFits]
  cases readUserDefaults X w.fs user ca.config with
  | ok d => exact issue_fits w ca .user "user" user d.validityInDays d.principals d.extensions _
  | err e => exact Iff.rfl
  | panic site => exact Iff.rfl

theorem signHostCertificate_fits (hostName : String) (publicKey : PublicKey) :
    OutcomeFits (fun cert => responseSize (.signedCertificate cert))
        (signHostCertificate X w ca hostName publicKey) ↔
      RequestFits X w ca (.signHostCertificate hostName publicKey) := by
  simp only [signHostCertificate, RequestFits]
  cases readHostConfig X w.fs hostName ca.config with
  | error e => exact Iff.rfl
  | ok hostConfig =>
    simp only [Outcome.ofExcept, Outcome.ok_bind]
    cases X.fromOpenssh hostConfig.publicKey with
    | error e => exact Iff.rfl
    | ok configPubKey =>
      dsimp only
      split
      · cases X.toOpenssh configPubKey with
        | error e => simp [OutcomeFits]
        | ok a =>
          cases X.toOpenssh publicKey with
          | error e => simp [OutcomeFits]
          | ok b => simp [OutcomeFits]
      · exact issue_fits w ca .host "host" hostName hostConfig.validityInDays hostConfig.hostnames
          hostConfig.extensions publicKey

theorem checkPublicKey_ne_err (publicKey : String) (e : String) :
    checkPublicKey X w ca publicKey ≠ .err e := by
  intro h
  rw [checkPublicKey] at h
  cases hf : (findConfigByPublicKey X w.fs publicKey ca.config).result with
  | ok found => simp [hf] at h
  | err e' => exact findConfigByPublicKey_ne_err X hf
  | panic site => simp [hf] at h

end CertificateAuthority

namespace CaServer

variable (X : Crates) (w : World) (s : CaServer)

theorem handleRequest_fits (q : CaRequest) :
    OutcomeFits responseSize (s.handleRequest X w q) ↔ s.ca.RequestFits X w q := by
  cases q with
  | signCertificate user publicKey =>
    rw [← CertificateAuthority.signCertificate_fits]
    exact outcomeFits_bind_pure responseSize CaResponse.signedCertificate _
  | signHostCertificate hostName publicKey =>
    rw [← CertificateAuthority.signHostCertificate_fits]
    exact outcomeFits_bind_pure responseSize CaResponse.signedCertificate _
  | checkPublicKey publicKey =>
    have hnull : responseSize (.keyFound none) ≤ maxMessageSize.toNat := by decide
    simp only [handleRequest, CertificateAuthority.RequestFits]
    cases hk : X.toOpenssh publicKey with
    | error e => exact iff_of_true hnull fun a b ha => by simp at ha
    | ok strKey =>
      dsimp only
      rw [outcomeFits_bind_pure responseSize CaResponse.keyFound]
      cases hc : s.ca.checkPublicKey X w strKey with
      | err e => exact (s.ca.checkPublicKey_ne_err X w strKey e hc).elim
      | panic site => exact iff_of_true trivial fun a b ha hb => by simp_all
      | ok host =>
        cases host with
        | none => exact iff_of_true hnull fun a b ha hb => by simp_all
        | some name =>
          constructor
          · intro h a b ha hb
            simp_all [OutcomeFits, responseSize]
          · intro h
            exact h strKey name rfl hc

def requestJson (uid : Nat) (c : Connection) : Option String :=
  if c.peerCred = .ok uid then (framedPayload maxMessageSize c.chunks.flatten).bind fromUtf8
  else none

theorem receive_eq (c : Connection) :
    s.receive X c =
      match requestJson s.serverUid c with
      | none => .dropped
      | some text =>
        match X.requestFromStr text with
        | .error e => .refused (.error ("Invalid request format: " ++ e))
        | .ok q => s.authenticate q := by
  unfold receive requestJson
  cases hc : c.peerCred with
  | error e => rfl
  | ok uid =>
    by_cases hu : uid = s.serverUid
    · subst hu
      rw [← readFrame_payload]
      cases readFrame maxMessageSize c.chunks with
      | error e => simp [Except.toOption]
      | ok r =>
        cases hj : fromUtf8 r.1 with
        | none => simp [hj, Except.toOption]
        | some text =>
          have hcarried :
              ((Except.ok r : Except FrameError _).toOption.map Prod.fst).bind fromUtf8 =
                some text := hj
          rw [if_pos rfl, hcarried]
          dsimp only
          rw [if_neg (not_not.mpr rfl)]
          cases hq : X.requestFromStr text <;> simp [hj, hq]
    · simp [hu]

theorem requestJson_frame (uid : Nat) (text : String)
    (h : text.utf8ByteSize ≤ maxMessageSize.toNat) :
    requestJson uid ⟨.ok uid, [frame (utf8 text)]⟩ = some text := by
  rw [← utf8_length] at h
  have hflat : [frame (utf8 text)].flatten = frame (utf8 text) := List.flatten_singleton
  obtain ⟨rest, hread⟩ := readFrame_frame_short _ hflat h
  have hpayload := readFrame_payload maxMessageSize [frame (utf8 text)]
  rw [hread] at hpayload
  rw [requestJson, if_pos rfl, ← hpayload]
  exact fromUtf8_utf8 text

def AnswerFits (p : World × Connection) : Prop :=
  ∀ text, requestJson s.serverUid p.2 = some text →
    match X.requestFromStr text with
    | .error e => ErrorFits ("Invalid request format: " ++ e)
    | .ok q =>
      q.token = s.authToken → s.lastCounter < q.counter → s.ca.RequestFits X p.1 q.request

def answered (p : World × Connection) : Outcome (Option CaResponse) :=
  answer X p.1 (s.noted (s.receive X p.2)) (s.receive X p.2)

theorem answer_dispatched_fits (q : AuthenticatedRequest) :
    s.ca.RequestFits X w q.request ↔
      ∀ r, answer X w s (.dispatched q) = .ok (some r) →
        responseSize r ≤ maxMessageSize.toNat := by
  rw [← handleRequest_fits, answer]
  cases s.handleRequest X w q.request with
  | ok resp => simp [OutcomeFits]
  | err e => simp [OutcomeFits, ErrorFits, responseSize]
  | panic site => simp [OutcomeFits]

theorem answerFits_iff (p : World × Connection) :
    AnswerFits X s p ↔
      ∀ r, s.answered X p = .ok (some r) → responseSize r ≤ maxMessageSize.toNat := by
  unfold AnswerFits answered
  rw [receive_eq]
  cases requestJson s.serverUid p.2 with
  | none => simp [answer]
  | some text =>
    simp only [Option.some.injEq, forall_eq']
    cases X.requestFromStr text with
    | error e => simp [answer, ErrorFits, responseSize]
    | ok q =>
      have hfailed : responseSize (.error "authentication failed") ≤ maxMessageSize.toNat := by
        decide
      dsimp only
      rw [authenticate]
      split
      · next ht =>
        have htoken : q.token ≠ s.authToken := fun h => ht (congrArg utf8 h)
        simp [answer, hfailed, htoken]
      · next ht =>
        split
        · next hc => simp [answer, hfailed, UInt64.not_lt.mpr hc]
        · next hc =>
          have htoken : q.token = s.authToken := by
            simpa using congrArg fromUtf8 (not_not.mp ht)
          have hca : (s.noted (.dispatched q)).ca = s.ca := rfl
          rw [← answer_dispatched_fits, hca]
          simp [htoken, UInt64.not_le.mp hc]

structure Delivered (r : CaResponse) (written payload : Bytes) : Prop where
  framed : written = toBeBytes (.ofNat payload.length) ++ payload
  declared : (UInt32.ofNat payload.length).toNat = payload.length
  short : payload.length ≤ maxMessageSize.toNat
  decoded : ∀ chunks : List Bytes, chunks.flatten = written →
    CaClient.decodeResponse X chunks = .ok r

def AnswerDelivered (p : World × Connection) : Prop :=
  ∀ r, s.answered X p = .ok (some r) →
    ∃ written payload, s.accept X p.1 p.2 = .ok (s.noted (s.receive X p.2), written) ∧
      Delivered X r written payload

def AnswerRoundTrips (p : World × Connection) : Prop :=
  ∀ r json, s.answered X p = .ok (some r) → X.responseToString r = .ok json →
    X.responseFromStr json = .ok r

def serve (s : CaServer) (p : World × Connection) : Option CaServer :=
  match s.accept X p.1 p.2 with
  | .ok (t, _) => some t
  | _ => none

variable {X s}

theorem accept_eq {p : World × Connection} {r : CaResponse}
    (h : s.answered X p = .ok (some r)) {json : String} (hj : X.responseToString r = .ok json) :
    s.accept X p.1 p.2 = .ok (s.noted (s.receive X p.2), frame (utf8 json)) := by
  rw [answered] at h
  simp only [accept, h, Outcome.ok_bind, respond, hj, Except.map, Outcome.ofExcept,
    Outcome.pure_eq]

theorem answerFits_of_delivered {p : World × Connection} (hjson : X.WritesJson)
    (h : AnswerDelivered X s p) : AnswerFits X s p := by
  apply (answerFits_iff X s p).mpr
  intro r hr
  obtain ⟨written, payload, ha, hd⟩ := h r hr
  cases hj : X.responseToString r with
  | error e =>
    rw [answered] at hr
    simp [accept, hr, respond, hj, Except.map, Outcome.ofExcept] at ha
  | ok json =>
    rw [accept_eq hr hj] at ha
    have hw : frame (utf8 json) = written := congrArg Prod.snd (Outcome.ok.inj ha)
    have hlen := congrArg List.length (hw.trans hd.framed)
    rw [hjson.response] at hj
    simp only [frame, List.length_append, toBeBytes_length, utf8_length, response_size hj] at hlen
    have hshort := hd.short
    omega

theorem answerDelivered_of_fits {p : World × Connection} (hjson : X.WritesJson)
    (hround : AnswerRoundTrips X s p) (h : AnswerFits X s p) : AnswerDelivered X s p := by
  intro r hr
  have hsize := (answerFits_iff X s p).mp h r hr
  obtain ⟨json, hj⟩ := response_of_size_le hsize
  rw [← response_size hj, ← utf8_length] at hsize
  rw [← hjson.response] at hj
  refine ⟨frame (utf8 json), utf8 json, accept_eq hr hj, rfl, toNat_ofNat_of_le hsize, hsize, ?_⟩
  intro chunks hchunks
  obtain ⟨rest, hread⟩ := readFrame_frame_short _ hchunks hsize
  simp only [CaClient.decodeResponse, hread, fromUtf8_utf8, hround r json hr hj]

end CaServer

theorem answers_reach_client_iff (X : Crates) (hjson : X.WritesJson) (s : CaServer)
    (history : List (World × Connection))
    (hround : Along (CaServer.serve X) (CaServer.AnswerRoundTrips X) s history) :
    Along (CaServer.serve X) (CaServer.AnswerDelivered X) s history ↔
      Along (CaServer.serve X) (CaServer.AnswerFits X) s history :=
  along_congr hround fun _ _ h =>
    ⟨CaServer.answerFits_of_delivered hjson, CaServer.answerDelivered_of_fits hjson h⟩

def templateHead : String := "validity_in_days = 1\nprincipals = [\""

def templateTail : String := "\"]\nextensions = []"

def principalTemplate (n : Nat) : String := templateHead ++ nameOfLength n ++ templateTail

def principalDefaults (n : Nat) : UserDefaults := ⟨1, [nameOfLength n], []⟩

def templateWorld (n : Nat) : World where
  fs := templateFs (principalTemplate n)
  clock _ := 0
  nonce := List.replicate 16 0
  nonce_length := bareWorld.nonce_length
  serial := 0

def principalCertificate (n : Nat) : Certificate :=
  { CertificateAuthority.certificateOf (templateWorld n) localAuthority .user "user"
      (nameOfLength 5) (CertificateAuthority.validAfter (templateWorld n))
      (CertificateAuthority.validBefore (templateWorld n) 1) [nameOfLength n] []
      ed25519Key with signature := ed25519Signature }

-- Each crate function answers what it answers on the one input it gets in this run.
def principalCrates (n : Nat) : Crates :=
  { Crates.refusing with
    userListFromStr := fun _ => .ok ⟨[]⟩
    userDefaultsFromStr := fun _ => .ok (principalDefaults n)
    render := fun _ t _ => .ok t
    requestFromStr := fun _ => .ok (localClient.authRequest 1 (signRequest 5))
    responseFromStr := fun _ => .ok (.signedCertificate (principalCertificate n)) }

theorem principalCrates_writesJson (n : Nat) : (principalCrates n).WritesJson where
  request := by simp only [principalCrates, Crates.refusing]
  response := by simp only [principalCrates, Crates.refusing]

def localServer : CaServer := CaServer.new "/run/ssh_ca.sock" localAuthority "token" 0

def signConnection : Connection := ⟨.ok 0, [frame (utf8 (signRequestText 1 5))]⟩

theorem principalTemplate_size (n : Nat) : (principalTemplate n).utf8ByteSize = 54 + n := by
  have hhead : templateHead.utf8ByteSize = 36 := by decide +kernel
  have htail : templateTail.utf8ByteSize = 18 := by decide +kernel
  rw [principalTemplate, String.utf8ByteSize_append, String.utf8ByteSize_append, hhead, htail,
    nameOfLength_size]
  omega

theorem principalDefaults_read {n : Nat} (hn : n ≤ 65000) :
    readUserDefaults (principalCrates n) (templateWorld n).fs (nameOfLength 5)
      localAuthority.config = .ok (principalDefaults n) := by
  have husers : readTomlFile (principalCrates n).userListFromStr (templateWorld n).fs
      localAuthority.config.userListFile = .ok ⟨[]⟩ :=
    readTomlFile_of_text (templateFs_users (principalTemplate n))
  have hsize : (principalTemplate n).utf8ByteSize ≤ maxTemplateSize := by
    rw [principalTemplate_size, maxTemplateSize]
    omega
  exact readUserDefaults_eq _ husers rfl (templateFs_template (principalTemplate n)) hsize

theorem signRequestText_short : (signRequestText 1 5).utf8ByteSize ≤ maxMessageSize.toNat := by
  have hdigit : (toString (1 : UInt64).toNat).utf8ByteSize = 1 := by decide
  rw [← utf8_length, signRequest_size, hdigit]
  decide

theorem signConnection_json :
    CaServer.requestJson 0 signConnection = some (signRequestText 1 5) := by
  rw [signConnection]
  exact CaServer.requestJson_frame 0 (signRequestText 1 5) signRequestText_short

theorem principalWorld_issuable (n : Nat) :
    CertificateAuthority.Issuable (templateWorld n) 1 [nameOfLength n] [] where
  clock := ⟨Int.le_refl 0, Int.le_refl 0⟩
  order := Nat.le_add_right _ _
  bound := by simp [CertificateAuthority.validBefore, templateWorld, CertBuilder.maxSecs]
  distinct := List.nodup_nil
  principals := List.cons_ne_nil _ _

theorem principalCertificate_issued {n : Nat} (hn : n ≤ 65000) :
    localAuthority.signCertificate (principalCrates n) (templateWorld n) (nameOfLength 5)
      ed25519Key = .ok (principalCertificate n) := by
  rw [CertificateAuthority.signCertificate, principalDefaults_read hn, Outcome.ok_bind]
  exact CertificateAuthority.issue_of_issuable (templateWorld n) localAuthority
    (principalWorld_issuable n)

theorem signConnection_received (n : Nat) :
    localServer.receive (principalCrates n) signConnection =
      .dispatched (localClient.authRequest 1 (signRequest 5)) := by
  have huid : localServer.serverUid = 0 := rfl
  have htoken : ¬ utf8 (localClient.authRequest 1 (signRequest 5)).token ≠
    utf8 localServer.authToken := not_not.mpr rfl
  have hcounter : ¬ (localClient.authRequest 1 (signRequest 5)).counter ≤
    localServer.lastCounter := of_decide_eq_false rfl
  rw [CaServer.receive_eq, huid, signConnection_json]
  change localServer.authenticate (localClient.authRequest 1 (signRequest 5)) = _
  rw [CaServer.authenticate, if_neg htoken, if_neg hcounter]

theorem principalCertificate_answered {n : Nat} (hn : n ≤ 65000) :
    localServer.answered (principalCrates n) (templateWorld n, signConnection) =
      .ok (some (.signedCertificate (principalCertificate n))) := by
  have hrequest : CaServer.handleRequest (principalCrates n) (templateWorld n, signConnection).1
      (localServer.noted (.dispatched (localClient.authRequest 1 (signRequest 5))))
      (localClient.authRequest 1 (signRequest 5)).request =
        .ok (.signedCertificate (principalCertificate n)) := by
    change (do
      let cert ← localAuthority.signCertificate (principalCrates n) (templateWorld n)
        (nameOfLength 5) ed25519Key
      pure (CaResponse.signedCertificate cert)) = _
    rw [principalCertificate_issued hn]
    rfl
  rw [CaServer.answered, signConnection_received, CaServer.answer, hrequest]

theorem answers_reach_client_signed :
    Along (CaServer.serve (principalCrates 8)) (CaServer.AnswerDelivered (principalCrates 8))
        localServer [(templateWorld 8, signConnection)] ↔
      Along (CaServer.serve (principalCrates 8)) (CaServer.AnswerFits (principalCrates 8))
        localServer [(templateWorld 8, signConnection)] := by
  refine answers_reach_client_iff (principalCrates 8) (principalCrates_writesJson 8) localServer _
    ⟨?_, fun _ _ => trivial⟩
  intro r json hr _
  rw [principalCertificate_answered (by omega)] at hr
  obtain rfl : CaResponse.signedCertificate (principalCertificate 8) = r := by simpa using hr
  rfl

theorem principalCertificate_size (n : Nat) :
    responseSize (.signedCertificate (principalCertificate n)) = 57 + 4 * ((300 + n) / 3) := by
  have halg : (certAlgorithm ed25519Key.keyData.algorithm).utf8ByteSize = 32 := by decide +kernel
  have hesc : Json.escapedSize (certAlgorithm ed25519Key.keyData.algorithm) = 32 := by
    decide +kernel
  have hkey : (keyId "user" (nameOfLength 5) 0).utf8ByteSize = 12 := by decide +kernel
  have hca : localAuthority.privateKey.publicKey.algorithm.utf8ByteSize = 11 := by decide +kernel
  have hafter : CertificateAuthority.validAfter (templateWorld n) = 0 := rfl
  have hcomment : commentSize ed25519Key.comment = 0 := rfl
  have hfields : ed25519Key.keyData.fields.length = 36 := rfl
  have hcafields : localAuthority.privateKey.publicKey.fields.length = 36 := rfl
  have hstrings : Wire.stringsSize [nameOfLength n] = 4 + n := by
    simp [Wire.stringsSize, nameOfLength_size]
  have hflags : Wire.flagsSize [] = 0 := rfl
  have hsignature : ed25519Signature.length = 83 := by
    simp [ed25519Signature]
    decide
  have hbody : certificateBodySize localAuthority.privateKey.publicKey ed25519Key.keyData
      (keyId "user" (nameOfLength 5) 0) [nameOfLength n] [] ed25519Signature =
        298 + n := by
    rw [certificateBodySize, halg, hkey, hca, hfields, hcafields, hstrings, hflags,
      hsignature]
    clear * -
    omega
  rw [principalCertificate, CertificateAuthority.certificateOf_size, hafter, hbody, opensshSize,
    hesc, hcomment]
  clear * -
  omega

theorem long_principal_not_delivered {n : Nat} (hlong : 49000 ≤ n) (hn : n ≤ 65000) :
    ¬ CaServer.AnswerDelivered (principalCrates n) localServer
      (templateWorld n, signConnection) := by
  intro hdelivered
  have hfits := CaServer.answerFits_of_delivered (principalCrates_writesJson n) hdelivered
  have hsize := (CaServer.answerFits_iff _ _ _).mp hfits _ (principalCertificate_answered hn)
  rw [principalCertificate_size] at hsize
  have hmax : maxMessageSize.toNat = 65536 := rfl
  omega

theorem long_principal_lost :
    ¬ Along (CaServer.serve (principalCrates 60000))
      (CaServer.AnswerDelivered (principalCrates 60000)) localServer
      [(templateWorld 60000, signConnection)] :=
  fun h => long_principal_not_delivered (by omega) (by omega) h.1

end SshCertificateAuthority
