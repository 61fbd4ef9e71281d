import SshCertificateAuthority.CertificatAuthority.ServedOrders
import SshCertificateAuthority.SshServer.Service

namespace SshCertificateAuthority
open ByteStream UnixPath FileTree Coroutine CertificateAuthority

def Consults (p : SessionTask Reply) (request : CaRequest) (a : CaResponse) (reply : Reply) :
    Prop := ∃ k, p = .ask request k ∧ k (.ok a) = .ret reply

namespace Service

variable {X : Crates}

theorem run_ipc {s : Service} {as : List IpcStep} {ipc : Ipc}
    (hopened : ∀ a ∈ as, ∀ t q, a ≠ .connect t q) (h : Run.run (Ipc.step X) s.ipc as = some ipc) :
    Run.run (step X) s (as.map .ipc) = some { s with ipc := ipc } := by
  induction as generalizing s with
  | nil =>
    obtain rfl : s.ipc = ipc := by simpa using h
    rfl
  | cons a as ih =>
    obtain ⟨u, hu, hrest⟩ := (Run.run_cons_eq_some _).mp h
    have hstep : step X s (.ipc a) = some { s with ipc := u } := by
      cases a with
      | connect t q => exact absurd rfl (hopened _ List.mem_cons_self t q)
      | _ => simp only [step, hu, Option.map_some]
    rw [List.map_cons]
    exact (Run.run_cons_eq_some _).mpr ⟨_, hstep,
      ih (s := { s with ipc := u }) (fun b hb => hopened b (List.mem_cons_of_mem a hb)) hrest⟩

-- Every session waits for a callback, after `n` calls.
structure Resting (first : Service) (n : Nat) (sessions : Nat → Option Session) (s : Service) :
    Prop where
  server : s.server = first.server
  ipc : Ipc.Rested first.ipc n s.ipc
  sessions : s.sessions = sessions

def quiet (i : Nat) (cb : Callback) (w : World) : List ServiceStep := [.deliver i cb w, .finish i]

def ask (i t : Nat) (w : World) (asked answered : String) : List ServiceStep :=
  .send i t :: ((Ipc.converse t w asked answered).map .ipc ++ [.resume i, .finish i])

def consult (i t : Nat) (cb : Callback) (w : World) (asked answered : String) :
    List ServiceStep := .deliver i cb w :: ask i t w asked answered

section

variable {first s : Service} {n i : Nat} {sessions : Nat → Option Session} {st : SessionState}
  {cb : Callback} {w : World} {reply : Reply}

theorem start_resting (server : SshCaServer) (socketPath token : String)
    (ca : CertificateAuthority) (uid : Nat) :
    Resting (start server socketPath token ca uid) 0 (fun _ => none)
      (start server socketPath token ca uid) :=
  ⟨rfl, Ipc.start_rested socketPath token ca uid, rfl⟩

theorem newClient_run (h : Resting first n sessions s) (free : sessions i = none) :
    ∃ s', Run.run (step X) s [.newClient i] = some s' ∧
      Resting first n (Function.update sessions i (some ⟨.new, .idle⟩)) s' := by
  refine ⟨s.setSession i ⟨.new, .idle⟩, ?_, h.server, h.ipc, by rw [setSession, h.sessions]⟩
  simp [Run.run, step, h.sessions, free]

variable (cb) in
theorem quiet_run (h : Resting first n sessions s) (at_i : sessions i = some ⟨st, .idle⟩)
    (allowed : st.deliverable cb = true)
    (hret : st.handler.callback X first.server w cb = .ret reply) :
    ∃ s', Run.run (step X) s (quiet i cb w) = some s' ∧
      Resting first n (Function.update sessions i (some ⟨st.finish cb w reply, .idle⟩)) s' := by
  refine ⟨s.setSession i ⟨st.finish cb w reply, .idle⟩, ?_, h.server, h.ipc, by
    rw [setSession, h.sessions]⟩
  simp [quiet, Run.run, step, setSession, h.sessions, h.server, at_i, allowed, hret]

theorem consult_run {request : CaRequest} {asked answered : String} {a : CaResponse}
    (h : Resting first n sessions s) (at_i : sessions i = some ⟨st, .idle⟩)
    (allowed : st.deliverable cb = true)
    (hconsults : Consults (st.handler.callback X first.server w cb) request a reply)
    (hn : n + 1 < 18446744073709551616)
    (htoken : first.ipc.client.authToken = first.ipc.server.authToken)
    (hg : ServedCall X first.ipc w (.ofNat (n + 1)) request asked a answered)
    (hread : X.responseFromStr answered = .ok a) :
    ∃ s', Run.run (step X) s (consult i n cb w asked answered) = some s' ∧
      Resting first (n + 1)
        (Function.update sessions i (some ⟨st.finish cb w reply, .idle⟩)) s' := by
  obtain ⟨k, hask, hret⟩ := hconsults
  obtain ⟨ipc₁, hconnect, ipc₂, call, hrun, hrested, hcall, hphase⟩ :=
    Ipc.converse_run h.ipc hn htoken hg
  obtain ⟨q, counter, sent, phase⟩ := call
  dsimp only at hphase
  rw [hread] at hphase
  subst hphase
  have hbegin : Run.run (step X) s [.deliver i cb w, .send i n] =
      some { s.setSession i ⟨st, .awaiting cb w request n k⟩ with ipc := ipc₁ } := by
    simp [Run.run, step, setSession, h.sessions, h.server, at_i, allowed, hask, hconnect]
  have htalk := run_ipc (X := X) (s := { s.setSession i ⟨st, .awaiting cb w request n k⟩ with
    ipc := ipc₁ }) (by simp [Ipc.converse]) hrun
  refine ⟨{ s.setSession i ⟨st.finish cb w reply, .idle⟩ with ipc := ipc₂ }, ?_, h.server, hrested,
    by rw [← h.sessions]; rfl⟩
  refine (Run.run_append_eq_some _).mpr ⟨_, hbegin, (Run.run_append_eq_some _).mpr ⟨_, htalk, ?_⟩⟩
  simp [Run.run, step, setSession, hcall, hret]

end

end Service

section

variable {X : Crates} {handler : ConnectionHandler} {publicKey key : PublicKey} {text : String}

theorem authPublickey_consults (server : SshCaServer) (w : World) (user : String)
    (host : Option String) (htext : X.toOpenssh publicKey = .ok text)
    (hkey : X.fromOpenssh text = .ok key) :
    Consults (handler.callback X server w (.authPublickey user publicKey)) (.checkPublicKey key)
      (.keyFound host) (handler.keyReply publicKey host) := by
  rw [ConnectionHandler.callback, ConnectionHandler.authPublickey, htext]
  dsimp only
  rw [hkey]
  exact ⟨_, rfl, rfl⟩

theorem execRequest_consults {hostName : String} (data : Bytes) (server : SshCaServer)
    (w : World) (channel : Nat) (cert : Certificate) (hpublic : handler.publicKey = some publicKey)
    (huser : handler.username = some hostName) (htext : X.toOpenssh publicKey = .ok text)
    (hkey : X.fromOpenssh text = .ok key) (hvalid : validateHostname hostName = .ok ())
    (hcommand : (parseExecCommand data).1 = "sign_host_key") :
    Consults (handler.callback X server w (.execRequest channel data))
      (.signHostCertificate hostName key) (.signedCertificate cert)
      ⟨handler, .ok none, sendCertAndClose X cert channel⟩ := by
  have hjoin : " ".intercalate [text] = text := rfl
  simp only [ConnectionHandler.callback, ConnectionHandler.execRequest, hpublic, htext, huser,
    hcommand, if_true, handleSignHostKey, hvalid, parseOpensshKey, hjoin, hkey, reduceCtorEq,
    if_false]
  obtain ⟨k, hask, hret⟩ := signAndClose_ask X channel (.signHostCertificate hostName key)
  rw [hask, ask_bind]
  exact ⟨_, rfl, by simp only [hret, ret_bind, pure_eq]⟩

theorem data_consults {user : String} (data : Bytes) (server : SshCaServer) (w : World)
    (channel : Nat) (cert : Certificate) (huser : handler.username = some user)
    (hmethod : handler.authMethod ≠ some .publicKey)
    (hkey : X.fromOpenssh (Text.fromUtf8Lossy data) = .ok key) :
    Consults (handler.callback X server w (.data channel data)) (.signCertificate user key)
      (.signedCertificate cert) ⟨handler, .ok none, sendCertAndClose X cert channel⟩ := by
  simp only [ConnectionHandler.callback, handlerSignUserKey, huser, hmethod, if_false,
    parseOpensshKey, hkey]
  obtain ⟨k, hask, hret⟩ := signAndClose_ask X channel (.signCertificate user key)
  rw [hask, ask_bind]
  exact ⟨_, rfl, by simp only [hret, ret_bind, pure_eq]⟩

end

def passwordServer : SshCaServer where
  testAuth := false
  userAuthenticators := [fun _ user password => .ok (user = "alice" && password = "secret")]

def hostHandler : ConnectionHandler := ⟨some "web", some .publicKey, some ed25519Key⟩

def userHandler : ConnectionHandler := ⟨some "alice", some .password, none⟩

def hostState : SessionState :=
  ((SessionState.new.finish (.authPublickey "root" ed25519Key) (weekWorld 0)
    (ConnectionHandler.new.keyReply ed25519Key (some "web"))).finish
    (.channelOpenSession 0) (weekWorld 0) ⟨hostHandler, .ok none, []⟩).finish
    (.execRequest 0 (utf8 "sign_host_key")) (weekWorld 0)
    ⟨hostHandler, .ok none, sendCertAndClose readingCrates webCertificate 0⟩

def userState : SessionState :=
  ((SessionState.new.finish (.authPassword "alice" "secret") (weekWorld 0)
    ⟨userHandler, .ok (some .accept), []⟩).finish
    (.channelOpenSession 0) (weekWorld 0) ⟨userHandler, .ok none, []⟩).finish
    (.data 0 (utf8 ed25519Text)) (weekWorld 0)
    ⟨userHandler, .ok none, sendCertAndClose readingCrates aliceCertificate 0⟩

def hostRun : List ServiceStep :=
  [.newClient 0] ++
    (Service.consult 0 0 (.authPublickey "root" ed25519Key) (weekWorld 0)
      (orderText 1 (.checkPublicKey ed25519Key)) (CaResponse.keyFound (some "web")).text ++
    (Service.quiet 0 (.channelOpenSession 0) (weekWorld 0) ++
    Service.consult 0 1 (.execRequest 0 (utf8 "sign_host_key")) (weekWorld 0)
      (orderText 2 (.signHostCertificate "web" ed25519Key))
      (CaResponse.signedCertificate webCertificate).text))

def userLogin : List ServiceStep :=
  [.newClient 1] ++
    (Service.quiet 1 (.authPassword "alice" "secret") (weekWorld 0) ++
    (Service.quiet 1 (.channelOpenSession 0) (weekWorld 0) ++
      [.deliver 1 (.data 0 (utf8 ed25519Text)) (weekWorld 0)]))

def userAsk : List ServiceStep :=
  Service.ask 1 2 (weekWorld 0) (orderText 3 (.signCertificate "alice" ed25519Key))
    (CaResponse.signedCertificate aliceCertificate).text

def signingService : Service :=
  Service.start passwordServer "/run/ssh_ca.sock" "token" localAuthority 1000

def hostSessions : Nat → Option Session :=
  Function.update (fun _ => none) 0 (some ⟨hostState, .idle⟩)

def signingSessions : Nat → Option Session :=
  Function.update hostSessions 1 (some ⟨userState, .idle⟩)

theorem host_run :
    ∃ s, Run.run (Service.step readingCrates) signingService hostRun = some s ∧
      Service.Resting signingService 2 hostSessions s := by
  have hstart := Service.start_resting passwordServer "/run/ssh_ca.sock" "token" localAuthority 1000
  have hfound : .keyFound (some "web") ∈ answers := by simp [answers]
  have hsigned : .signedCertificate webCertificate ∈ answers := by simp [answers]
  obtain ⟨s₁, h₁, r₁⟩ := Service.newClient_run (X := readingCrates) (i := 0) hstart rfl
  obtain ⟨s₂, h₂, r₂⟩ := Service.consult_run (w := weekWorld 0) r₁ (Function.update_self _ _ _) rfl
    (authPublickey_consults passwordServer _ "root" (some "web") ed25519Key_written
      ed25519Text_read)
    (by decide) rfl (orders_served (t := 1) (by simp [orders]) rfl hfound web_handled)
    (answers_read_back hfound)
  rw [Function.update_idem] at r₂
  obtain ⟨s₃, h₃, r₃⟩ := Service.quiet_run (X := readingCrates) (w := weekWorld 0)
    (.channelOpenSession 0) r₂ (Function.update_self _ _ _) rfl rfl
  rw [Function.update_idem] at r₃
  obtain ⟨s₄, h₄, r₄⟩ := Service.consult_run (w := weekWorld 0) r₃ (Function.update_self _ _ _) rfl
    (execRequest_consults (utf8 "sign_host_key") passwordServer _ 0 webCertificate rfl rfl
      ed25519Key_written ed25519Text_read (by decide +kernel) (by decide +kernel))
    (by decide) rfl (orders_served (t := 2) (by simp [orders]) rfl hsigned host_handled)
    (answers_read_back hsigned)
  rw [Function.update_idem] at r₄
  refine ⟨s₄, ?_, r₄⟩
  rw [hostRun]
  exact Run.run_appended h₁ (Run.run_appended h₂ (Run.run_appended h₃ h₄))

theorem user_run {s : Service} (h : Service.Resting signingService 2 hostSessions s) :
    ∃ s', Run.run (Service.step readingCrates) s (userLogin ++ userAsk) = some s' ∧
      Service.Resting signingService 3 signingSessions s' := by
  have hsigned : .signedCertificate aliceCertificate ∈ answers := by simp [answers]
  have hread : readingCrates.fromOpenssh (Text.fromUtf8Lossy (utf8 ed25519Text)) =
      .ok ed25519Key := by
    have htext : Text.fromUtf8Lossy (utf8 ed25519Text) = ed25519Text := by decide +kernel
    rw [htext]
    exact ed25519Text_read
  obtain ⟨s₁, h₁, r₁⟩ := Service.newClient_run (X := readingCrates) (i := 1) h rfl
  obtain ⟨s₂, h₂, r₂⟩ := Service.quiet_run (X := readingCrates) (w := weekWorld 0)
    (.authPassword "alice" "secret") r₁ (Function.update_self _ _ _) rfl rfl
  rw [Function.update_idem] at r₂
  obtain ⟨s₃, h₃, r₃⟩ := Service.quiet_run (X := readingCrates) (w := weekWorld 0)
    (.channelOpenSession 0) r₂ (Function.update_self _ _ _) rfl rfl
  rw [Function.update_idem] at r₃
  obtain ⟨s₄, h₄, r₄⟩ := Service.consult_run (w := weekWorld 0) r₃ (Function.update_self _ _ _) rfl
    (data_consults (utf8 ed25519Text) passwordServer _ 0 aliceCertificate rfl (by decide)
      hread)
    (by decide) rfl (orders_served (t := 3) (by simp [orders]) rfl hsigned user_handled)
    (answers_read_back hsigned)
  rw [Function.update_idem] at r₄
  refine ⟨s₄, ?_, r₄⟩
  rw [userLogin, userAsk, List.append_assoc, List.append_assoc, List.append_assoc]
  exact Run.run_appended h₁ (Run.run_appended h₂ (Run.run_appended h₃ h₄))

def signingRun : List ServiceStep := hostRun ++ (userLogin ++ userAsk)

theorem signing_run :
    ∃ s, Run.run (Service.step readingCrates) signingService signingRun = some s ∧
      Service.Resting signingService 3 signingSessions s := by
  obtain ⟨s, hs, hrest⟩ := host_run
  obtain ⟨s', hs', hrest'⟩ := user_run hrest
  exact ⟨s', Run.run_appended hs hs', hrest'⟩

theorem signingRun_delivers {i : Nat} {cb : Callback} {w : World}
    (h : ServiceStep.deliver i cb w ∈ signingRun) :
    ∀ user key, cb = .authPublickey user key → key = ed25519Key := by
  simp only [signingRun, hostRun, userLogin, userAsk, Service.consult, Service.ask, Service.quiet,
    Ipc.converse, List.mem_append, List.mem_cons, List.mem_map, List.not_mem_nil,
    ServiceStep.deliver.injEq, reduceCtorEq, or_false, false_or, and_false] at h
  rintro user key rfl
  simp only [Callback.authPublickey.injEq, exists_false, or_false, false_and, and_false,
    reduceCtorEq] at h
  exact h.2.1.2

theorem signingRun_serves {w : World} {chunks : List Bytes}
    (h : ServiceStep.ipc (.serve w chunks) ∈ signingRun) : w = weekWorld 0 := by
  simp only [signingRun, hostRun, userLogin, userAsk, Service.consult, Service.ask, Service.quiet,
    Ipc.converse, List.mem_append, List.mem_cons, List.mem_map, List.not_mem_nil,
    ServiceStep.ipc.injEq, exists_eq_right, IpcStep.serve.injEq, reduceCtorEq, or_false,
    false_or] at h
  rcases h with (h | h) | h
  · exact h.1
  · exact h.1
  · exact h.1

def SessionState.Handed (st : SessionState) (cert : Certificate) : Prop :=
  ∃ text, readingCrates.certificateToOpenssh cert = .ok text ∧
    ∃ e ∈ st.log, e.2.output = certificateReply 0 text

theorem finish_handed {cert : Certificate} (hmem : .signedCertificate cert ∈ answers)
    (st : SessionState) (cb : Callback) (w : World) (handler : ConnectionHandler) :
    (st.finish cb w ⟨handler, .ok none, sendCertAndClose readingCrates cert 0⟩).Handed cert := by
  have hprinted := (answers_text hmem).1
  obtain ⟨text, htext⟩ := certificate_printed hprinted
  rw [← readingCrates_writesOpenssh.certificate] at htext
  rw [sendCertAndClose_of_text 0 htext]
  exact ⟨text, htext, _, List.mem_append_right _ (List.mem_singleton_self _), rfl⟩

theorem host_handed : hostState.Handed webCertificate :=
  finish_handed (by simp [answers]) _ _ _ _

theorem user_handed : userState.Handed aliceCertificate :=
  finish_handed (by simp [answers]) _ _ _ _

end SshCertificateAuthority
