import SshCertificateAuthority.CertificatAuthority.Availability
import SshCertificateAuthority.CertificatAuthority.ReplayProtection
import SshCertificateAuthority.CertificatAuthority.ServedOrders

namespace SshCertificateAuthority
open ByteStream Sequential

def fromClient (X : Crates) (uid : Nat) (token : String) (p : World × Peer) : Bool :=
  (authenticFrame X uid token p.2.connection).isSome

namespace CaServer

variable {X : Crates} {s : CaServer}

theorem attend_stranger {p : World × Peer} (h : fromClient X s.serverUid s.authToken p = false)
    (hfree : s.blockedBy p.2 = false) : ∃ response, s.attend X p = .ok (s, response) := by
  have hnone : authenticFrame X s.serverUid s.authToken p.2.connection = none :=
    Option.isNone_iff_eq_none.mp (by simpa [fromClient] using h)
  obtain ⟨-, response, hr⟩ := accept_of_not_authentic X (w := p.1) hnone
  exact ⟨response, attend_eq_ok.mpr ⟨hfree, hr⟩⟩

theorem attend_blocked {p : World × Peer} (h : s.blockedBy p.2 = true) :
    s.attend X p = .err "read_exact" := by
  rw [attend, if_pos h]

theorem attend_steady {t : CaServer} {p : World × Peer} {response : Bytes}
    (h : s.attend X p = .ok (t, response)) :
    t.serverUid = s.serverUid ∧ t.authToken = s.authToken := by
  rw [accept_server X (attend_eq_ok.mp h).2]
  exact noted_steady s _

end CaServer

theorem strangers_invisible (X : Crates) (s : CaServer) (peers : List (World × Peer)) :
    ((∀ p ∈ peers, fromClient X s.serverUid s.authToken p = false → s.blockedBy p.2 = false) →
      replay (CaServer.attend X) s (peers.filter (fromClient X s.serverUid s.authToken)) =
        (replay (CaServer.attend X) s peers >>= fun r =>
          pure (r.1, answersTo (fromClient X s.serverUid s.authToken) peers r.2))) ∧
      ∀ before p after r, peers = before ++ p :: after → s.blockedBy p.2 = true →
        replay (CaServer.attend X) s before = .ok r →
          replay (CaServer.attend X) s peers = .err "read_exact" := by
  have hsteady : ∀ (t : CaServer) (p : World × Peer) (u : CaServer) (response : Bytes),
      t.serverUid = s.serverUid ∧ t.authToken = s.authToken →
        t.attend X p = .ok (u, response) →
          u.serverUid = s.serverUid ∧ u.authToken = s.authToken := by
    rintro t p u response ⟨huid, htoken⟩ h
    obtain ⟨huid', htoken'⟩ := CaServer.attend_steady h
    exact ⟨huid'.trans huid, htoken'.trans htoken⟩
  constructor
  · intro hfree
    refine replay_filter hsteady ?_ ⟨rfl, rfl⟩
    rintro t ⟨huid, htoken⟩ p hp hstranger
    refine CaServer.attend_stranger (by rwa [huid, htoken]) ?_
    rw [CaServer.blockedBy_congr huid]
    exact hfree p hp hstranger
  · rintro before p after ⟨t, outs⟩ rfl hblocked hbefore
    obtain ⟨huid, -⟩ := replay_invariant hsteady ⟨rfl, rfl⟩ hbefore
    rw [replay_append hbefore, replay, CaServer.attend_blocked
      (by rwa [CaServer.blockedBy_congr huid])]
    rfl

def guesser : Peer where
  connection := ⟨.ok 1000, [frame (utf8 (Json.authenticatedText guessedOrder ed25519Text))]⟩
  holdsOpen := true

def otherUser : Peer := ⟨⟨.ok 1001, []⟩, true⟩

def mutePeer : Peer := ⟨⟨.ok 1000, []⟩, true⟩

def webClient : Peer where
  connection := ⟨.ok 1000, [frame (utf8 (orderText 1 (.checkPublicKey ed25519Key)))]⟩
  holdsOpen := false

theorem order_received {r : AuthenticatedRequest} (hmem : r ∈ guessedOrder :: orders) :
    authenticFrame readingCrates 1000 "token"
        ⟨.ok 1000, [frame (utf8 (Json.authenticatedText r ed25519Text))]⟩ =
      (some r).filter (fun r => r.token = "token") ∧
    localIpc.server.awaits ⟨.ok 1000, [frame (utf8 (Json.authenticatedText r ed25519Text))]⟩ =
      false := by
  have hkeys : ∀ r ∈ guessedOrder :: orders, r.request.publicKey = ed25519Key := by decide
  have hsizes : ∀ r ∈ guessedOrder :: orders,
    (Json.authenticatedText r ed25519Text).utf8ByteSize ≤ maxMessageSize.toNat := by decide +kernel
  have hread := orders_read_back hmem (hkeys r hmem)
  obtain ⟨rest, hframe⟩ := readFrame_frame_short maxMessageSize
    (List.flatten_singleton : [frame (utf8 (Json.authenticatedText r ed25519Text))].flatten = _)
    (by rw [utf8_length]; exact hsizes r hmem)
  have hpayload := readFrame_payload maxMessageSize
    [frame (utf8 (Json.authenticatedText r ed25519Text))]
  rw [hframe] at hpayload
  constructor
  · rw [authenticFrame, if_pos rfl, ← hpayload]
    simp only [Except.toOption, Option.map_some, Option.bind_some, fromUtf8_utf8, hread]
  · simp only [CaServer.awaits, hframe]
    rfl

theorem guesser_stranger :
    fromClient readingCrates 1000 "token" ⟨weekWorld 0, guesser⟩ = false ∧
      localIpc.server.blockedBy guesser = false := by
  obtain ⟨hframe, hawaits⟩ := order_received (r := guessedOrder) List.mem_cons_self
  constructor
  · rw [fromClient, guesser, hframe]
    rfl
  · rw [CaServer.blockedBy, guesser, hawaits]
    rfl

theorem webClient_client :
    fromClient readingCrates 1000 "token" ⟨weekWorld 0, webClient⟩ = true := by
  obtain ⟨hframe, -⟩ := order_received (r := localClient.authRequest 1 (.checkPublicKey ed25519Key))
    (by simp [orders])
  rw [fromClient, webClient, orderText, hframe]
  rfl

theorem webClient_attended :
    ∃ s, localIpc.server.attend readingCrates (weekWorld 0, webClient) =
      .ok (s, frame (utf8 (CaResponse.keyFound (some "web")).text)) := by
  have hfound : .keyFound (some "web") ∈ answers := by simp [answers]
  have hstart := Ipc.start_rested "/run/ssh_ca.sock" "token" localAuthority 1000
  exact ⟨_, CaServer.attend_eq_ok.mpr ⟨rfl, Ipc.rested_accept hstart (by decide) rfl
    (orders_served (t := 1) (by simp [orders]) rfl hfound web_handled)⟩⟩

def queuedPeers : List (World × Peer) :=
  [(weekWorld 0, guesser), (weekWorld 0, otherUser), (weekWorld 0, webClient)]

theorem strangers_invisible_intruders :
    ∃ s, replay (CaServer.attend readingCrates) localIpc.server [(weekWorld 0, webClient)] =
        .ok (s, [frame (utf8 (CaResponse.keyFound (some "web")).text)]) ∧
      queuedPeers.filter (fromClient readingCrates 1000 "token") = [(weekWorld 0, webClient)] ∧
      replay (CaServer.attend readingCrates) localIpc.server
          (queuedPeers.filter (fromClient readingCrates 1000 "token")) =
        (replay (CaServer.attend readingCrates) localIpc.server queuedPeers >>= fun r =>
          pure (r.1, answersTo (fromClient readingCrates 1000 "token") queuedPeers r.2)) ∧
      replay (CaServer.attend readingCrates) localIpc.server
        ((weekWorld 0, mutePeer) :: queuedPeers) = .err "read_exact" := by
  obtain ⟨s, hs⟩ := webClient_attended
  have hother : fromClient readingCrates 1000 "token" (weekWorld 0, otherUser) = false := rfl
  refine ⟨s, ?_, ?_, ?_, ?_⟩
  · rw [replay_cons_of_ok hs]
    rfl
  · rw [queuedPeers, List.filter_cons_of_neg (by rw [guesser_stranger.1]; decide),
      List.filter_cons_of_neg (by rw [hother]; decide), List.filter_cons_of_pos webClient_client,
      List.filter_nil]
  · refine (strangers_invisible readingCrates localIpc.server queuedPeers).1
      fun p hp hstranger => ?_
    simp only [queuedPeers, List.mem_cons, List.not_mem_nil, or_false] at hp
    rcases hp with rfl | rfl | rfl
    · exact guesser_stranger.2
    · rfl
    · rfl
  · exact (strangers_invisible readingCrates localIpc.server
      ((weekWorld 0, mutePeer) :: queuedPeers)).2 [] _ _ _ rfl rfl rfl

inductive Waiting where
  | call (t : Nat)
  | stranger (p : Peer)

def Waiting.own : Waiting → Option Nat
  | .call t => some t
  | .stranger _ => none

structure OpenIpc where
  ipc : Ipc
  queue : List Waiting
  shown : List Bytes

inductive OpenStep where
  | own (a : IpcStep)
  | intrude (p : Peer)
  | repel (w : World)

def OpenStep.ipcStep : OpenStep → Option IpcStep
  | .own a => some a
  | _ => none

namespace OpenIpc

variable (X : Crates)

def start (socketPath token : String) (ca : CertificateAuthority) (uid : Nat) : OpenIpc where
  ipc := Ipc.start socketPath token ca uid
  queue := []
  shown := []

def repelHead (s : OpenIpc) (w : World) (c : Connection) (rest : List Waiting) : OpenIpc :=
  match s.ipc.server.accept X w c with
  | .ok (server, response) =>
    { ipc := { s.ipc with server := server }, queue := rest, shown := s.shown ++ [response] }
  | _ =>
    let server := s.ipc.server.noted (s.ipc.server.receive X c)
    { s with ipc := { s.ipc with server := server, running := false }, queue := rest }

def step (s : OpenIpc) : OpenStep → Option OpenIpc
  | .own (.connect t request) =>
    (s.ipc.step X (.connect t request)).map fun ipc =>
      { s with ipc := ipc, queue := s.queue ++ [.call t] }
  | .own (.serve w chunks) =>
    match s.queue with
    | .call _ :: rest =>
      (s.ipc.step X (.serve w chunks)).map fun ipc => { s with ipc := ipc, queue := rest }
    | _ => none
  | .own a => (s.ipc.step X a).map fun ipc => { s with ipc := ipc }
  | .intrude p => some { s with queue := s.queue ++ [.stranger p] }
  | .repel w =>
    match s.queue with
    | .stranger p :: rest =>
      if s.ipc.running ∧ s.ipc.server.blockedBy p = false then
        some (repelHead X s w p.connection rest)
      else none
    | _ => none

inductive Stepped (s : OpenIpc) : OpenStep → OpenIpc → Prop where
  | connect {t : Nat} {request : CaRequest} {ipc : Ipc}
      (own : s.ipc.step X (.connect t request) = some ipc) :
      Stepped s (.own (.connect t request))
        { s with ipc := ipc, queue := s.queue ++ [.call t] }
  | serve {w : World} {chunks : List Bytes} {t : Nat} {rest : List Waiting} {ipc : Ipc}
      (head : s.queue = .call t :: rest) (own : s.ipc.step X (.serve w chunks) = some ipc) :
      Stepped s (.own (.serve w chunks)) { s with ipc := ipc, queue := rest }
  | quiet {a : IpcStep} {ipc : Ipc} (not_connect : ∀ t request, a ≠ .connect t request)
      (not_serve : ∀ w chunks, a ≠ .serve w chunks) (own : s.ipc.step X a = some ipc) :
      Stepped s (.own a) { s with ipc := ipc }
  | intrude {p : Peer} : Stepped s (.intrude p) { s with queue := s.queue ++ [.stranger p] }
  | repel {w : World} {p : Peer} {rest : List Waiting} (head : s.queue = .stranger p :: rest)
      (running : s.ipc.running) (unblocked : s.ipc.server.blockedBy p = false) :
      Stepped s (.repel w) (repelHead X s w p.connection rest)

theorem step_quiet {s : OpenIpc} {a : IpcStep} (hconnect : ∀ t request, a ≠ .connect t request)
    (hserve : ∀ w chunks, a ≠ .serve w chunks) :
    step X s (.own a) = (s.ipc.step X a).map fun ipc => { s with ipc := ipc } := by
  cases a with
  | connect t request => exact absurd rfl (hconnect t request)
  | serve w chunks => exact absurd rfl (hserve w chunks)
  | _ => rfl

theorem step_own {s s' : OpenIpc} {a : IpcStep} (h : step X s (.own a) = some s') :
    Stepped X s (.own a) s' := by
  by_cases hconnect : ∃ t request, a = .connect t request
  · obtain ⟨t, request, rfl⟩ := hconnect
    obtain ⟨ipc, own, rfl⟩ := Option.map_eq_some_iff.mp h
    exact .connect own
  by_cases hserve : ∃ w chunks, a = .serve w chunks
  · obtain ⟨w, chunks, rfl⟩ := hserve
    simp only [step] at h
    split at h
    · next t rest head =>
      obtain ⟨ipc, own, rfl⟩ := Option.map_eq_some_iff.mp h
      exact .serve head own
    · simp at h
  have not_connect : ∀ t request, a ≠ .connect t request :=
    fun t request ha => hconnect ⟨t, request, ha⟩
  have not_serve : ∀ w chunks, a ≠ .serve w chunks := fun w chunks ha => hserve ⟨w, chunks, ha⟩
  rw [step_quiet X not_connect not_serve] at h
  obtain ⟨ipc, own, rfl⟩ := Option.map_eq_some_iff.mp h
  exact .quiet not_connect not_serve own

theorem step_eq_some {s s' : OpenIpc} {a : OpenStep} :
    step X s a = some s' ↔ Stepped X s a s' := by
  constructor
  · intro h
    cases a with
    | own b => exact step_own X h
    | intrude p =>
      obtain rfl := Option.some.inj h
      exact .intrude
    | repel w =>
      simp only [step] at h
      split at h
      · next p rest head =>
        obtain ⟨hc, h⟩ := Option.ite_none_right_eq_some.mp h
        obtain rfl := Option.some.inj h
        exact .repel head hc.1 hc.2
      · simp at h
  · intro h
    cases h with
    | connect own => simp only [step, own, Option.map_some]
    | serve head own => simp only [step, head, own, Option.map_some]
    | quiet not_connect not_serve own =>
      rw [step_quiet X not_connect not_serve, own, Option.map_some]
    | intrude => rfl
    | repel head running unblocked =>
      simp only [step, head, running, unblocked, and_self, if_true]

def Free (s : OpenIpc) : Prop :=
  ∀ p, .stranger p ∈ s.queue → s.ipc.server.blockedBy p = false

-- `read_exact` waits for a peer at the head of the queue that sends no more and stays.
def Stuck (s : OpenIpc) : Prop :=
  ∃ p rest, s.queue = .stranger p :: rest ∧ s.ipc.server.blockedBy p = true

structure Isolated (first : Ipc) (labels : List OpenStep) (s : OpenIpc) : Prop where
  erased : Run.run (Ipc.step X) first (labels.filterMap OpenStep.ipcStep) = some s.ipc
  queued : s.queue.filterMap Waiting.own = s.ipc.backlog
  steady : s.ipc.server.serverUid = first.server.serverUid ∧
    s.ipc.server.authToken = first.server.authToken
  strangers : ∀ p, .stranger p ∈ s.queue →
    authenticFrame X first.server.serverUid first.server.authToken p.connection = none
  shown : ∀ response ∈ s.shown, response = [] ∨
    ∃ e json, X.responseToString (.error e) = .ok json ∧ response = frame (utf8 json)

variable {X} {first : Ipc} {labels : List OpenStep} {s s' : OpenIpc}

theorem repelHead_stranger {w : World} {c : Connection} (rest : List Waiting)
    (h : authenticFrame X s.ipc.server.serverUid s.ipc.server.authToken c = none) :
    ∃ response, repelHead X s w c rest =
        { ipc := s.ipc, queue := rest, shown := s.shown ++ [response] } ∧
      (response = [] ∨ ∃ e json, X.responseToString (.error e) = .ok json ∧
        response = frame (utf8 json)) := by
  obtain ⟨-, response, hok⟩ := CaServer.accept_of_not_authentic X (w := w) h
  refine ⟨response, by rw [repelHead, hok], ?_⟩
  rcases CaServer.accept_response X hok with hnil | ⟨r, json, hjson, hframe, hr⟩
  · exact Or.inl hnil
  · refine Or.inr ?_
    rcases hr with ⟨e, rfl⟩ | ⟨q, hdispatched, -⟩
    · exact ⟨e, json, hjson, hframe⟩
    · rcases CaServer.receive_stranger X h with hd | ⟨e, hd⟩
      · simp [hd] at hdispatched
      · simp [hd] at hdispatched

theorem erased_own {a : IpcStep} {ipc : Ipc}
    (h : Run.run (Ipc.step X) first (labels.filterMap OpenStep.ipcStep) = some s.ipc)
    (hstep : s.ipc.step X a = some ipc) :
    Run.run (Ipc.step X) first ((labels ++ [OpenStep.own a]).filterMap OpenStep.ipcStep) =
      some ipc := by
  rw [List.filterMap_append]
  refine (Run.run_append_eq_some _).mpr ⟨s.ipc, h, ?_⟩
  exact (Run.run_cons_eq_some _).mpr ⟨ipc, hstep, rfl⟩

theorem steady_own {a : IpcStep} {ipc ipc' : Ipc} (hstep : ipc.step X a = some ipc') :
    ipc'.server.serverUid = ipc.server.serverUid ∧
      ipc'.server.authToken = ipc.server.authToken := by
  cases Ipc.step_stepped X hstep with
  | @serve w chunks t rest call head at_t running ready stream =>
    obtain ⟨-, -, -, -, -, hserver, -⟩ := Ipc.serveHead_cases (X := X) ipc w chunks t rest call
    rw [hserver]
    exact CaServer.noted_steady _ _
  | _ => exact ⟨rfl, rfl⟩

theorem backlog_own {a : IpcStep} {ipc ipc' : Ipc} (hstep : ipc.step X a = some ipc')
    (hconnect : ∀ t request, a ≠ .connect t request) (hserve : ∀ w chunks, a ≠ .serve w chunks) :
    ipc'.backlog = ipc.backlog := by
  cases Ipc.step_stepped X hstep with
  | connect free => exact absurd rfl (hconnect _ _)
  | serve head at_t running ready stream => exact absurd rfl (hserve _ _)
  | _ => rfl

theorem isolated_quiet {a : IpcStep} {ipc : Ipc} (hi : Isolated X first labels s)
    (hstep : s.ipc.step X a = some ipc) (hconnect : ∀ t request, a ≠ .connect t request)
    (hserve : ∀ w chunks, a ≠ .serve w chunks) :
    Isolated X first (labels ++ [.own a]) { s with ipc := ipc } := by
  obtain ⟨huid, htoken⟩ := steady_own hstep
  refine ⟨erased_own hi.erased hstep, ?_, ⟨huid.trans hi.steady.1, htoken.trans hi.steady.2⟩,
    hi.strangers, hi.shown⟩
  rw [backlog_own hstep hconnect hserve]
  exact hi.queued

theorem isolated_repelled {labels' : List OpenStep} {p : Peer} {rest : List Waiting}
    {w : World} (hi : Isolated X first labels s) (hqueue : s.queue = .stranger p :: rest)
    (hlabels : labels'.filterMap OpenStep.ipcStep = labels.filterMap OpenStep.ipcStep) :
    Isolated X first labels' (repelHead X s w p.connection rest) ∧
      (repelHead X s w p.connection rest).ipc = s.ipc ∧
      (repelHead X s w p.connection rest).queue = rest := by
  have hstranger := hi.strangers p (by rw [hqueue]; exact List.mem_cons_self)
  rw [← hi.steady.1, ← hi.steady.2] at hstranger
  obtain ⟨response, hrepel, hshown⟩ := repelHead_stranger (w := w) rest hstranger
  rw [hrepel]
  refine ⟨⟨hlabels ▸ hi.erased, ?_, hi.steady, fun c' hc' => ?_, fun r hr => ?_⟩, rfl, rfl⟩
  · rw [← hi.queued, hqueue]
    rfl
  · exact hi.strangers c' (by rw [hqueue]; exact List.mem_cons_of_mem _ hc')
  · rcases List.mem_append.mp hr with hr | hr
    · exact hi.shown r hr
    · exact List.mem_singleton.mp hr ▸ hshown

theorem isolated_step {a : OpenStep} (hi : Isolated X first labels s)
    (ha : ∀ p, a = .intrude p →
      authenticFrame X first.server.serverUid first.server.authToken p.connection = none)
    (h : step X s a = some s') : Isolated X first (labels ++ [a]) s' := by
  have hforeign : a.ipcStep = none →
      (labels ++ [a]).filterMap OpenStep.ipcStep = labels.filterMap OpenStep.ipcStep := by
    intro hnone
    simp [List.filterMap_append, hnone]
  cases (step_eq_some X).mp h with
  | intrude =>
    refine ⟨hforeign rfl ▸ hi.erased, ?_, hi.steady, fun c hc => ?_, hi.shown⟩
    · rw [List.filterMap_append, hi.queued]
      simp [Waiting.own]
    · rcases List.mem_append.mp hc with hc | hc
      · exact hi.strangers c hc
      · obtain rfl := Waiting.stranger.inj (List.mem_singleton.mp hc)
        exact ha c rfl
  | repel head running unblocked => exact (isolated_repelled hi head (hforeign rfl)).1
  | @connect t request ipc own =>
    obtain ⟨huid, htoken⟩ := steady_own own
    have hbacklog : ipc.backlog = s.ipc.backlog ++ [t] := by
      have hfree := Ipc.connect_free own
      simp only [Ipc.step, hfree] at own
      obtain rfl := Option.some.inj own
      rfl
    refine ⟨erased_own hi.erased own, ?_, ⟨huid.trans hi.steady.1, htoken.trans hi.steady.2⟩,
      fun c hc => ?_, hi.shown⟩
    · rw [List.filterMap_append, hi.queued, hbacklog]
      rfl
    · exact hi.strangers c (by simpa using hc)
  | @serve w chunks t rest ipc head own =>
    obtain ⟨huid, htoken⟩ := steady_own own
    refine ⟨erased_own hi.erased own, ?_, ⟨huid.trans hi.steady.1, htoken.trans hi.steady.2⟩,
      fun c hc => ?_, hi.shown⟩
    · have hqueued := hi.queued
      rw [head] at hqueued
      cases Ipc.step_stepped X own with
      | @serve w chunks u rest' call backlog at_u running ready stream =>
        obtain ⟨-, -, -, hbacklog, -⟩ :=
          Ipc.serveHead_cases (X := X) s.ipc w chunks u rest' call
        rw [hbacklog]
        rw [backlog] at hqueued
        exact (List.cons.inj hqueued).2
    · exact hi.strangers c (by rw [head]; exact List.mem_cons_of_mem _ hc)
  | quiet not_connect not_serve own => exact isolated_quiet hi own not_connect not_serve

theorem repel_all (hi : Isolated X first labels s) (hrun : s.ipc.running) (hfree : Free s)
    (w : World) :
    ∃ n ≤ s.queue.length, ∃ t, Run.run (step X) s (List.replicate n (.repel w)) = some t ∧
      t.ipc = s.ipc ∧ t.queue <:+ s.queue ∧ (∀ p rest, t.queue ≠ .stranger p :: rest) ∧
      Isolated X first labels t ∧ Free t := by
  generalize hqueue : s.queue = queue
  induction queue generalizing s with
  | nil =>
    refine ⟨0, Nat.le_refl 0, s, rfl, rfl, ?_, by simp [hqueue], hi, hfree⟩
    rw [hqueue]
  | cons slot rest ih =>
    cases slot with
    | call t =>
      refine ⟨0, Nat.zero_le _, s, rfl, rfl, ?_, by simp [hqueue], hi, hfree⟩
      rw [hqueue]
    | stranger p =>
      obtain ⟨hnext, hipc, hrest⟩ := isolated_repelled (w := w) hi hqueue rfl
      have hunblocked := hfree p (by rw [hqueue]; exact List.mem_cons_self)
      have hstep : step X s (.repel w) = some (repelHead X s w p.connection rest) := by
        simp only [step, hqueue]
        exact if_pos ⟨hrun, hunblocked⟩
      have hlater : Free (repelHead X s w p.connection rest) := by
        intro q hq
        rw [hrest] at hq
        rw [hipc]
        exact hfree q (by rw [hqueue]; exact List.mem_cons_of_mem _ hq)
      obtain ⟨n, hn, t, ht, hipc', hsuffix, hhead, hi', hfree'⟩ :=
        ih hnext (by rw [hipc]; exact hrun) hlater hrest
      refine ⟨n + 1, Nat.succ_le_succ hn, t, ?_, hipc'.trans hipc,
        hsuffix.trans (List.suffix_cons _ _), hhead, hi', hfree'⟩
      rw [List.replicate_succ]
      exact (Run.run_cons_eq_some _).mpr ⟨_, hstep, ht⟩

theorem free_own {a : IpcStep} {ipc : Ipc} {queue : List Waiting} (hfree : Free s)
    (hstep : s.ipc.step X a = some ipc)
    (hqueue : ∀ p, .stranger p ∈ queue → .stranger p ∈ s.queue) :
    Free { s with ipc := ipc, queue := queue } := by
  intro p hp
  rw [CaServer.blockedBy_congr (steady_own hstep).1]
  exact hfree p (hqueue p hp)

theorem own_step_free {a : IpcStep} {ipc : Ipc} (hi : Isolated X first labels s) (hfree : Free s)
    (hstep : s.ipc.step X a = some ipc)
    (hhead : ∀ w chunks, a = .serve w chunks → ∀ p rest, s.queue ≠ .stranger p :: rest) :
    ∃ t, step X s (.own a) = some t ∧ t.ipc = ipc ∧ Free t := by
  by_cases hconnect : ∃ t request, a = .connect t request
  · obtain ⟨t, request, rfl⟩ := hconnect
    exact ⟨_, (step_eq_some X).mpr (.connect hstep), rfl, free_own hfree hstep (by simp)⟩
  by_cases hserve : ∃ w chunks, a = .serve w chunks
  · obtain ⟨w, chunks, rfl⟩ := hserve
    have hqueued := hi.queued
    cases hqueue : s.queue with
    | nil =>
      rw [hqueue] at hqueued
      simp [Ipc.step, ← hqueued] at hstep
    | cons slot rest =>
      cases slot with
      | stranger p => exact absurd hqueue (hhead w chunks rfl p rest)
      | call u =>
        refine ⟨_, (step_eq_some X).mpr (.serve hqueue hstep), rfl, free_own hfree hstep ?_⟩
        intro p hp
        rw [hqueue]
        exact List.mem_cons_of_mem _ hp
  · have hquiet := Stepped.quiet (fun t request ha => hconnect ⟨t, request, ha⟩)
      (fun w chunks ha => hserve ⟨w, chunks, ha⟩) hstep
    exact ⟨_, (step_eq_some X).mpr hquiet, rfl, free_own hfree hstep fun _ => id⟩

theorem own_step_lifted {a : IpcStep} {ipc : Ipc} (hi : Isolated X first labels s)
    (hfree : Free s) (hstep : s.ipc.step X a = some ipc) (w : World) :
    ∃ n t, Run.run (step X) s (List.replicate n (.repel w) ++ [.own a]) = some t ∧
      t.ipc = ipc ∧ (∃ labels', Isolated X first labels' t) ∧ Free t := by
  obtain ⟨n, u, hrun, hipc, hi', hfree', hhead⟩ : ∃ n u,
      Run.run (step X) s (List.replicate n (.repel w)) = some u ∧ u.ipc = s.ipc ∧
        Isolated X first labels u ∧ Free u ∧
          ∀ w chunks, a = .serve w chunks → ∀ p rest, u.queue ≠ .stranger p :: rest := by
    by_cases hserve : ∃ w chunks, a = .serve w chunks
    · obtain ⟨w', chunks, rfl⟩ := hserve
      cases Ipc.step_stepped X hstep with
      | serve head at_t running ready stream =>
        obtain ⟨n, -, u, hrun, hipc, -, hhead, hi', hfree'⟩ := repel_all hi running hfree w
        exact ⟨n, u, hrun, hipc, hi', hfree', fun _ _ _ => hhead⟩
    · exact ⟨0, s, rfl, rfl, hi, hfree, fun w chunks ha => absurd ⟨w, chunks, ha⟩ hserve⟩
  obtain ⟨t, hown, ht, hfreet⟩ := own_step_free hi' hfree' (by rw [hipc]; exact hstep) hhead
  refine ⟨n, t, Run.run_appended hrun ((Run.run_cons_eq_some _).mpr ⟨t, hown, rfl⟩), ht,
    ⟨_, isolated_step hi' ?_ hown⟩, hfreet⟩
  simp

theorem own_run_lifted {steps : List IpcStep} {ipc : Ipc} (hi : Isolated X first labels s)
    (hfree : Free s) (h : Run.run (Ipc.step X) s.ipc steps = some ipc) (w : World) :
    ∃ more t, Run.run (step X) s more = some t ∧ more.filterMap OpenStep.ipcStep = steps ∧
      (∀ p, .intrude p ∉ more) ∧ t.ipc = ipc := by
  induction steps generalizing s labels with
  | nil => exact ⟨[], s, rfl, rfl, by simp, Option.some.inj h⟩
  | cons a steps ih =>
    obtain ⟨next, hstep, hrest⟩ := (Run.run_cons_eq_some _).mp h
    obtain ⟨n, u, hrun, hipc, ⟨labels', hi'⟩, hfree'⟩ := own_step_lifted hi hfree hstep w
    obtain ⟨more, t, hmore, hsteps, hintrude, ht⟩ := ih hi' hfree' (by rw [hipc]; exact hrest)
    refine ⟨List.replicate n (.repel w) ++ [.own a] ++ more, t, Run.run_appended hrun hmore, ?_, ?_,
      ht⟩
    · simp [List.filterMap_append, hsteps, OpenStep.ipcStep]
    · simp [hintrude]

theorem stuck_step {a : OpenStep} (hstuck : Stuck s) (h : step X s a = some s') :
    Stuck s' ∧ s'.ipc.served = s.ipc.served ∧ s'.shown = s.shown := by
  obtain ⟨p, rest, hqueue, hblocked⟩ := hstuck
  have hown : ∀ {b : IpcStep} {ipc : Ipc}, s.ipc.step X b = some ipc →
      ipc.server.blockedBy p = true := by
    intro b ipc own
    rw [CaServer.blockedBy_congr (steady_own own).1]
    exact hblocked
  cases (step_eq_some X).mp h with
  | intrude => exact ⟨⟨p, _, by rw [hqueue]; rfl, hblocked⟩, rfl, rfl⟩
  | repel head running unblocked =>
    obtain ⟨hp, -⟩ := List.cons.inj (hqueue.symm.trans head)
    obtain rfl := Waiting.stranger.inj hp
    simp [hblocked] at unblocked
  | connect own =>
    refine ⟨⟨p, _, by rw [hqueue]; rfl, hown own⟩, ?_, rfl⟩
    cases Ipc.step_stepped X own with
    | connect free => rfl
  | serve head own => simp [hqueue] at head
  | quiet not_connect not_serve own =>
    refine ⟨⟨p, rest, hqueue, hown own⟩, ?_, rfl⟩
    cases Ipc.step_stepped X own with
    | serve head at_t running ready stream => exact absurd rfl (not_serve _ _)
    | _ => rfl

end OpenIpc

theorem strangers_erased (X : Crates) (socketPath token : String) (ca : CertificateAuthority)
    (uid : Nat) (labels : List OpenStep) (s : OpenIpc)
    (hstrangers : ∀ p, OpenStep.intrude p ∈ labels →
      authenticFrame X uid token p.connection = none)
    (h : Run.run (OpenIpc.step X) (OpenIpc.start socketPath token ca uid) labels = some s) :
    OpenIpc.Isolated X (Ipc.start socketPath token ca uid) labels s ∧
      (s.Free → ∀ w,
        (s.ipc.running → ∃ n ≤ s.queue.length, ∃ t,
          Run.run (OpenIpc.step X) s (List.replicate n (.repel w)) = some t ∧ t.ipc = s.ipc ∧
            t.queue <:+ s.queue ∧ ∀ p rest, t.queue ≠ .stranger p :: rest) ∧
        ∀ steps ipc, Run.run (Ipc.step X) s.ipc steps = some ipc → ∃ more t,
          Run.run (OpenIpc.step X) s more = some t ∧
            more.filterMap OpenStep.ipcStep = steps ∧ (∀ p, .intrude p ∉ more) ∧ t.ipc = ipc) ∧
      (s.Stuck → ∀ more t, Run.run (OpenIpc.step X) s more = some t →
        t.Stuck ∧ t.ipc.served = s.ipc.served ∧ t.shown = s.shown) := by
  have hi : (∀ p, OpenStep.intrude p ∈ labels → authenticFrame X uid token p.connection = none) →
      OpenIpc.Isolated X (Ipc.start socketPath token ca uid) labels s := by
    refine Run.invariant_history (I := fun labels s =>
      (∀ p, OpenStep.intrude p ∈ labels → authenticFrame X uid token p.connection = none) →
        OpenIpc.Isolated X (Ipc.start socketPath token ca uid) labels s) ?_ ?_ h
    · exact fun _ => ⟨rfl, rfl, ⟨rfl, rfl⟩, by simp [OpenIpc.start], by simp [OpenIpc.start]⟩
    · intro labels s a s' hi hstep hall
      refine OpenIpc.isolated_step (hi fun p hp => hall p (List.mem_append_left _ hp)) ?_ hstep
      rintro p rfl
      exact hall p (List.mem_append_right _ List.mem_cons_self)
  refine ⟨hi hstrangers, fun hfree w => ⟨fun hrun => ?_, fun steps ipc hsteps => ?_⟩, ?_⟩
  · obtain ⟨n, hn, t, ht, hipc, hsuffix, hhead, -⟩ :=
      OpenIpc.repel_all (hi hstrangers) hrun hfree w
    exact ⟨n, hn, t, ht, hipc, hsuffix, hhead⟩
  · exact OpenIpc.own_run_lifted (hi hstrangers) hfree hsteps w
  · intro hstuck more t ht
    refine Run.invariant
      (I := fun t => t.Stuck ∧ t.ipc.served = s.ipc.served ∧ t.shown = s.shown) ?_
      ⟨hstuck, rfl, rfl⟩ ht
    rintro u a v ⟨hu, hserved, hshown⟩ hstep
    obtain ⟨hv, hserved', hshown'⟩ := OpenIpc.stuck_step hu hstep
    exact ⟨hv, hserved'.trans hserved, hshown'.trans hshown⟩

theorem strangers_erased_guess :
    ∃ labels s, .intrude guesser ∈ labels ∧ .intrude otherUser ∈ labels ∧
      Run.run (OpenIpc.step readingCrates)
        (OpenIpc.start "/run/ssh_ca.sock" "token" localAuthority 1000) labels = some s ∧
      labels.filterMap OpenStep.ipcStep = twoCalls ++ secondAnswer ∧
      OpenIpc.Isolated readingCrates localIpc labels s ∧
      ∃ call, s.ipc.calls 1 = some call ∧
        call.phase = .returned (.ok (.signedCertificate webCertificate)) := by
  have hguess : authenticFrame readingCrates 1000 "token" guesser.connection = none :=
    Option.isNone_iff_eq_none.mp (by simpa [fromClient] using guesser_stranger.1)
  obtain ⟨ipc, call, hrun, -, hcall, hphase⟩ := twoCalls_run
  have hintruded : Run.run (OpenIpc.step readingCrates)
      (OpenIpc.start "/run/ssh_ca.sock" "token" localAuthority 1000)
      [.intrude guesser, .intrude otherUser] =
        some ⟨localIpc, [.stranger guesser, .stranger otherUser], []⟩ := rfl
  obtain ⟨-, hlifted, -⟩ := strangers_erased readingCrates "/run/ssh_ca.sock" "token"
    localAuthority 1000 _ _ (by
      intro p hp
      simp only [List.mem_cons, OpenStep.intrude.injEq, List.not_mem_nil, or_false] at hp
      rcases hp with rfl | rfl
      · exact hguess
      · rfl) hintruded
  have hfree : OpenIpc.Free ⟨localIpc, [.stranger guesser, .stranger otherUser], []⟩ := by
    intro p hp
    simp only [List.mem_cons, Waiting.stranger.injEq, List.not_mem_nil, or_false] at hp
    rcases hp with rfl | rfl
    · exact guesser_stranger.2
    · rfl
  obtain ⟨more, t, hmore, hsteps, hintrude, rfl⟩ := (hlifted hfree (weekWorld 0)).2 _ ipc hrun
  refine ⟨[.intrude guesser, .intrude otherUser] ++ more, t, by simp, by simp,
    Run.run_appended hintruded hmore, ?_, ?_, call, hcall, hphase⟩
  · rw [List.filterMap_append, hsteps]
    rfl
  · refine (strangers_erased readingCrates "/run/ssh_ca.sock" "token" localAuthority 1000 _ t ?_
      (Run.run_appended hintruded hmore)).1
    intro p hp
    rcases List.mem_append.mp hp with hp | hp
    · simp only [List.mem_cons, OpenStep.intrude.injEq, List.not_mem_nil, or_false] at hp
      rcases hp with rfl | rfl
      · exact hguess
      · rfl
    · exact absurd hp (hintrude p)

end SshCertificateAuthority
