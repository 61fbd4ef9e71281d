import SshCertificateAuthority.CertificatAuthority.Linearization
import SshCertificateAuthority.CertificatAuthority.ServedOrders

namespace SshCertificateAuthority
open ByteStream Sequential

structure CaServer.Alike (s t : CaServer) : Prop where
  ca : s.ca = t.ca
  authToken : s.authToken = t.authToken
  serverUid : s.serverUid = t.serverUid

def rejected : CaResponse := .error "authentication failed"

namespace CaServer

variable {X : Crates} {s alone : CaServer}

theorem noted_alike (h : s.Alike alone) (received : Received) : (s.noted received).Alike alone := by
  cases received with
  | dispatched r => exact ⟨h.ca, h.authToken, h.serverUid⟩
  | _ => exact h

theorem authenticate_alone (h : s.Alike alone) (hfresh : alone.lastCounter = 0)
    (r : AuthenticatedRequest) :
    s.authenticate r = .refused rejected ∨ s.authenticate r = alone.authenticate r := by
  rw [authenticate, authenticate, h.authToken]
  by_cases htoken : utf8 r.token ≠ utf8 alone.authToken
  · exact Or.inl (if_pos htoken)
  · rw [if_neg htoken, if_neg htoken, hfresh]
    by_cases hreplay : r.counter ≤ s.lastCounter
    · exact Or.inl (if_pos hreplay)
    · refine Or.inr ?_
      rw [if_neg hreplay, if_neg]
      rw [UInt64.le_iff_toNat_le] at hreplay ⊢
      exact fun hzero => hreplay (Nat.le_trans hzero (Nat.zero_le _))

theorem receive_alone (h : s.Alike alone) (hfresh : alone.lastCounter = 0) (c : Connection) :
    s.receive X c = .refused rejected ∨ s.receive X c = alone.receive X c := by
  rw [receive, receive, h.serverUid]
  cases c.peerCred with
  | error e => exact Or.inr rfl
  | ok uid =>
    dsimp only
    split
    · exact Or.inr rfl
    · cases readFrame maxMessageSize c.chunks with
      | error e => exact Or.inr rfl
      | ok frame =>
        dsimp only
        cases fromUtf8 frame.1 with
        | none => exact Or.inr rfl
        | some json =>
          dsimp only
          cases X.requestFromStr json with
          | error e => exact Or.inr rfl
          | ok r => exact authenticate_alone h hfresh r

theorem answer_alone (h : s.ca = alone.ca) (w : World) (received : Received) :
    answer X w s received = answer X w alone received := by
  cases received with
  | dispatched r =>
    have hrequest : s.handleRequest X w r.request = alone.handleRequest X w r.request := by
      unfold handleRequest
      rw [h]
    rw [answer, answer, hrequest]
  | _ => rfl

theorem handle_alone (h : s.Alike alone) (hfresh : alone.lastCounter = 0) (p : World × Connection) :
    (∃ response, respond X (some rejected) = .ok response ∧ s.handle X p = .ok (s, response)) ∨
      (s.handle X p >>= fun r => pure r.2) = (alone.handle X p >>= fun r => pure r.2) := by
  rw [handle, handle, accept, accept]
  rcases receive_alone h hfresh p.2 with hr | hr
  · obtain ⟨response, hresponse⟩ := respond_error X "authentication failed"
    refine Or.inl ⟨response, hresponse, ?_⟩
    rw [hr, answer, Outcome.ok_bind, rejected, hresponse]
    rfl
  · refine Or.inr ?_
    rw [hr]
    generalize alone.receive X p.2 = received
    have hca : (s.noted received).ca = (alone.noted received).ca := by
      cases received <;> exact h.ca
    rw [answer_alone hca]
    cases answer X p.1 (alone.noted received) received with
    | ok resp =>
      rw [Outcome.ok_bind, Outcome.ok_bind]
      cases respond X resp <;> rfl
    | err e => rfl
    | panic site => rfl

end CaServer

-- The answer of a CA that serves nothing but this frame, or the rejection of a replay.
def AnsweredAlone (X : Crates) (alone : CaServer) (p : World × Connection) (response : Bytes) :
    Prop :=
  CaServer.respond X (some rejected) = .ok response ∨
    ∃ served, alone.handle X p = .ok (served, response)

section

variable {X : Crates} {alone : CaServer}

theorem handle_answeredAlone {s t : CaServer} {p : World × Connection} {response : Bytes}
    (h : s.Alike alone) (hfresh : alone.lastCounter = 0) (hs : s.handle X p = .ok (t, response)) :
    t.Alike alone ∧ AnsweredAlone X alone p response := by
  refine ⟨?_, ?_⟩
  · rw [CaServer.accept_server X hs]
    exact CaServer.noted_alike h _
  · rcases CaServer.handle_alone (X := X) h hfresh p with ⟨refusal, hrefusal, hr⟩ | hsame
    · obtain ⟨-, rfl⟩ := Prod.mk.inj (Outcome.ok.inj (hr.symm.trans hs))
      exact Or.inl hrefusal
    · rw [hs] at hsame
      obtain ⟨served, hserved, hresponse⟩ := Outcome.bind_eq_ok hsame.symm
      have hout : served.2 = response := Outcome.ok.inj hresponse
      refine Or.inr ⟨served.1, ?_⟩
      rw [hserved, ← hout]

theorem handle_fatalAlone {s : CaServer} {p : World × Connection} (h : s.Alike alone)
    (hfresh : alone.lastCounter = 0) (hs : ∀ r, s.handle X p ≠ .ok r) (r : CaServer × Bytes) :
    alone.handle X p ≠ .ok r := by
  intro hr
  rcases CaServer.handle_alone (X := X) h hfresh p with ⟨_, -, hrefused⟩ | hsame
  · exact hs _ hrefused
  · rw [hr] at hsame
    obtain ⟨served, hserved, -⟩ := Outcome.bind_eq_ok hsame
    exact hs served hserved

theorem history_answeredAlone {last : CaServer} {history : List Handling}
    (hfresh : alone.lastCounter = 0)
    (h : replay (CaServer.handle X) alone (history.map Handling.input) =
      .ok (last, history.map Handling.response)) :
    last.Alike alone ∧ ∀ e ∈ history, AnsweredAlone X alone e.input e.response := by
  have hstart : alone.Alike alone := ⟨rfl, rfl, rfl⟩
  have hstep : ∀ s p t response, CaServer.Alike s alone → s.handle X p = .ok (t, response) →
      t.Alike alone ∧ AnsweredAlone X alone p response :=
    fun s p t response hs => handle_answeredAlone hs hfresh
  have hlast : ∀ s p t response, CaServer.Alike s alone → s.handle X p = .ok (t, response) →
      t.Alike alone := fun s p t response hs hp => (hstep s p t response hs hp).1
  refine ⟨replay_invariant hlast hstart h, ?_⟩
  have hall := replay_answers hstep hstart h
  rw [List.forall₂_map_left_iff, List.forall₂_map_right_iff] at hall
  exact List.forall₂_same.mp hall

end

theorem calls_independent (X : Crates) (socketPath token : String) (ca : CertificateAuthority)
    (uid : Nat) (labels : List IpcStep) (s : Ipc)
    (h : Run.run (Ipc.step X) (Ipc.start socketPath token ca uid) labels = some s) :
    (∀ t call answer, s.calls t = some call → call.phase = .returned (.ok answer) →
      ∃ counter w sent received, call.counter = some counter ∧
        s.client.encodeRequest X counter call.request = .ok call.sent ∧
        IpcStep.serve w sent ∈ labels ∧ sent.flatten = call.sent ∧
        CaClient.decodeResponse X received = .ok answer ∧
        AnsweredAlone X (CaServer.new socketPath ca token uid) (w, ⟨.ok uid, sent⟩)
          received.flatten) ∧
    (s.running = false → ∃ w sent, IpcStep.serve w sent ∈ labels ∧
      ∀ r, (CaServer.new socketPath ca token uid).handle X (w, ⟨.ok uid, sent⟩) ≠ .ok r) := by
  obtain ⟨history, last, fatal, hlin⟩ := Ipc.run_linearized h
  obtain ⟨hlast, halone⟩ := history_answeredAlone rfl hlin.replayed
  have hserved : ∀ p ∈ history.map Handling.input ++ fatal.toList.map Prod.snd,
      ∃ sent, IpcStep.serve p.1 sent ∈ labels ∧ p.2 = ⟨.ok uid, sent⟩ := by
    intro p hp
    rw [← hlin.handled] at hp
    obtain ⟨a, ha, hhandled⟩ := List.mem_filterMap.mp hp
    cases a with
    | serve w sent =>
      obtain rfl := Option.some.inj hhandled
      exact ⟨sent, ha, rfl⟩
    | _ => simp [IpcStep.handled] at hhandled
  constructor
  · intro t call answer at_t hphase
    obtain ⟨⟨counter, hcounter, hencode⟩, received, hdecode, e, he, -, hstream, hresponse⟩ :=
      (hlin.reached t call at_t).returned answer hphase
    obtain ⟨sent, hlabel, hinput⟩ :=
      hserved e.input (List.mem_append_left _ (List.mem_map_of_mem he))
    have hanswer := halone e he
    rw [hresponse, ← Prod.mk.eta (p := e.input), hinput] at hanswer
    rw [hinput] at hstream
    exact ⟨counter, e.input.1, sent, received, hcounter, hencode, hlabel, hstream, hdecode, hanswer⟩
  · intro hstopped
    cases hfatal : fatal with
    | none =>
      simp [(hlin.serving hfatal).1] at hstopped
    | some p =>
      obtain ⟨sent, hlabel, hinput⟩ := hserved p.2 (by simp [hfatal])
      refine ⟨p.2.1, sent, hlabel, ?_⟩
      have hhandle := handle_fatalAlone hlast rfl (hlin.stopped p.1 p.2 hfatal).2
      rw [← Prod.mk.eta (p := p.2), hinput] at hhandle
      exact hhandle

theorem calls_independent_both_served :
    ∃ s call, Run.run (Ipc.step readingCrates) localIpc (twoCalls ++ secondAnswer) = some s ∧
      s.calls 1 = some call ∧ call.phase = .returned (.ok (.signedCertificate webCertificate)) ∧
      (∀ t call answer, s.calls t = some call → call.phase = .returned (.ok answer) →
        ∃ counter w sent received, call.counter = some counter ∧
          s.client.encodeRequest readingCrates counter call.request = .ok call.sent ∧
          IpcStep.serve w sent ∈ twoCalls ++ secondAnswer ∧ sent.flatten = call.sent ∧
          CaClient.decodeResponse readingCrates received = .ok answer ∧
          AnsweredAlone readingCrates localIpc.server (w, ⟨.ok 1000, sent⟩) received.flatten) ∧
      (s.running = false → ∃ w sent, IpcStep.serve w sent ∈ twoCalls ++ secondAnswer ∧
        ∀ r, localIpc.server.handle readingCrates (w, ⟨.ok 1000, sent⟩) ≠ .ok r) := by
  obtain ⟨s, call, hrun, -, hcall, hphase⟩ := twoCalls_run
  exact ⟨s, call, hrun, hcall, hphase, calls_independent readingCrates _ _ _ _ _ s hrun⟩

end SshCertificateAuthority
