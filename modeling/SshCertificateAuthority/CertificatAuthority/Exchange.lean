import SshCertificateAuthority.CertificatAuthority.Ipc
import SshCertificateAuthority.CertificatAuthority.RequestFraming
import Mathlib.Data.Set.Basic

namespace SshCertificateAuthority
open ByteStream

section

variable (X : Crates) (ca : CertificateAuthority) (W : Set World)

def Answered (q : CaRequest) (r : CaResponse) : Prop :=
  (∃ e, r = .error e) ∨
    ∃ asked json text received, asked.request = q ∧ X.requestToString asked = .ok json ∧
      utf8 text <+: utf8 json ∧ X.requestFromStr text = .ok received ∧
      ∃ server w, w ∈ W ∧ server.ca = ca ∧
        CaServer.handleRequest X w server received.request = .ok r

def Exchange (q : CaRequest) (a : CaResponse) : Prop :=
  ∃ r json text, Answered X ca W q r ∧ X.responseToString r = .ok json ∧ utf8 text <+: utf8 json ∧
    X.responseFromStr text = .ok a

end

theorem exchange_mono {X : Crates} {ca : CertificateAuthority} {W W' : Set World} (h : W ⊆ W')
    {q : CaRequest} {a : CaResponse} (hex : Exchange X ca W q a) : Exchange X ca W' q a := by
  obtain ⟨r, json, text, hr, hrest⟩ := hex
  refine ⟨r, json, text, ?_, hrest⟩
  rcases hr with he | ⟨asked, qjson, qtext, received, hq, hqjson, hfront, hparse, server, w, hw,
    hhandle⟩
  · exact Or.inl he
  · exact Or.inr ⟨asked, qjson, qtext, received, hq, hqjson, hfront, hparse, server, w, h hw,
      hhandle⟩

theorem CaClient.decodeResponse_ok {X : Crates} {chunks : List Bytes} {a : CaResponse}
    (h : decodeResponse X chunks = .ok a) :
    ∃ payload rest text, readFrame maxMessageSize chunks = .ok (payload, rest) ∧
      fromUtf8 payload = some text ∧ X.responseFromStr text = .ok a := by
  rw [decodeResponse] at h
  split at h
  · simp at h
  · simp at h
  · simp at h
  · next payload rest hread =>
    split at h
    · simp at h
    · next text htext => exact ⟨payload, rest, text, hread, htext, h⟩

namespace Ipc

variable {X : Crates} {ca : CertificateAuthority} {W : Set World} {V : Nat → Set World}

def WorldsIn (W : Set World) (_ : Ipc) : IpcStep → Prop
  | .serve w _ => w ∈ W
  | _ => True

def ServedIn (V : Nat → Set World) (s : Ipc) : IpcStep → Prop
  | .serve w _ => ∀ t ∈ s.backlog.head?, w ∈ V t
  | _ => True

structure Conversing (X : Crates) (ca : CertificateAuthority) (W : Set World) (call : Call) :
    Prop where
  written : call.phase = .written → ∃ asked json, asked.request = call.request ∧
    X.requestToString asked = .ok json ∧ call.sent = frame (utf8 json)
  answered : ∀ response, call.phase = .answered response → response = [] ∨
    ∃ r json, Answered X ca W call.request r ∧ X.responseToString r = .ok json ∧
      response = frame (utf8 json)
  returned : ∀ a, call.phase = .returned (.ok a) → Exchange X ca W call.request a

theorem writeFrame_conversing {client : CaClient} {call : Call} {counter : UInt64} :
    Conversing X ca W (writeFrame X client call counter) := by
  rw [writeFrame]
  cases he : client.encodeRequest X counter call.request with
  | error e => exact ⟨by simp, by simp, by simp⟩
  | ok sent =>
    obtain ⟨json, hjson, hsent, -⟩ := CaClient.encodeRequest_ok client counter call.request he
    exact ⟨fun _ => ⟨_, json, rfl, hjson, hsent⟩, by simp, by simp⟩

theorem delivered_conversing {s : Ipc} {call : Call} {w : World} {chunks : List Bytes}
    {server : CaServer} {response : Bytes} (hi : Conversing X ca W call) (hca : s.server.ca = ca)
    (hw : w ∈ W) (phase : call.phase = .written) (stream : chunks.flatten = call.sent)
    (accepted : s.server.accept X w ⟨.ok s.server.serverUid, chunks⟩ = .ok (server, response)) :
    Conversing X ca W { call with phase := .answered response } := by
  refine ⟨by simp, ?_, by simp⟩
  rintro _ ⟨⟩
  rcases CaServer.accept_response X accepted with hempty | ⟨r, json, hjson, hresponse, hr⟩
  · exact Or.inl hempty
  refine Or.inr ⟨r, json, ?_, hjson, hresponse⟩
  rcases hr with herr | ⟨q, hq, hhandle⟩
  · exact Or.inl herr
  obtain ⟨payload, rest, text, hread, htext, hparse⟩ := CaServer.receive_dispatched X hq
  obtain ⟨asked, qjson, hasked, hqjson, hsent⟩ := hi.written phase
  have hfront := readFrame_prefix (stream.trans hsent) hread
  rw [← utf8_of_fromUtf8 htext] at hfront
  exact Or.inr ⟨asked, qjson, text, q, hasked, hqjson, hfront, hparse, _, w, hw, hca, hhandle⟩

theorem read_conversing {call : Call} {chunks : List Bytes} (hi : Conversing X ca W call)
    (phase : call.phase = .answered chunks.flatten) :
    Conversing X ca W { call with phase := .returned (CaClient.decodeResponse X chunks) } := by
  refine ⟨by simp, by simp, ?_⟩
  intro a ha
  have hok : CaClient.decodeResponse X chunks = .ok a := by simpa using ha
  obtain ⟨payload, rest, text, hread, htext, hparse⟩ := CaClient.decodeResponse_ok hok
  rcases hi.answered _ phase with hempty | ⟨r, json, hr, hjson, hframe⟩
  · rw [readFrame_nil hempty] at hread
    simp at hread
  · have hfront := readFrame_prefix hframe hread
    rw [← utf8_of_fromUtf8 htext] at hfront
    exact ⟨r, json, text, hr, hjson, hfront, hparse⟩

theorem conversing_stepped {s s' : Ipc} {a : IpcStep}
    (hi : ∀ t call, s.calls t = some call → Conversing X ca (V t) call) (hca : s.server.ca = ca)
    (hw : ServedIn V s a) (h : Stepped X s a s') :
    ∀ t call, s'.calls t = some call → Conversing X ca (V t) call := by
  have hset : ∀ u call', Conversing X ca (V u) call' →
      ∀ t call, (s.setCall u call').calls t = some call → Conversing X ca (V t) call := by
    intro u call' hu t call at_t
    rw [setCall_calls] at at_t
    split at at_t
    · next htu =>
      obtain rfl := Option.some.inj at_t
      exact htu ▸ hu
    · exact hi t call at_t
  cases h with
  | connect free => exact hset _ _ ⟨by simp, by simp, by simp⟩
  | fetchAdd at_t phase =>
    refine hset _ _ ?_
    cases CaClient.checkedAddOne s.counter with
    | none => exact ⟨by simp [draw], by simp [draw], by simp [draw]⟩
    | some counter => exact ⟨by simp [draw], by simp [draw], by simp [draw]⟩
  | write at_t holds phase => exact hset _ _ writeFrame_conversing
  | read at_t phase => exact hset _ _ (read_conversing (hi _ _ at_t) phase)
  | abort at_t open_t => exact hset _ _ ⟨by simp, by simp, by simp⟩
  | @serve w chunks t rest call head at_t running ready stream =>
    obtain ⟨-, -, -, -, -, -, hcalls⟩ := serveHead_cases (X := X) s w chunks t rest call
    have hwt : w ∈ V t := hw t (by simp [head])
    rcases hcalls with hsame | ⟨server, response, accepted, hset'⟩
    · rw [hsame]
      exact hi
    · rw [hset']
      refine hset t _ ?_
      rw [deliver]
      split
      · next phase =>
        exact delivered_conversing (hi t call at_t) hca hwt phase stream accepted
      · exact hi t call at_t

structure Honoured (X : Crates) (ca : CertificateAuthority) (V : Nat → Set World) (s : Ipc) :
    Prop where
  authority : s.server.ca = ca
  conversing : ∀ t call, s.calls t = some call → Conversing X ca (V t) call

theorem start_honoured (socketPath token : String) (uid : Nat) :
    Honoured X ca V (start socketPath token ca uid) := ⟨rfl, by simp [start]⟩

theorem stepped_authority {s s' : Ipc} {a : IpcStep} (h : Stepped X s a s') :
    s'.server.ca = s.server.ca := by
  cases h with
  | @serve w chunks t rest call head at_t running ready stream =>
    obtain ⟨-, -, -, -, -, hserver, -⟩ := serveHead_cases (X := X) s w chunks t rest call
    rw [hserver]
    cases s.server.receive X ⟨.ok s.server.serverUid, chunks⟩ <;> rfl
  | _ => rfl

theorem honoured_step {s s' : Ipc} {a : IpcStep} (hi : Honoured X ca V s) (hw : ServedIn V s a)
    (h : step X s a = some s') : Honoured X ca V s' := by
  have hst := step_stepped X h
  exact ⟨(stepped_authority hst).trans hi.authority,
    conversing_stepped hi.conversing hi.authority hw hst⟩

end Ipc
end SshCertificateAuthority
