import SshCertificateAuthority.CertificatAuthority.Exchange
import SshCertificateAuthority.CertificatAuthority.RequestOrder

namespace SshCertificateAuthority
open ByteStream

section

variable {X : Crates} {w : World}

theorem CaServer.handleRequest_congr {s t : CaServer} (h : s.ca = t.ca) (q : CaRequest) :
    s.handleRequest X w q = t.handleRequest X w q := by
  cases q with
  | signCertificate user publicKey => simp only [handleRequest, h]
  | checkPublicKey publicKey => simp only [handleRequest, h]
  | signHostCertificate hostName publicKey => simp only [handleRequest, h]

theorem CaServer.accept_handled {s : CaServer} {c : Connection} {q : AuthenticatedRequest}
    {r : CaResponse} {json : String} (hreceive : s.receive X c = .dispatched q)
    (hhandle : s.handleRequest X w q.request = .ok r) (hjson : X.responseToString r = .ok json) :
    s.accept X w c = .ok (s.noted (.dispatched q), frame (utf8 json)) := by
  have hnoted : (s.noted (.dispatched q)).handleRequest X w q.request = .ok r := by
    rw [← hhandle]
    exact handleRequest_congr rfl _
  simp only [accept, hreceive, answer, hnoted, Outcome.ok_bind, respond, hjson, Except.map,
    Outcome.ofExcept, Outcome.pure_eq]

theorem CaClient.decodeResponse_frame {json : String}
    (hshort : json.utf8ByteSize ≤ maxMessageSize.toNat) :
    decodeResponse X [frame (utf8 json)] = X.responseFromStr json := by
  obtain ⟨rest, hread⟩ := readFrame_frame_short maxMessageSize
    (List.flatten_singleton : [frame (utf8 json)].flatten = _) (by rwa [utf8_length])
  rw [decodeResponse, hread]
  dsimp only
  rw [fromUtf8_utf8]

theorem CaClient.encodeRequest_short {client : CaClient} {counter : UInt64} {request : CaRequest}
    {json : String}
    (hjson : X.requestToString (client.authRequest counter request) = .ok json)
    (hshort : json.utf8ByteSize ≤ maxMessageSize.toNat) :
    client.encodeRequest X counter request = .ok (frame (utf8 json)) := by
  rw [encodeRequest_eq _ _ _ hjson, if_neg]
  rw [lengthCast_lt_iff, utf8_length]
  have hmax : maxMessageSize.toNat = 65536 := rfl
  omega

end

structure ServedCall (X : Crates) (first : Ipc) (w : World) (counter : UInt64) (request : CaRequest)
    (asked : String) (r : CaResponse) (answered : String) : Prop where
  request_text : X.requestToString (first.client.authRequest counter request) = .ok asked
  request_short : asked.utf8ByteSize ≤ maxMessageSize.toNat
  request_read : X.requestFromStr asked = .ok (first.client.authRequest counter request)
  handled : first.server.handleRequest X w request = .ok r
  response_text : X.responseToString r = .ok answered
  response_short : answered.utf8ByteSize ≤ maxMessageSize.toNat

namespace Ipc

variable {X : Crates} {first s : Ipc} {n : Nat}

-- At rest after `n` calls, each of them read to its end.
structure Rested (first : Ipc) (n : Nat) (s : Ipc) : Prop where
  client : s.client = first.client
  counter : s.counter = .ofNat n
  server : s.server = { first.server with lastCounter := .ofNat n }
  running : s.running = true
  backlog : s.backlog = []
  free : ∀ t, n ≤ t → s.calls t = none
  returned : ∀ t call, s.calls t = some call → ∃ result, call.phase = .returned result

theorem start_rested (socketPath token : String) (ca : CertificateAuthority) (uid : Nat) :
    Rested (start socketPath token ca uid) 0 (start socketPath token ca uid) :=
  ⟨rfl, rfl, rfl, rfl, rfl, fun _ _ => rfl, by simp [start]⟩

def converse (t : Nat) (w : World) (asked answered : String) : List IpcStep :=
  [.fetchAdd t, .write t, .serve w [frame (utf8 asked)], .read t [frame (utf8 answered)]]

theorem rested_accept {w : World} {request : CaRequest} {r : CaResponse} {asked answered : String}
    (h : Rested first n s) (hn : n + 1 < 18446744073709551616)
    (htoken : first.client.authToken = first.server.authToken)
    (hg : ServedCall X first w (.ofNat (n + 1)) request asked r answered) :
    s.server.accept X w ⟨.ok s.server.serverUid, [frame (utf8 asked)]⟩ =
      .ok ({ first.server with lastCounter := .ofNat (n + 1) }, frame (utf8 answered)) := by
  have hadm : Admissible X first.client (.ofNat (n + 1)) request :=
    ⟨asked, _, hg.request_text, by rw [utf8_length]; exact hg.request_short, hg.request_read, rfl,
      rfl⟩
  obtain ⟨q, hq, -, hreceive⟩ := CaServer.receive_admissible (s := s.server) hadm
    (by rw [htoken, h.server]) hg.request_text
    (List.flatten_singleton : [frame (utf8 asked)].flatten = _)
  obtain rfl : first.client.authRequest (.ofNat (n + 1)) request = q := by
    simpa [hg.request_read] using hq
  have hlater : ¬ UInt64.ofNat (n + 1) ≤ s.server.lastCounter := by
    rw [h.server, UInt64.le_iff_toNat_le, UInt64.toNat_ofNat', UInt64.toNat_ofNat',
      Nat.mod_eq_of_lt hn, Nat.mod_eq_of_lt (by omega)]
    omega
  rw [if_neg hlater] at hreceive
  have hhandle : s.server.handleRequest X w request = .ok r := by
    rw [← hg.handled]
    exact CaServer.handleRequest_congr (by rw [h.server]) request
  rw [CaServer.accept_handled hreceive hhandle hg.response_text, h.server]
  rfl

theorem converse_run {w : World} {request : CaRequest} {r : CaResponse} {asked answered : String}
    (h : Rested first n s) (hn : n + 1 < 18446744073709551616)
    (htoken : first.client.authToken = first.server.authToken)
    (hg : ServedCall X first w (.ofNat (n + 1)) request asked r answered) :
    ∃ s₁, step X s (.connect n request) = some s₁ ∧ ∃ s₂ call,
      Run.run (step X) s₁ (converse n w asked answered) = some s₂ ∧ Rested first (n + 1) s₂ ∧
        s₂.calls n = some call ∧ call.phase = .returned (X.responseFromStr answered) := by
  have hacc := rested_accept h hn htoken hg
  have hencode := CaClient.encodeRequest_short hg.request_text hg.request_short
  have hdecode := CaClient.decodeResponse_frame (X := X) hg.response_short
  have hdraw : CaClient.checkedAddOne (.ofNat n) = some (.ofNat (n + 1)) := by
    rw [CaClient.checkedAddOne, UInt64.toNat_ofNat', Nat.mod_eq_of_lt (by omega), if_pos hn,
      UInt64.ofNat_add]
    rfl
  have hnext : UInt64.ofNat n + 1 = .ofNat (n + 1) := (UInt64.ofNat_add n 1).symm
  have hfree := h.free n le_rfl
  have hlater : ∀ t, n + 1 ≤ t → t ≠ n ∧ s.calls t = none :=
    fun t ht => ⟨by omega, h.free t (by omega)⟩
  refine ⟨{ s.setCall n ⟨request, none, [], .connected⟩ with backlog := [n] }, ?_, ?_⟩
  · rw [step, hfree, h.backlog]
    rfl
  obtain ⟨counter, hcounter⟩ : ∃ counter, counter = UInt64.ofNat (n + 1) := ⟨_, rfl⟩
  rw [← hcounter] at hacc hencode hdraw hnext
  refine ⟨{ s.setCall n ⟨request, some counter, frame (utf8 asked),
      .returned (X.responseFromStr answered)⟩ with
    counter := counter
    server := { first.server with lastCounter := counter }
    backlog := []
    drawn := s.drawn ++ [(n, some counter)]
    served := s.served ++
      [(n, s.server.receive X ⟨.ok s.server.serverUid, [frame (utf8 asked)]⟩)] },
      _, ?_, ⟨h.client, hcounter, hcounter ▸ rfl, h.running, rfl, ?_, ?_⟩,
      by rw [setCall_calls, if_pos rfl], rfl⟩
  · simp [converse, Run.run, step, setCall, CaClient.fetchAdd, draw, writeFrame, serveHead, deliver,
      readable, h.client, h.counter, h.running, hdraw, hencode, hdecode, hacc, hnext]
  · intro t ht
    rw [setCall_calls, if_neg (hlater t ht).1, (hlater t ht).2]
  · intro t call ht
    rw [setCall_calls] at ht
    split at ht
    · obtain rfl := Option.some.inj ht
      exact ⟨_, rfl⟩
    · exact h.returned t call ht

end Ipc
end SshCertificateAuthority
