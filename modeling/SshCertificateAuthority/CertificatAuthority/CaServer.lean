import SshCertificateAuthority.CertificatAuthority.Authority
import SshCertificateAuthority.CertificatAuthority.Environment

namespace SshCertificateAuthority
open ByteStream

structure Connection where
  peerCred : Except String Nat
  chunks : List Bytes

-- What a peer sends, and whether it then leaves its side of the connection open for ever.
structure Peer where
  connection : Connection
  holdsOpen : Bool

structure CaServer where
  socketPath : String
  ca : CertificateAuthority
  authToken : String
  lastCounter : UInt64
  serverUid : Nat

inductive Received where
  | dropped
  | refused (response : CaResponse)
  | dispatched (request : AuthenticatedRequest)
deriving DecidableEq, Repr

def Received.handed : Received → List AuthenticatedRequest
  | .dispatched r => [r]
  | _ => []

namespace CaServer

variable (X : Crates)

def new (socketPath : String) (ca : CertificateAuthority) (authToken : String) (serverUid : Nat) :
    CaServer where
  socketPath := socketPath
  ca := ca
  authToken := authToken
  lastCounter := 0
  serverUid := serverUid

def authenticate (s : CaServer) (authReq : AuthenticatedRequest) : Received :=
  if utf8 authReq.token ≠ utf8 s.authToken then .refused (.error "authentication failed")
  else if authReq.counter ≤ s.lastCounter then .refused (.error "authentication failed")
  else .dispatched authReq

def receive (s : CaServer) (c : Connection) : Received :=
  match c.peerCred with
  | .error _ => .dropped
  | .ok uid =>
    if uid ≠ s.serverUid then .dropped
    else
      match readFrame maxMessageSize c.chunks with
      | .error _ => .dropped
      | .ok (buf, _) =>
        match fromUtf8 buf with
        | none => .dropped
        | some requestJson =>
          match X.requestFromStr requestJson with
          | .error e => .refused (.error ("Invalid request format: " ++ e))
          | .ok authReq => s.authenticate authReq

def noted (s : CaServer) : Received → CaServer
  | .dispatched r => { s with lastCounter := r.counter }
  | _ => s

def handleRequest (w : World) (s : CaServer) : CaRequest → Outcome CaResponse
  | .signCertificate user publicKey => do
    let cert ← s.ca.signCertificate X w user publicKey
    pure (.signedCertificate cert)
  | .signHostCertificate hostName publicKey => do
    let cert ← s.ca.signHostCertificate X w hostName publicKey
    pure (.signedCertificate cert)
  | .checkPublicKey publicKey =>
    match X.toOpenssh publicKey with
    | .error _ => .ok (.keyFound none)
    | .ok strKey => do
      let host ← s.ca.checkPublicKey X w strKey
      pure (.keyFound host)

def answer (w : World) (s : CaServer) : Received → Outcome (Option CaResponse)
  | .dropped => .ok none
  | .refused r => .ok (some r)
  | .dispatched r =>
    match s.handleRequest X w r.request with
    | .ok resp => .ok (some resp)
    | .err e => .ok (some (.error e))
    | .panic site => .panic site

def respond : Option CaResponse → Outcome Bytes
  | none => .ok []
  | some r => Outcome.ofExcept ((X.responseToString r).map fun json => frame (utf8 json))

def accept (w : World) (s : CaServer) (c : Connection) : Outcome (CaServer × Bytes) := do
  let received := s.receive X c
  let resp ← answer X w (s.noted received) received
  let written ← respond X resp
  pure (s.noted received, written)

def awaits (s : CaServer) (c : Connection) : Bool :=
  match c.peerCred with
  | .error _ => false
  | .ok uid =>
    if uid ≠ s.serverUid then false
    else
      match readFrame maxMessageSize c.chunks with
      | .error .length | .error .payload => true
      | _ => false

-- `read_exact` has no timeout: the loop goes no further while it waits for the rest of a frame.
def blockedBy (s : CaServer) (p : Peer) : Bool := p.holdsOpen && s.awaits p.connection

def attend (s : CaServer) (p : World × Peer) : Outcome (CaServer × Bytes) :=
  if s.blockedBy p.2 then .err "read_exact" else s.accept X p.1 p.2.connection

theorem authenticate_cases (s : CaServer) (r : AuthenticatedRequest) :
    s.authenticate r = .refused (.error "authentication failed") ∨
      s.authenticate r = .dispatched r := by
  rw [authenticate]
  split
  · exact Or.inl rfl
  · split
    · exact Or.inl rfl
    · exact Or.inr rfl

theorem receive_cases (s : CaServer) (c : Connection) :
    s.receive X c = .dropped ∨
      (∃ e, s.receive X c = .refused (.error ("Invalid request format: " ++ e))) ∨
      ∃ payload rest text r, readFrame maxMessageSize c.chunks = .ok (payload, rest) ∧
        fromUtf8 payload = some text ∧ X.requestFromStr text = .ok r ∧
        s.receive X c = s.authenticate r := by
  rw [receive]
  split
  · exact Or.inl rfl
  · split
    · exact Or.inl rfl
    · split
      · exact Or.inl rfl
      · next payload rest hread =>
        split
        · exact Or.inl rfl
        · next text htext =>
          split
          · next e he => exact Or.inr (Or.inl ⟨e, rfl⟩)
          · next r hr => exact Or.inr (Or.inr ⟨payload, rest, text, r, hread, htext, hr, rfl⟩)

theorem receive_dispatched {s : CaServer} {c : Connection} {q : AuthenticatedRequest}
    (h : s.receive X c = .dispatched q) :
    ∃ payload rest text, readFrame maxMessageSize c.chunks = .ok (payload, rest) ∧
      fromUtf8 payload = some text ∧ X.requestFromStr text = .ok q := by
  rcases receive_cases X s c with hd | ⟨e, he⟩ | ⟨payload, rest, text, r, hread, htext, hr, ha⟩
  · simp [hd] at h
  · simp [he] at h
  · rcases authenticate_cases s r with hf | hq
    · simp [ha, hf] at h
    · obtain rfl : r = q := by simpa [ha, hq] using h
      exact ⟨payload, rest, text, hread, htext, hr⟩

theorem receive_refused {s : CaServer} {c : Connection} {r : CaResponse}
    (h : s.receive X c = .refused r) : ∃ e, r = .error e := by
  rcases receive_cases X s c with hd | ⟨e, he⟩ | ⟨payload, rest, text, q, -, -, -, ha⟩
  · simp [hd] at h
  · exact ⟨_, by simpa [he, eq_comm] using h⟩
  · rcases authenticate_cases s q with hf | hq
    · exact ⟨_, by simpa [ha, hf, eq_comm] using h⟩
    · simp [ha, hq] at h

theorem answer_response {w : World} {s : CaServer} {c : Connection} {r : CaResponse}
    (h : answer X w (s.noted (s.receive X c)) (s.receive X c) = .ok (some r)) :
    (∃ e, r = .error e) ∨ ∃ q, s.receive X c = .dispatched q ∧
      (s.noted (.dispatched q)).handleRequest X w q.request = .ok r := by
  cases hr : s.receive X c with
  | dropped => simp [hr, answer] at h
  | refused r' =>
    obtain rfl : r' = r := by simpa [hr, answer] using h
    exact Or.inl (receive_refused X hr)
  | dispatched q =>
    rw [hr, answer] at h
    split at h
    · next resp hresp =>
      obtain rfl : resp = r := by simpa using h
      exact Or.inr ⟨q, rfl, hresp⟩
    · next e he => exact Or.inl ⟨e, by simpa [eq_comm] using h⟩
    · simp at h

theorem accept_response {w : World} {s t : CaServer} {c : Connection} {out : Bytes}
    (h : s.accept X w c = .ok (t, out)) :
    out = [] ∨ ∃ r json, X.responseToString r = .ok json ∧ out = frame (utf8 json) ∧
      ((∃ e, r = .error e) ∨ ∃ q, s.receive X c = .dispatched q ∧
        (s.noted (.dispatched q)).handleRequest X w q.request = .ok r) := by
  obtain ⟨resp, hresp, h⟩ := Outcome.bind_eq_ok h
  obtain ⟨written, hwritten, h⟩ := Outcome.bind_eq_ok h
  obtain rfl : written = out := congrArg Prod.snd (Outcome.ok.inj h)
  cases resp with
  | none => exact Or.inl (Outcome.ok.inj hwritten).symm
  | some r =>
    cases hj : X.responseToString r with
    | error e => simp [respond, hj, Outcome.ofExcept, Except.map] at hwritten
    | ok json =>
      have hout : frame (utf8 json) = written := by
        simpa [respond, hj, Outcome.ofExcept, Except.map] using hwritten
      exact Or.inr ⟨r, json, hj, hout.symm, answer_response X hresp⟩

theorem noted_steady (s : CaServer) (v : Received) :
    (s.noted v).serverUid = s.serverUid ∧ (s.noted v).authToken = s.authToken := by
  cases v <;> exact ⟨rfl, rfl⟩

theorem awaits_congr {s t : CaServer} (h : t.serverUid = s.serverUid) (c : Connection) :
    t.awaits c = s.awaits c := by
  rw [awaits, awaits, h]

theorem blockedBy_congr {s t : CaServer} (h : t.serverUid = s.serverUid) (p : Peer) :
    t.blockedBy p = s.blockedBy p := by
  rw [blockedBy, blockedBy, awaits_congr h]

theorem respond_plain {r : CaResponse} (h : ∀ cert, r ≠ .signedCertificate cert) :
    ∃ out, respond X (some r) = .ok out := by
  obtain ⟨json, hjson⟩ := X.plain_written r h
  exact ⟨_, by rw [respond, hjson]; rfl⟩

theorem respond_error (e : String) : ∃ out, respond X (some (.error e)) = .ok out :=
  respond_plain X (by simp)

theorem accept_refused {w : World} {s : CaServer} {c : Connection}
    (h : s.receive X c = .dropped ∨ ∃ e, s.receive X c = .refused (.error e)) :
    ∃ out, s.accept X w c = .ok (s, out) := by
  rcases h with h | ⟨e, h⟩
  · exact ⟨[], by rw [accept, h]; rfl⟩
  · obtain ⟨out, ho⟩ := respond_error X e
    exact ⟨out, by simp only [accept, h, answer, Outcome.ok_bind, ho]; rfl⟩

theorem accept_failed {w : World} {s : CaServer} {c : Connection} {r : AuthenticatedRequest}
    {e : String} (hr : s.receive X c = .dispatched r)
    (he : (s.noted (.dispatched r)).handleRequest X w r.request = .err e) :
    ∃ out, s.accept X w c = .ok (s.noted (.dispatched r), out) := by
  obtain ⟨out, ho⟩ := respond_error X e
  refine ⟨out, ?_⟩
  simp only [accept, hr, answer, he, Outcome.ok_bind, ho, Outcome.pure_eq]

theorem accept_server {w : World} {s t : CaServer} {c : Connection} {out : Bytes}
    (h : s.accept X w c = .ok (t, out)) : t = s.noted (s.receive X c) := by
  obtain ⟨resp, -, h⟩ := Outcome.bind_eq_ok h
  obtain ⟨written, -, h⟩ := Outcome.bind_eq_ok h
  simp only [Outcome.pure_eq, Outcome.ok.injEq, Prod.mk.injEq] at h
  exact h.1.symm

end CaServer

structure ServerRun where
  server : CaServer
  accepted : Nat
  dispatched : List AuthenticatedRequest

namespace CaServer

variable (X : Crates)

-- The loop ends with the first connection whose handling panics or cannot be serialised.
def run (s : CaServer) : List (World × Connection) → ServerRun
  | [] => ⟨s, 0, []⟩
  | (w, c) :: cs =>
    let received := s.receive X c
    match s.accept X w c with
    | .ok (t, _) =>
      let rest := run t cs
      ⟨rest.server, rest.accepted + 1, received.handed ++ rest.dispatched⟩
    | _ => ⟨s.noted received, 1, received.handed⟩

end CaServer
end SshCertificateAuthority
