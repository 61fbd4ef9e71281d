import SshCertificateAuthority.CertificatAuthority.CaClient
import SshCertificateAuthority.CertificatAuthority.CaServer
import SshCertificateAuthority.Library.Run
import Mathlib.Logic.Function.Basic

namespace SshCertificateAuthority
open ByteStream

inductive Phase where
  | connected
  | drawn
  | written
  | answered (response : Bytes)
  | returned (result : Except String CaResponse)

structure Call where
  request : CaRequest
  counter : Option UInt64
  sent : Bytes
  phase : Phase

structure Ipc where
  client : CaClient
  counter : UInt64
  server : CaServer
  running : Bool
  backlog : List Nat
  calls : Nat → Option Call
  drawn : List (Nat × Option UInt64)
  served : List (Nat × Received)

inductive IpcStep where
  | connect (call : Nat) (request : CaRequest)
  | fetchAdd (call : Nat)
  | write (call : Nat)
  | serve (w : World) (chunks : List Bytes)
  | read (call : Nat) (chunks : List Bytes)
  | abort (call : Nat) (e : String)

namespace Ipc

variable (X : Crates)

def start (socketPath token : String) (ca : CertificateAuthority) (uid : Nat) : Ipc where
  client := ⟨socketPath, token⟩
  counter := 0
  server := CaServer.new socketPath ca token uid
  running := true
  backlog := []
  calls _ := none
  drawn := []
  served := []

def setCall (s : Ipc) (t : Nat) (c : Call) : Ipc :=
  { s with calls := Function.update s.calls t (some c) }

def draw (call : Call) : Option UInt64 → Call
  | some counter => { call with counter := some counter, phase := .drawn }
  | none => { call with phase := .returned (.error CaClient.exhausted) }

def writeFrame (client : CaClient) (call : Call) (counter : UInt64) : Call :=
  match client.encodeRequest X counter call.request with
  | .ok sent => { call with sent := sent, phase := .written }
  | .error e => { call with phase := .returned (.error e) }

-- A connection is readable to its end once the client waits for the answer or has gone.
def readable (call : Call) : Bool :=
  match call.phase with
  | .written | .returned _ => true
  | _ => false

def deliver (call : Call) (response : Bytes) : Call :=
  match call.phase with
  | .written => { call with phase := .answered response }
  | _ => call

def serveHead (s : Ipc) (w : World) (chunks : List Bytes) (t : Nat) (rest : List Nat)
    (call : Call) : Ipc :=
  let connection : Connection := ⟨.ok s.server.serverUid, chunks⟩
  let received := s.server.receive X connection
  let s := { s with backlog := rest, served := s.served ++ [(t, received)] }
  match s.server.accept X w connection with
  | .ok (server, response) => { s.setCall t (deliver call response) with server := server }
  | _ => { s with server := s.server.noted received, running := false }

def step (s : Ipc) : IpcStep → Option Ipc
  | .connect t request =>
    match s.calls t with
    | some _ => none
    | none => some { s.setCall t ⟨request, none, [], .connected⟩ with backlog := s.backlog ++ [t] }
  | .fetchAdd t =>
    match s.calls t with
    | some ⟨request, counter, sent, .connected⟩ =>
      let (prev, next) := CaClient.fetchAdd s.counter
      let drawn := CaClient.checkedAddOne prev
      some { s.setCall t (draw ⟨request, counter, sent, .connected⟩ drawn) with
        counter := next, drawn := s.drawn ++ [(t, drawn)] }
    | _ => none
  | .write t =>
    match s.calls t with
    | some ⟨request, some counter, sent, .drawn⟩ =>
      some (s.setCall t (writeFrame X s.client ⟨request, some counter, sent, .drawn⟩ counter))
    | _ => none
  | .serve w chunks =>
    match s.backlog with
    | [] => none
    | t :: rest =>
      match s.calls t with
      | none => none
      | some call =>
        if s.running ∧ readable call ∧ chunks.flatten = call.sent then
          some (serveHead X s w chunks t rest call)
        else none
  | .read t chunks =>
    match s.calls t with
    | some ⟨request, counter, sent, .answered response⟩ =>
      if chunks.flatten = response then
        some (s.setCall t ⟨request, counter, sent, .returned (CaClient.decodeResponse X chunks)⟩)
      else none
    | _ => none
  | .abort t e =>
    match s.calls t with
    | some ⟨_, _, _, .returned _⟩ => none
    | some call => some (s.setCall t { call with phase := .returned (.error e) })
    | none => none

inductive Stepped (s : Ipc) : IpcStep → Ipc → Prop where
  | connect {t : Nat} {request : CaRequest} (free : s.calls t = none) :
      Stepped s (.connect t request)
        { s.setCall t ⟨request, none, [], .connected⟩ with backlog := s.backlog ++ [t] }
  | fetchAdd {t : Nat} {call : Call} (at_t : s.calls t = some call)
      (phase : call.phase = .connected) :
      Stepped s (.fetchAdd t)
        { s.setCall t (draw call (CaClient.checkedAddOne s.counter)) with
          counter := s.counter + 1
          drawn := s.drawn ++ [(t, CaClient.checkedAddOne s.counter)] }
  | write {t : Nat} {call : Call} {counter : UInt64} (at_t : s.calls t = some call)
      (holds : call.counter = some counter) (phase : call.phase = .drawn) :
      Stepped s (.write t) (s.setCall t (writeFrame X s.client call counter))
  | serve {w : World} {chunks : List Bytes} {t : Nat} {rest : List Nat} {call : Call}
      (head : s.backlog = t :: rest) (at_t : s.calls t = some call) (running : s.running)
      (ready : readable call) (stream : chunks.flatten = call.sent) :
      Stepped s (.serve w chunks) (serveHead X s w chunks t rest call)
  | read {t : Nat} {chunks : List Bytes} {call : Call} (at_t : s.calls t = some call)
      (phase : call.phase = .answered chunks.flatten) :
      Stepped s (.read t chunks)
        (s.setCall t { call with phase := .returned (CaClient.decodeResponse X chunks) })
  | abort {t : Nat} {e : String} {call : Call} (at_t : s.calls t = some call)
      (open_t : ∀ result, call.phase ≠ .returned result) :
      Stepped s (.abort t e) (s.setCall t { call with phase := .returned (.error e) })

theorem step_stepped {s s' : Ipc} {a : IpcStep} (h : step X s a = some s') :
    Stepped X s a s' := by
  cases a with
  | connect t request =>
    simp only [step] at h
    split at h
    · simp at h
    · next free =>
      obtain rfl := Option.some.inj h
      exact .connect free
  | fetchAdd t =>
    simp only [step] at h
    split at h
    · next at_t =>
      obtain rfl := Option.some.inj h
      exact .fetchAdd at_t rfl
    · simp at h
  | write t =>
    simp only [step] at h
    split at h
    · next at_t =>
      obtain rfl := Option.some.inj h
      exact .write at_t rfl rfl
    · simp at h
  | serve w chunks =>
    simp only [step] at h
    split at h
    · simp at h
    · next t rest head =>
      split at h
      · simp at h
      · next call at_t =>
        split at h
        · next hc =>
          obtain rfl := Option.some.inj h
          exact .serve head at_t hc.1 hc.2.1 hc.2.2
        · simp at h
  | read t chunks =>
    simp only [step] at h
    split at h
    · next request counter sent response at_t =>
      split at h
      · next hc =>
        obtain rfl := Option.some.inj h
        exact .read at_t (by rw [hc])
      · simp at h
    · simp at h
  | abort t e =>
    simp only [step] at h
    split at h
    · simp at h
    · next call hne at_t =>
      obtain rfl := Option.some.inj h
      refine .abort at_t fun result hp => ?_
      exact hne call.request call.counter call.sent result (by rw [← hp])
    · simp at h

theorem setCall_calls (s : Ipc) (t u : Nat) (c : Call) :
    (s.setCall t c).calls u = if u = t then some c else s.calls u := by
  simp [setCall, Function.update_apply]

variable {X}

theorem serveHead_cases (s : Ipc) (w : World) (chunks : List Bytes) (t : Nat) (rest : List Nat)
    (call : Call) :
    let received := s.server.receive X ⟨.ok s.server.serverUid, chunks⟩
    let s' := serveHead X s w chunks t rest call
    s'.client = s.client ∧ s'.counter = s.counter ∧ s'.drawn = s.drawn ∧ s'.backlog = rest ∧
      s'.served = s.served ++ [(t, received)] ∧ s'.server = s.server.noted received ∧
      (s'.calls = s.calls ∨
        ∃ server response,
          s.server.accept X w ⟨.ok s.server.serverUid, chunks⟩ = .ok (server, response) ∧
            s'.calls = Function.update s.calls t (some (deliver call response))) := by
  dsimp only
  rw [serveHead]
  dsimp only
  cases ha : s.server.accept X w ⟨.ok s.server.serverUid, chunks⟩ with
  | ok r =>
    obtain ⟨server, response⟩ := r
    have hs := CaServer.accept_server X ha
    exact ⟨rfl, rfl, rfl, rfl, rfl, hs, Or.inr ⟨server, response, rfl, rfl⟩⟩
  | err e => exact ⟨rfl, rfl, rfl, rfl, rfl, rfl, Or.inl rfl⟩
  | panic site => exact ⟨rfl, rfl, rfl, rfl, rfl, rfl, Or.inl rfl⟩

theorem serveHead_running {s : Ipc} {w : World} {chunks : List Bytes} {server : CaServer}
    {response : Bytes} (t : Nat) (rest : List Nat) (call : Call)
    (h : s.server.accept X w ⟨.ok s.server.serverUid, chunks⟩ = .ok (server, response)) :
    (serveHead X s w chunks t rest call).running = s.running := by
  rw [serveHead]
  dsimp only
  rw [h]
  rfl

inductive Moved (X : Crates) (s : Ipc) (a : IpcStep) : Option Call → Call → Prop where
  | opened {t : Nat} {request : CaRequest} (label : a = .connect t request) :
      Moved X s a none ⟨request, none, [], .connected⟩
  | drew {call : Call} (phase : call.phase = .connected) :
      Moved X s a (some call) (draw call (CaClient.checkedAddOne s.counter))
  | wrote {t : Nat} {call : Call} {counter : UInt64} (label : a = .write t)
      (at_t : s.calls t = some call) (holds : call.counter = some counter)
      (phase : call.phase = .drawn) : Moved X s a (some call) (writeFrame X s.client call counter)
  | kept (call : Call) : Moved X s a (some call) call
  | delivered {call : Call} {w : World} {chunks : List Bytes} {server : CaServer} {response : Bytes}
      (label : a = .serve w chunks) (phase : call.phase = .written)
      (stream : chunks.flatten = call.sent)
      (accepted : s.server.accept X w ⟨.ok s.server.serverUid, chunks⟩ = .ok (server, response)) :
      Moved X s a (some call) { call with phase := .answered response }
  | read {call : Call} {chunks : List Bytes} (phase : call.phase = .answered chunks.flatten) :
      Moved X s a (some call)
        { call with phase := .returned (CaClient.decodeResponse X chunks) }
  | aborted {call : Call} {e : String} (open_call : ∀ result, call.phase ≠ .returned result) :
      Moved X s a (some call) { call with phase := .returned (.error e) }

theorem stepped_moved {s s' : Ipc} {a : IpcStep} (h : Stepped X s a s') :
    s'.client = s.client ∧ ∃ t call call', s.calls t = call ∧ Moved X s a call call' ∧
      ∀ u, s'.calls u = if u = t then some call' else s.calls u := by
  cases h with
  | connect free => exact ⟨rfl, _, _, _, free, .opened rfl, fun u => setCall_calls s _ u _⟩
  | fetchAdd at_t phase => exact ⟨rfl, _, _, _, at_t, .drew phase, fun u => setCall_calls s _ u _⟩
  | write at_t holds phase =>
    exact ⟨rfl, _, _, _, at_t, .wrote rfl at_t holds phase, fun u => setCall_calls s _ u _⟩
  | read at_t phase => exact ⟨rfl, _, _, _, at_t, .read phase, fun u => setCall_calls s _ u _⟩
  | abort at_t open_t => exact ⟨rfl, _, _, _, at_t, .aborted open_t, fun u => setCall_calls s _ u _⟩
  | @serve w chunks t rest call head at_t running ready stream =>
    obtain ⟨hclient, -, -, -, -, -, hcalls⟩ := serveHead_cases (X := X) s w chunks t rest call
    refine ⟨hclient, t, some call, ?_⟩
    rcases hcalls with hsame | ⟨server, response, hacc, hset⟩
    · refine ⟨call, at_t, .kept call, fun u => ?_⟩
      rw [hsame]
      split
      · next hu => rw [hu, at_t]
      · rfl
    · refine ⟨deliver call response, at_t, ?_, fun u => by rw [hset, Function.update_apply]⟩
      rw [deliver]
      split
      · next hp => exact .delivered rfl hp stream hacc
      · exact .kept call

theorem connect_calls {s s' : Ipc} {t : Nat} {request : CaRequest}
    (h : step X s (.connect t request) = some s') :
    ∃ call, s'.calls t = some call ∧ call.request = request := by
  generalize ha : IpcStep.connect t request = a at h
  cases step_stepped X h with
  | connect free =>
    cases ha
    exact ⟨_, by rw [setCall_calls, if_pos rfl], rfl⟩
  | _ => simp at ha

theorem connect_free {s s' : Ipc} {t : Nat} {request : CaRequest}
    (h : step X s (.connect t request) = some s') : s.calls t = none := by
  generalize ha : IpcStep.connect t request = a at h
  cases step_stepped X h with
  | connect free =>
    cases ha
    exact free
  | _ => simp at ha

theorem moved_request {s : Ipc} {a : IpcStep} {call call' : Call}
    (h : Moved X s a (some call) call') : call'.request = call.request := by
  cases h with
  | drew phase => cases CaClient.checkedAddOne s.counter <;> rfl
  | wrote label at_t holds phase =>
    rw [writeFrame]
    split <;> rfl
  | _ => rfl

theorem step_requests {s s' : Ipc} {a : IpcStep} (h : step X s a = some s') (t : Nat)
    (call : Call) (at_t : s.calls t = some call) :
    ∃ call', s'.calls t = some call' ∧ call'.request = call.request := by
  obtain ⟨-, u, old, new, at_u, hmoved, hcalls⟩ := stepped_moved (step_stepped X h)
  rw [hcalls]
  split
  · next htu =>
    obtain rfl : old = some call := by rw [← at_u, ← htu, at_t]
    exact ⟨new, rfl, moved_request hmoved⟩
  · exact ⟨call, at_t, rfl⟩

theorem moved_returned {s : Ipc} {a : IpcStep} {call call' : Call}
    {result : Except String CaResponse} (h : Moved X s a (some call) call')
    (hphase : call.phase = .returned result) : call'.phase = .returned result := by
  cases h with
  | drew phase => simp [hphase] at phase
  | wrote label at_t holds phase => simp [hphase] at phase
  | kept => exact hphase
  | delivered label phase stream accepted => simp [hphase] at phase
  | read phase => simp [hphase] at phase
  | aborted open_call => exact absurd hphase (open_call result)

end Ipc
end SshCertificateAuthority
