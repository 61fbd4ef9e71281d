import SshCertificateAuthority.CertificatAuthority.CounterExhaustion
import SshCertificateAuthority.CertificatAuthority.ReplayProtection
import SshCertificateAuthority.Library.TicketQueue

namespace SshCertificateAuthority
open ByteStream TicketQueue

def Admissible (X : Crates) (client : CaClient) (counter : UInt64) (request : CaRequest) : Prop :=
  ∃ json r, X.requestToString (client.authRequest counter request) = .ok json ∧
    (utf8 json).length ≤ maxMessageSize.toNat ∧ X.requestFromStr json = .ok r ∧
    r.token = client.authToken ∧ r.counter = counter

namespace CaServer

theorem receive_admissible {X : Crates} {client : CaClient} {request : CaRequest} {s : CaServer}
    {counter : UInt64} {json : String} {chunks : List Bytes}
    (hadm : Admissible X client counter request) (htoken : client.authToken = s.authToken)
    (hjson : X.requestToString (client.authRequest counter request) = .ok json)
    (hchunks : chunks.flatten = frame (utf8 json)) :
    ∃ r, X.requestFromStr json = .ok r ∧ r.counter = counter ∧
      s.receive X ⟨.ok s.serverUid, chunks⟩ =
        if counter ≤ s.lastCounter then .refused (.error "authentication failed")
        else .dispatched r := by
  obtain ⟨json', r, hj, hlen, hparse, hr, hc⟩ := hadm
  obtain rfl : json = json' := by simpa [hjson] using hj
  have hmax : maxMessageSize.toNat = 65536 := rfl
  have hmod : (utf8 json).length % 2 ^ 32 = (utf8 json).length := Nat.mod_eq_of_lt (by omega)
  have hfit : UInt32.ofNat (utf8 json).length ≤ maxMessageSize := by
    rw [← UInt32.not_lt, lengthCast_lt_iff]
    omega
  obtain ⟨rest, hread, -⟩ := readFrame_frame hchunks hfit
  rw [hmod, List.take_length] at hread
  refine ⟨r, hparse, hc, ?_⟩
  simp [receive, hread, hparse, authenticate, hr, htoken, hc]

theorem receive_nothing {X : Crates} {s : CaServer} {chunks : List Bytes}
    (h : chunks.flatten = []) : s.receive X ⟨.ok s.serverUid, chunks⟩ = .dropped := by
  have hread : readExact chunks 4 = none := readExact_of_lt (by simp [h])
  simp [receive, readFrame, hread]

end CaServer

namespace Ipc

variable {X : Crates}

def ticket (s : Ipc) (t : Nat) : Option Nat :=
  (s.calls t).bind fun call => call.counter.map UInt64.toNat

def undrawn (s : Ipc) (t : Nat) : Prop := ∃ call, s.calls t = some call ∧ call.phase = .connected

def InTurn (s : Ipc) : IpcStep → Prop
  | .fetchAdd t => ∀ u ∈ ahead s.backlog t, ¬ s.undrawn u
  | _ => True

def Honest (X : Crates) (s : Ipc) : IpcStep → Prop
  | .fetchAdd _ => s.counter.toNat + 1 < 2 ^ 64
  | .write t => ∀ call counter, s.calls t = some call → call.counter = some counter →
    Admissible X s.client counter call.request
  | _ => True

def NoneLost (s : Ipc) : Prop :=
  ∀ t received, (t, received) ∈ s.served → ∃ call, s.calls t = some call ∧
    (call.sent ≠ [] → ∃ r, received = .dispatched r ∧ call.counter = some r.counter)

def past (call : Call) : Prop := call.phase ≠ .connected ∧ call.phase ≠ .drawn

structure Sound (X : Crates) (client : CaClient) (call : Call) : Prop where
  sent : call.sent = [] ∨ ∃ counter json, call.counter = some counter ∧
    Admissible X client counter call.request ∧
      X.requestToString (client.authRequest counter call.request) = .ok json ∧
        call.sent = frame (utf8 json)
  connected : call.phase = .connected → call.counter = none ∧ call.sent = []
  drawn : call.phase = .drawn → call.sent = []

theorem sound_moved {s : Ipc} {a : IpcStep} {call : Option Call} {call' : Call}
    (h : Moved X s a call call') (hi : ∀ c ∈ call, Sound X s.client c) (hh : Honest X s a) :
    Sound X s.client call' := by
  cases h with
  | opened label => exact ⟨Or.inl rfl, fun _ => ⟨rfl, rfl⟩, by simp⟩
  | @drew call phase =>
    have hsent := ((hi call rfl).connected phase).2
    cases CaClient.checkedAddOne s.counter with
    | none => exact ⟨(hi call rfl).sent, by simp [draw], by simp [draw]⟩
    | some counter => exact ⟨Or.inl hsent, by simp [draw], fun _ => hsent⟩
  | @wrote t call counter label at_t holds phase =>
    have hadm := (label ▸ hh) call counter at_t holds
    rw [writeFrame]
    cases he : s.client.encodeRequest X counter call.request with
    | error e => exact ⟨(hi call rfl).sent, by simp, by simp⟩
    | ok sent =>
      obtain ⟨json, hjson, hframe, -⟩ := CaClient.encodeRequest_ok s.client counter call.request he
      exact ⟨Or.inr ⟨counter, json, holds, hadm, hjson, hframe⟩, by simp, by simp⟩
  | kept => exact hi _ rfl
  | delivered label phase stream accepted => exact ⟨(hi _ rfl).sent, by simp, by simp⟩
  | read phase => exact ⟨(hi _ rfl).sent, by simp, by simp⟩
  | aborted open_call => exact ⟨(hi _ rfl).sent, by simp, by simp⟩

theorem past_moved {s : Ipc} {a : IpcStep} {call call' : Call} (h : Moved X s a (some call) call')
    (hp : past call) : past call' ∧ call'.sent = call.sent ∧ call'.counter = call.counter := by
  cases h with
  | drew phase => exact absurd phase hp.1
  | wrote label at_t holds phase => exact absurd phase hp.2
  | kept => exact ⟨hp, rfl, rfl⟩
  | delivered label phase stream accepted => exact ⟨⟨by simp, by simp⟩, rfl, rfl⟩
  | read phase => exact ⟨⟨by simp, by simp⟩, rfl, rfl⟩
  | aborted open_call => exact ⟨⟨by simp, by simp⟩, rfl, rfl⟩

structure InOrder (X : Crates) (s : Ipc) : Prop where
  token : s.client.authToken = s.server.authToken
  sound : ∀ t call, s.calls t = some call → Sound X s.client call
  known : ∀ t ∈ s.backlog, ∃ call, s.calls t = some call
  waiting : ∀ t, s.undrawn t → t ∈ s.backlog
  orderly : Orderly s.backlog s.ticket s.undrawn s.server.lastCounter.toNat s.counter.toNat
  served : ∀ t received, (t, received) ∈ s.served → ∃ call, s.calls t = some call ∧ past call ∧
    (call.sent ≠ [] → ∃ r, received = .dispatched r ∧ call.counter = some r.counter)

theorem start_inOrder (socketPath token : String) (ca : CertificateAuthority) (uid : Nat) :
    InOrder X (start socketPath token ca uid) := by
  refine ⟨rfl, by simp [start], by simp [start], ?_, ?_, by simp [start]⟩
  · rintro t ⟨call, hc, -⟩
    simp [start] at hc
  · exact ⟨List.nodup_nil, ⟨[], [], rfl, by simp, by simp⟩, by simp [start], by
      simp [start, CaServer.new]⟩

theorem sound_step {s s' : Ipc} {a : IpcStep} (hi : InOrder X s) (hh : Honest X s a)
    (h : Stepped X s a s') :
    (∀ t call, s'.calls t = some call → Sound X s'.client call) ∧
      (∀ t call, s.calls t = some call → ∃ call', s'.calls t = some call') ∧
        ∀ t call, s.calls t = some call → past call →
          ∃ call', s'.calls t = some call' ∧ past call' ∧ call'.sent = call.sent ∧
            call'.counter = call.counter := by
  obtain ⟨hclient, t, call, call', at_t, hmoved, hcalls⟩ := stepped_moved h
  rw [hclient]
  refine ⟨?_, ?_, ?_⟩
  · intro u c hu
    rw [hcalls] at hu
    split at hu
    · obtain rfl := Option.some.inj hu
      refine sound_moved hmoved ?_ hh
      intro c' hc'
      exact hi.sound t c' (by rw [at_t]; exact hc')
    · exact hi.sound u c hu
  · intro u c hu
    rw [hcalls]
    split
    · exact ⟨call', rfl⟩
    · exact ⟨c, hu⟩
  · intro u c hu hp
    rw [hcalls]
    split
    · next hut =>
      obtain rfl : call = some c := by rw [← at_t, ← hut, hu]
      exact ⟨call', rfl, past_moved hmoved hp⟩
    · exact ⟨c, hu, hp, rfl, rfl⟩

theorem ticket_of_calls {s s' : Ipc} {t : Nat} {call call' : Call} (at_t : s.calls t = some call)
    (hcounter : call'.counter = call.counter)
    (hcalls : ∀ u, s'.calls u = if u = t then some call' else s.calls u) (u : Nat) :
    s'.ticket u = s.ticket u := by
  unfold ticket
  rw [hcalls]
  split
  · next hut => rw [hut, at_t, Option.bind_some, Option.bind_some, hcounter]
  · rfl

theorem undrawn_of_calls {s s' : Ipc} {t : Nat} {call call' : Call} (at_t : s.calls t = some call)
    (hphase : call'.phase = .connected → call.phase = .connected)
    (hcalls : ∀ u, s'.calls u = if u = t then some call' else s.calls u) {u : Nat}
    (hu : s'.undrawn u) : s.undrawn u := by
  obtain ⟨c, hc, hp⟩ := hu
  rw [hcalls] at hc
  split at hc
  · next hut =>
    obtain rfl := Option.some.inj hc
    exact ⟨call, hut ▸ at_t, hphase hp⟩
  · exact ⟨c, hc, hp⟩

theorem inOrder_quiet {s s' : Ipc} {a : IpcStep} {t : Nat} {call call' : Call} (hi : InOrder X s)
    (hh : Honest X s a) (h : Stepped X s a s') (at_t : s.calls t = some call)
    (hcounter : call'.counter = call.counter)
    (hphase : call'.phase = .connected → call.phase = .connected)
    (hset : s' = s.setCall t call') : InOrder X s' := by
  obtain ⟨hsound, hknown, hpast⟩ := sound_step hi hh h
  have hcalls : ∀ u, s'.calls u = if u = t then some call' else s.calls u := by
    rw [hset]
    exact fun u => setCall_calls s t u call'
  refine ⟨by rw [hset]; exact hi.token, hsound, ?_, ?_, ?_, ?_⟩
  · intro u hu
    rw [hset] at hu
    obtain ⟨c, hc⟩ := hi.known u hu
    exact hknown u c hc
  · intro u hu
    rw [hset]
    exact hi.waiting u (undrawn_of_calls at_t hphase hcalls hu)
  · have ho : Orderly s.backlog s'.ticket s'.undrawn s.server.lastCounter.toNat s.counter.toNat :=
      hi.orderly.congr (fun u _ => ticket_of_calls at_t hcounter hcalls u)
        fun u _ hu => undrawn_of_calls at_t hphase hcalls hu
    simpa only [hset, setCall] using ho
  · intro u received hu
    rw [hset] at hu
    obtain ⟨c, hc, hp, hd⟩ := hi.served u received hu
    obtain ⟨c', hc', hp', hsent, hcount⟩ := hpast u c hc hp
    exact ⟨c', hc', hp', by rw [hsent, hcount]; exact hd⟩

theorem inOrder_connect {s : Ipc} {t : Nat} {request : CaRequest} (hi : InOrder X s)
    (hh : Honest X s (.connect t request)) (free : s.calls t = none) :
    InOrder X { s.setCall t ⟨request, none, [], .connected⟩ with backlog := s.backlog ++ [t] } := by
  obtain ⟨hsound, hknown, hpast⟩ := sound_step hi hh (.connect free)
  have hnot : t ∉ s.backlog := by
    intro ht
    obtain ⟨c, hc⟩ := hi.known t ht
    simp [free] at hc
  have hticket : ∀ u, Ipc.ticket { s.setCall t ⟨request, none, [], .connected⟩ with
      backlog := s.backlog ++ [t] } u = s.ticket u := by
    intro u
    unfold ticket
    rw [setCall_calls]
    split
    · next hut => rw [hut, free]; rfl
    · rfl
  have hundrawn : ∀ u, Ipc.undrawn { s.setCall t ⟨request, none, [], .connected⟩ with
      backlog := s.backlog ++ [t] } u → u = t ∨ s.undrawn u := by
    rintro u ⟨c, hc, hp⟩
    rw [setCall_calls] at hc
    split at hc
    · next hut => exact Or.inl hut
    · exact Or.inr ⟨c, hc, hp⟩
  refine ⟨hi.token, hsound, ?_, ?_, ?_, ?_⟩
  · intro u hu
    rcases List.mem_append.mp hu with hu | hu
    · obtain ⟨c, hc⟩ := hi.known u hu
      exact hknown u c hc
    · obtain rfl : u = t := by simpa using hu
      exact ⟨_, by rw [setCall_calls, if_pos rfl]⟩
  · intro u hu
    rcases hundrawn u hu with rfl | hu
    · simp
    · exact List.mem_append_left _ (hi.waiting u hu)
  · refine Orderly.join (hi.orderly.congr (fun u _ => hticket u) ?_) hnot ?_
    · intro u hu hd
      exact (hundrawn u hd).resolve_left fun he => hnot (he ▸ hu)
    · rw [hticket, ticket, free]
      rfl
  · intro u received hu
    obtain ⟨c, hc, hp, hd⟩ := hi.served u received hu
    obtain ⟨c', hc', hp', hsent, hcount⟩ := hpast u c hc hp
    exact ⟨c', hc', hp', by rw [hsent, hcount]; exact hd⟩

theorem inOrder_fetchAdd {s : Ipc} {t : Nat} {call : Call} (hi : InOrder X s)
    (hh : Honest X s (.fetchAdd t)) (hturn : InTurn s (.fetchAdd t))
    (at_t : s.calls t = some call) (phase : call.phase = .connected) :
    InOrder X { s.setCall t (draw call (CaClient.checkedAddOne s.counter)) with
      counter := s.counter + 1
      drawn := s.drawn ++ [(t, CaClient.checkedAddOne s.counter)] } := by
  obtain ⟨hsound, hknown, hpast⟩ := sound_step hi hh (.fetchAdd at_t phase)
  have hlt : s.counter.toNat + 1 < 18446744073709551616 := hh
  have hnext : (s.counter + 1).toNat = s.counter.toNat + 1 := by
    rw [UInt64.toNat_add]
    exact Nat.mod_eq_of_lt hlt
  have hdrawn : CaClient.checkedAddOne s.counter = some (s.counter + 1) := if_pos hlt
  rw [hdrawn] at hsound hknown hpast ⊢
  have hd : s.undrawn t := ⟨call, at_t, phase⟩
  refine ⟨hi.token, hsound, ?_, ?_, ?_, ?_⟩
  · intro u hu
    obtain ⟨c, hc⟩ := hi.known u hu
    exact hknown u c hc
  · rintro u ⟨c, hc, hp⟩
    rw [setCall_calls] at hc
    split at hc
    · obtain rfl := Option.some.inj hc
      simp [draw] at hp
    · exact hi.waiting u ⟨c, hc, hp⟩
  · have ho := hi.orderly.draw (hi.waiting t hd) hd hturn
    rw [← hnext] at ho
    refine ho.congr ?_ ?_
    · intro u _
      rw [ticket, setCall_calls, Function.update_apply]
      split
      · rfl
      · rfl
    · rintro u - ⟨c, hc, hp⟩
      rw [setCall_calls] at hc
      split at hc
      · obtain rfl := Option.some.inj hc
        simp [draw] at hp
      · next hut => exact ⟨hut, c, hc, hp⟩
  · intro u received hu
    obtain ⟨c, hc, hp, hr⟩ := hi.served u received hu
    obtain ⟨c', hc', hp', hsent, hcount⟩ := hpast u c hc hp
    exact ⟨c', hc', hp', by rw [hsent, hcount]; exact hr⟩

theorem readable_past {call : Call} (h : readable call) : past call := by
  rw [readable] at h
  split at h
  · next hp => exact ⟨by simp [hp], by simp [hp]⟩
  · next hp => exact ⟨by simp [hp], by simp [hp]⟩
  · simp at h

theorem deliver_keeps (call : Call) (response : Bytes) :
    (deliver call response).counter = call.counter ∧ (deliver call response).sent = call.sent ∧
      ((deliver call response).phase = .connected → call.phase = .connected) := by
  rw [deliver]
  split
  · exact ⟨rfl, rfl, by simp⟩
  · exact ⟨rfl, rfl, id⟩

theorem serveHead_call {s : Ipc} {t : Nat} {call : Call} (w : World) (chunks : List Bytes)
    (rest : List Nat) (at_t : s.calls t = some call) :
    ∃ call', call'.counter = call.counter ∧ call'.sent = call.sent ∧
      (call'.phase = .connected → call.phase = .connected) ∧
        ∀ u, (serveHead X s w chunks t rest call).calls u =
          if u = t then some call' else s.calls u := by
  obtain ⟨-, -, -, -, -, -, hcalls⟩ := serveHead_cases (X := X) s w chunks t rest call
  rcases hcalls with hsame | ⟨server, response, -, hset⟩
  · refine ⟨call, rfl, rfl, id, fun u => ?_⟩
    rw [hsame]
    split
    · next hu => rw [hu, at_t]
    · rfl
  · obtain ⟨hcount, hsent, hphase⟩ := deliver_keeps call response
    exact ⟨_, hcount, hsent, hphase, fun u => by rw [hset, Function.update_apply]⟩

theorem served_head {s : Ipc} {chunks : List Bytes} {t : Nat} {rest : List Nat} {call : Call}
    (hi : InOrder X s) (head : s.backlog = t :: rest) (at_t : s.calls t = some call)
    (stream : chunks.flatten = call.sent) :
    let received := s.server.receive X ⟨.ok s.server.serverUid, chunks⟩
    (call.sent ≠ [] → ∃ r, received = .dispatched r ∧ call.counter = some r.counter) ∧
      Orderly rest s.ticket s.undrawn (s.server.noted received).lastCounter.toNat
        s.counter.toNat := by
  intro received
  have ho := head ▸ hi.orderly
  have hs := hi.sound t call at_t
  by_cases hsent : call.sent = []
  · have hdrop : received = .dropped := CaServer.receive_nothing (by rw [stream, hsent])
    rw [hdrop]
    exact ⟨fun hne => absurd hsent hne, ho.leave⟩
  · obtain ⟨counter, json, hcounter, hadm, hjson, hframe⟩ := hs.sent.resolve_left hsent
    have hticket : s.ticket t = some counter.toNat := by
      rw [ticket, at_t, Option.bind_some, hcounter]
      rfl
    obtain ⟨hlast, hrest⟩ := ho.pass hticket
    obtain ⟨r, -, hc, hr⟩ := CaServer.receive_admissible hadm hi.token hjson (stream.trans hframe)
    have hgt : ¬ counter ≤ s.server.lastCounter := by
      rw [UInt64.le_iff_toNat_le]
      omega
    have hrec : received = .dispatched r := hr.trans (if_neg hgt)
    rw [hrec]
    refine ⟨fun _ => ⟨r, rfl, by rw [hcounter, hc]⟩, ?_⟩
    simpa only [CaServer.noted, hc] using hrest

theorem inOrder_serve {s : Ipc} {w : World} {chunks : List Bytes} {t : Nat} {rest : List Nat}
    {call : Call} (hi : InOrder X s) (head : s.backlog = t :: rest)
    (at_t : s.calls t = some call) (running : s.running) (ready : readable call)
    (stream : chunks.flatten = call.sent) : InOrder X (serveHead X s w chunks t rest call) := by
  obtain ⟨hsound, hknown, hpast⟩ :=
    sound_step (a := .serve w chunks) hi trivial (.serve head at_t running ready stream)
  obtain ⟨hclient, hcounter, -, hbacklog, hserved, hserver, -⟩ :=
    serveHead_cases (X := X) s w chunks t rest call
  obtain ⟨call', hcount, -, hphase, hcalls⟩ :=
    serveHead_call (X := X) w chunks rest at_t
  obtain ⟨hnew, ho⟩ := served_head hi head at_t stream
  refine ⟨?_, hsound, ?_, ?_, ?_, ?_⟩
  · rw [hclient, hserver, hi.token]
    exact (CaServer.noted_steady s.server _).2.symm
  · intro u hu
    rw [hbacklog] at hu
    obtain ⟨c, hc⟩ := hi.known u (head ▸ List.mem_cons_of_mem t hu)
    exact hknown u c hc
  · intro u hu
    have hold := undrawn_of_calls at_t hphase hcalls hu
    have hmem := head ▸ hi.waiting u hold
    rw [hbacklog]
    apply (List.mem_cons.mp hmem).resolve_left
    rintro rfl
    obtain ⟨c, hc, hp⟩ := hold
    obtain rfl : call = c := by simpa [at_t] using hc
    exact (readable_past ready).1 hp
  · rw [hbacklog, hcounter, hserver]
    exact ho.congr (fun u _ => ticket_of_calls at_t hcount hcalls u)
      fun u _ hu => undrawn_of_calls at_t hphase hcalls hu
  · intro u received hu
    rw [hserved] at hu
    rcases List.mem_append.mp hu with hu | hu
    · obtain ⟨c, hc, hp, hr⟩ := hi.served u received hu
      obtain ⟨c', hc', hp', hsent, hcount⟩ := hpast u c hc hp
      exact ⟨c', hc', hp', by rw [hsent, hcount]; exact hr⟩
    · obtain ⟨rfl, rfl⟩ : u = t ∧ received = _ := by simpa using hu
      obtain ⟨c', hc', hp', hsent, hcount⟩ := hpast u call at_t (readable_past ready)
      exact ⟨c', hc', hp', by rw [hsent, hcount]; exact hnew⟩

theorem inOrder_step {s s' : Ipc} {a : IpcStep} (hi : InOrder X s)
    (hc : Honest X s a ∧ InTurn s a) (h : step X s a = some s') : InOrder X s' := by
  have hst := step_stepped X h
  cases hst with
  | connect free => exact inOrder_connect hi hc.1 free
  | fetchAdd at_t phase => exact inOrder_fetchAdd hi hc.1 hc.2 at_t phase
  | @write t call counter at_t holds phase =>
    have hkeep := writeFrame_settles X s.client call counter phase
    refine inOrder_quiet hi hc.1 (.write at_t holds phase) at_t hkeep.counter ?_ rfl
    intro hp
    exact absurd hp (hkeep.begun (by simp [phase]))
  | serve head at_t running ready stream =>
    exact inOrder_serve hi head at_t running ready stream
  | read at_t phase =>
    refine inOrder_quiet hi hc.1 (.read at_t phase) at_t ?_ ?_ rfl
    · rfl
    · simp
  | abort at_t open_t =>
    refine inOrder_quiet hi hc.1 (.abort at_t open_t) at_t ?_ ?_ rfl
    · rfl
    · simp

end Ipc

theorem honest_requests_dispatched (X : Crates) (socketPath token : String)
    (ca : CertificateAuthority) (uid : Nat) (labels : List IpcStep) (s : Ipc)
    (hc : Run.Along (Ipc.step X) (fun s a => Ipc.Honest X s a ∧ s.InTurn a)
      (Ipc.start socketPath token ca uid) labels)
    (h : Run.run (Ipc.step X) (Ipc.start socketPath token ca uid) labels = some s) :
    s.NoneLost := by
  have hi := Run.invariant_along (fun _ _ _ => Ipc.inOrder_step)
    (Ipc.start_inOrder socketPath token ca uid) hc h
  intro t received ht
  obtain ⟨call, hcall, -, hd⟩ := hi.served t received ht
  exact ⟨call, hcall, hd⟩

def signingCrates : Crates :=
  { Crates.refusing with
    requestFromStr := fun text =>
      if text = signRequestText 1 8 then .ok (localClient.authRequest 1 (signRequest 8))
      else if text = signRequestText 2 8 then .ok (localClient.authRequest 2 (signRequest 8))
      else .error "EOF while parsing a value" }

theorem signingCrates_writesJson : signingCrates.WritesJson where
  request := by simp only [signingCrates, Crates.refusing]
  response := by simp only [signingCrates, Crates.refusing]

theorem signingCrates_request {c : UInt64} (hc : c = 1 ∨ c = 2) :
    signingCrates.requestFromStr (signRequestText c 8) =
      .ok (localClient.authRequest c (signRequest 8)) := by
  have hne : signRequestText 2 8 ≠ signRequestText 1 8 := by decide +kernel
  rcases hc with rfl | rfl
  · simp [signingCrates]
  · simp [signingCrates, hne]

theorem digit_size {c : UInt64} (hc : c = 1 ∨ c = 2) : (toString c.toNat).utf8ByteSize = 1 := by
  rcases hc with rfl | rfl <;> decide

theorem signRequest_admissible {c : UInt64} (hc : c = 1 ∨ c = 2) :
    Admissible signingCrates localClient c (signRequest 8) := by
  have hjson := signRequest_json signingCrates_writesJson c 8
  refine ⟨_, _, hjson, ?_, signingCrates_request hc, rfl, rfl⟩
  rw [signRequest_size, digit_size hc]
  decide

def drawOrder (first second : Nat) : List IpcStep :=
  [.connect 0 (signRequest 8), .connect 1 (signRequest 8), .fetchAdd first, .fetchAdd second,
    .write 0, .write 1]

theorem encode_signRequest {X : Crates} (hX : X.WritesJson) {c : UInt64} (hc : c = 1 ∨ c = 2) :
    localClient.encodeRequest X c (signRequest 8) = .ok (frame (utf8 (signRequestText c 8))) := by
  rw [CaClient.encodeRequest_eq _ _ _ (signRequest_json hX c 8), if_neg]
  rw [lengthCast_lt_iff, signRequest_size, digit_size hc]
  decide

def waitingCall (c : UInt64) : Call :=
  ⟨signRequest 8, some c, frame (utf8 (signRequestText c 8)), .written⟩

def queued (s : Ipc) (c d : UInt64) : Prop :=
  s.client = localClient ∧ s.server = localIpc.server ∧ s.running = true ∧ s.backlog = [0, 1] ∧
    s.served = [] ∧ s.calls 0 = some (waitingCall c) ∧ s.calls 1 = some (waitingCall d)

theorem localIpc_fields :
    localIpc.client = localClient ∧ localIpc.counter = 0 ∧ localIpc.running = true ∧
      localIpc.backlog = [] ∧ localIpc.served = [] ∧ ∀ t, localIpc.calls t = none :=
  ⟨rfl, rfl, rfl, rfl, rfl, fun _ => rfl⟩

theorem drawOrder_run (X : Crates) {s : Ipc} (idle : s.counter = 0 ∧ s.running = true ∧
    s.backlog = [] ∧ s.served = [] ∧ ∀ t, s.calls t = none) {first second : Nat}
    (horder : first = 0 ∧ second = 1 ∨ first = 1 ∧ second = 0) {sent₁ sent₂ : Bytes}
    (h1 : s.client.encodeRequest X 1 (signRequest 8) = .ok sent₁)
    (h2 : s.client.encodeRequest X 2 (signRequest 8) = .ok sent₂) :
    ∃ s', Run.run (Ipc.step X) s (drawOrder first second) = some s' ∧ s'.client = s.client ∧
      s'.server = s.server ∧ s'.running = true ∧ s'.backlog = [0, 1] ∧ s'.served = [] ∧
      s'.calls first = some ⟨signRequest 8, some 1, sent₁, .written⟩ ∧
      s'.calls second = some ⟨signRequest 8, some 2, sent₂, .written⟩ := by
  rcases horder with ⟨rfl, rfl⟩ | ⟨rfl, rfl⟩
  · simp [drawOrder, Run.run, Ipc.step, Ipc.setCall, CaClient.fetchAdd, CaClient.checkedAddOne,
      Ipc.draw, Ipc.writeFrame, h1, h2, idle]
  · simp [drawOrder, Run.run, Ipc.step, Ipc.setCall, CaClient.fetchAdd, CaClient.checkedAddOne,
      Ipc.draw, Ipc.writeFrame, h1, h2, idle]

theorem drawOrder_in_turn {X : Crates} (hX : X.WritesJson) :
    ∃ s, Run.run (Ipc.step X) localIpc (drawOrder 0 1) = some s ∧ queued s 1 2 :=
  drawOrder_run X ⟨rfl, rfl, rfl, rfl, fun _ => rfl⟩ (Or.inl ⟨rfl, rfl⟩)
    (encode_signRequest hX (Or.inl rfl)) (encode_signRequest hX (Or.inr rfl))

theorem drawOrder_crossed {X : Crates} (hX : X.WritesJson) :
    ∃ s, Run.run (Ipc.step X) localIpc (drawOrder 1 0) = some s ∧ queued s 2 1 := by
  have hidle : localIpc.counter = 0 ∧ localIpc.running = true ∧ localIpc.backlog = [] ∧
      localIpc.served = [] ∧ ∀ t, localIpc.calls t = none := ⟨rfl, rfl, rfl, rfl, fun _ => rfl⟩
  obtain ⟨s, hrun, hclient, hserver, hrunning, hback, hserved, h1, h0⟩ :=
    drawOrder_run X hidle (Or.inr ⟨rfl, rfl⟩) (encode_signRequest hX (Or.inl rfl))
      (encode_signRequest hX (Or.inr rfl))
  exact ⟨s, hrun, hclient, hserver, hrunning, hback, hserved, h0, h1⟩

theorem drawOrder_along :
    Run.Along (Ipc.step signingCrates) (fun s a => Ipc.Honest signingCrates s a ∧ s.InTurn a)
      localIpc (drawOrder 0 1) := by
  have h1 := encode_signRequest signingCrates_writesJson (c := 1) (Or.inl rfl)
  have a1 := signRequest_admissible (c := 1) (Or.inl rfl)
  have a2 := signRequest_admissible (c := 2) (Or.inr rfl)
  have hf := localIpc_fields
  simp [drawOrder, Run.Along, Ipc.step, Ipc.setCall, CaClient.fetchAdd, CaClient.checkedAddOne,
    Ipc.draw, Ipc.writeFrame, h1, hf, Ipc.Honest, Ipc.InTurn, TicketQueue.ahead, Ipc.undrawn]
  constructor
  · rintro _ _ rfl ⟨⟩
    exact a1
  · rintro _ _ rfl ⟨⟩
    exact a2

def serveBoth (c d : UInt64) : List IpcStep :=
  [.serve bareWorld [frame (utf8 (signRequestText c 8))],
    .serve bareWorld [frame (utf8 (signRequestText d 8))]]

theorem Ipc.serve_step {X : Crates} {s : Ipc} {t : Nat} {rest : List Nat} {call : Call}
    (w : World) {chunks : List Bytes} (head : s.backlog = t :: rest)
    (at_t : s.calls t = some call) (running : s.running) (ready : readable call)
    (stream : chunks.flatten = call.sent) :
    let received := s.server.receive X ⟨.ok s.server.serverUid, chunks⟩
    ∃ s' call', step X s (.serve w chunks) = some s' ∧ s'.backlog = rest ∧
      s'.server = s.server.noted received ∧ s'.served = s.served ++ [(t, received)] ∧
      call'.sent = call.sent ∧
      (∀ u, s'.calls u = if u = t then some call' else s.calls u) ∧
      ∀ r, s.server.accept X w ⟨.ok s.server.serverUid, chunks⟩ = .ok r → s'.running := by
  intro received
  obtain ⟨-, -, -, hback, hserved, hserver, -⟩ := serveHead_cases (X := X) s w chunks t rest call
  obtain ⟨call', -, hsent, -, hcalls⟩ := serveHead_call (X := X) w chunks rest at_t
  refine ⟨serveHead X s w chunks t rest call, call', ?_, hback, hserver, hserved, hsent, hcalls, ?_⟩
  · simp only [step, head, at_t]
    exact if_pos ⟨running, ready, stream⟩
  · rintro ⟨server, response⟩ hacc
    rw [serveHead_running t rest call hacc]
    exact running

theorem receive_signRequest {s : CaServer} {c : UInt64} (hc : c = 1 ∨ c = 2)
    (htoken : s.authToken = "token") :
    s.receive signingCrates ⟨.ok s.serverUid, [frame (utf8 (signRequestText c 8))]⟩ =
      if c ≤ s.lastCounter then .refused (.error "authentication failed")
      else .dispatched (localClient.authRequest c (signRequest 8)) := by
  obtain ⟨r, hparse, -, hr⟩ := CaServer.receive_admissible (signRequest_admissible hc)
    (htoken ▸ rfl : localClient.authToken = s.authToken)
    (signRequest_json signingCrates_writesJson c 8)
    (by simp : [frame (utf8 (signRequestText c 8))].flatten = _)
  obtain rfl : localClient.authRequest c (signRequest 8) = r := by
    simpa [signingCrates_request hc] using hparse
  exact hr

theorem accept_signRequest {c : UInt64} (hc : c = 1 ∨ c = 2) :
    ∃ out, localIpc.server.accept signingCrates bareWorld
        ⟨.ok localIpc.server.serverUid, [frame (utf8 (signRequestText c 8))]⟩ =
      .ok (localIpc.server.noted (.dispatched (localClient.authRequest c (signRequest 8))),
        out) := by
  have hpos : ¬ c ≤ localIpc.server.lastCounter := by rcases hc with rfl | rfl <;> decide
  have hr := receive_signRequest hc (rfl : localIpc.server.authToken = "token")
  rw [if_neg hpos] at hr
  exact CaServer.accept_failed signingCrates hr rfl

theorem serveBoth_run {s : Ipc} {c d : UInt64} (hc : c = 1 ∨ c = 2) (hd : d = 1 ∨ d = 2)
    (h : queued s c d) :
    ∃ s' call, Run.run (Ipc.step signingCrates) s (serveBoth c d) = some s' ∧
      s'.calls 1 = some call ∧ call.sent ≠ [] ∧
      (1, if d ≤ c then .refused (.error "authentication failed")
        else .dispatched (localClient.authRequest d (signRequest 8))) ∈ s'.served := by
  obtain ⟨-, hserver, hrun, hback, -, h0, h1⟩ := h
  have hpos : ¬ c ≤ localIpc.server.lastCounter := by rcases hc with rfl | rfl <;> decide
  have hrec := receive_signRequest hc (rfl : localIpc.server.authToken = "token")
  rw [if_neg hpos] at hrec
  obtain ⟨out, hacc⟩ := accept_signRequest hc
  rw [← hserver] at hrec hacc
  obtain ⟨s₁, _, hstep, hback₁, hserver₁, -, -, hcalls, hrun₁⟩ :=
    Ipc.serve_step (X := signingCrates) bareWorld hback h0 hrun rfl
      (List.flatten_singleton : [frame (utf8 (signRequestText c 8))].flatten = _)
  rw [hrec] at hserver₁
  have h1' : s₁.calls 1 = some (waitingCall d) := by rw [hcalls, if_neg (by decide), h1]
  obtain ⟨s₂, call, hstep₂, -, -, hserved₂, hsent₂, hcalls₂, -⟩ :=
    Ipc.serve_step (X := signingCrates) bareWorld hback₁ h1' (hrun₁ _ hacc) rfl
      (List.flatten_singleton : [frame (utf8 (signRequestText d 8))].flatten = _)
  have htoken : s₁.server.authToken = "token" := by rw [hserver₁, hserver]; rfl
  have hlast : s₁.server.lastCounter = c := by rw [hserver₁]; rfl
  rw [receive_signRequest hd htoken, hlast] at hserved₂
  refine ⟨s₂, call, ?_, by rw [hcalls₂, if_pos rfl], ?_, by rw [hserved₂]; simp⟩
  · simp [serveBoth, Run.run, hstep, hstep₂]
  · rw [hsent₂]
    simp [waitingCall, frame, toBeBytes]

theorem honest_requests_dispatched_in_turn :
    ∃ s, Run.run (Ipc.step signingCrates) localIpc (drawOrder 0 1 ++ serveBoth 1 2) = some s ∧
      s.NoneLost := by
  obtain ⟨s, hs, hq⟩ := drawOrder_in_turn signingCrates_writesJson
  obtain ⟨s', -, hs', -⟩ := serveBoth_run (Or.inl rfl) (Or.inr rfl) hq
  have hrun := (Run.run_append_eq_some _).mpr ⟨s, hs, hs'⟩
  refine ⟨s', hrun, honest_requests_dispatched signingCrates _ _ _ _ _ s' ?_ hrun⟩
  exact Run.along_append _ drawOrder_along fun t _ => by
    simp [serveBoth, Run.Along, Ipc.Honest, Ipc.InTurn]

theorem honest_request_refused :
    ∃ s, Run.run (Ipc.step signingCrates) localIpc (drawOrder 1 0 ++ serveBoth 2 1) = some s ∧
      ¬ s.NoneLost := by
  obtain ⟨s, hs, hq⟩ := drawOrder_crossed signingCrates_writesJson
  obtain ⟨s', call, hs', hcall, hsent, hmem⟩ := serveBoth_run (Or.inr rfl) (Or.inl rfl) hq
  refine ⟨s', (Run.run_append_eq_some _).mpr ⟨s, hs, hs'⟩, ?_⟩
  intro hnone
  obtain ⟨call', hcall', hd⟩ := hnone _ _ hmem
  obtain rfl : call = call' := by simpa [hcall] using hcall'
  obtain ⟨r, hr, -⟩ := hd hsent
  simp at hr

end SshCertificateAuthority
