import SshCertificateAuthority.CertificatAuthority.ServedOrders
import SshCertificateAuthority.Library.Sequential
import Mathlib.Data.List.Nodup

namespace SshCertificateAuthority
open ByteStream Sequential

def IpcStep.opened : IpcStep → Option Nat
  | .connect t _ => some t
  | _ => none

def IpcStep.handled (uid : Nat) : IpcStep → Option (World × Connection)
  | .serve w chunks => some (w, ⟨.ok uid, chunks⟩)
  | _ => none

def CaServer.handle (X : Crates) (s : CaServer) (p : World × Connection) :
    Outcome (CaServer × Bytes) := s.accept X p.1 p.2

theorem CaServer.run_of_replay {X : Crates} {s t : CaServer}
    {connections : List (World × Connection)} {outs : List Bytes}
    (h : replay (CaServer.handle X) s connections = .ok (t, outs)) :
    (s.run X connections).server = t ∧ (s.run X connections).accepted = connections.length := by
  induction connections generalizing s outs with
  | nil =>
    obtain ⟨rfl, -⟩ := Prod.mk.inj (Outcome.ok.inj h)
    exact ⟨rfl, rfl⟩
  | cons p connections ih =>
    obtain ⟨u, o, rest, hop, hrest, -⟩ := replay_cons_eq_ok.mp h
    rw [CaServer.handle] at hop
    obtain ⟨hserver, haccepted⟩ := ih hrest
    rw [CaServer.run, hop]
    exact ⟨hserver, congrArg (· + 1) haccepted⟩

structure Handling where
  call : Nat
  input : World × Connection
  response : Bytes

namespace Ipc

variable (X : Crates)

def Wrote (client : CaClient) (call : Call) : Prop :=
  ∃ counter, call.counter = some counter ∧
    client.encodeRequest X counter call.request = .ok call.sent

def Attained (history : List Handling) (t : Nat) (call : Call) (response : Bytes) : Prop :=
  ∃ e ∈ history, e.call = t ∧ e.input.2.chunks.flatten = call.sent ∧ e.response = response

structure Reached (client : CaClient) (history : List Handling) (t : Nat) (call : Call) :
    Prop where
  written : call.phase = .written → Wrote X client call
  answered : ∀ response, call.phase = .answered response →
    Wrote X client call ∧ Attained history t call response
  returned : ∀ a, call.phase = .returned (.ok a) → Wrote X client call ∧
    ∃ chunks, CaClient.decodeResponse X chunks = .ok a ∧ Attained history t call chunks.flatten

structure Linearized (first : CaServer) (labels : List IpcStep) (s : Ipc)
    (history : List Handling) (server : CaServer) (fatal : Option (Nat × World × Connection)) :
    Prop where
  replayed : replay (CaServer.handle X) first (history.map Handling.input) =
    .ok (server, history.map Handling.response)
  handled : labels.filterMap (IpcStep.handled first.serverUid) =
    history.map Handling.input ++ fatal.toList.map Prod.snd
  logged : s.served.map Prod.fst = history.map Handling.call ++ fatal.toList.map Prod.fst
  order : s.served.map Prod.fst ++ s.backlog = labels.filterMap IpcStep.opened
  once : (labels.filterMap IpcStep.opened).Nodup
  known : ∀ t, s.calls t = none ↔ t ∉ labels.filterMap IpcStep.opened
  serving : fatal = none → s.running = true ∧ s.server = server
  stopped : ∀ t p, fatal = some (t, p) → s.running = false ∧ ∀ r, server.handle X p ≠ .ok r
  reached : ∀ t call, s.calls t = some call → Reached X s.client history t call

variable {X}

theorem attained_mono {history : List Handling} {t : Nat} {call : Call} {response : Bytes}
    (h : Attained history t call response) (e : Handling) :
    Attained (history ++ [e]) t call response := by
  obtain ⟨e', he', hrest⟩ := h
  exact ⟨e', List.mem_append_left _ he', hrest⟩

theorem reached_mono {client : CaClient} {history : List Handling} {t : Nat} {call : Call}
    (h : Reached X client history t call) (e : Handling) :
    Reached X client (history ++ [e]) t call := by
  refine ⟨h.written, fun response hp => ?_, fun a hp => ?_⟩
  · obtain ⟨hw, ha⟩ := h.answered response hp
    exact ⟨hw, attained_mono ha e⟩
  · obtain ⟨hw, chunks, hd, ha⟩ := h.returned a hp
    exact ⟨hw, chunks, hd, attained_mono ha e⟩

theorem reached_fresh {client : CaClient} {history : List Handling} {t : Nat} {call : Call}
    (h : (call.phase = .connected ∨ call.phase = .drawn) ∨
      ∃ e, call.phase = .returned (.error e)) : Reached X client history t call := by
  rcases h with (h | h) | ⟨e, h⟩
  · exact ⟨by simp [h], by simp [h], by simp [h]⟩
  · exact ⟨by simp [h], by simp [h], by simp [h]⟩
  · exact ⟨by simp [h], by simp [h], by simp [h]⟩

theorem reached_moved {s : Ipc} {a : IpcStep} {history : List Handling} {t : Nat}
    {call : Option Call} {call' : Call} (h : Moved X s a call call')
    (other : ∀ w chunks, a ≠ .serve w chunks)
    (hi : ∀ c ∈ call, Reached X s.client history t c) : Reached X s.client history t call' := by
  cases h with
  | opened label => exact reached_fresh (Or.inl (Or.inl rfl))
  | drew phase =>
    apply reached_fresh
    cases CaClient.checkedAddOne s.counter with
    | none => exact Or.inr ⟨_, rfl⟩
    | some counter => exact Or.inl (Or.inr rfl)
  | @wrote u call counter label at_u holds phase =>
    rw [writeFrame]
    cases he : s.client.encodeRequest X counter call.request with
    | error e => exact reached_fresh (Or.inr ⟨e, rfl⟩)
    | ok sent => exact ⟨fun _ => ⟨counter, holds, he⟩, by simp, by simp⟩
  | kept => exact hi _ rfl
  | delivered label => exact absurd label (other _ _)
  | @read call chunks phase =>
    obtain ⟨hw, ha⟩ := (hi _ rfl).answered _ phase
    refine ⟨by simp, by simp, fun a hp => ⟨hw, chunks, ?_, ha⟩⟩
    simpa using hp
  | aborted open_call => exact reached_fresh (Or.inr ⟨_, rfl⟩)

theorem reached_delivered {client : CaClient} {history : List Handling} {t : Nat} {call : Call}
    {p : World × Connection} {response : Bytes} (hi : Reached X client history t call)
    (stream : p.2.chunks.flatten = call.sent) :
    Reached X client (history ++ [⟨t, p, response⟩]) t (deliver call response) := by
  rw [deliver]
  split
  · next phase =>
    refine ⟨by simp, ?_, by simp⟩
    rintro _ ⟨⟩
    exact ⟨hi.written phase, _, List.mem_append_right _ List.mem_cons_self, rfl, stream, rfl⟩
  · exact reached_mono hi _

theorem start_linearized (socketPath token : String) (ca : CertificateAuthority) (uid : Nat) :
    Linearized X (CaServer.new socketPath ca token uid) [] (start socketPath token ca uid) []
      (CaServer.new socketPath ca token uid) none where
  replayed := rfl
  handled := rfl
  logged := rfl
  order := rfl
  once := List.nodup_nil
  known t := by simp [start]
  serving _ := ⟨rfl, rfl⟩
  stopped := by simp
  reached := by simp [start]

section

variable {first server : CaServer} {labels : List IpcStep} {s s' : Ipc} {history : List Handling}
  {fatal : Option (Nat × World × Connection)}

theorem linearized_quiet {a : IpcStep} (hi : Linearized X first labels s history server fatal)
    (h : Stepped X s a s') (hopened : a.opened = none)
    (hhandled : ∀ w chunks, a ≠ .serve w chunks) (hbacklog : s'.backlog = s.backlog)
    (hserved : s'.served = s.served) (hserver : s'.server = s.server)
    (hrunning : s'.running = s.running) :
    Linearized X first (labels ++ [a]) s' history server fatal := by
  obtain ⟨hclient, t, old, new, at_t, hmoved, hcalls⟩ := stepped_moved h
  have hsome : old ≠ none := by
    rintro rfl
    cases hmoved with
    | opened label => simp [label, IpcStep.opened] at hopened
  have hlabels : (labels ++ [a]).filterMap IpcStep.opened = labels.filterMap IpcStep.opened := by
    simp [List.filterMap_append, hopened]
  refine ⟨hi.replayed, ?_, hserved ▸ hi.logged, ?_, ?_, ?_, ?_, ?_, ?_⟩
  · have : a.handled first.serverUid = none := by
      cases a with
      | serve w chunks => exact absurd rfl (hhandled w chunks)
      | _ => rfl
    simp [List.filterMap_append, this, hi.handled]
  · rw [hlabels, hbacklog, hserved]
    exact hi.order
  · rw [hlabels]
    exact hi.once
  · intro u
    rw [hlabels, ← hi.known u, hcalls]
    split
    · next hu => simp [hu, at_t, hsome]
    · exact Iff.rfl
  · rw [hserver, hrunning]
    exact hi.serving
  · rw [hrunning]
    exact hi.stopped
  · intro u call hu
    rw [hcalls] at hu
    rw [hclient]
    split at hu
    · next hut =>
      obtain rfl := Option.some.inj hu
      refine reached_moved hmoved hhandled fun c hc => ?_
      rw [hut]
      exact hi.reached t c (by rw [at_t]; exact hc)
    · exact hi.reached u call hu

theorem linearized_connect {t : Nat} {request : CaRequest}
    (hi : Linearized X first labels s history server fatal) (free : s.calls t = none) :
    Linearized X first (labels ++ [.connect t request])
      { s.setCall t ⟨request, none, [], .connected⟩ with backlog := s.backlog ++ [t] }
      history server fatal := by
  have hfresh := (hi.known t).mp free
  have hlabels : (labels ++ [IpcStep.connect t request]).filterMap IpcStep.opened =
      labels.filterMap IpcStep.opened ++ [t] := by
    simp [List.filterMap_append, IpcStep.opened]
  refine ⟨hi.replayed, ?_, hi.logged, ?_, ?_, ?_, hi.serving, hi.stopped, ?_⟩
  · simp [List.filterMap_append, IpcStep.handled, hi.handled]
  · rw [hlabels, ← hi.order]
    simp [setCall]
  · rw [hlabels]
    exact List.nodup_append.mpr ⟨hi.once, List.nodup_singleton t, by
      rintro u hu _ ht rfl
      exact hfresh (List.mem_singleton.mp ht ▸ hu)⟩
  · intro u
    rw [hlabels, List.mem_append, List.mem_singleton, not_or, ← hi.known u]
    dsimp only
    rw [setCall_calls]
    split
    · next hu => simp [hu]
    · next hu => simp [hu]
  · intro u call hu
    dsimp only at hu ⊢
    rw [setCall_calls] at hu
    split at hu
    · obtain rfl := Option.some.inj hu
      exact reached_fresh (Or.inl (Or.inl rfl))
    · exact hi.reached u call hu

theorem serve_labels (labels : List IpcStep) (w : World) (chunks : List Bytes) (uid : Nat) :
    (labels ++ [IpcStep.serve w chunks]).filterMap IpcStep.opened =
        labels.filterMap IpcStep.opened ∧
      (labels ++ [IpcStep.serve w chunks]).filterMap (IpcStep.handled uid) =
        labels.filterMap (IpcStep.handled uid) ++ [(w, ⟨.ok uid, chunks⟩)] := by
  simp [List.filterMap_append, IpcStep.opened, IpcStep.handled]

theorem serveHead_handled {w : World} {chunks : List Bytes} {t : Nat} {rest : List Nat}
    {call : Call} {server' : CaServer} {response : Bytes}
    (h : s.server.handle X (w, ⟨.ok s.server.serverUid, chunks⟩) = .ok (server', response)) :
    serveHead X s w chunks t rest call =
      { s.setCall t (deliver call response) with
        server := server', backlog := rest
        served := s.served ++ [(t, s.server.receive X ⟨.ok s.server.serverUid, chunks⟩)] } := by
  rw [CaServer.handle] at h
  rw [serveHead]
  dsimp only
  rw [h]
  rfl

theorem serveHead_fatal {w : World} {chunks : List Bytes} {t : Nat} {rest : List Nat} {call : Call}
    (h : ∀ r, s.server.handle X (w, ⟨.ok s.server.serverUid, chunks⟩) ≠ .ok r) :
    serveHead X s w chunks t rest call =
      let received := s.server.receive X ⟨.ok s.server.serverUid, chunks⟩
      { s with
        server := s.server.noted received, backlog := rest
        served := s.served ++ [(t, received)], running := false } := by
  rw [serveHead]
  dsimp only
  cases ha : s.server.accept X w ⟨.ok s.server.serverUid, chunks⟩ with
  | ok r => exact absurd ha (h r)
  | err e => rfl
  | panic site => rfl

theorem linearized_handled {w : World} {chunks : List Bytes} {t : Nat} {rest : List Nat}
    {call : Call} {server' : CaServer} {response : Bytes}
    (hi : Linearized X first labels s history s.server none) (head : s.backlog = t :: rest)
    (at_t : s.calls t = some call) (running : s.running)
    (huid : s.server.serverUid = first.serverUid) (stream : chunks.flatten = call.sent)
    (h : s.server.handle X (w, ⟨.ok s.server.serverUid, chunks⟩) = .ok (server', response)) :
    Linearized X first (labels ++ [.serve w chunks]) (serveHead X s w chunks t rest call)
      (history ++ [⟨t, (w, ⟨.ok first.serverUid, chunks⟩), response⟩]) server' none := by
  obtain ⟨hopened, hhandled⟩ := serve_labels labels w chunks first.serverUid
  rw [serveHead_handled h]
  rw [huid] at h
  refine ⟨?_, ?_, ?_, ?_, hopened ▸ hi.once, ?_, fun _ => ⟨running, rfl⟩, by simp, ?_⟩
  · rw [List.map_append, List.map_append]
    exact replay_concat hi.replayed h
  · rw [hhandled, hi.handled]
    simp
  · simp [hi.logged]
  · rw [hopened, ← hi.order, head]
    simp
  · intro u
    rw [hopened, ← hi.known u]
    dsimp only
    rw [setCall_calls]
    split
    · next hu => simp [hu, at_t]
    · exact Iff.rfl
  · intro u c hu
    dsimp only at hu ⊢
    rw [setCall_calls] at hu
    split at hu
    · next hut =>
      obtain rfl := Option.some.inj hu
      rw [hut]
      exact reached_delivered (hi.reached t call at_t) stream
    · exact reached_mono (hi.reached u c hu) _

theorem linearized_fatal {w : World} {chunks : List Bytes} {t : Nat} {rest : List Nat} {call : Call}
    (hi : Linearized X first labels s history s.server none) (head : s.backlog = t :: rest)
    (huid : s.server.serverUid = first.serverUid)
    (h : ∀ r, s.server.handle X (w, ⟨.ok s.server.serverUid, chunks⟩) ≠ .ok r) :
    Linearized X first (labels ++ [.serve w chunks]) (serveHead X s w chunks t rest call)
      history s.server (some (t, w, ⟨.ok first.serverUid, chunks⟩)) := by
  obtain ⟨hopened, hhandled⟩ := serve_labels labels w chunks first.serverUid
  rw [serveHead_fatal h]
  rw [huid] at h
  refine ⟨hi.replayed, ?_, ?_, ?_, hopened ▸ hi.once, ?_, by simp, ?_, hi.reached⟩
  · rw [hhandled, hi.handled]
    simp
  · simp [hi.logged]
  · rw [hopened, ← hi.order, head]
    simp
  · rw [hopened]
    exact hi.known
  · rintro _ _ ⟨⟩
    exact ⟨rfl, h⟩

theorem linearized_uid (hi : Linearized X first labels s history server fatal) :
    server.serverUid = first.serverUid := by
  refine replay_invariant (P := fun t => t.serverUid = first.serverUid) ?_ rfl hi.replayed
  intro u p v response hu h
  rw [CaServer.accept_server X h, (CaServer.noted_steady u _).1, hu]

theorem linearized_step {a : IpcStep}
    (hi : ∃ history server fatal, Linearized X first labels s history server fatal)
    (h : step X s a = some s') :
    ∃ history server fatal, Linearized X first (labels ++ [a]) s' history server fatal := by
  obtain ⟨history, server, fatal, hi⟩ := hi
  cases step_stepped X h with
  | connect free => exact ⟨history, server, fatal, linearized_connect hi free⟩
  | @serve w chunks t rest call head at_t running ready stream =>
    have hnone : fatal = none := by
      cases fatal with
      | none => rfl
      | some p => simp [(hi.stopped p.1 p.2 rfl).1] at running
    subst hnone
    obtain ⟨-, rfl⟩ := hi.serving rfl
    have huid := linearized_uid hi
    by_cases hok : ∃ r, s.server.handle X (w, ⟨.ok s.server.serverUid, chunks⟩) = .ok r
    · obtain ⟨r, hr⟩ := hok
      exact ⟨_, _, _, linearized_handled hi head at_t running huid stream hr⟩
    · exact ⟨_, _, _, linearized_fatal hi head huid (not_exists.mp hok)⟩
  | fetchAdd at_t phase =>
    exact ⟨history, server, fatal,
      linearized_quiet hi (step_stepped X h) rfl (by simp) rfl rfl rfl rfl⟩
  | write at_t holds phase =>
    exact ⟨history, server, fatal,
      linearized_quiet hi (step_stepped X h) rfl (by simp) rfl rfl rfl rfl⟩
  | read at_t phase =>
    exact ⟨history, server, fatal,
      linearized_quiet hi (step_stepped X h) rfl (by simp) rfl rfl rfl rfl⟩
  | abort at_t open_t =>
    exact ⟨history, server, fatal,
      linearized_quiet hi (step_stepped X h) rfl (by simp) rfl rfl rfl rfl⟩

theorem run_linearized {socketPath token : String} {ca : CertificateAuthority} {uid : Nat}
    (h : Run.run (step X) (start socketPath token ca uid) labels = some s) :
    ∃ history server fatal,
      Linearized X (CaServer.new socketPath ca token uid) labels s history server fatal :=
  Run.invariant_history (I := fun labels s => ∃ history server fatal,
      Linearized X (CaServer.new socketPath ca token uid) labels s history server fatal)
    ⟨[], _, none, start_linearized socketPath token ca uid⟩
    (fun _ _ _ _ hi hstep => linearized_step hi hstep) h

end

end Ipc

theorem calls_linearized (X : Crates) (socketPath token : String) (ca : CertificateAuthority)
    (uid : Nat) (labels : List IpcStep) (s : Ipc)
    (h : Run.run (Ipc.step X) (Ipc.start socketPath token ca uid) labels = some s) :
    ∃ history server fatal,
      Ipc.Linearized X (CaServer.new socketPath ca token uid) labels s history server fatal ∧
        ((CaServer.new socketPath ca token uid).run X (history.map Handling.input)).server =
          server ∧
        ((CaServer.new socketPath ca token uid).run X (history.map Handling.input)).accepted =
          history.length := by
  obtain ⟨history, server, fatal, hlin⟩ := Ipc.run_linearized h
  obtain ⟨hserver, haccepted⟩ := CaServer.run_of_replay hlin.replayed
  rw [List.length_map] at haccepted
  exact ⟨history, server, fatal, hlin, hserver, haccepted⟩

theorem calls_linearized_both_served :
    ∃ s call history server fatal,
      Run.run (Ipc.step readingCrates) localIpc (twoCalls ++ secondAnswer) = some s ∧
        s.calls 1 = some call ∧
        call.phase = .returned (.ok (.signedCertificate webCertificate)) ∧
        Ipc.Linearized readingCrates localIpc.server (twoCalls ++ secondAnswer) s history
          server fatal ∧
        (localIpc.server.run readingCrates (history.map Handling.input)).server = server ∧
        (localIpc.server.run readingCrates (history.map Handling.input)).accepted =
          history.length := by
  obtain ⟨s, call, hrun, -, hcall, hphase⟩ := twoCalls_run
  obtain ⟨history, server, fatal, hlin, hreplay⟩ := calls_linearized readingCrates _ _ _ _ _ s hrun
  exact ⟨s, call, history, server, fatal, hrun, hcall, hphase, hlin, hreplay⟩

end SshCertificateAuthority
