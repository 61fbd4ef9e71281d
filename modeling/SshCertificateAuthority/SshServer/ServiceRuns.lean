import SshCertificateAuthority.SshServer.Service
import SshCertificateAuthority.CertificatAuthority.Linearization

namespace SshCertificateAuthority
open ByteStream Coroutine

def ServiceStep.sent : ServiceStep → Option Nat
  | .send _ t => some t
  | _ => none

namespace Service

variable (X : Crates)

inductive Stepped (s : Service) : ServiceStep → Service → Prop where
  | newClient {i : Nat} (free : s.sessions i = none) :
      Stepped s (.newClient i) (s.setSession i ⟨.new, .idle⟩)
  | deliver {i : Nat} {st : SessionState} {cb : Callback} {w : World}
      (at_i : s.sessions i = some ⟨st, .idle⟩) :
      Stepped s (.deliver i cb w)
        (s.setSession i ⟨st, .running cb w (st.handler.callback X s.server w cb)⟩)
  | send {i t : Nat} {st : SessionState} {cb : Callback} {w : World} {request : CaRequest}
      {k : Except String CaResponse → SessionTask Reply} {ipc : Ipc}
      (at_i : s.sessions i = some ⟨st, .running cb w (.ask request k)⟩)
      (connected : s.ipc.step X (.connect t request) = some ipc) :
      Stepped s (.send i t) { s.setSession i ⟨st, .awaiting cb w request t k⟩ with ipc := ipc }
  | refuse {i : Nat} {e : String} {st : SessionState} {cb : Callback} {w : World}
      {request : CaRequest} {k : Except String CaResponse → SessionTask Reply}
      (at_i : s.sessions i = some ⟨st, .running cb w (.ask request k)⟩) :
      Stepped s (.refuse i e) (s.setSession i ⟨st, .running cb w (k (.error e))⟩)
  | resume {i t : Nat} {st : SessionState} {cb : Callback} {w : World} {request : CaRequest}
      {k : Except String CaResponse → SessionTask Reply} {result : Except String CaResponse}
      (at_i : s.sessions i = some ⟨st, .awaiting cb w request t k⟩) :
      Stepped s (.resume i) (s.setSession i ⟨st, .running cb w (k result)⟩)
  | finish {i : Nat} {st : SessionState} {cb : Callback} {w : World} {reply : Reply}
      (at_i : s.sessions i = some ⟨st, .running cb w (.ret reply)⟩) :
      Stepped s (.finish i) (s.setSession i ⟨st.finish cb w reply, .idle⟩)
  | ipc {b : IpcStep} {ipc : Ipc} (internal : b.opened = none)
      (stepped : s.ipc.step X b = some ipc) : Stepped s (.ipc b) { s with ipc := ipc }

variable {X}

theorem step_stepped {s s' : Service} {a : ServiceStep} (h : step X s a = some s') :
    Stepped X s a s' := by
  cases a with
  | newClient i =>
    simp only [step] at h
    split at h
    · simp at h
    · next free =>
      obtain rfl := Option.some.inj h
      exact .newClient free
  | deliver i cb w =>
    simp only [step] at h
    split at h
    · next at_i =>
      split at h
      · obtain rfl := Option.some.inj h
        exact .deliver at_i
      · simp at h
    · simp at h
  | send i t =>
    simp only [step] at h
    split at h
    · next at_i =>
      obtain ⟨ipc, hipc, rfl⟩ := Option.map_eq_some_iff.mp h
      exact .send at_i hipc
    · simp at h
  | refuse i e =>
    simp only [step] at h
    split at h
    · next at_i =>
      obtain rfl := Option.some.inj h
      exact .refuse at_i
    · simp at h
  | resume i =>
    simp only [step] at h
    split at h
    · next at_i =>
      split at h
      · obtain rfl := Option.some.inj h
        exact .resume at_i
      · simp at h
    · simp at h
  | finish i =>
    simp only [step] at h
    split at h
    · next at_i =>
      obtain rfl := Option.some.inj h
      exact .finish at_i
    · simp at h
  | ipc b =>
    cases b with
    | connect t request => simp [step] at h
    | _ =>
      obtain ⟨ipc, hipc, rfl⟩ := Option.map_eq_some_iff.mp h
      exact .ipc rfl hipc

theorem run_projected {server : SshCaServer} {socketPath token : String}
    {ca : CertificateAuthority} {uid : Nat} {labels : List ServiceStep} {s : Service}
    (h : Run.run (step X) (start server socketPath token ca uid) labels = some s) :
    ∃ ipcLabels, Run.run (Ipc.step X) (Ipc.start socketPath token ca uid) ipcLabels = some s.ipc ∧
      ipcLabels.filterMap IpcStep.opened = labels.filterMap ServiceStep.sent := by
  refine Run.invariant_history (I := fun labels s => ∃ ipcLabels,
    Run.run (Ipc.step X) (Ipc.start socketPath token ca uid) ipcLabels = some s.ipc ∧
      ipcLabels.filterMap IpcStep.opened = labels.filterMap ServiceStep.sent) ⟨[], rfl, rfl⟩ ?_ h
  rintro labels s a s' ⟨ipcLabels, hrun, hopened⟩ hstep
  have hone : ∀ b, s.ipc.step X b = some s'.ipc → b.opened = a.sent →
      ∃ ipcLabels', Run.run (Ipc.step X) (Ipc.start socketPath token ca uid) ipcLabels' =
          some s'.ipc ∧
        ipcLabels'.filterMap IpcStep.opened = (labels ++ [a]).filterMap ServiceStep.sent := by
    intro b hb hsame
    refine ⟨ipcLabels ++ [b], (Run.run_append_eq_some _).mpr ⟨s.ipc, hrun, ?_⟩, ?_⟩
    · exact (Run.run_cons_eq_some _).mpr ⟨s'.ipc, hb, rfl⟩
    · simp [List.filterMap_append, hopened, List.filterMap_cons, hsame]
  have hquiet : a.sent = none → s'.ipc = s.ipc →
      ∃ ipcLabels', Run.run (Ipc.step X) (Ipc.start socketPath token ca uid) ipcLabels' =
          some s'.ipc ∧
        ipcLabels'.filterMap IpcStep.opened = (labels ++ [a]).filterMap ServiceStep.sent := by
    intro hnone hsame
    exact ⟨ipcLabels, hsame ▸ hrun, by simp [List.filterMap_append, hopened, hnone]⟩
  cases step_stepped hstep with
  | send at_i connected => exact hone _ connected rfl
  | ipc internal stepped => exact hone _ stepped internal
  | newClient free => exact hquiet rfl rfl
  | deliver at_i => exact hquiet rfl rfl
  | refuse at_i => exact hquiet rfl rfl
  | resume at_i => exact hquiet rfl rfl
  | finish at_i => exact hquiet rfl rfl

end Service
end SshCertificateAuthority
