import SshCertificateAuthority.SshServer.CertificateDelivery
import SshCertificateAuthority.CertificatAuthority.Quiescence
import Mathlib.Data.Fintype.EquivFin

namespace SshCertificateAuthority
open ByteStream Coroutine

def ServiceStep.joined : ServiceStep → Option Nat
  | .newClient i => some i
  | _ => none

def ServiceStep.proceeds : ServiceStep → Bool
  | .newClient _ | .deliver _ _ _ => false
  | _ => true

def ServiceStep.advances : ServiceStep → Bool
  | .send _ _ | .resume _ | .finish _ => true
  | .ipc a => a.advances
  | _ => false

section

variable {X : Crates}

theorem signAndClose_asks (channel : Nat) (request : CaRequest) :
    AsksAtMost 1 (signAndClose X channel request) := by
  refine asksAtMost_bind (m := 0) (fun answer => ?_) fun r => ?_
  · cases answer with
    | error e => trivial
    | ok response => cases response <;> trivial
  · obtain ⟨cert, output⟩ := r
    cases cert <;> trivial

theorem handlerSignUserKey_asks (handler : ConnectionHandler) (channel : Nat) (data : Bytes) :
    AsksAtMost 1 (handlerSignUserKey X handler channel data) := by
  rw [handlerSignUserKey]
  split
  · trivial
  · split
    · trivial
    · split
      · trivial
      · exact signAndClose_asks channel _

theorem handleSignHostKey_asks (handler : ConnectionHandler) (channel : Nat) (args : List String) :
    AsksAtMost 1 (handleSignHostKey X handler channel args) := by
  unfold handleSignHostKey
  split
  · split
    · trivial
    · split
      · trivial
      · split
        · trivial
        · exact signAndClose_asks channel _
  · trivial

theorem authPublickey_asks (handler : ConnectionHandler) (publicKey : PublicKey) :
    AsksAtMost 1 (handler.authPublickey X publicKey) := by
  rw [ConnectionHandler.authPublickey]
  split
  · trivial
  · split
    · trivial
    · intro answer
      cases answer with
      | error e => trivial
      | ok response => cases response <;> trivial

theorem callback_asks (handler : ConnectionHandler) (server : SshCaServer) (w : World)
    (cb : Callback) : AsksAtMost 1 (handler.callback X server w cb) := by
  cases cb with
  | authPassword user password => trivial
  | authPublickey user publicKey => exact authPublickey_asks handler publicKey
  | channelOpenSession channel => trivial
  | data channel data =>
    exact asksAtMost_bind (m := 0) (handlerSignUserKey_asks handler channel data) fun _ => trivial
  | execRequest channel data =>
    change AsksAtMost 1 (handler.execRequest X channel data)
    rw [ConnectionHandler.execRequest]
    split
    · trivial
    · split
      · trivial
      · trivial
      · dsimp only
        split
        · exact asksAtMost_bind (m := 0) (handleSignHostKey_asks handler channel _) fun _ => trivial
        · trivial

end

def Task.rank : Task → Nat
  | .idle => 0
  | .awaiting _ _ _ _ _ => 2
  | .running _ _ (.ask _ _) => 8
  | .running _ _ (.ret _) => 1
  | .running _ _ (.stop _) => 0

def Task.AsksOnce : Task → Prop
  | .idle => True
  | .running _ _ p => AsksAtMost 1 p
  | .awaiting _ _ _ _ k => ∀ a, AsksAtMost 0 (k a)

theorem rank_answered (cb : Callback) (w : World) {p : SessionTask Reply} (h : AsksAtMost 0 p) :
    (Task.running cb w p).rank ≤ 1 ∧ (Task.running cb w p).AsksOnce := by
  refine ⟨?_, asksAtMost_mono (Nat.zero_le 1) h⟩
  cases p with
  | ret r => exact Nat.le_refl 1
  | ask q k => exact h.elim
  | stop site => exact Nat.zero_le 1

theorem sum_changed {L : List Nat} (hL : L.Nodup) {i : Nat} (hi : i ∈ L) {f g : Nat → Nat}
    (h : ∀ j, j ≠ i → g j = f j) : (L.map g).sum + f i = (L.map f).sum + g i := by
  induction L with
  | nil => simp at hi
  | cons j L ih =>
    obtain ⟨hj, hrest⟩ := List.nodup_cons.mp hL
    simp only [List.map_cons, List.sum_cons]
    rcases List.mem_cons.mp hi with rfl | hi
    · have hsame : L.map g = L.map f :=
        List.map_congr_left fun u hu => h u fun hui => hj (hui ▸ hu)
      rw [hsame]
      omega
    · have hne : j ≠ i := fun hji => hj (hji ▸ hi)
      have := ih hrest hi
      rw [h j hne]
      omega

namespace Ipc

variable {X : Crates} {opened : List Nat} {s s' : Ipc} {t : Nat} {request : CaRequest}

theorem work_connect (hopened : opened.Nodup) (ht : t ∈ opened) (hin : s.Within opened)
    (h : step X s (.connect t request) = some s') :
    s'.Within opened ∧ work opened s' = work opened s + 5 := by
  have hfree := connect_free h
  obtain ⟨hbacklog, hcalls⟩ : s'.backlog = s.backlog ++ [t] ∧ ∀ u, s'.calls u =
      if u = t then some ⟨request, none, [], .connected⟩ else s.calls u := by
    simp only [step, hfree] at h
    obtain rfl := Option.some.inj h
    exact ⟨rfl, fun u => setCall_calls s t u _⟩
  refine ⟨?_, ?_⟩
  · intro u call hu
    rw [hcalls] at hu
    split at hu
    · next hut => exact hut ▸ ht
    · exact hin u call hu
  · have hsum := sum_changed hopened ht (f := s.rankOf) (g := s'.rankOf) fun j hj => by
      rw [rankOf, rankOf, hcalls, if_neg hj]
    have hold : s.rankOf t = 0 := by
      rw [rankOf, hfree]
      rfl
    have hnew : s'.rankOf t = 4 := by
      rw [rankOf, hcalls, if_pos rfl]
      rfl
    rw [hold, hnew] at hsum
    rw [work, work, hbacklog, List.length_append, List.length_singleton]
    omega

end Ipc

namespace Service

variable {X : Crates} {s s' : Service} {clients calls : List Nat}

def rankOf (s : Service) (i : Nat) : Nat := (s.sessions i).elim 0 fun session => session.task.rank

def work (clients calls : List Nat) (s : Service) : Nat :=
  (clients.map s.rankOf).sum + s.ipc.work calls

structure Within (clients calls : List Nat) (s : Service) : Prop where
  clients : ∀ i session, s.sessions i = some session → i ∈ clients
  calls : s.ipc.Within calls
  once : ∀ i session, s.sessions i = some session → session.task.AsksOnce

theorem within_setSession {i : Nat} (session : Session) (hin : Within clients calls s)
    (hi : i ∈ clients) (honce : session.task.AsksOnce) :
    Within clients calls (s.setSession i session) := by
  refine ⟨fun j session' hj => ?_, hin.calls, fun j session' hj => ?_⟩
  · rw [setSession_sessions] at hj
    split at hj
    · next hji => exact hji ▸ hi
    · exact hin.clients j session' hj
  · rw [setSession_sessions] at hj
    split at hj
    · obtain rfl := Option.some.inj hj
      exact honce
    · exact hin.once j session' hj

theorem work_setSession {i : Nat} {session : Session} (calls : List Nat) (session' : Session)
    (hclients : clients.Nodup) (hi : i ∈ clients) (at_i : s.sessions i = some session) :
    work clients calls (s.setSession i session') + session.task.rank =
      work clients calls s + session'.task.rank := by
  have hsum := sum_changed hclients hi (f := s.rankOf) (g := (s.setSession i session').rankOf)
    fun j hj => by rw [rankOf, rankOf, setSession_sessions, if_neg hj]
  have hold : s.rankOf i = session.task.rank := by
    rw [rankOf, at_i]
    rfl
  have hnew : (s.setSession i session').rankOf i = session'.task.rank := by
    rw [rankOf, setSession_sessions, if_pos rfl]
    rfl
  rw [hold, hnew] at hsum
  rw [work, work]
  have hipc : (s.setSession i session').ipc = s.ipc := rfl
  rw [hipc]
  omega

theorem work_step {a : ServiceStep} (hclients : clients.Nodup) (hcalls : calls.Nodup)
    (hin : Within clients calls s) (ha : a.proceeds) (hsent : ∀ t ∈ a.sent, t ∈ calls)
    (h : step X s a = some s') :
    Within clients calls s' ∧ work clients calls s' < work clients calls s := by
  cases step_stepped h with
  | newClient free => simp [ServiceStep.proceeds] at ha
  | deliver at_i => simp [ServiceStep.proceeds] at ha
  | @send i t st cb w request k ipc at_i connected =>
    have hi := hin.clients i _ at_i
    have honce := hin.once i _ at_i
    have hw := work_setSession calls ⟨st, .awaiting cb w request t k⟩ hclients hi at_i
    obtain ⟨hcallsin, hconnect⟩ := Ipc.work_connect hcalls (hsent t rfl) hin.calls connected
    have hset := within_setSession ⟨st, .awaiting cb w request t k⟩ hin hi honce
    refine ⟨⟨hset.clients, hcallsin, hset.once⟩, ?_⟩
    simp only [Task.rank] at hw
    simp only [work] at hw ⊢
    have hipc : (s.setSession i ⟨st, .awaiting cb w request t k⟩).ipc = s.ipc := rfl
    rw [hipc] at hw
    have hrank : rankOf { s.setSession i ⟨st, .awaiting cb w request t k⟩ with ipc := ipc } =
        (s.setSession i ⟨st, .awaiting cb w request t k⟩).rankOf := rfl
    rw [hrank]
    omega
  | @refuse i e st cb w request k at_i =>
    have hi := hin.clients i _ at_i
    obtain ⟨hrank, honce⟩ := rank_answered cb w (hin.once i _ at_i (.error e))
    have hw := work_setSession calls ⟨st, .running cb w (k (.error e))⟩ hclients hi at_i
    refine ⟨within_setSession _ hin hi honce, ?_⟩
    simp only [Task.rank] at hw hrank
    omega
  | @resume i t st cb w request k result at_i =>
    have hi := hin.clients i _ at_i
    obtain ⟨hrank, honce⟩ := rank_answered cb w (hin.once i _ at_i result)
    have hw := work_setSession calls ⟨st, .running cb w (k result)⟩ hclients hi at_i
    refine ⟨within_setSession _ hin hi honce, ?_⟩
    simp only [Task.rank] at hw hrank
    omega
  | @finish i st cb w reply at_i =>
    have hi := hin.clients i _ at_i
    have hw := work_setSession calls ⟨st.finish cb w reply, .idle⟩ hclients hi at_i
    refine ⟨within_setSession _ hin hi trivial, ?_⟩
    simp only [Task.rank] at hw
    omega
  | @ipc b ipc internal stepped =>
    obtain ⟨hcallsin, hlt⟩ := Ipc.work_step hin.calls internal stepped
    refine ⟨⟨hin.clients, hcallsin, hin.once⟩, ?_⟩
    have hrank : rankOf { s with ipc := ipc } = s.rankOf := rfl
    simp only [work]
    rw [hrank]
    omega

structure Joined (labels : List ServiceStep) (s : Service) : Prop where
  nodup : (labels.filterMap ServiceStep.joined).Nodup
  known : ∀ i, s.sessions i = none ↔ i ∉ labels.filterMap ServiceStep.joined
  once : ∀ i session, s.sessions i = some session → session.task.AsksOnce

theorem joined_setSession {labels : List ServiceStep} {a : ServiceStep} {i : Nat}
    {session : Session} (session' : Session) (hi : Joined labels s) (ha : a.joined = none)
    (at_i : s.sessions i = some session) (honce : session'.task.AsksOnce) :
    Joined (labels ++ [a]) (s.setSession i session') := by
  have hlabels : (labels ++ [a]).filterMap ServiceStep.joined =
      labels.filterMap ServiceStep.joined := by
    simp [List.filterMap_append, ha]
  refine ⟨hlabels ▸ hi.nodup, fun j => ?_, fun j session'' hj => ?_⟩
  · rw [hlabels, ← hi.known j, setSession_sessions]
    split
    · next hji => simp [hji, at_i]
    · exact Iff.rfl
  · rw [setSession_sessions] at hj
    split at hj
    · obtain rfl := Option.some.inj hj
      exact honce
    · exact hi.once j session'' hj

theorem joined_step {labels : List ServiceStep} {a : ServiceStep} (hi : Joined labels s)
    (h : step X s a = some s') : Joined (labels ++ [a]) s' := by
  cases step_stepped h with
  | @newClient i free =>
    have hfresh := (hi.known i).mp free
    have hlabels : (labels ++ [ServiceStep.newClient i]).filterMap ServiceStep.joined =
        labels.filterMap ServiceStep.joined ++ [i] := by
      simp [List.filterMap_append, ServiceStep.joined]
    refine ⟨?_, fun j => ?_, fun j session hj => ?_⟩
    · rw [hlabels]
      refine List.nodup_append.mpr ⟨hi.nodup, List.nodup_singleton i, ?_⟩
      rintro u hu v hv rfl
      exact hfresh (List.mem_singleton.mp hv ▸ hu)
    · rw [hlabels, List.mem_append, List.mem_singleton, not_or, ← hi.known j, setSession_sessions]
      split
      · next hji => simp [hji]
      · next hji => simp [hji]
    · rw [setSession_sessions] at hj
      split at hj
      · obtain rfl := Option.some.inj hj
        trivial
      · exact hi.once j session hj
  | deliver at_i => exact joined_setSession _ hi rfl at_i (callback_asks _ _ _ _)
  | @send i t st cb w request k ipc at_i connected =>
    have honce : AsksAtMost 1 (.ask request k) := hi.once i _ at_i
    have hset := joined_setSession ⟨st, .awaiting cb w request t k⟩ hi (a := .send i t) rfl at_i
      honce
    exact ⟨hset.nodup, hset.known, hset.once⟩
  | refuse at_i =>
    exact joined_setSession _ hi rfl at_i (asksAtMost_mono (Nat.zero_le 1) (hi.once _ _ at_i _))
  | resume at_i =>
    exact joined_setSession _ hi rfl at_i (asksAtMost_mono (Nat.zero_le 1) (hi.once _ _ at_i _))
  | finish at_i => exact joined_setSession _ hi rfl at_i trivial
  | @ipc b ipc internal stepped =>
    have hlabels : (labels ++ [ServiceStep.ipc b]).filterMap ServiceStep.joined =
        labels.filterMap ServiceStep.joined := by
      simp [List.filterMap_append, ServiceStep.joined]
    exact ⟨hlabels ▸ hi.nodup, hlabels ▸ hi.known, hi.once⟩

theorem joined_run {server : SshCaServer} {socketPath token : String} {ca : CertificateAuthority}
    {uid : Nat} {labels : List ServiceStep}
    (h : Run.run (step X) (start server socketPath token ca uid) labels = some s) :
    Joined labels s :=
  Run.invariant_history ⟨List.nodup_nil, by simp [start], by simp [start]⟩
    (fun _ _ _ _ hi hstep => joined_step hi hstep) h

theorem work_le (labels : List ServiceStep) {opened later : List Nat}
    (hback : s.ipc.backlog.length ≤ opened.length)
    (hlater : ∀ t ∈ later, s.ipc.calls t = none) :
    work (labels.filterMap ServiceStep.joined) (opened ++ later) s ≤
      8 * (labels.filterMap ServiceStep.joined).length + 5 * opened.length := by
  have hclients : ((labels.filterMap ServiceStep.joined).map s.rankOf).sum ≤
      (labels.filterMap ServiceStep.joined).length * 8 := by
    have hle : ∀ i ∈ labels.filterMap ServiceStep.joined, s.rankOf i ≤ 8 := by
      intro i _
      rw [rankOf]
      cases hs : s.sessions i with
      | none => simp
      | some session =>
        dsimp only [Option.elim]
        cases session.task with
        | idle => simp [Task.rank]
        | awaiting cb w request t k => simp [Task.rank]
        | running cb w p => cases p <;> simp [Task.rank]
    have hall : ∀ n ∈ (labels.filterMap ServiceStep.joined).map s.rankOf, n ≤ 8 :=
      List.forall_mem_map.mpr hle
    simpa using List.sum_le_card_nsmul _ 8 hall
  have hcalls : s.ipc.work (opened ++ later) = s.ipc.work opened := by
    have hzero : later.map s.ipc.rankOf = later.map fun _ => 0 := by
      refine List.map_congr_left fun t ht => ?_
      rw [Ipc.rankOf, hlater t ht]
      rfl
    rw [Ipc.work, Ipc.work, List.map_append, List.sum_append, hzero]
    simp
  have hopened := Ipc.work_le opened s.ipc hback
  rw [work, hcalls]
  omega

theorem running_step {ca : CertificateAuthority} {W : Set World} {a : ServiceStep}
    (hsafe : Ipc.NeverFatal X ca W) (hi : s.ipc.running = true ∧ s.ipc.server.ca = ca)
    (hw : ∀ w chunks, a = .ipc (.serve w chunks) → w ∈ W) (h : step X s a = some s') :
    s'.ipc.running = true ∧ s'.ipc.server.ca = ca := by
  rcases (step_advanced h).ipc with hsame | ⟨b, hb, hstep⟩
  · rw [hsame]
    exact hi
  · refine Ipc.running_step hsafe hi ?_ hstep
    rcases hb with rfl | ⟨t, request, rfl⟩
    · cases b with
      | serve w chunks => exact hw w chunks rfl
      | _ => trivial
    · trivial

def Quiescent (X : Crates) (W : Set World) (s : Service) : Prop :=
  ∀ a, a.advances → Permitted W (fun _ _ => True) s a → step X s a = none

theorem quiescent_settled {W : Set World} (h : Quiescent X W s) : Ipc.Settled X W s.ipc := by
  intro b hb hw
  have hpermitted : Permitted W (fun _ _ => True) s (.ipc b) := by
    cases b with
    | serve w chunks => exact hw
    | _ => trivial
  have hstep := h (.ipc b) hb hpermitted
  cases b with
  | connect t request => simp [IpcStep.advances] at hb
  | _ => simpa [step] using hstep

theorem quiescent_idle {W : Set World} {opened : List Nat} {i : Nat} {session : Session}
    (hknown : ∀ t, s.ipc.calls t = none ↔ t ∉ opened)
    (hreturned : ∀ t call, s.ipc.calls t = some call → ∃ result, call.phase = .returned result)
    (hcall : ∀ t ∈ session.task.pending, ∃ call, s.ipc.calls t = some call)
    (h : Quiescent X W s) (at_i : s.sessions i = some session) :
    session.task = .idle ∨ ∃ site, session.panicked site := by
  obtain ⟨st, task⟩ := session
  cases task with
  | idle => exact Or.inl rfl
  | awaiting cb w request t k =>
    obtain ⟨⟨asked, counter, sent, phase⟩, at_t⟩ := hcall t (List.mem_singleton_self t)
    obtain ⟨result, hphase⟩ := hreturned t _ at_t
    dsimp only at hphase
    subst hphase
    have hstep := h (.resume i) rfl trivial
    simp [step, at_i, at_t] at hstep
  | running cb w p =>
    cases p with
    | stop site => exact Or.inr ⟨site, cb, w, rfl⟩
    | ret reply =>
      have hstep := h (.finish i) rfl trivial
      simp [step, at_i] at hstep
    | ask request k =>
      obtain ⟨t, ht⟩ := Infinite.exists_notMem_finset opened.toFinset
      have hfree := (hknown t).mpr fun hmem => ht (List.mem_toFinset.mpr hmem)
      have hstep := h (.send i t) rfl trivial
      simp [step, at_i, Ipc.step, hfree] at hstep

end Service

theorem sessions_settle (X : Crates) (W : Set World) (server : SshCaServer)
    (socketPath token : String) (ca : CertificateAuthority) (uid : Nat)
    (labels more : List ServiceStep) (s : Service) (hW : W.Nonempty)
    (hsafe : Ipc.NeverFatal X ca W)
    (hworlds : ∀ w chunks, ServiceStep.ipc (.serve w chunks) ∈ labels ++ more → w ∈ W)
    (hmore : ∀ a ∈ more, a.proceeds)
    (h : Run.run (Service.step X) (Service.start server socketPath token ca uid) (labels ++ more) =
      some s) :
    more.length ≤ 8 * (labels.filterMap ServiceStep.joined).length +
        5 * (labels.filterMap ServiceStep.sent).length ∧
      (Service.Quiescent X W s → s.ipc.backlog = [] ∧
        (∀ t call, s.ipc.calls t = some call → ∃ result, call.phase = .returned result) ∧
        ∀ i session, s.sessions i = some session →
          session.task = .idle ∨ ∃ site, session.panicked site) := by
  obtain ⟨ipcLabels, hipc, hopened⟩ := Service.run_projected h
  obtain ⟨history, last, fatal, hlin⟩ := Ipc.run_linearized hipc
  rw [List.filterMap_append] at hopened
  have honce := hlin.once
  rw [hopened] at honce
  constructor
  · obtain ⟨u, hu, hs⟩ := (Run.run_append_eq_some _).mp h
    obtain ⟨ipcLabels', hipc', hopened'⟩ := Service.run_projected hu
    obtain ⟨history', last', fatal', hlin'⟩ := Ipc.run_linearized hipc'
    have hjoined := Service.joined_run hu
    have hknown := hlin'.known
    rw [hopened'] at hknown
    have hback : u.ipc.backlog.length ≤ (labels.filterMap ServiceStep.sent).length := by
      rw [← hopened', ← hlin'.order, List.length_append]
      omega
    have hlater : ∀ t ∈ more.filterMap ServiceStep.sent, u.ipc.calls t = none := by
      intro t ht
      refine (hknown t).mpr fun hmem => ?_
      exact List.disjoint_of_nodup_append honce hmem ht
    have hwithin : Service.Within (labels.filterMap ServiceStep.joined)
        (labels.filterMap ServiceStep.sent ++ more.filterMap ServiceStep.sent) u := by
      refine ⟨fun i session at_i => ?_, fun t call at_t => ?_, hjoined.once⟩
      · by_contra hnot
        rw [(hjoined.known i).mpr hnot] at at_i
        simp at at_i
      · refine List.mem_append_left _ ?_
        by_contra hnot
        rw [(hknown t).mpr hnot] at at_t
        simp at at_t
    have hsteps : ∀ a ∈ more, a.proceeds ∧ ∀ t ∈ a.sent,
        t ∈ labels.filterMap ServiceStep.sent ++ more.filterMap ServiceStep.sent := by
      refine fun a ha => ⟨hmore a ha, fun t ht => List.mem_append_right _ ?_⟩
      exact List.mem_filterMap.mpr ⟨a, ha, ht⟩
    have hlength := Run.length_le_of_measure
      (fun _ _ _ hin hc hstep => Service.work_step hjoined.nodup honce hin hc.1 hc.2 hstep)
      hwithin (Run.along_of_forall (fun _ => hsteps) u) hs
    have hwork := Service.work_le labels hback hlater
    omega
  · intro hquiet
    have hattended : s.ipc.Attended := Run.invariant
      (fun _ _ _ hi hstep => Ipc.attended_step hi hstep)
      (Ipc.start_attended socketPath token ca uid) hipc
    have hallowed : ∀ (_ : Service), ∀ a ∈ labels ++ more,
        ∀ w chunks, a = ServiceStep.ipc (.serve w chunks) → w ∈ W := by
      rintro _ a ha w chunks rfl
      exact hworlds w chunks ha
    obtain ⟨hrunning, -⟩ := Run.invariant_along
      (I := fun s => s.ipc.running = true ∧ s.ipc.server.ca = ca)
      (fun _ _ _ hi hw hstep => Service.running_step hsafe hi hw hstep) ⟨rfl, rfl⟩
      (Run.along_of_forall hallowed _) h
    obtain ⟨hempty, hreturned⟩ := Ipc.settled_returned hattended hrunning hW
      (Service.quiescent_settled hquiet)
    obtain ⟨trails, htracked⟩ := tracked_run
      (fun handler cb w => callback_follows server handler cb w) h
    refine ⟨hempty, hreturned, fun i session at_i => ?_⟩
    refine Service.quiescent_idle hlin.known hreturned (fun t ht => ?_) hquiet at_i
    exact accounted_known (htracked.sessions i session at_i) (List.mem_append_right _ ht)

theorem Service.resting_quiescent {X : Crates} {W : Set World} {first s : Service} {n : Nat}
    {sessions : Nat → Option Session} (h : Resting first n sessions s)
    (hidle : ∀ i session, sessions i = some session → session.task = .idle) :
    Quiescent X W s := by
  intro a hadvances hpermitted
  have hnone : ∀ i st task, s.sessions i = some ⟨st, task⟩ → task = .idle := by
    rw [h.sessions]
    exact fun i st task => hidle i ⟨st, task⟩
  cases hstep : step X s a with
  | none => rfl
  | some s' =>
    cases step_stepped hstep with
    | newClient free => simp [ServiceStep.advances] at hadvances
    | deliver at_i => simp [ServiceStep.advances] at hadvances
    | send at_i connected => simpa using hnone _ _ _ at_i
    | refuse at_i => simp [ServiceStep.advances] at hadvances
    | resume at_i => simpa using hnone _ _ _ at_i
    | finish at_i => simpa using hnone _ _ _ at_i
    | @ipc b ipc internal stepped =>
      have hworld : Ipc.WorldsIn W s.ipc b := by
        cases b with
        | serve w chunks => exact hpermitted
        | _ => trivial
      have hsettled := Ipc.rested_settled (X := X) (W := W) h.ipc b hadvances hworld
      simp [hsettled] at stepped

theorem sessions_settle_signing :
    ∃ s, Run.run (Service.step readingCrates) signingService ((hostRun ++ userLogin) ++ userAsk) =
        some s ∧ s.sessions 1 = some ⟨userState, .idle⟩ ∧
      userAsk.length ≤ 8 * ((hostRun ++ userLogin).filterMap ServiceStep.joined).length +
        5 * ((hostRun ++ userLogin).filterMap ServiceStep.sent).length ∧
      s.ipc.backlog = [] ∧
        (∀ t call, s.ipc.calls t = some call → ∃ result, call.phase = .returned result) ∧
        ∀ i session, s.sessions i = some session →
          session.task = .idle ∨ ∃ site, session.panicked site := by
  obtain ⟨s, hs, hrest⟩ := signing_run
  rw [signingRun, ← List.append_assoc] at hs
  have hworlds : ∀ w chunks, ServiceStep.ipc (.serve w chunks) ∈ (hostRun ++ userLogin) ++ userAsk →
      w ∈ ({weekWorld 0} : Set World) := by
    intro w chunks hmem
    rw [List.append_assoc] at hmem
    exact signingRun_serves hmem
  have hidle : ∀ i session, signingSessions i = some session → session.task = .idle := by
    intro i session hsession
    simp only [signingSessions, hostSessions, Function.update_apply] at hsession
    split_ifs at hsession
    · obtain rfl := Option.some.inj hsession
      rfl
    · obtain rfl := Option.some.inj hsession
      rfl
  obtain ⟨hlength, hsettled⟩ := sessions_settle readingCrates {weekWorld 0} passwordServer _ _
    localAuthority _ (hostRun ++ userLogin) userAsk s ⟨_, rfl⟩ reading_neverFatal hworlds
    (by simp [userAsk, Service.ask, Ipc.converse, ServiceStep.proceeds]) hs
  exact ⟨s, hs, hrest.sessions ▸ rfl, hlength,
    hsettled (Service.resting_quiescent hrest hidle)⟩

end SshCertificateAuthority
