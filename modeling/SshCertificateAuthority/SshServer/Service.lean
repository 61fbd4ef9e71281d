import SshCertificateAuthority.SshServer.SshHandler
import SshCertificateAuthority.CertificatAuthority.Exchange

namespace SshCertificateAuthority
open ByteStream Coroutine

inductive Task where
  | idle
  | running (cb : Callback) (w : World) (task : SessionTask Reply)
  | awaiting (cb : Callback) (w : World) (request : CaRequest) (call : Nat)
      (k : Except String CaResponse → SessionTask Reply)

structure SessionState where
  handler : ConnectionHandler
  login : Option (Callback × World)
  log : List (Callback × Reply)

structure Session where
  state : SessionState
  task : Task

structure Service where
  server : SshCaServer
  ipc : Ipc
  sessions : Nat → Option Session

inductive ServiceStep where
  | newClient (session : Nat)
  | deliver (session : Nat) (cb : Callback) (w : World)
  | send (session : Nat) (call : Nat)
  | refuse (session : Nat) (e : String)
  | resume (session : Nat)
  | finish (session : Nat)
  | ipc (a : IpcStep)

def Callback.isAuth : Callback → Bool
  | .authPassword _ _ | .authPublickey _ _ => true
  | _ => false

namespace SessionState

def new : SessionState := ⟨.new, none, []⟩

-- russh delivers authentication callbacks up to the first Accept and channel callbacks after it.
def deliverable (st : SessionState) (cb : Callback) : Bool :=
  if cb.isAuth then st.login.isNone else st.login.isSome

def finish (st : SessionState) (cb : Callback) (w : World) (reply : Reply) : SessionState where
  handler := reply.handler
  login := match reply.result with
    | .ok (some .accept) => some (cb, w)
    | _ => st.login
  log := st.log ++ [(cb, reply)]

end SessionState

namespace Service

variable (X : Crates)

def start (server : SshCaServer) (socketPath token : String) (ca : CertificateAuthority)
    (uid : Nat) : Service where
  server := server
  ipc := Ipc.start socketPath token ca uid
  sessions _ := none

def setSession (s : Service) (i : Nat) (session : Session) : Service :=
  { s with sessions := Function.update s.sessions i (some session) }

def step (s : Service) : ServiceStep → Option Service
  | .newClient i =>
    match s.sessions i with
    | some _ => none
    | none => some (s.setSession i ⟨.new, .idle⟩)
  | .deliver i cb w =>
    match s.sessions i with
    | some ⟨st, .idle⟩ =>
      if st.deliverable cb then
        some (s.setSession i ⟨st, .running cb w (st.handler.callback X s.server w cb)⟩)
      else none
    | _ => none
  | .send i t =>
    match s.sessions i with
    | some ⟨st, .running cb w (.ask request k)⟩ =>
      (s.ipc.step X (.connect t request)).map fun ipc =>
        { s.setSession i ⟨st, .awaiting cb w request t k⟩ with ipc := ipc }
    | _ => none
  | .refuse i e =>
    match s.sessions i with
    | some ⟨st, .running cb w (.ask _ k)⟩ =>
      some (s.setSession i ⟨st, .running cb w (k (.error e))⟩)
    | _ => none
  | .resume i =>
    match s.sessions i with
    | some ⟨st, .awaiting cb w _ t k⟩ =>
      match s.ipc.calls t with
      | some ⟨_, _, _, .returned result⟩ => some (s.setSession i ⟨st, .running cb w (k result)⟩)
      | _ => none
    | _ => none
  | .finish i =>
    match s.sessions i with
    | some ⟨st, .running cb w (.ret reply)⟩ => some (s.setSession i ⟨st.finish cb w reply, .idle⟩)
    | _ => none
  | .ipc (.connect _ _) => none
  | .ipc a => (s.ipc.step X a).map fun ipc => { s with ipc := ipc }

end Service

inductive SessionMoved (X : Crates) (s s' : Service) (i : Nat) (a : ServiceStep) :
    Option Session → Session → Prop where
  | opened : SessionMoved X s s' i a none ⟨.new, .idle⟩
  | delivered {st : SessionState} {cb : Callback} {w : World}
      (label : a = .deliver i cb w) (allowed : st.deliverable cb) :
      SessionMoved X s s' i a (some ⟨st, .idle⟩)
        ⟨st, .running cb w (st.handler.callback X s.server w cb)⟩
  | sent {st : SessionState} {cb : Callback} {w : World} {request : CaRequest} {t : Nat}
      {k : Except String CaResponse → SessionTask Reply}
      (label : a = .send i t)
      (connected : s.ipc.step X (.connect t request) = some s'.ipc) :
      SessionMoved X s s' i a (some ⟨st, .running cb w (.ask request k)⟩)
        ⟨st, .awaiting cb w request t k⟩
  | refused {st : SessionState} {cb : Callback} {w : World} {request : CaRequest}
      {k : Except String CaResponse → SessionTask Reply} {e : String} :
      SessionMoved X s s' i a (some ⟨st, .running cb w (.ask request k)⟩)
        ⟨st, .running cb w (k (.error e))⟩
  | resumed {st : SessionState} {cb : Callback} {w : World} {request : CaRequest} {t : Nat}
      {k : Except String CaResponse → SessionTask Reply} {call : Call}
      {result : Except String CaResponse} (at_t : s.ipc.calls t = some call)
      (phase : call.phase = .returned result) :
      SessionMoved X s s' i a (some ⟨st, .awaiting cb w request t k⟩) ⟨st, .running cb w (k result)⟩
  | finished {st : SessionState} {cb : Callback} {w : World} {reply : Reply} :
      SessionMoved X s s' i a (some ⟨st, .running cb w (.ret reply)⟩) ⟨st.finish cb w reply, .idle⟩

namespace Service

variable {X : Crates}

theorem setSession_sessions (s : Service) (i j : Nat) (session : Session) :
    (s.setSession i session).sessions j = if j = i then some session else s.sessions j := by
  simp [setSession, Function.update_apply]

structure Advanced (X : Crates) (s : Service) (a : ServiceStep) (s' : Service) : Prop where
  server : s'.server = s.server
  ipc : s'.ipc = s.ipc ∨ ∃ b, (a = .ipc b ∨ ∃ t request, b = .connect t request) ∧
    s.ipc.step X b = some s'.ipc
  sessions : s'.sessions = s.sessions ∨ ∃ i old new, s.sessions i = old ∧
    SessionMoved X s s' i a old new ∧
      ∀ j, s'.sessions j = if j = i then some new else s.sessions j

theorem step_advanced {s s' : Service} {a : ServiceStep} (h : step X s a = some s') :
    Advanced X s a s' := by
  cases a with
  | newClient i =>
    simp only [step] at h
    split at h
    · simp at h
    · next free =>
      obtain rfl := Option.some.inj h
      exact ⟨rfl, Or.inl rfl, Or.inr ⟨i, _, _, free, .opened, fun j => setSession_sessions s i j _⟩⟩
  | deliver i cb w =>
    simp only [step] at h
    split at h
    · next st at_i =>
      split at h
      · next allowed =>
        obtain rfl := Option.some.inj h
        exact ⟨rfl, Or.inl rfl, Or.inr ⟨i, _, _, at_i, .delivered rfl allowed,
          fun j => setSession_sessions s i j _⟩⟩
      · simp at h
    · simp at h
  | send i t =>
    simp only [step] at h
    split at h
    · next st cb w request k at_i =>
      obtain ⟨ipc, hipc, rfl⟩ := Option.map_eq_some_iff.mp h
      exact ⟨rfl, Or.inr ⟨_, Or.inr ⟨t, request, rfl⟩, hipc⟩, Or.inr ⟨i, _, _, at_i, .sent rfl hipc,
        fun j => setSession_sessions s i j _⟩⟩
    · simp at h
  | refuse i e =>
    simp only [step] at h
    split at h
    · next at_i =>
      obtain rfl := Option.some.inj h
      exact ⟨rfl, Or.inl rfl,
        Or.inr ⟨i, _, _, at_i, .refused, fun j => setSession_sessions s i j _⟩⟩
    · simp at h
  | resume i =>
    simp only [step] at h
    split at h
    · next at_i =>
      split at h
      · next at_t =>
        obtain rfl := Option.some.inj h
        exact ⟨rfl, Or.inl rfl, Or.inr ⟨i, _, _, at_i, .resumed at_t rfl,
          fun j => setSession_sessions s i j _⟩⟩
      · simp at h
    · simp at h
  | finish i =>
    simp only [step] at h
    split at h
    · next at_i =>
      obtain rfl := Option.some.inj h
      exact ⟨rfl, Or.inl rfl,
        Or.inr ⟨i, _, _, at_i, .finished, fun j => setSession_sessions s i j _⟩⟩
    · simp at h
  | ipc b =>
    cases b with
    | connect t request => simp [step] at h
    | _ =>
      obtain ⟨ipc, hipc, rfl⟩ := Option.map_eq_some_iff.mp h
      exact ⟨rfl, Or.inr ⟨_, Or.inl rfl, hipc⟩, Or.inl rfl⟩

end Service

section

variable (X : Crates) (first : Service) (labels : List ServiceStep)

def ServedWith (t : Nat) (w : World) : Prop :=
  ∃ before chunks after s, labels = before ++ .ipc (.serve w chunks) :: after ∧
    Run.run (Service.step X) first before = some s ∧ s.ipc.backlog.head? = some t

def SentBy (i j t : Nat) : Prop :=
  ∃ before after s session, labels = before ++ .send i t :: after ∧
    Run.run (Service.step X) first before = some s ∧ s.sessions i = some session ∧
      session.state.log.length = j

-- The world in which the call that session `i` made in its `j`-th callback was served.
def servedFor (i j : Nat) : Set World :=
  { w | ∃ t, SentBy X first labels i j t ∧ ServedWith X first labels t w }

end

section SessionRule

variable {X : Crates} {ca : CertificateAuthority} {U : Set World} {V : Nat → Set World}
  {W : Nat → Nat → Set World} {D : Callback → World → Prop} {E : PanicSite → Prop}
  {I : Nat → SessionState → Prop}

def Answers (X : Crates) (ca : CertificateAuthority) (U : Set World) (q : CaRequest)
    (a : Except String CaResponse) : Prop := ∀ r, a = .ok r → Exchange X ca U q r

def Permitted (U : Set World) (D : Callback → World → Prop) (_ : Service) : ServiceStep → Prop
  | .deliver _ cb w => D cb w
  | .ipc (.serve w _) => w ∈ U
  | _ => True

def Attributed (V : Nat → Set World) (W : Nat → Nat → Set World) (D : Callback → World → Prop)
    (s : Service) : ServiceStep → Prop
  | .deliver _ cb w => D cb w
  | .send i t => ∀ session, s.sessions i = some session → V t ⊆ W i session.state.log.length
  | .ipc a => Ipc.ServedIn V s.ipc a
  | _ => True

def SessionSafe (X : Crates) (ca : CertificateAuthority) (U : Set World) (E : PanicSite → Prop)
    (I : SessionState → Prop) (st : SessionState) (cb : Callback) (w : World)
    (p : SessionTask Reply) : Prop :=
  Safe (Answers X ca U) E (fun reply => I (st.finish cb w reply)) p

def TaskSound (X : Crates) (ca : CertificateAuthority) (V : Nat → Set World) (U : Set World)
    (E : PanicSite → Prop) (I : SessionState → Prop) (calls : Nat → Option Call)
    (st : SessionState) : Task → Prop
  | .idle => True
  | .running cb w p => SessionSafe X ca U E I st cb w p
  | .awaiting cb w request t k => (∃ call, calls t = some call ∧ call.request = request) ∧
    V t ⊆ U ∧ ∀ a, Answers X ca U request a → SessionSafe X ca U E I st cb w (k a)

structure ServiceSound (X : Crates) (ca : CertificateAuthority) (V : Nat → Set World)
    (W : Nat → Nat → Set World) (E : PanicSite → Prop) (I : Nat → SessionState → Prop)
    (server : SshCaServer) (s : Service) : Prop where
  server : s.server = server
  ipc : Ipc.Honoured X ca V s.ipc
  sessions : ∀ i session, s.sessions i = some session → I i session.state ∧
    TaskSound X ca V (W i session.state.log.length) E (I i) s.ipc.calls session.state session.task

theorem taskSound_mono {calls calls' : Nat → Option Call} {J : SessionState → Prop}
    {st : SessionState} {task : Task} (h : TaskSound X ca V U E J calls st task)
    (hcalls : ∀ t call, calls t = some call →
      ∃ call', calls' t = some call' ∧ call'.request = call.request) :
    TaskSound X ca V U E J calls' st task := by
  cases task with
  | idle => exact h
  | running cb w p => exact h
  | awaiting cb w request t k =>
    obtain ⟨⟨call, hcall, hrequest⟩, hk⟩ := h
    obtain ⟨call', hcall', hsame⟩ := hcalls t call hcall
    exact ⟨⟨call', hcall', hsame.trans hrequest⟩, hk⟩

theorem taskSound_moved {server : SshCaServer} {s s' : Service} {a : ServiceStep} {i : Nat}
    {old : Option Session} {new : Session} (hnew : I i .new)
    (hsafe : ∀ st cb w, I i st → D cb w → st.deliverable cb →
      SessionSafe X ca (W i st.log.length) E (I i) st cb w (st.handler.callback X server w cb))
    (hi : ServiceSound X ca V W E I server s) (hp : Attributed V W D s a)
    (at_i : s.sessions i = old) (h : SessionMoved X s s' i a old new) :
    I i new.state ∧ TaskSound X ca V (W i new.state.log.length) E (I i) s'.ipc.calls new.state
      new.task := by
  have hold := hi.sessions i
  rw [at_i] at hold
  cases h with
  | opened => exact ⟨hnew, trivial⟩
  | delivered label allowed =>
    obtain ⟨hst, -⟩ := hold _ rfl
    subst label
    rw [hi.server]
    exact ⟨hst, hsafe _ _ _ hst hp allowed⟩
  | sent label connected =>
    obtain ⟨hst, htask⟩ := hold _ rfl
    subst label
    have hworlds := hp _ at_i
    exact ⟨hst, Ipc.connect_calls connected, hworlds, htask⟩
  | refused =>
    obtain ⟨hst, htask⟩ := hold _ rfl
    exact ⟨hst, htask _ fun r hr => by simp at hr⟩
  | @resumed st cb w request t k call result at_t phase =>
    obtain ⟨hst, ⟨call', hcall', hrequest⟩, hworlds, htask⟩ := hold _ rfl
    obtain rfl : call = call' := by simpa [at_t] using hcall'
    refine ⟨hst, htask _ fun r hr => ?_⟩
    rw [← hrequest]
    exact exchange_mono hworlds ((hi.ipc.conversing t call at_t).returned r (hr ▸ phase))
  | finished =>
    obtain ⟨-, htask⟩ := hold _ rfl
    exact ⟨htask, trivial⟩

theorem serviceSound_step {server : SshCaServer} {s s' : Service} {a : ServiceStep}
    (hnew : ∀ i, I i .new)
    (hsafe : ∀ i st cb w, I i st → D cb w → st.deliverable cb →
      SessionSafe X ca (W i st.log.length) E (I i) st cb w (st.handler.callback X server w cb))
    (hi : ServiceSound X ca V W E I server s) (hp : Attributed V W D s a)
    (h : Service.step X s a = some s') : ServiceSound X ca V W E I server s' := by
  have hadv := Service.step_advanced h
  have hipc : Ipc.Honoured X ca V s'.ipc ∧ ∀ t call, s.ipc.calls t = some call →
      ∃ call', s'.ipc.calls t = some call' ∧ call'.request = call.request := by
    rcases hadv.ipc with hsame | ⟨b, hb, hstep⟩
    · rw [hsame]
      exact ⟨hi.ipc, fun t call hc => ⟨call, hc, rfl⟩⟩
    · refine ⟨Ipc.honoured_step hi.ipc ?_ hstep, Ipc.step_requests hstep⟩
      rcases hb with rfl | ⟨t, request, rfl⟩
      · exact hp
      · trivial
  refine ⟨hadv.server.trans hi.server, hipc.1, ?_⟩
  intro j session hj
  rcases hadv.sessions with hsame | ⟨i, old, new, at_i, hmoved, hsessions⟩
  · obtain ⟨hst, htask⟩ := hi.sessions j session (hsame ▸ hj)
    exact ⟨hst, taskSound_mono htask hipc.2⟩
  · rw [hsessions] at hj
    split at hj
    · next hji =>
      obtain rfl := Option.some.inj hj
      subst hji
      exact taskSound_moved (hnew j) (hsafe j) hi hp at_i hmoved
    · obtain ⟨hst, htask⟩ := hi.sessions j session hj
      exact ⟨hst, taskSound_mono htask hipc.2⟩

theorem serviceSound_run {server : SshCaServer} {socketPath token : String} {uid : Nat}
    {labels : List ServiceStep} {s : Service} (hnew : ∀ i, I i .new)
    (hsafe : ∀ i st cb w, I i st → D cb w → st.deliverable cb →
      SessionSafe X ca (W i st.log.length) E (I i) st cb w (st.handler.callback X server w cb))
    (hp : Run.Along (Service.step X) (Attributed V W D)
      (Service.start server socketPath token ca uid) labels)
    (h : Run.run (Service.step X) (Service.start server socketPath token ca uid) labels = some s) :
    ServiceSound X ca V W E I server s :=
  Run.invariant_along (fun _ _ _ => serviceSound_step hnew hsafe)
    ⟨rfl, Ipc.start_honoured socketPath token uid, by simp [Service.start]⟩ hp h

end SessionRule

theorem attributed_along {X : Crates} {first : Service} {labels : List ServiceStep}
    {D : Callback → World → Prop}
    (hd : ∀ i cb w, ServiceStep.deliver i cb w ∈ labels → D cb w) :
    Run.Along (Service.step X)
      (Attributed (fun t => { w | ServedWith X first labels t w }) (servedFor X first labels) D)
      first labels := by
  apply Run.along_of_prefix
  rintro before a after s hlabels hrun
  cases a with
  | deliver i cb w => exact hd i cb w (by simp [hlabels])
  | send i t =>
    intro session at_i w hw
    exact ⟨t, ⟨before, after, s, session, hlabels, hrun, at_i, rfl⟩, hw⟩
  | ipc b =>
    cases b with
    | serve w chunks => exact fun t ht => ⟨before, chunks, after, s, hlabels, hrun, ht⟩
    | _ => trivial
  | _ => trivial

end SshCertificateAuthority
