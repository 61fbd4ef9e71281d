import SshCertificateAuthority.SshServer.SessionPanics
import SshCertificateAuthority.SshServer.KeyDelivery
import SshCertificateAuthority.SshServer.ServiceRuns

namespace SshCertificateAuthority
open ByteStream Coroutine Sequential

structure Turn where
  call : Option Nat
  request : CaRequest
  answer : Except String CaResponse

def Turn.said (turn : Turn) : CaRequest × Except String CaResponse := (turn.request, turn.answer)

structure Trail where
  past : List (List Turn)
  now : List Turn

def Task.pending : Task → List Nat
  | .awaiting _ _ _ t _ => [t]
  | _ => []

namespace Trail

def turns (trail : Trail) : List Turn := trail.past.flatten ++ trail.now

def calls (trail : Trail) (task : Task) : List Nat :=
  trail.turns.filterMap Turn.call ++ task.pending

end Trail

abbrev Ending := Callback → List (CaRequest × Except String CaResponse) → Reply → Prop

def Held (calls : Nat → Option Call) (turn : Turn) : Prop :=
  match turn.call with
  | none => ∃ e, turn.answer = .error e
  | some t => ∃ call, calls t = some call ∧ call.request = turn.request ∧
    call.phase = .returned turn.answer

def TaskFollows (Post : Ending) (calls : Nat → Option Call) (now : List Turn) : Task → Prop
  | .idle => now = []
  | .running cb _ p => Follows (Post cb) (now.map Turn.said) p
  | .awaiting cb _ request t k => (∃ call, calls t = some call ∧ call.request = request) ∧
    ∀ a, Follows (Post cb) (now.map Turn.said ++ [(request, a)]) (k a)

structure Accounted (Post : Ending) (calls : Nat → Option Call) (trail : Trail)
    (session : Session) : Prop where
  held : ∀ turn ∈ trail.turns, Held calls turn
  logged : List.Forall₂ (fun turns e => Post e.1 (turns.map Turn.said) e.2) trail.past
    session.state.log
  task : TaskFollows Post calls trail.now session.task
  once : (trail.calls session.task).Nodup

structure Tracked (Post : Ending) (trails : Nat → Trail) (s : Service) : Prop where
  sessions : ∀ i session, s.sessions i = some session →
    Accounted Post s.ipc.calls (trails i) session
  apart : ∀ i j session session', i ≠ j → s.sessions i = some session →
    s.sessions j = some session' →
      ((trails i).calls session.task).Disjoint ((trails j).calls session'.task)

def CallsKept (calls calls' : Nat → Option Call) : Prop :=
  ∀ t call, calls t = some call → ∃ call', calls' t = some call' ∧
    call'.request = call.request ∧ ∀ a, call.phase = .returned a → call'.phase = .returned a

section

variable {Post : Ending} {calls calls' : Nat → Option Call} {trail : Trail} {session : Session}

theorem held_kept {turn : Turn} (h : Held calls turn) (hkept : CallsKept calls calls') :
    Held calls' turn := by
  rw [Held] at h ⊢
  cases hcall : turn.call with
  | none => simpa only [hcall] using h
  | some t =>
    simp only [hcall] at h ⊢
    obtain ⟨call, at_t, hrequest, hphase⟩ := h
    obtain ⟨call', at_t', hsame, hreturned⟩ := hkept t call at_t
    exact ⟨call', at_t', hsame.trans hrequest, hreturned _ hphase⟩

theorem accounted_kept (h : Accounted Post calls trail session) (hkept : CallsKept calls calls') :
    Accounted Post calls' trail session := by
  refine ⟨fun turn hturn => held_kept (h.held turn hturn) hkept, h.logged, ?_, h.once⟩
  have htask := h.task
  cases htask' : session.task with
  | idle =>
    rw [htask'] at htask
    exact htask
  | running cb w p =>
    rw [htask'] at htask
    exact htask
  | awaiting cb w request t k =>
    rw [htask'] at htask
    obtain ⟨⟨call, at_t, hrequest⟩, hk⟩ := htask
    obtain ⟨call', at_t', hsame, -⟩ := hkept t call at_t
    exact ⟨⟨call', at_t', hsame.trans hrequest⟩, hk⟩

theorem accounted_known (h : Accounted Post calls trail session) {t : Nat}
    (ht : t ∈ trail.calls session.task) : ∃ call, calls t = some call := by
  rw [Trail.calls, List.mem_append, List.mem_filterMap] at ht
  rcases ht with ⟨turn, hturn, hcall⟩ | ht
  · have hheld := h.held turn hturn
    rw [Held] at hheld
    rw [hcall] at hheld
    obtain ⟨call, at_t, -⟩ := hheld
    exact ⟨call, at_t⟩
  · have htask := h.task
    cases htask' : session.task with
    | idle => simp [htask', Task.pending] at ht
    | running cb w p => simp [htask', Task.pending] at ht
    | awaiting cb w request u k =>
      rw [htask'] at htask
      obtain rfl : t = u := by simpa [htask', Task.pending] using ht
      obtain ⟨⟨call, at_t, -⟩, -⟩ := htask
      exact ⟨call, at_t⟩

end

section

variable {X : Crates} {Post : Ending} {server : SshCaServer} {s s' : Service} {a : ServiceStep}

theorem accounted_moved {trail : Trail} {old : Option Session} {new : Session}
    (hpost : ∀ (handler : ConnectionHandler) cb w,
      Follows (Post cb) [] (handler.callback X server w cb))
    (hserver : s.server = server) (hkept : CallsKept s.ipc.calls s'.ipc.calls)
    (hi : ∀ session ∈ old, Accounted Post s.ipc.calls trail session)
    {i : Nat} (h : SessionMoved X s s' i a old new) :
    ∃ trail', Accounted Post s'.ipc.calls trail' new ∧ ∀ t ∈ trail'.calls new.task,
      (∃ session ∈ old, t ∈ trail.calls session.task) ∨ s.ipc.calls t = none := by
  cases h with
  | opened =>
    refine ⟨⟨[], []⟩, ⟨by simp [Trail.turns], .nil, rfl, List.nodup_nil⟩, ?_⟩
    simp [Trail.calls, Trail.turns, Task.pending]
  | delivered label allowed =>
    have hacc := accounted_kept (hi _ rfl) hkept
    have hnow : trail.now = [] := hacc.task
    refine ⟨trail, ⟨hacc.held, hacc.logged, ?_, hacc.once⟩, fun t ht => Or.inl ⟨_, rfl, ht⟩⟩
    rw [hserver, TaskFollows, hnow]
    exact hpost _ _ _
  | @sent st cb w request t k label connected =>
    have hacc := hi _ rfl
    have hfree := Ipc.connect_free connected
    obtain ⟨call, at_t, hrequest⟩ := Ipc.connect_calls connected
    refine ⟨trail, ⟨fun turn hturn => held_kept (hacc.held turn hturn) hkept, hacc.logged,
      ⟨⟨call, at_t, hrequest⟩, hacc.task⟩, ?_⟩, ?_⟩
    · have hnot : t ∉ trail.calls (.running cb w (.ask request k)) := by
        intro ht
        obtain ⟨call', at_t'⟩ := accounted_known hacc ht
        rw [hfree] at at_t'
        simp at at_t'
      have honce := hacc.once
      simp only [Trail.calls, Task.pending, List.append_nil] at hnot honce ⊢
      refine List.nodup_append.mpr ⟨honce, List.nodup_singleton t, ?_⟩
      rintro u hu v hv rfl
      exact hnot (List.mem_singleton.mp hv ▸ hu)
    · intro u hu
      rw [Trail.calls, List.mem_append] at hu
      rcases hu with hu | hu
      · exact Or.inl ⟨_, rfl, List.mem_append_left _ hu⟩
      · exact Or.inr (List.mem_singleton.mp hu ▸ hfree)
  | @refused st cb w request k e =>
    have hacc := hi _ rfl
    have hcalls : Trail.calls ⟨trail.past, trail.now ++ [⟨none, request, .error e⟩]⟩
        (.running cb w (k (.error e))) = trail.calls (.running cb w (.ask request k)) := by
      simp [Trail.calls, Trail.turns, Task.pending]
    refine ⟨⟨trail.past, trail.now ++ [⟨none, request, .error e⟩]⟩,
      ⟨?_, hacc.logged, ?_, hcalls ▸ hacc.once⟩, fun t ht => Or.inl ⟨_, rfl, hcalls ▸ ht⟩⟩
    · intro turn hturn
      rw [Trail.turns, ← List.append_assoc, List.mem_append, List.mem_singleton] at hturn
      rcases hturn with hturn | rfl
      · exact held_kept (hacc.held turn hturn) hkept
      · exact ⟨e, rfl⟩
    · rw [TaskFollows, List.map_append]
      exact hacc.task _
  | @resumed st cb w request t k call result at_t phase =>
    have hacc := hi _ rfl
    obtain ⟨⟨call', at_t', hrequest⟩, hk⟩ := hacc.task
    obtain rfl : call = call' := by simpa [at_t] using at_t'
    have hcalls : Trail.calls ⟨trail.past, trail.now ++ [⟨some t, request, result⟩]⟩
        (.running cb w (k result)) = trail.calls (.awaiting cb w request t k) := by
      simp [Trail.calls, Trail.turns, Task.pending]
    refine ⟨⟨trail.past, trail.now ++ [⟨some t, request, result⟩]⟩,
      ⟨?_, hacc.logged, ?_, hcalls ▸ hacc.once⟩, fun t ht => Or.inl ⟨_, rfl, hcalls ▸ ht⟩⟩
    · intro turn hturn
      rw [Trail.turns, ← List.append_assoc, List.mem_append, List.mem_singleton] at hturn
      rcases hturn with hturn | rfl
      · exact held_kept (hacc.held turn hturn) hkept
      · obtain ⟨c, hc, hsame, hreturned⟩ := hkept t call at_t
        exact ⟨c, hc, hsame.trans hrequest, hreturned _ phase⟩
    · rw [TaskFollows, List.map_append]
      exact hk result
  | @finished st cb w reply =>
    have hacc := hi _ rfl
    have hcalls : Trail.calls ⟨trail.past ++ [trail.now], []⟩ .idle =
        trail.calls (.running cb w (.ret reply)) := by
      simp [Trail.calls, Trail.turns, Task.pending]
    refine ⟨⟨trail.past ++ [trail.now], []⟩, ⟨?_, ?_, rfl, hcalls ▸ hacc.once⟩,
      fun t ht => Or.inl ⟨_, rfl, hcalls ▸ ht⟩⟩
    · intro turn hturn
      refine held_kept (hacc.held turn ?_) hkept
      simpa [Trail.turns] using hturn
    · exact List.rel_append hacc.logged (.cons hacc.task .nil)

theorem callsKept_step {s s' : Ipc} {a : IpcStep} (h : Ipc.step X s a = some s') :
    CallsKept s.calls s'.calls := by
  intro t call at_t
  obtain ⟨-, u, old, new, at_u, hmoved, hcalls⟩ := Ipc.stepped_moved (Ipc.step_stepped X h)
  rw [hcalls]
  split
  · next htu =>
    obtain rfl : old = some call := by rw [← at_u, ← htu, at_t]
    exact ⟨new, rfl, Ipc.moved_request hmoved, fun _ hphase => Ipc.moved_returned hmoved hphase⟩
  · exact ⟨call, at_t, rfl, fun _ hphase => hphase⟩

theorem callsKept_advanced (h : Service.Advanced X s a s') :
    CallsKept s.ipc.calls s'.ipc.calls := by
  rcases h.ipc with hsame | ⟨b, -, hstep⟩
  · rw [hsame]
    exact fun t call at_t => ⟨call, at_t, rfl, fun _ hphase => hphase⟩
  · exact callsKept_step hstep

theorem tracked_step (hpost : ∀ (handler : ConnectionHandler) cb w,
      Follows (Post cb) [] (handler.callback X server w cb))
    (hi : s.server = server ∧ ∃ trails, Tracked Post trails s)
    (h : Service.step X s a = some s') : s'.server = server ∧ ∃ trails, Tracked Post trails s' := by
  obtain ⟨hserver, trails, htracked⟩ := hi
  have hadv := Service.step_advanced h
  have hkept := callsKept_advanced hadv
  refine ⟨hadv.server.trans hserver, ?_⟩
  rcases hadv.sessions with hsame | ⟨i, old, new, at_i, hmoved, hsessions⟩
  · refine ⟨trails, fun j session hj => ?_, fun j k session session' hne hj hk => ?_⟩
    · exact accounted_kept (htracked.sessions j session (hsame ▸ hj)) hkept
    · exact htracked.apart j k session session' hne (hsame ▸ hj) (hsame ▸ hk)
  · obtain ⟨trail, hacc, hcalls⟩ := accounted_moved hpost hserver hkept
      (fun session hs => htracked.sessions i session (at_i.trans hs)) hmoved
    have happart : ∀ j session, j ≠ i → s.sessions j = some session →
        (trail.calls new.task).Disjoint ((trails j).calls session.task) := by
      intro j session hne hj t ht ht'
      rcases hcalls t ht with ⟨session', hs', hold⟩ | hfree
      · exact htracked.apart i j session' session hne.symm (at_i.trans hs') hj hold ht'
      · obtain ⟨call, at_t⟩ := accounted_known (htracked.sessions j session hj) ht'
        rw [hfree] at at_t
        simp at at_t
    refine ⟨Function.update trails i trail, ?_, ?_⟩
    · intro j session hj
      rw [hsessions] at hj
      rw [Function.update_apply]
      split at hj
      · next hji =>
        obtain rfl := Option.some.inj hj
        rw [if_pos hji]
        exact hacc
      · next hji =>
        rw [if_neg hji]
        exact accounted_kept (htracked.sessions j session hj) hkept
    · intro j k session session' hne hj hk
      rw [hsessions] at hj hk
      rw [Function.update_apply, Function.update_apply]
      split at hj
      · next hji =>
        obtain rfl := Option.some.inj hj
        have hki : k ≠ i := fun hki => hne (hji.trans hki.symm)
        rw [if_neg hki] at hk
        rw [if_pos hji, if_neg hki]
        exact happart k session' hki hk
      · next hji =>
        rw [if_neg hji]
        split at hk
        · next hki =>
          obtain rfl := Option.some.inj hk
          rw [if_pos hki]
          exact fun t ht ht' => happart j session hji hj ht' ht
        · next hki =>
          rw [if_neg hki]
          exact htracked.apart j k session session' hne hj hk

theorem tracked_run {socketPath token : String} {ca : CertificateAuthority} {uid : Nat}
    {labels : List ServiceStep} (hpost : ∀ (handler : ConnectionHandler) cb w,
      Follows (Post cb) [] (handler.callback X server w cb))
    (h : Run.run (Service.step X) (Service.start server socketPath token ca uid) labels = some s) :
    ∃ trails, Tracked Post trails s :=
  (Run.invariant (I := fun s => s.server = server ∧ ∃ trails, Tracked Post trails s)
    (fun _ _ _ hi hstep => tracked_step hpost hi hstep)
    ⟨rfl, fun _ => ⟨[], []⟩, by simp [Service.start], by simp [Service.start]⟩ h).2

end

def Asks (X : Crates) (handler : ConnectionHandler) :
    Callback → Nat → CaRequest → Prop
  | .data channel payload, channel', request => channel = channel' ∧
    ∃ user key, handler.username = some user ∧ handler.authMethod ≠ some .publicKey ∧
      X.fromOpenssh (Text.fromUtf8Lossy payload) = .ok key ∧ request = .signCertificate user key
  | .execRequest channel command, channel', request => channel = channel' ∧
    ∃ hostName publicKey pubKey key, handler.username = some hostName ∧
      handler.publicKey = some publicKey ∧ X.toOpenssh publicKey = .ok pubKey ∧
      (parseExecCommand command).1 = "sign_host_key" ∧ validateHostname hostName = .ok () ∧
      X.fromOpenssh pubKey = .ok key ∧ request = .signHostCertificate hostName key
  | _, _, _ => False

def Quiet (output : List SessionOutput) : Prop :=
  output = [] ∨ ∃ message, output = [.disconnect message]

def Textless (X : Crates) (answer : Except String CaResponse) : Prop :=
  ∀ cert text, answer = .ok (.signedCertificate cert) → X.certificateToOpenssh cert ≠ .ok text

inductive Signed (X : Crates) (channel : Nat) (request : CaRequest) :
    List (CaRequest × Except String CaResponse) → List SessionOutput → Prop where
  | issued {cert : Certificate} {text : String} (written : X.certificateToOpenssh cert = .ok text) :
      Signed X channel request [(request, .ok (.signedCertificate cert))]
        (certificateReply channel text)
  | refused {answer : Except String CaResponse} {message : String} (none : Textless X answer) :
      Signed X channel request [(request, answer)] [.disconnect message]

inductive Concluded (X : Crates) (cb : Callback) (reply : Reply) :
    List (CaRequest × Except String CaResponse) → Prop where
  | signed {channel : Nat} {request : CaRequest}
      {said : List (CaRequest × Except String CaResponse)}
      (asks : Asks X reply.handler cb channel request)
      (output : Signed X channel request said reply.output) : Concluded X cb reply said
  | lookup {key : PublicKey} {answer : Except String CaResponse} (output : reply.output = [])
      (none : Textless X answer) : Concluded X cb reply [(.checkPublicKey key, answer)]
  | silent (output : Quiet reply.output) : Concluded X cb reply []

section

variable {X : Crates}

theorem sendCertAndClose_of_error {cert : Certificate} {e : String} (channel : Nat)
    (h : X.certificateToOpenssh cert = .error e) : sendCertAndClose X cert channel =
      [.disconnect ("failed to convert cert to openssh format: " ++ e)] := by
  rw [sendCertAndClose, h]

theorem signAndClose_follows (channel : Nat) (request : CaRequest) :
    Follows (Signed X channel request) [] (signAndClose X channel request) := by
  apply follows_bind
  intro answer
  cases answer with
  | error e => exact .refused fun cert text h => by simp at h
  | ok r =>
    cases r with
    | error e => exact .refused fun cert text h => by simp at h
    | keyFound found => trivial
    | signedCertificate cert =>
      simp only [Follows, pure_eq, List.nil_append]
      cases hc : X.certificateToOpenssh cert with
      | ok text =>
        rw [sendCertAndClose_of_text channel hc]
        exact .issued hc
      | error e =>
        rw [sendCertAndClose_of_error channel hc]
        refine .refused fun cert' text h ht => ?_
        obtain rfl : cert = cert' := by simpa using h
        exact absurd (hc.symm.trans ht) (by simp)

theorem handlerSignUserKey_follows (handler : ConnectionHandler) (channel : Nat)
    (payload : Bytes) :
    Follows (fun said output =>
        Concluded X (.data channel payload) ⟨handler, .ok none, output⟩ said)
      [] (handlerSignUserKey X handler channel payload) := by
  rw [handlerSignUserKey]
  cases huser : handler.username with
  | none => trivial
  | some user =>
    dsimp only
    split
    · exact .silent (Or.inr ⟨_, rfl⟩)
    · next hmethod =>
      rw [parseOpensshKey]
      cases hkey : X.fromOpenssh (Text.fromUtf8Lossy payload) with
      | error e => exact .silent (Or.inr ⟨_, rfl⟩)
      | ok key =>
        apply follows_mono (signAndClose_follows channel (.signCertificate user key))
        intro said output h
        exact .signed ⟨rfl, user, key, huser, hmethod, hkey, rfl⟩ h

theorem execRequest_follows (handler : ConnectionHandler) (channel : Nat) (command : Bytes) :
    Follows (fun said reply => Concluded X (.execRequest channel command) reply said) []
      (handler.execRequest X channel command) := by
  rw [ConnectionHandler.execRequest]
  cases hpk : handler.publicKey with
  | none => exact .silent (Or.inl rfl)
  | some publicKey =>
    dsimp only
    cases htext : X.toOpenssh publicKey with
    | error e => exact .silent (Or.inl rfl)
    | ok pubKey =>
      cases huser : handler.username with
      | none => exact .silent (Or.inl rfl)
      | some hostName =>
        dsimp only
        split
        · next hname =>
          apply follows_bind
          rw [handleSignHostKey]
          cases hv : validateHostname hostName with
          | error e => exact .silent (Or.inr ⟨_, rfl⟩)
          | ok u =>
            have hjoin : " ".intercalate [pubKey] = pubKey := rfl
            dsimp only
            rw [parseOpensshKey, hjoin]
            cases hkey : X.fromOpenssh pubKey with
            | error e => exact .silent (Or.inr ⟨_, rfl⟩)
            | ok key =>
              dsimp only
              rw [if_neg (by simp [huser])]
              apply follows_mono (signAndClose_follows channel (.signHostCertificate hostName key))
              intro said output h
              exact .signed ⟨rfl, hostName, publicKey, pubKey, key, huser, hpk, htext, hname, hv,
                hkey, rfl⟩ h
        · exact .silent (Or.inr ⟨_, rfl⟩)

theorem authPublickey_follows (handler : ConnectionHandler) (user : String)
    (publicKey : PublicKey) :
    Follows (fun said reply => Concluded X (.authPublickey user publicKey) reply said) []
      (handler.authPublickey X publicKey) := by
  rw [ConnectionHandler.authPublickey]
  cases htext : X.toOpenssh publicKey with
  | error e => trivial
  | ok text =>
    dsimp only
    cases hkey : X.fromOpenssh text with
    | error e => trivial
    | ok key =>
      intro answer
      have hquiet : ∀ found, (handler.keyReply publicKey found).output = [] := by
        intro found
        cases found <;> rfl
      cases answer with
      | error e => exact .lookup (hquiet none) fun cert text h => by simp at h
      | ok r =>
        cases r with
        | error e => exact .lookup (hquiet none) fun cert text h => by simp at h
        | signedCertificate cert => trivial
        | keyFound found => exact .lookup (hquiet found) fun cert text h => by simp at h

theorem callback_follows (server : SshCaServer) (handler : ConnectionHandler) (cb : Callback)
    (w : World) :
    Follows (fun said reply => Concluded X cb reply said) [] (handler.callback X server w cb) := by
  cases cb with
  | authPassword user password =>
    exact .silent (Or.inl (handler.authPassword_reply server w user password).1)
  | authPublickey user publicKey => exact authPublickey_follows handler user publicKey
  | channelOpenSession channel => exact .silent (Or.inl rfl)
  | data channel payload =>
    apply follows_bind
    exact handlerSignUserKey_follows handler channel payload
  | execRequest channel command => exact execRequest_follows handler channel command

end

inductive Delivered (X : Crates) (s : Service) (history : List Handling) (cb : Callback)
    (reply : Reply) : Option Nat → Prop where
  | issued {t : Nat} {call : Call} {cert : Certificate} {text : String} {channel : Nat}
      {chunks : List Bytes} (at_t : s.ipc.calls t = some call)
      (returned : call.phase = .returned (.ok (.signedCertificate cert)))
      (decoded : CaClient.decodeResponse X chunks = .ok (.signedCertificate cert))
      (attained : Ipc.Attained history t call chunks.flatten)
      (asks : Asks X reply.handler cb channel call.request)
      (written : X.certificateToOpenssh cert = .ok text)
      (output : reply.output = certificateReply channel text) :
      Delivered X s history cb reply (some t)
  | withheld {source : Option Nat} (output : Quiet reply.output)
      (textless : ∀ t ∈ source, ∃ call answer, s.ipc.calls t = some call ∧
        call.phase = .returned answer ∧ Textless X answer) : Delivered X s history cb reply source

def Trail.source (trail : Trail) (j : Nat) : Option Nat :=
  trail.past[j]?.bind fun turns => (turns.filterMap Turn.call).head?

section

variable {X : Crates}

theorem source_mem {trail : Trail} {j t : Nat} (h : trail.source j = some t) :
    ∃ turns, trail.past[j]? = some turns ∧ t ∈ turns.filterMap Turn.call := by
  obtain ⟨turns, hturns, hhead⟩ := Option.bind_eq_some_iff.mp h
  exact ⟨turns, hturns, List.mem_of_mem_head? hhead⟩

theorem source_called {trail : Trail} {j t : Nat} (task : Task) (h : trail.source j = some t) :
    t ∈ trail.calls task := by
  obtain ⟨turns, hturns, ht⟩ := source_mem h
  obtain ⟨turn, hturn, hcall⟩ := List.mem_filterMap.mp ht
  refine List.mem_append_left _ (List.mem_filterMap.mpr ⟨turn, List.mem_append_left _ ?_, hcall⟩)
  exact List.mem_flatten.mpr ⟨turns, List.mem_of_getElem? hturns, hturn⟩

theorem source_once {trail : Trail} {task : Task} {j k t : Nat} (h : (trail.calls task).Nodup)
    (hj : trail.source j = some t) (hk : trail.source k = some t) : j = k := by
  obtain ⟨turns, hturns, ht⟩ := source_mem hj
  obtain ⟨turns', hturns', ht'⟩ := source_mem hk
  have hpast : (trail.past.map (List.filterMap Turn.call)).Pairwise List.Disjoint := by
    have hflat : (trail.past.flatten.filterMap Turn.call).Nodup := by
      have hturns := List.Nodup.of_append_left h
      rw [Trail.turns, List.filterMap_append] at hturns
      exact List.Nodup.of_append_left hturns
    rw [List.filterMap_flatten] at hflat
    exact (List.nodup_flatten.mp hflat).2
  rw [List.pairwise_map] at hpast
  obtain ⟨hlt, rfl⟩ := List.getElem?_eq_some_iff.mp hturns
  obtain ⟨hlt', rfl⟩ := List.getElem?_eq_some_iff.mp hturns'
  rcases Nat.lt_trichotomy j k with hjk | hjk | hjk
  · exact (List.pairwise_iff_getElem.mp hpast j k hlt hlt' hjk ht ht').elim
  · exact hjk
  · exact (List.pairwise_iff_getElem.mp hpast k j hlt' hlt hjk ht' ht).elim

theorem concluded_delivered {s : Service} {history : List Handling} {cb : Callback} {reply : Reply}
    {turns : List Turn} {client : CaClient} (h : Concluded X cb reply (turns.map Turn.said))
    (hheld : ∀ turn ∈ turns, Held s.ipc.calls turn)
    (hreached : ∀ t call, s.ipc.calls t = some call → Ipc.Reached X client history t call) :
    Delivered X s history cb reply (turns.filterMap Turn.call).head? := by
  have hsource : ∀ turn, turns = [turn] → (turns.filterMap Turn.call).head? = turn.call := by
    rintro turn rfl
    cases hc : turn.call <;> simp [hc]
  have hwithheld : ∀ turn, turns = [turn] → Quiet reply.output → Textless X turn.answer →
      Delivered X s history cb reply (turns.filterMap Turn.call).head? := by
    intro turn hturns hquiet htextless
    rw [hsource turn hturns]
    refine .withheld hquiet fun t ht => ?_
    have hturn := hheld turn (by simp [hturns])
    rw [Held] at hturn
    rw [ht] at hturn
    obtain ⟨call, at_t, -, hphase⟩ := hturn
    exact ⟨call, _, at_t, hphase, htextless⟩
  generalize hsaid : turns.map Turn.said = said at h
  cases h with
  | silent output =>
    obtain rfl := List.map_eq_nil_iff.mp hsaid
    exact .withheld output (by simp)
  | lookup output textless =>
    obtain ⟨turn, hturns, hturn⟩ := List.map_eq_singleton_iff.mp hsaid
    obtain ⟨-, rfl⟩ := Prod.mk.inj hturn
    exact hwithheld turn hturns (Or.inl output) textless
  | signed asks output =>
    generalize hout : reply.output = out at output
    cases output with
    | refused textless =>
      obtain ⟨turn, hturns, hturn⟩ := List.map_eq_singleton_iff.mp hsaid
      obtain ⟨-, rfl⟩ := Prod.mk.inj hturn
      exact hwithheld turn hturns (Or.inr ⟨_, hout⟩) textless
    | issued written =>
      obtain ⟨turn, hturns, hturn⟩ := List.map_eq_singleton_iff.mp hsaid
      obtain ⟨hrequest, hanswer⟩ := Prod.mk.inj hturn
      have hheld := hheld turn (by simp [hturns])
      rw [hsource turn hturns]
      rw [Held] at hheld
      cases hcall : turn.call with
      | none =>
        rw [hcall] at hheld
        obtain ⟨e, he⟩ := hheld
        simp [he] at hanswer
      | some t =>
        rw [hcall] at hheld
        obtain ⟨call, at_t, hsame, hphase⟩ := hheld
        rw [hanswer] at hphase
        obtain ⟨-, chunks, hdecode, hattained⟩ := (hreached t call at_t).returned _ hphase
        rw [hrequest] at hsame
        exact .issued at_t hphase hdecode hattained (hsame ▸ asks) written hout

end

theorem certificates_delivered_once (X : Crates) (server : SshCaServer)
    (socketPath token : String) (ca : CertificateAuthority) (uid : Nat)
    (labels : List ServiceStep) (s : Service)
    (h : Run.run (Service.step X) (Service.start server socketPath token ca uid) labels = some s) :
    ∃ (history : List Handling) (last : CaServer) (source : Nat → Nat → Option Nat),
      replay (CaServer.handle X) (CaServer.new socketPath ca token uid)
          (history.map Handling.input) = .ok (last, history.map Handling.response) ∧
      (history.map Handling.call).Nodup ∧
      (∀ i j i' j' t, source i j = some t → source i' j' = some t → i = i' ∧ j = j') ∧
      ∀ i session, s.sessions i = some session →
        ∀ j cb reply, session.state.log[j]? = some (cb, reply) →
          Delivered X s history cb reply (source i j) := by
  obtain ⟨ipcLabels, hipc, -⟩ := Service.run_projected h
  obtain ⟨history, last, fatal, hlin⟩ := Ipc.run_linearized hipc
  obtain ⟨trails, htracked⟩ :=
    tracked_run (fun handler cb w => callback_follows server handler cb w) h
  refine ⟨history, last, fun i j => (s.sessions i).bind fun _ => (trails i).source j,
    hlin.replayed, ?_, ?_, ?_⟩
  · have honce := hlin.once
    rw [← hlin.order, hlin.logged] at honce
    exact (List.Nodup.of_append_left honce).of_append_left
  · intro i j i' j' t hi hi'
    obtain ⟨session, hsession, hj⟩ := Option.bind_eq_some_iff.mp hi
    obtain ⟨session', hsession', hj'⟩ := Option.bind_eq_some_iff.mp hi'
    have hsame : i = i' := by
      by_contra hne
      exact htracked.apart i i' session session' hne hsession hsession'
        (source_called _ hj) (source_called _ hj')
    subst hsame
    exact ⟨rfl, source_once (htracked.sessions i session hsession).once hj hj'⟩
  · intro i session hsession j cb reply hlog
    have hacc := htracked.sessions i session hsession
    have hlength := hacc.logged.length_eq
    obtain ⟨hlt, hentry⟩ := List.getElem?_eq_some_iff.mp hlog
    have hpast : (trails i).past[j]? = some ((trails i).past.get ⟨j, hlength ▸ hlt⟩) :=
      List.getElem?_eq_getElem _
    have hconcluded := hacc.logged.get (hlength ▸ hlt) hlt
    simp only [List.get_eq_getElem, hentry] at hconcluded
    have hdelivered := concluded_delivered hconcluded (fun turn hturn => hacc.held turn ?_)
      hlin.reached
    · simpa only [hsession, Option.bind_some, Trail.source, hpast, List.get_eq_getElem]
        using hdelivered
    · exact List.mem_append_left _ (List.mem_flatten.mpr ⟨_, List.getElem_mem _, hturn⟩)

theorem certificates_delivered_once_signing :
    ∃ s, Run.run (Service.step readingCrates) signingService signingRun = some s ∧
      s.sessions 0 = some ⟨hostState, .idle⟩ ∧ hostState.Handed webCertificate ∧
      s.sessions 1 = some ⟨userState, .idle⟩ ∧ userState.Handed aliceCertificate ∧
      ∃ (history : List Handling) (last : CaServer) (source : Nat → Nat → Option Nat),
        replay (CaServer.handle readingCrates) localIpc.server (history.map Handling.input) =
          .ok (last, history.map Handling.response) ∧
        (history.map Handling.call).Nodup ∧
        (∀ i j i' j' t, source i j = some t → source i' j' = some t → i = i' ∧ j = j') ∧
        ∀ i session, s.sessions i = some session →
          ∀ j cb reply, session.state.log[j]? = some (cb, reply) →
            Delivered readingCrates s history cb reply (source i j) := by
  obtain ⟨s, hs, hrest⟩ := signing_run
  exact ⟨s, hs, hrest.sessions ▸ rfl, host_handed, hrest.sessions ▸ rfl, user_handed,
    certificates_delivered_once readingCrates passwordServer _ _ localAuthority _ signingRun s hs⟩

end SshCertificateAuthority
