import SshCertificateAuthority.CertificatAuthority.Availability
import SshCertificateAuthority.CertificatAuthority.ServedOrders
import Mathlib.Algebra.GroupWithZero.Nat
import Mathlib.Algebra.Order.BigOperators.Group.List
import Mathlib.Algebra.Order.Ring.Nat

namespace SshCertificateAuthority
open ByteStream

def Phase.rank : Phase → Nat
  | .connected => 4
  | .drawn => 3
  | .written => 2
  | .answered _ => 1
  | .returned _ => 0

def Phase.waiting : Phase → Bool
  | .connected | .drawn | .written => true
  | _ => false

def IpcStep.advances : IpcStep → Bool
  | .connect _ _ | .abort _ _ => false
  | _ => true

namespace Ipc

variable {X : Crates}

def rankOf (s : Ipc) (t : Nat) : Nat := (s.calls t).elim 0 fun call => call.phase.rank

def work (opened : List Nat) (s : Ipc) : Nat := (opened.map s.rankOf).sum + s.backlog.length

def Within (opened : List Nat) (s : Ipc) : Prop := ∀ t call, s.calls t = some call → t ∈ opened

theorem draw_rank {call : Call} (phase : call.phase = .connected) (counter : Option UInt64) :
    (draw call counter).phase.rank < call.phase.rank := by
  cases counter with
  | none => simp [draw, phase, Phase.rank]
  | some counter => simp [draw, phase, Phase.rank]

theorem writeFrame_rank {client : CaClient} {call : Call} (phase : call.phase = .drawn)
    (counter : UInt64) : (writeFrame X client call counter).phase.rank < call.phase.rank := by
  rw [writeFrame]
  cases client.encodeRequest X counter call.request with
  | ok sent => simp [phase, Phase.rank]
  | error e => simp [phase, Phase.rank]

theorem deliver_rank (call : Call) (response : Bytes) :
    (deliver call response).phase.rank ≤ call.phase.rank := by
  rw [deliver]
  split
  · next phase => simp [phase, Phase.rank]
  · exact Nat.le_refl _

theorem returned_rank {call : Call} {result : Except String CaResponse}
    (open_call : ∀ result, call.phase ≠ .returned result) :
    ({ call with phase := .returned result } : Call).phase.rank < call.phase.rank := by
  cases hp : call.phase with
  | returned result => exact absurd hp (open_call result)
  | _ => simp [Phase.rank]

section

variable {s s' : Ipc} {t : Nat} {call call' : Call} {opened : List Nat}

theorem rankOf_moved (at_t : s.calls t = some call)
    (hcalls : ∀ u, s'.calls u = if u = t then some call' else s.calls u)
    (hrank : call'.phase.rank ≤ call.phase.rank) (u : Nat) : s'.rankOf u ≤ s.rankOf u := by
  rw [rankOf, rankOf, hcalls]
  split
  · next hu =>
    rw [hu, at_t]
    exact hrank
  · exact Nat.le_refl _

theorem within_moved (hin : s.Within opened) (at_t : s.calls t = some call)
    (hcalls : ∀ u, s'.calls u = if u = t then some call' else s.calls u) : s'.Within opened := by
  intro u c hu
  rw [hcalls] at hu
  split at hu
  · next hut =>
    rw [hut]
    exact hin t call at_t
  · exact hin u c hu

theorem work_lowered (hin : s.Within opened) (at_t : s.calls t = some call)
    (hcalls : ∀ u, s'.calls u = if u = t then some call' else s.calls u)
    (hrank : call'.phase.rank < call.phase.rank) (hbacklog : s'.backlog = s.backlog) :
    s'.Within opened ∧ work opened s' < work opened s := by
  refine ⟨within_moved hin at_t hcalls, ?_⟩
  have hsum : (opened.map s'.rankOf).sum < (opened.map s.rankOf).sum := by
    apply List.sum_lt_sum
    · exact fun u _ => rankOf_moved at_t hcalls hrank.le u
    · refine ⟨t, hin t call at_t, ?_⟩
      rw [rankOf, rankOf, hcalls, if_pos rfl, at_t]
      exact hrank
  rw [work, work, hbacklog]
  omega

theorem work_served {w : World} {chunks : List Bytes} {rest : List Nat} (hin : s.Within opened)
    (head : s.backlog = t :: rest) (at_t : s.calls t = some call) :
    (serveHead X s w chunks t rest call).Within opened ∧
      work opened (serveHead X s w chunks t rest call) < work opened s := by
  obtain ⟨-, -, -, hbacklog, -, -, hcalls⟩ := serveHead_cases (X := X) s w chunks t rest call
  have hlower : ∃ call', call'.phase.rank ≤ call.phase.rank ∧
      ∀ u, (serveHead X s w chunks t rest call).calls u =
        if u = t then some call' else s.calls u := by
    rcases hcalls with hsame | ⟨server, response, -, hset⟩
    · refine ⟨call, Nat.le_refl _, fun u => ?_⟩
      rw [hsame]
      split
      · next hu => rw [hu, at_t]
      · rfl
    · refine ⟨_, deliver_rank call response, fun u => ?_⟩
      rw [hset, Function.update_apply]
  obtain ⟨call', hrank, hcalls⟩ := hlower
  have hsum : (opened.map (serveHead X s w chunks t rest call).rankOf).sum ≤
      (opened.map s.rankOf).sum :=
    List.sum_le_sum fun u _ => rankOf_moved at_t hcalls hrank u
  refine ⟨within_moved hin at_t hcalls, ?_⟩
  rw [work, work, hbacklog, head, List.length_cons]
  omega

theorem work_step {a : IpcStep} (hin : s.Within opened) (hopen : a.opened = none)
    (h : step X s a = some s') : s'.Within opened ∧ work opened s' < work opened s := by
  cases step_stepped X h with
  | connect free => simp [IpcStep.opened] at hopen
  | fetchAdd at_t phase =>
    exact work_lowered hin at_t (fun u => setCall_calls s _ u _) (draw_rank phase _) rfl
  | write at_t holds phase =>
    exact work_lowered hin at_t (fun u => setCall_calls s _ u _) (writeFrame_rank phase _) rfl
  | serve head at_t running ready stream => exact work_served hin head at_t
  | read at_t phase =>
    exact work_lowered hin at_t (fun u => setCall_calls s _ u _) (by simp [phase, Phase.rank]) rfl
  | abort at_t open_t =>
    exact work_lowered hin at_t (fun u => setCall_calls s _ u _) (returned_rank open_t) rfl

theorem work_le (opened : List Nat) (s : Ipc) (hback : s.backlog.length ≤ opened.length) :
    work opened s ≤ 5 * opened.length := by
  have hsum : (opened.map s.rankOf).sum ≤ opened.length * 4 := by
    have hle : ∀ u ∈ opened, s.rankOf u ≤ 4 := by
      intro u _
      rw [rankOf]
      cases hc : s.calls u with
      | none => simp
      | some call => cases hp : call.phase <;> simp [Phase.rank, hp]
    simpa using List.sum_le_card_nsmul (opened.map s.rankOf) 4 (by simpa using hle)
  rw [work]
  omega

end

structure Attended (s : Ipc) : Prop where
  queued : ∀ t ∈ s.backlog, ∃ call, s.calls t = some call
  drawn : ∀ t call, s.calls t = some call → call.phase = .drawn → call.counter ≠ none
  waiting : s.running → ∀ t call, s.calls t = some call → call.phase.waiting → t ∈ s.backlog

def Settled (X : Crates) (W : Set World) (s : Ipc) : Prop :=
  ∀ a, a.advances → WorldsIn W s a → step X s a = none

theorem settled_returned {W : Set World} {s : Ipc} (hi : s.Attended) (hrun : s.running)
    (hW : W.Nonempty) (h : Settled X W s) :
    s.backlog = [] ∧ ∀ t call, s.calls t = some call → ∃ result, call.phase = .returned result := by
  have hready : ∀ t call, s.calls t = some call → call.phase ≠ .connected ∧ call.phase ≠ .drawn ∧
      ∀ response, call.phase ≠ .answered response := by
    rintro t ⟨request, counter, sent, phase⟩ at_t
    refine ⟨?_, ?_, ?_⟩
    · rintro rfl
      have hstep := h (.fetchAdd t) rfl trivial
      simp [step, at_t] at hstep
    · rintro rfl
      obtain ⟨c, hc⟩ := Option.ne_none_iff_exists'.mp (hi.drawn t _ at_t rfl)
      dsimp only at hc
      subst hc
      have hstep := h (.write t) rfl trivial
      simp [step, at_t] at hstep
    · rintro response rfl
      have hstep := h (.read t [response]) rfl trivial
      simp [step, at_t] at hstep
  have hempty : s.backlog = [] := by
    cases hback : s.backlog with
    | nil => rfl
    | cons t rest =>
      obtain ⟨call, at_t⟩ := hi.queued t (by rw [hback]; exact List.mem_cons_self)
      obtain ⟨hconn, hdrawn, hans⟩ := hready t call at_t
      have hreadable : readable call := by
        rw [readable]
        cases hp : call.phase with
        | connected => exact absurd hp hconn
        | drawn => exact absurd hp hdrawn
        | answered response => exact absurd hp (hans response)
        | written => rfl
        | returned result => rfl
      obtain ⟨w, hw⟩ := hW
      have hstep := h (.serve w [call.sent]) rfl hw
      simp [step, hback, at_t, hrun, hreadable] at hstep
  refine ⟨hempty, fun t call at_t => ?_⟩
  obtain ⟨hconn, hdrawn, hans⟩ := hready t call at_t
  cases hp : call.phase with
  | connected => exact absurd hp hconn
  | drawn => exact absurd hp hdrawn
  | answered response => exact absurd hp (hans response)
  | returned result => exact ⟨result, rfl⟩
  | written =>
    have hmem := hi.waiting hrun t call at_t (by rw [hp]; rfl)
    rw [hempty] at hmem
    simp at hmem

theorem start_attended (socketPath token : String) (ca : CertificateAuthority) (uid : Nat) :
    (start socketPath token ca uid).Attended := ⟨by simp [start], by simp [start], by simp [start]⟩

section

variable {s s' : Ipc} {t : Nat} {call call' : Call}

theorem attended_moved (hi : s.Attended) (at_t : s.calls t = some call)
    (hcalls : ∀ u, s'.calls u = if u = t then some call' else s.calls u)
    (hdrawn : call'.phase = .drawn → call'.counter ≠ none)
    (hwait : call'.phase.waiting → call.phase.waiting) (hbacklog : s'.backlog = s.backlog)
    (hrunning : s'.running = s.running) : s'.Attended := by
  refine ⟨?_, ?_, ?_⟩
  · intro u hu
    rw [hcalls]
    split
    · exact ⟨call', rfl⟩
    · exact hi.queued u (hbacklog ▸ hu)
  · intro u c hu
    rw [hcalls] at hu
    split at hu
    · obtain rfl := Option.some.inj hu
      exact hdrawn
    · exact hi.drawn u c hu
  · intro hrun u c hu hc
    rw [hrunning] at hrun
    rw [hbacklog]
    rw [hcalls] at hu
    split at hu
    · next hut =>
      obtain rfl := Option.some.inj hu
      rw [hut]
      exact hi.waiting hrun t call at_t (hwait hc)
    · exact hi.waiting hrun u c hu hc

theorem attended_connect {request : CaRequest} (hi : s.Attended) :
    Attended { s.setCall t ⟨request, none, [], .connected⟩ with backlog := s.backlog ++ [t] } := by
  refine ⟨?_, ?_, ?_⟩
  · intro u hu
    dsimp only at hu ⊢
    rw [setCall_calls]
    split
    · exact ⟨_, rfl⟩
    · next hut =>
      rcases List.mem_append.mp hu with hu | hu
      · exact hi.queued u hu
      · exact absurd (List.mem_singleton.mp hu) hut
  · intro u c hu
    dsimp only at hu
    rw [setCall_calls] at hu
    split at hu
    · obtain rfl := Option.some.inj hu
      simp
    · exact hi.drawn u c hu
  · intro hrun u c hu hc
    dsimp only at hu ⊢
    rw [setCall_calls] at hu
    split at hu
    · next hut => exact List.mem_append_right _ (List.mem_singleton.mpr hut)
    · exact List.mem_append_left _ (hi.waiting hrun u c hu hc)

theorem deliver_not_waiting (response : Bytes) (ready : readable call) :
    (deliver call response).phase.waiting = false := by
  rw [readable] at ready
  rw [deliver]
  cases hp : call.phase with
  | connected => simp [hp] at ready
  | drawn => simp [hp] at ready
  | answered r => simp [hp] at ready
  | written => rfl
  | returned result =>
    dsimp only
    rw [hp]
    rfl

theorem attended_serve {w : World} {chunks : List Bytes} {rest : List Nat} (hi : s.Attended)
    (head : s.backlog = t :: rest) (ready : readable call) :
    (serveHead X s w chunks t rest call).Attended := by
  by_cases hok : ∃ r, s.server.handle X (w, ⟨.ok s.server.serverUid, chunks⟩) = .ok r
  · obtain ⟨⟨server, response⟩, hr⟩ := hok
    rw [serveHead_handled hr]
    refine ⟨?_, ?_, ?_⟩
    · intro u hu
      dsimp only at hu ⊢
      rw [setCall_calls]
      split
      · exact ⟨_, rfl⟩
      · exact hi.queued u (by rw [head]; exact List.mem_cons_of_mem t hu)
    · intro u c hu hc
      dsimp only at hu
      rw [setCall_calls] at hu
      split at hu
      · obtain rfl := Option.some.inj hu
        have hwait := deliver_not_waiting response ready
        simp [hc, Phase.waiting] at hwait
      · exact hi.drawn u c hu hc
    · intro hrun u c hu hc
      dsimp only at hu ⊢
      rw [setCall_calls] at hu
      split at hu
      · obtain rfl := Option.some.inj hu
        rw [deliver_not_waiting response ready] at hc
        exact absurd hc Bool.false_ne_true
      · next hut =>
        have hmem := hi.waiting hrun u c hu hc
        rw [head] at hmem
        exact (List.mem_cons.mp hmem).resolve_left hut
  · rw [serveHead_fatal (not_exists.mp hok)]
    refine ⟨?_, hi.drawn, by simp⟩
    intro u hu
    exact hi.queued u (by rw [head]; exact List.mem_cons_of_mem t hu)

theorem attended_step {a : IpcStep} (hi : s.Attended) (h : step X s a = some s') :
    s'.Attended := by
  cases step_stepped X h with
  | connect free => exact attended_connect hi
  | fetchAdd at_t phase =>
    refine attended_moved hi at_t (fun u => setCall_calls s _ u _) ?_ ?_ rfl rfl
    · cases CaClient.checkedAddOne s.counter with
      | none => simp [draw]
      | some counter => simp [draw]
    · simp [phase, Phase.waiting]
  | @write t call counter at_t holds phase =>
    refine attended_moved hi at_t (fun u => setCall_calls s _ u _) ?_ ?_ rfl rfl
    · rw [writeFrame]
      cases s.client.encodeRequest X counter call.request with
      | ok sent => simp
      | error e => simp
    · simp [phase, Phase.waiting]
  | serve head at_t running ready stream => exact attended_serve hi head ready
  | read at_t phase =>
    exact attended_moved hi at_t (fun u => setCall_calls s _ u _) (by simp)
      (by simp [Phase.waiting]) rfl rfl
  | abort at_t open_t =>
    exact attended_moved hi at_t (fun u => setCall_calls s _ u _) (by simp)
      (by simp [Phase.waiting]) rfl rfl

def NeverFatal (X : Crates) (ca : CertificateAuthority) (W : Set World) : Prop :=
  ∀ w ∈ W, ∀ text q, X.requestFromStr text = .ok q → ¬ Fatal X w ca q.request

theorem running_step {ca : CertificateAuthority} {W : Set World} {a : IpcStep}
    (hsafe : NeverFatal X ca W) (hi : s.running = true ∧ s.server.ca = ca) (hw : WorldsIn W s a)
    (h : step X s a = some s') : s'.running = true ∧ s'.server.ca = ca := by
  have hst := step_stepped X h
  refine ⟨?_, (stepped_authority hst).trans hi.2⟩
  cases hst with
  | @serve w chunks t rest call head at_t running ready stream =>
    obtain ⟨⟨server, response⟩, hr⟩ : ∃ r, s.server.accept X w ⟨.ok s.server.serverUid, chunks⟩ =
        .ok r := by
      rw [CaServer.accept_isOk_iff, hi.2]
      intro q hq
      obtain ⟨-, -, text, -, -, hparse⟩ := CaServer.receive_dispatched X hq
      exact hsafe w hw text q hparse
    rw [serveHead_running t rest call hr]
    exact hi.1
  | _ => exact hi.1

end

end Ipc

theorem calls_return (X : Crates) (W : Set World) (socketPath token : String)
    (ca : CertificateAuthority) (uid : Nat) (labels more : List IpcStep) (s : Ipc)
    (hW : W.Nonempty) (hsafe : Ipc.NeverFatal X ca W)
    (hworlds : Run.Along (Ipc.step X) (Ipc.WorldsIn W) (Ipc.start socketPath token ca uid)
      (labels ++ more))
    (hmore : ∀ a ∈ more, a.opened = none)
    (h : Run.run (Ipc.step X) (Ipc.start socketPath token ca uid) (labels ++ more) = some s) :
    more.length ≤ 5 * (labels.filterMap IpcStep.opened).length ∧
      (Ipc.Settled X W s → s.backlog = [] ∧
        ∀ t call, s.calls t = some call → ∃ result, call.phase = .returned result) := by
  constructor
  · obtain ⟨u, hu, hs⟩ := (Run.run_append_eq_some _).mp h
    obtain ⟨history, server, fatal, hlin⟩ := Ipc.run_linearized hu
    have hwithin : u.Within (labels.filterMap IpcStep.opened) := by
      intro t call at_t
      by_contra hfree
      rw [(hlin.known t).mpr hfree] at at_t
      simp at at_t
    have hback : u.backlog.length ≤ (labels.filterMap IpcStep.opened).length := by
      rw [← hlin.order, List.length_append]
      omega
    have hlength := Run.length_le_of_measure (C := fun _ a => a.opened = none)
      (fun _ _ _ hin hopen hstep => Ipc.work_step hin hopen hstep) hwithin
      (Run.along_of_forall (fun _ => hmore) u) hs
    have hwork := Ipc.work_le (labels.filterMap IpcStep.opened) u hback
    omega
  · have hattended : s.Attended := Run.invariant (fun _ _ _ hi hstep => Ipc.attended_step hi hstep)
      (Ipc.start_attended socketPath token ca uid) h
    obtain ⟨hrun, -⟩ := Run.invariant_along (I := fun s => s.running = true ∧ s.server.ca = ca)
      (fun _ _ _ hi hw hstep => Ipc.running_step hsafe hi hw hstep) ⟨rfl, rfl⟩ hworlds h
    exact Ipc.settled_returned hattended hrun hW

theorem Ipc.rested_settled {X : Crates} {W : Set World} {first s : Ipc} {n : Nat}
    (h : Rested first n s) : Settled X W s := by
  intro a hadvances _
  cases hstep : step X s a with
  | none => rfl
  | some s' =>
    have hreturned : ∀ t call, s.calls t = some call → call.phase ≠ .connected ∧
        call.phase ≠ .drawn ∧ ∀ response, call.phase ≠ .answered response := by
      intro t call at_t
      obtain ⟨result, hphase⟩ := h.returned t call at_t
      simp [hphase]
    cases step_stepped X hstep with
    | connect free => simp [IpcStep.advances] at hadvances
    | fetchAdd at_t phase => exact absurd phase (hreturned _ _ at_t).1
    | write at_t holds phase => exact absurd phase (hreturned _ _ at_t).2.1
    | serve head => simp [h.backlog] at head
    | read at_t phase => exact absurd phase ((hreturned _ _ at_t).2.2 _)
    | abort at_t open_t => simp [IpcStep.advances] at hadvances

theorem answered_notFatal {q : CaRequest} {r : CaResponse}
    (h : localIpc.server.handleRequest readingCrates (weekWorld 0) q = .ok r)
    (hmem : r ∈ answers) : ¬ Fatal readingCrates (weekWorld 0) localAuthority q := by
  intro hfatal
  have hstops := (CaServer.stops_iff_fatal (s := localIpc.server) q).mpr hfatal
  rcases hstops with hpanics | ⟨cert, hcert, hlong⟩
  · rw [h] at hpanics
    exact Outcome.not_panics_ok _ hpanics
  · obtain rfl := Outcome.ok.inj (h.symm.trans hcert)
    obtain ⟨e, he⟩ := hlong
    rw [readingCrates_writesJson.response, (answers_text hmem).1] at he
    simp at he

theorem reading_neverFatal : Ipc.NeverFatal readingCrates localAuthority {weekWorld 0} := by
  rintro w rfl text q hread
  obtain ⟨hmem, -⟩ := readBack_eq_ok hread
  simp only [orders, List.mem_cons, List.not_mem_nil, or_false] at hmem
  rcases hmem with rfl | rfl | rfl | rfl
  · exact answered_notFatal web_handled (by simp [answers])
  · exact answered_notFatal web_handled (by simp [answers])
  · exact answered_notFatal host_handled (by simp [answers])
  · exact answered_notFatal user_handled (by simp [answers])

theorem calls_return_both_served :
    ∃ s call, Run.run (Ipc.step readingCrates) localIpc (twoCalls ++ secondAnswer) = some s ∧
      s.calls 1 = some call ∧ call.phase = .returned (.ok (.signedCertificate webCertificate)) ∧
      secondAnswer.length ≤ 5 * (twoCalls.filterMap IpcStep.opened).length ∧ s.backlog = [] ∧
        ∀ t call, s.calls t = some call → ∃ result, call.phase = .returned result := by
  obtain ⟨s, call, hrun, hrested, hcall, hphase⟩ := twoCalls_run
  have hworlds : Run.Along (Ipc.step readingCrates) (Ipc.WorldsIn {weekWorld 0}) localIpc
      (twoCalls ++ secondAnswer) :=
    Run.along_of_forall (by simp [twoCalls, secondAnswer, Ipc.converse, Ipc.WorldsIn]) _
  obtain ⟨hlength, hsettled⟩ := calls_return readingCrates {weekWorld 0} _ _ _ _ twoCalls
    secondAnswer s ⟨_, rfl⟩ reading_neverFatal hworlds
    (by simp [secondAnswer, Ipc.converse, IpcStep.opened]) hrun
  obtain ⟨hempty, hreturned⟩ := hsettled (Ipc.rested_settled hrested)
  exact ⟨s, call, hrun, hcall, hphase, hlength, hempty, hreturned⟩

end SshCertificateAuthority
