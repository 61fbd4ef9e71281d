import SshCertificateAuthority.CertificatAuthority.Ipc
import SshCertificateAuthority.CertificatAuthority.RequestFraming
import SshCertificateAuthority.Library.WrappingCounter

namespace SshCertificateAuthority
open ByteStream WrappingCounter

namespace CaClient

theorem checkedAddOne_toNat (n : Nat) :
    (checkedAddOne (UInt64.ofNat n)).map UInt64.toNat = ticket (2 ^ 64) n := by
  have hn : (UInt64.ofNat n).toNat = n % 2 ^ 64 := UInt64.toNat_ofNat'
  unfold checkedAddOne ticket
  rw [hn]
  split
  · next hlt =>
    rw [if_pos (by omega), Option.map_some, UInt64.toNat_add, hn]
    exact congrArg some (Nat.mod_eq_of_lt hlt)
  · next hlt =>
    rw [if_neg (by omega), Option.map_none]

end CaClient

def IpcStep.isFetchAdd : IpcStep → Bool
  | .fetchAdd _ => true
  | _ => false

namespace Ipc

variable {X : Crates}

def DrawnInOrder (s : Ipc) (n : Nat) : Prop :=
  s.counter = .ofNat n ∧ s.drawn.map (fun d => d.2.map UInt64.toNat) = tickets (2 ^ 64) n

theorem drawnInOrder_step {s s' : Ipc} {a : IpcStep} {n : Nat} (hi : s.DrawnInOrder n)
    (h : step X s a = some s') : s'.DrawnInOrder (n + if a.isFetchAdd then 1 else 0) := by
  cases step_stepped X h with
  | fetchAdd at_t phase =>
    refine ⟨?_, ?_⟩
    · simp [hi.1, IpcStep.isFetchAdd, UInt64.ofNat_add]
    · have hone := CaClient.checkedAddOne_toNat n
      simp only [IpcStep.isFetchAdd, if_true, List.map_append, List.map_cons, List.map_nil, hi.2,
        hi.1, hone]
      rw [tickets_add]
      simp
  | connect free => exact hi
  | write at_t holds phase => exact hi
  | serve head at_t running ready stream =>
    obtain ⟨-, hc, hd, -⟩ := serveHead_cases (X := X) s _ _ _ _ _
    exact ⟨hc.trans hi.1, by rw [hd]; exact hi.2⟩
  | read at_t phase => exact hi
  | abort at_t open_t => exact hi

theorem drawnInOrder_run {s s' : Ipc} {labels : List IpcStep} {n : Nat} (hi : s.DrawnInOrder n)
    (h : Run.run (step X) s labels = some s') :
    s'.DrawnInOrder (n + labels.countP IpcStep.isFetchAdd) := by
  induction labels generalizing s n with
  | nil =>
    obtain rfl := Option.some.inj h
    exact hi
  | cons a labels ih =>
    obtain ⟨u, hu, hs⟩ := (Run.run_cons_eq_some _).mp h
    have := ih (drawnInOrder_step hi hu) hs
    rwa [Nat.add_assoc, Nat.add_comm (if a.isFetchAdd then 1 else 0), ← List.countP_cons] at this

structure Placed (s : Ipc) : Prop where
  logged : ∀ t d, (t, d) ∈ s.drawn → ∃ call, s.calls t = some call ∧ call.phase ≠ .connected ∧
    call.counter = d ∧ (d = none → call.phase = .returned (.error CaClient.exhausted))
  carried : ∀ t call c, s.calls t = some call → call.counter = some c → (t, some c) ∈ s.drawn

structure Settles (call call' : Call) : Prop where
  counter : call'.counter = call.counter
  begun : call.phase ≠ .connected → call'.phase ≠ .connected
  returned : ∀ r, call.phase = .returned r → call'.phase = .returned r

theorem writeFrame_settles (X : Crates) (client : CaClient) (call : Call) (counter : UInt64)
    (h : call.phase = .drawn) : Settles call (writeFrame X client call counter) := by
  rw [writeFrame]
  cases client.encodeRequest X counter call.request with
  | ok sent => exact ⟨rfl, fun _ => by simp, fun r hr => by simp [h] at hr⟩
  | error e => exact ⟨rfl, fun _ => by simp, fun r hr => by simp [h] at hr⟩

theorem deliver_settles (call : Call) (response : Bytes) :
    Settles call (deliver call response) := by
  rw [deliver]
  split
  · next hp => exact ⟨rfl, fun _ => by simp, fun r hr => by simp [hp] at hr⟩
  · exact ⟨rfl, id, fun _ => id⟩

theorem settles_refl (call : Call) : Settles call call := ⟨rfl, id, fun _ => id⟩

theorem returned_settles (call : Call) (result : Except String CaResponse)
    (h : ∀ r, call.phase ≠ .returned r) : Settles call { call with phase := .returned result } :=
  ⟨rfl, fun _ => by simp, fun r hr => absurd hr (h r)⟩

theorem placed_settles {s s' : Ipc} {t : Nat} {call call' : Call} (hi : s.Placed)
    (at_t : s.calls t = some call) (hset : Settles call call') (hdrawn : s'.drawn = s.drawn)
    (hcalls : ∀ u, s'.calls u = if u = t then some call' else s.calls u) : s'.Placed := by
  constructor
  · intro u d hu
    obtain ⟨c, hc, hp, hd, hn⟩ := hi.logged u d (hdrawn ▸ hu)
    rw [hcalls]
    split
    · next h =>
      obtain rfl : call = c := by simpa [h, at_t] using hc
      exact ⟨call', rfl, hset.begun hp, hset.counter.trans hd, fun h => hset.returned _ (hn h)⟩
    · exact ⟨c, hc, hp, hd, hn⟩
  · intro u c counter hu hc
    rw [hdrawn]
    rw [hcalls] at hu
    split at hu
    · next h =>
      obtain rfl := Option.some.inj hu
      exact h ▸ hi.carried t call counter at_t (hset.counter ▸ hc)
    · exact hi.carried u c counter hu hc

theorem placed_connect {s : Ipc} {t : Nat} {request : CaRequest} (hi : s.Placed)
    (free : s.calls t = none) :
    ({ s.setCall t ⟨request, none, [], .connected⟩ with
      backlog := s.backlog ++ [t] } : Ipc).Placed := by
  constructor
  · intro u d hu
    obtain ⟨c, hc, hrest⟩ := hi.logged u d hu
    have hne : u ≠ t := fun h => by simp [h, free] at hc
    exact ⟨c, by simpa [setCall_calls, hne] using hc, hrest⟩
  · intro u c counter hu hc
    by_cases hut : u = t
    · obtain rfl : _ = c := by simpa [setCall_calls, hut] using hu
      simp at hc
    · exact hi.carried u c counter (by simpa [setCall_calls, hut] using hu) hc

theorem placed_fetchAdd {s : Ipc} {t : Nat} {call : Call} {next : UInt64} {d : Option UInt64}
    (hi : s.Placed) (at_t : s.calls t = some call) (phase : call.phase = .connected) :
    ({ s.setCall t (draw call d) with
      counter := next, drawn := s.drawn ++ [(t, d)] } : Ipc).Placed := by
  have hundrawn : call.counter = none := by
    by_contra hc
    obtain ⟨counter, hc⟩ := Option.ne_none_iff_exists'.mp hc
    obtain ⟨c, hc', hp, -⟩ := hi.logged _ _ (hi.carried t call counter at_t hc)
    obtain rfl : call = c := by simpa [at_t] using hc'
    exact hp phase
  constructor
  · intro u e hu
    rcases List.mem_append.mp hu with hu | hu
    · obtain ⟨c, hc, hp, hrest⟩ := hi.logged u e hu
      have hne : u ≠ t := by
        rintro rfl
        obtain rfl : call = c := by simpa [at_t] using hc
        exact hp phase
      exact ⟨c, by simpa [setCall_calls, hne] using hc, hp, hrest⟩
    · obtain ⟨rfl, rfl⟩ : u = t ∧ e = d := by simpa using hu
      refine ⟨draw call e, by simp [setCall_calls], ?_⟩
      cases e with
      | none => exact ⟨by simp [draw], hundrawn, fun _ => rfl⟩
      | some counter => exact ⟨by simp [draw], rfl, by simp⟩
  · intro u c counter hu hc
    by_cases hut : u = t
    · subst hut
      obtain rfl : draw call d = c := by simpa [setCall_calls] using hu
      cases d with
      | none => simp [draw, hundrawn] at hc
      | some counter' =>
        obtain rfl : counter' = counter := by simpa [draw] using hc
        simp
    · exact List.mem_append_left _
        (hi.carried u c counter (by simpa [setCall_calls, hut] using hu) hc)

theorem placed_step {s s' : Ipc} {a : IpcStep} (hi : s.Placed) (h : step X s a = some s') :
    s'.Placed := by
  cases step_stepped X h with
  | connect free => exact placed_connect hi free
  | fetchAdd at_t phase => exact placed_fetchAdd hi at_t phase
  | write at_t holds phase =>
    exact placed_settles hi at_t (writeFrame_settles X _ _ _ phase) rfl
      fun u => setCall_calls s _ u _
  | @serve w chunks t rest call head at_t running ready stream =>
    obtain ⟨-, -, hd, -, -, -, hcalls⟩ := serveHead_cases (X := X) s w chunks t rest call
    rcases hcalls with hsame | ⟨server, response, -, hset⟩
    · apply placed_settles hi at_t (settles_refl call) hd
      intro u
      rw [hsame]
      split
      · next hu => rw [hu, at_t]
      · rfl
    · exact placed_settles hi at_t (deliver_settles call response) hd
        fun u => by rw [hset, Function.update_apply]
  | read at_t phase =>
    exact placed_settles hi at_t (returned_settles _ _ fun r => by simp [phase]) rfl
      fun u => setCall_calls s _ u _
  | abort at_t open_t =>
    exact placed_settles hi at_t (returned_settles _ _ open_t) rfl fun u => setCall_calls s _ u _

def CountersNeverRepeat (s : Ipc) : Prop :=
  Increasing (s.drawn.map Prod.snd) ∧ FinalFailure (s.drawn.map Prod.snd) ∧
    (∀ t call c, s.calls t = some call → call.counter = some c → (t, some c) ∈ s.drawn) ∧
    ∀ t, (t, none) ∈ s.drawn → ∃ call, s.calls t = some call ∧ call.counter = none ∧
      call.phase = .returned (.error CaClient.exhausted)

theorem start_drawnInOrder (socketPath token : String) (ca : CertificateAuthority) (uid : Nat) :
    (start socketPath token ca uid).DrawnInOrder 0 := ⟨rfl, rfl⟩

theorem start_placed (socketPath token : String) (ca : CertificateAuthority) (uid : Nat) :
    (start socketPath token ca uid).Placed := ⟨by simp [start], by simp [start]⟩

theorem countersNeverRepeat_iff {s : Ipc} {n : Nat} (hp : s.Placed) (hd : s.DrawnInOrder n) :
    s.CountersNeverRepeat ↔ n ≤ 2 ^ 64 := by
  have hmap : (s.drawn.map Prod.snd).map (Option.map UInt64.toNat) = tickets (2 ^ 64) n := by
    rw [List.map_map]
    exact hd.2
  have hinc := increasing_map (fun a b => UInt64.lt_iff_toNat_lt) (s.drawn.map Prod.snd)
  have hfin := finalFailure_map UInt64.toNat (s.drawn.map Prod.snd)
  rw [hmap] at hinc hfin
  rw [← tickets_increasing_iff (by decide : 2 ≤ 2 ^ 64), hinc, hfin]
  constructor
  · rintro ⟨h1, h2, -⟩
    exact ⟨h1, h2⟩
  · rintro ⟨h1, h2⟩
    refine ⟨h1, h2, hp.carried, fun t ht => ?_⟩
    obtain ⟨call, hc, -, hn, hr⟩ := hp.logged t none ht
    exact ⟨call, hc, hn, hr rfl⟩

end Ipc

theorem counters_never_repeat_iff (X : Crates) (socketPath token : String)
    (ca : CertificateAuthority) (uid : Nat) (labels : List IpcStep) (s : Ipc)
    (h : Run.run (Ipc.step X) (Ipc.start socketPath token ca uid) labels = some s) :
    s.CountersNeverRepeat ↔ labels.countP IpcStep.isFetchAdd ≤ 2 ^ 64 := by
  have hp := Run.invariant (fun _ _ _ => Ipc.placed_step) (Ipc.start_placed _ _ _ _) h
  have hd := Ipc.drawnInOrder_run (Ipc.start_drawnInOrder _ _ _ _) h
  rw [Nat.zero_add] at hd
  exact Ipc.countersNeverRepeat_iff hp hd

def localIpc : Ipc := Ipc.start "/run/ssh_ca.sock" "token" localAuthority 1000

def drawingCalls (n : Nat) : List IpcStep :=
  (List.range n).flatMap fun t => [.connect t (signRequest 8), .fetchAdd t]

theorem drawingCalls_count (n : Nat) : (drawingCalls n).countP IpcStep.isFetchAdd = n := by
  induction n with
  | zero => rfl
  | succ n ih =>
    unfold drawingCalls at ih ⊢
    rw [List.range_succ, List.flatMap_append, List.countP_append, ih]
    rfl

theorem drawingCalls_run (X : Crates) (n : Nat) :
    ∃ s, Run.run (Ipc.step X) localIpc (drawingCalls n) = some s ∧
      ∀ t, n ≤ t → s.calls t = none := by
  induction n with
  | zero => exact ⟨localIpc, rfl, fun _ _ => rfl⟩
  | succ n ih =>
    obtain ⟨s, hs, hfree⟩ := ih
    have hnext : ∃ s', Run.run (Ipc.step X) s [.connect n (signRequest 8), .fetchAdd n] = some s' ∧
        ∀ t, n + 1 ≤ t → s'.calls t = none := by
      refine ⟨_, by simp [Run.run, Ipc.step, hfree n (Nat.le_refl n), Ipc.setCall]; rfl, ?_⟩
      intro t ht
      have hne : t ≠ n := by omega
      simp [hne, hfree t (by omega)]
    obtain ⟨s', hs', hfree'⟩ := hnext
    refine ⟨s', ?_, hfree'⟩
    unfold drawingCalls at hs ⊢
    rw [List.range_succ, List.flatMap_append, Run.run_append, hs]
    exact hs'

theorem counters_never_repeat_two_calls :
    ∃ s, Run.run (Ipc.step Crates.refusing) localIpc (drawingCalls 2) = some s ∧
      (s.CountersNeverRepeat ↔ (drawingCalls 2).countP IpcStep.isFetchAdd ≤ 2 ^ 64) := by
  obtain ⟨s, hs, -⟩ := drawingCalls_run Crates.refusing 2
  exact ⟨s, hs, counters_never_repeat_iff Crates.refusing _ _ _ _ (drawingCalls 2) s hs⟩

theorem counters_repeat_after_wrap :
    ∃ s, Run.run (Ipc.step Crates.refusing) localIpc (drawingCalls (2 ^ 64 + 1)) = some s ∧
      ¬ s.CountersNeverRepeat := by
  obtain ⟨s, hs, -⟩ := drawingCalls_run Crates.refusing (2 ^ 64 + 1)
  have hp := Run.invariant (fun _ _ _ => Ipc.placed_step) (Ipc.start_placed _ _ _ _) hs
  have hd := Ipc.drawnInOrder_run (Ipc.start_drawnInOrder _ _ _ _) hs
  rw [Nat.zero_add, drawingCalls_count] at hd
  refine ⟨s, hs, ?_⟩
  rw [Ipc.countersNeverRepeat_iff hp hd]
  decide

end SshCertificateAuthority
