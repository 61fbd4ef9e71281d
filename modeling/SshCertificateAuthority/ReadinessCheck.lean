import SshCertificateAuthority.RunServer

namespace SshCertificateAuthority.RunServer
open UnixPath FileTable

structure Sound (args : Args) (s : State) : Prop where
  serves : s.parent = .run ∨ s.parent = .serving → s.bound = true
  polls : ∀ n, s.parent = .poll n → n < maxPolls
  reports : s.parent = .check → s.bound = false → ∀ killed t,
    step args s (.check killed) = some t →
      t.parent = .ended (.failed "CA server did not start in time")

-- Nothing answers at the socket path once the token is written.
def SocketPathFree (args : Args) (files : Files Content) : Prop :=
  ∀ written, writeFile writable files (tokenFilePath args) .token = some written →
    pathExists written args.socketPath = false

def ParentPc.waiting : ParentPc → Bool
  | .restrictToken | .spawn | .poll _ | .check => true
  | _ => false

def ParentPc.ready : ParentPc → Bool
  | .authenticators | .run | .serving => true
  | _ => false

structure Waits (args : Args) (files : Files Content) (s : State) : Prop where
  fresh : s.parent = .writeToken → s.files = files ∧ s.child = .notSpawned
  waiting : s.parent.waiting = true → s.bound = true ∨ pathExists s.files args.socketPath = false
  ready : s.parent.ready = true → s.bound = true
  polls : ∀ n, s.parent = .poll n → n < maxPolls

section

variable {args : Args} {files : Files Content} {s t : State}

theorem waits_start : Waits args files (start files) :=
  ⟨fun _ => ⟨rfl, rfl⟩, nofun, nofun, nofun⟩

theorem waits_ended {how : End} (h : t.parent = .ended how) : Waits args files t :=
  ⟨by simp [h], by simp [h, ParentPc.waiting], by simp [h, ParentPc.ready], by simp [h]⟩

theorem childMoved_quiet (h : ChildMoved args s t)
    (hq : s.bound = true ∨ pathExists s.files args.socketPath = false) :
    t.bound = true ∨ pathExists t.files args.socketPath = false := by
  rcases hq with hb | hq
  · exact Or.inl (h.bound hb)
  · rcases h.files with heq | ⟨p, heq⟩ | ⟨-, hb⟩
    · exact Or.inr (heq ▸ hq)
    · refine Or.inr (Bool.eq_false_iff.mpr fun hp => ?_)
      rw [heq] at hp
      exact absurd (pathExists_removed hp) (by simp [hq])
    · exact Or.inl hb

theorem waits_step (hfree : SocketPathFree args files) (hs : Waits args files s) {a : Step}
    (h : step args s a = some t) : Waits args files t := by
  cases step_moved h with
  | @writeToken ok created _ hp hw =>
    cases ok with
    | false =>
      obtain rfl := Option.some.inj hw
      exact waits_ended rfl
    | true =>
      obtain ⟨written, hwritten, rfl⟩ := Option.map_eq_some_iff.mp hw
      rw [(hs.fresh hp).1] at hwritten
      exact ⟨nofun, fun _ => Or.inr (hfree written hwritten), nofun, nofun⟩
  | @restrictToken ok removed hp =>
    cases ok with
    | false => exact waits_ended rfl
    | true => exact ⟨nofun, fun _ => hs.waiting (by rw [hp]; rfl), nofun, nofun⟩
  | @spawn o hp =>
    cases o with
    | spawned =>
      refine ⟨nofun, fun _ => hs.waiting (by rw [hp]; rfl), nofun, fun n hn => ?_⟩
      obtain rfl : 0 = n := ParentPc.poll.inj hn
      decide
    | failed removed => exact waits_ended rfl
    | noCurrentExe => exact waits_ended rfl
  | @poll n hp =>
    have hq := hs.waiting (by rw [hp]; rfl)
    rw [State.poll]
    split
    · exact ⟨nofun, fun _ => hq, nofun, nofun⟩
    · split
      · next hn => exact ⟨nofun, fun _ => hq, nofun, fun m hm => ParentPc.poll.inj hm ▸ hn⟩
      · exact ⟨nofun, fun _ => hq, nofun, nofun⟩
  | @check killed hp =>
    rw [State.check]
    split
    · next hexists =>
      have hb := (hs.waiting (by rw [hp]; rfl)).resolve_right (by simp [hexists])
      exact ⟨nofun, nofun, fun _ => hb, nofun⟩
    · exact waits_ended rfl
  | authenticators hp =>
    rw [State.authenticators]
    split
    · exact ⟨nofun, nofun, fun _ => hs.ready (by rw [hp]; rfl), nofun⟩
    · exact waits_ended rfl
  | @run ok hp =>
    cases ok with
    | false => exact waits_ended rfl
    | true => exact ⟨nofun, nofun, fun _ => hs.ready (by rw [hp]; rfl), nofun⟩
  | shutDown => exact waits_ended rfl
  | child hpc hmoved =>
    refine ⟨fun hp => ?_, fun hp => ?_, fun hp => ?_, fun n hn => hs.polls n (hmoved.parent ▸ hn)⟩
    · exact (running_ne_notSpawned hpc (hs.fresh (hmoved.parent ▸ hp)).2).elim
    · exact childMoved_quiet hmoved (hs.waiting (hmoved.parent ▸ hp))
    · exact hmoved.bound (hs.ready (hmoved.parent ▸ hp))

theorem waits_sound (hs : Waits args files s) : Sound args s := by
  refine ⟨fun hp => ?_, hs.polls, fun hp hb killed t h => ?_⟩
  · rcases hp with hp | hp <;> exact hs.ready (by rw [hp]; rfl)
  · have hquiet := (hs.waiting (by rw [hp]; rfl)).resolve_left (by simp [hb])
    rw [step, if_pos hp, Option.some.injEq, State.check, hquiet] at h
    exact h ▸ rfl

def toCheck : List Step :=
  [.writeToken true false, .restrictToken true true, .spawn .spawned, .poll]

theorem toCheck_reaches {written : Files Content}
    (hw : writeFile writable files (tokenFilePath args) .token = some written)
    (hexists : pathExists written args.socketPath = true) :
    Run.run (step args) (start files) toCheck =
      some ⟨written, .check, .running .readConfig, false⟩ := by
  have h1 : step args (start files) (.writeToken true false) =
      some ⟨written, .restrictToken, .notSpawned, false⟩ := by
    simp [step, start, State.writeToken, hw]
  have h4 : step args ⟨written, .poll 0, .running .readConfig, false⟩ .poll =
      some ⟨written, .check, .running .readConfig, false⟩ := by
    simp [step, State.poll, hexists]
  rw [toCheck, Run.run, h1]
  exact h4 ▸ rfl

end

theorem readiness_sound_iff (args : Args) (files : Files Content) :
    (∀ as t, Run.run (step args) (start files) as = some t → Sound args t) ↔
      SocketPathFree args files := by
  constructor
  · intro h written hw
    by_contra hexists
    rw [Bool.not_eq_false] at hexists
    have hsound := h toCheck _ (toCheck_reaches hw hexists)
    have hended := hsound.reports rfl rfl true _ rfl
    rw [State.check, if_pos hexists] at hended
    simp at hended
  · intro hfree as t h
    exact waits_sound (Run.invariant (fun s a t hs => waits_step hfree hs) waits_start h)

def staleFiles : Files Content :=
  Function.update emptyFiles "/run/ssh_ca.sock".toList (.file .socket)

def servesEarly : List Step :=
  toCheck ++ [.check true, .authenticators, .run true, .child false]

-- A socket of an earlier run, or a socket path that is also the path of the token.
theorem served_without_ca :
    (∃ t, Run.run (step (runArgs "/run/ssh_ca.sock")) (start staleFiles) servesEarly = some t ∧
      t.parent = .serving ∧ t.child = .gone ∧ t.bound = false) ∧
    ∃ t, Run.run (step (runArgs "/run/ca.token")) (start emptyFiles) servesEarly = some t ∧
      t.parent = .serving ∧ t.child = .gone ∧ t.bound = false :=
  ⟨⟨_, rfl, rfl, rfl, rfl⟩, _, rfl, rfl, rfl, rfl⟩

end SshCertificateAuthority.RunServer
