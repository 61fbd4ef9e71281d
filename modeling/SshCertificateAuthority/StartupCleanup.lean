import SshCertificateAuthority.RunServer

namespace SshCertificateAuthority.RunServer
open UnixPath FileTable

-- Nothing opens at the token path, and the token is only where it was at the start.
structure TokenGone (args : Args) (initial files : Files Content) : Prop where
  unreadable : readFile files (tokenFilePath args) = none
  nowhereNew : ∀ p, files p = .file .token → initial p = .file .token

def TokenOnlyAt (initial files : Files Content) (p : Path) : Prop :=
  ∀ q, files q = .file .token → q = p ∨ initial q = .file .token

def Child.isRunning : Child → Bool
  | .running _ => true
  | _ => false

structure Clean (args : Args) (initial : Files Content) (s : State) : Prop where
  token : TokenGone args initial s.files
  child : s.child.isRunning = false

def End.isFailure : End → Bool
  | .failed _ | .panicked _ => true
  | .shutDown => false

def ParentPc.failed : ParentPc → Bool
  | .ended how => how.isFailure
  | _ => false

-- Steps that go on, and those that end the startup where nothing is left or the cleanup takes it.
def Tidy (args : Args) (initial : Files Content) (s : State) : Step → Prop
  | .writeToken false created =>
    readFile s.files (tokenFilePath args) = none ∧
      (created = true → writeFile writable s.files (tokenFilePath args) .token = none)
  | .restrictToken false removed | .spawn (.failed removed) =>
    removed = true ∧ TokenOnlyAt initial s.files (tokenFilePath args)
  | .spawn .noCurrentExe => False
  | .check killed =>
    pathExists s.files args.socketPath = true ∨
      TokenGone args initial s.files ∧ (killed = true ∨ s.child.isRunning = false)
  | .authenticators => unknownAuthenticator args = none ∨ Clean args initial s
  | .run false => Clean args initial s
  | _ => True

structure Launched (args : Args) (initial : Files Content) (s : State) : Prop where
  fresh : s.parent = .writeToken → s.files = initial ∧ s.child = .notSpawned
  held : s.parent = .restrictToken ∨ s.parent = .spawn →
    readFile s.files (tokenFilePath args) = some .token ∧ s.child = .notSpawned

section

variable {args : Args} {initial : Files Content} {s t : State} {created : Bool}

theorem launched_start : Launched args initial (start initial) :=
  ⟨fun _ => ⟨rfl, rfl⟩, fun h => by simp [start] at h⟩

theorem launched_later (hw : t.parent ≠ .writeToken) (hr : t.parent ≠ .restrictToken)
    (hs : t.parent ≠ .spawn) : Launched args initial t :=
  ⟨fun h => (hw h).elim, fun h => (h.elim hr hs).elim⟩

theorem launched_step (hs : Launched args initial s) {a : Step} (h : step args s a = some t) :
    Launched args initial t := by
  cases step_moved h with
  | @writeToken ok created _ hp hw =>
    cases ok with
    | false =>
      obtain rfl := Option.some.inj hw
      exact launched_later nofun nofun nofun
    | true =>
      obtain ⟨written, hwritten, rfl⟩ := Option.map_eq_some_iff.mp hw
      exact ⟨nofun, fun _ => ⟨readFile_written hwritten, (hs.fresh hp).2⟩⟩
  | @restrictToken ok removed hp =>
    cases ok with
    | false => exact launched_later nofun nofun nofun
    | true => exact ⟨nofun, fun _ => hs.held (Or.inl hp)⟩
  | @spawn o hp => cases o <;> exact launched_later nofun nofun nofun
  | @poll n hp =>
    rw [State.poll]
    split
    · exact launched_later nofun nofun nofun
    · split <;> exact launched_later nofun nofun nofun
  | @check killed hp =>
    rw [State.check]
    split <;> exact launched_later nofun nofun nofun
  | authenticators hp =>
    rw [State.authenticators]
    split <;> exact launched_later nofun nofun nofun
  | @run ok hp => cases ok <;> exact launched_later nofun nofun nofun
  | shutDown => exact launched_later nofun nofun nofun
  | child hpc hmoved =>
    refine ⟨fun hp => ?_, fun hp => ?_⟩
    · exact (running_ne_notSpawned hpc (hs.fresh (hmoved.parent ▸ hp)).2).elim
    · exact (running_ne_notSpawned hpc (hs.held (hmoved.parent ▸ hp)).2).elim

theorem tokenGone_removed_iff (htoken : readFile s.files (tokenFilePath args) = some .token)
    (removed : Bool) :
    TokenGone args initial (s.removeToken args removed).files ↔
      removed = true ∧ TokenOnlyAt initial s.files (tokenFilePath args) := by
  cases removed with
  | false =>
    refine iff_of_false (fun h => ?_) (by simp)
    have hgone : readFile s.files (tokenFilePath args) = none := h.unreadable
    simp [htoken] at hgone
  | true =>
    rw [State.removeToken, if_pos rfl, removeFile_of_read htoken, Option.getD_some]
    constructor
    · refine fun h => ⟨rfl, fun q hq => ?_⟩
      by_cases hne : q = tokenFilePath args
      · exact Or.inl hne
      · exact Or.inr (h.nowhereNew q ((Function.update_of_ne hne ..).trans hq))
    · rintro ⟨-, honly⟩
      refine ⟨readFile_removed _ _, fun q hq => ?_⟩
      by_cases hne : q = tokenFilePath args
      · simp [hne] at hq
      · exact (honly q ((Function.update_of_ne hne ..).symm.trans hq)).resolve_left hne

theorem clean_ending_iff (how : End) (h : s.child = .notSpawned) :
    Clean args initial (s.ending how) ↔ TokenGone args initial s.files := by
  refine ⟨fun hc => hc.token, fun hn => ⟨hn, ?_⟩⟩
  rw [State.ending, h]
  rfl

theorem failedWrite_clean_iff (hfiles : s.files = initial) (hchild : s.child = .notSpawned)
    (hw : s.writeToken args false created = some t) :
    Clean args initial t ↔ Tidy args initial s (.writeToken false created) := by
  obtain rfl := Option.some.inj hw
  have hkept : TokenGone args initial s.files ↔
      readFile s.files (tokenFilePath args) = none :=
    ⟨fun h => h.unreadable, fun h => ⟨h, fun p hp => hfiles ▸ hp⟩⟩
  cases created with
  | false => simp [clean_ending_iff _ hchild, hkept, Tidy]
  | true =>
    rw [if_pos rfl, clean_ending_iff _ (by simpa using hchild), Tidy]
    cases hwrite : writeFile writable s.files (tokenFilePath args) .token with
    | none => simp [hkept]
    | some files =>
      refine iff_of_false (fun h => ?_) (by simp)
      simpa [readFile_written hwrite] using h.unreadable

theorem removeToken_child (removed : Bool) : (s.removeToken args removed).child = s.child := by
  cases removed <;> rfl

theorem kill_isRunning (s : State) : s.kill.child.isRunning = false := by
  rw [State.kill]
  split <;> rfl

theorem clean_timeout_iff (killed : Bool) (how : End) :
    Clean args initial ((if killed then s.kill else s).ending how) ↔
      TokenGone args initial s.files ∧ (killed = true ∨ s.child.isRunning = false) := by
  cases killed with
  | false =>
    exact ⟨fun h => ⟨h.token, Or.inr h.child⟩, fun h => ⟨h.1, h.2.resolve_left (by simp)⟩⟩
  | true => exact ⟨fun h => ⟨h.token, Or.inl rfl⟩, fun h => ⟨h.1, kill_isRunning s⟩⟩

theorem ended_clean_iff (hs : Launched args initial s) {a : Step} (h : step args s a = some t)
    (hrunning : s.parent.failed = false) (hfailed : t.parent.failed = true) :
    Clean args initial t ↔ Tidy args initial s a := by
  cases step_moved h with
  | @writeToken ok created _ hp hw =>
    obtain ⟨hfiles, hchild⟩ := hs.fresh hp
    cases ok with
    | false => exact failedWrite_clean_iff hfiles hchild hw
    | true =>
      obtain ⟨written, -, rfl⟩ := Option.map_eq_some_iff.mp hw
      simp [ParentPc.failed] at hfailed
  | @restrictToken ok removed hp =>
    obtain ⟨htoken, hchild⟩ := hs.held (Or.inl hp)
    cases ok with
    | false =>
      exact (clean_ending_iff _ ((removeToken_child removed).trans hchild)).trans
        (tokenGone_removed_iff htoken removed)
    | true => simp [State.restrictToken, ParentPc.failed] at hfailed
  | @spawn o hp =>
    obtain ⟨htoken, hchild⟩ := hs.held (Or.inr hp)
    cases o with
    | spawned => simp [State.spawn, ParentPc.failed] at hfailed
    | failed removed =>
      exact (clean_ending_iff _ ((removeToken_child removed).trans hchild)).trans
        (tokenGone_removed_iff htoken removed)
    | noCurrentExe =>
      refine iff_of_false (fun h => ?_) (fun h => h)
      have hgone : readFile s.files (tokenFilePath args) = none := h.token.unreadable
      simp [htoken] at hgone
  | @poll n hp =>
    rw [State.poll] at hfailed
    split at hfailed
    · simp [ParentPc.failed] at hfailed
    · split at hfailed <;> simp [ParentPc.failed] at hfailed
  | @check killed hp =>
    unfold State.check at hfailed ⊢
    split at hfailed
    · simp [ParentPc.failed] at hfailed
    · next hmissing =>
      rw [if_neg hmissing, clean_timeout_iff, Tidy, or_iff_right hmissing]
  | authenticators hp =>
    unfold State.authenticators at hfailed ⊢
    split at hfailed
    · simp [ParentPc.failed] at hfailed
    · next name hname =>
      rw [Tidy, hname]
      exact ⟨fun h => Or.inr ⟨h.token, h.child⟩,
        fun h => ⟨(h.resolve_left nofun).token, (h.resolve_left nofun).child⟩⟩
  | @run ok hp =>
    cases ok with
    | false => exact ⟨fun h => ⟨h.token, h.child⟩, fun h => ⟨h.token, h.child⟩⟩
    | true => simp [State.run, ParentPc.failed] at hfailed
  | shutDown => simp [State.shutDown, ParentPc.failed, End.isFailure] at hfailed
  | child hpc hmoved =>
    rw [hmoved.parent, hrunning] at hfailed
    simp at hfailed

theorem failed_stays (hs : s.parent.failed = true) (hclean : Clean args initial s) {a : Step} :
    step args s a ≠ some t := by
  intro h
  have hended : ∃ how, s.parent = .ended how := by
    cases hp : s.parent with
    | ended how => exact ⟨how, rfl⟩
    | _ => simp [hp, ParentPc.failed] at hs
  obtain ⟨how, hended⟩ := hended
  cases step_moved h with
  | child hpc hmoved =>
    have hrun := hclean.child
    rw [hpc] at hrun
    simp [Child.isRunning] at hrun
  | _ hp => simp [hended] at hp

structure Swept (args : Args) (initial : Files Content) (s : State) : Prop where
  launched : Launched args initial s
  failed : s.parent.failed = true → Clean args initial s

theorem swept_step (hs : Swept args initial s) {a : Step} (ha : Tidy args initial s a)
    (h : step args s a = some t) : Swept args initial t := by
  refine ⟨launched_step hs.launched h, fun hfailed => ?_⟩
  cases hf : s.parent.failed with
  | false => exact (ended_clean_iff hs.launched h hf hfailed).mpr ha
  | true => exact (failed_stays hf (hs.failed hf) h).elim

end

theorem startup_cleanup_iff (args : Args) (initial : Files Content) :
    (∀ as t, Run.Along (step args) (Tidy args initial) (start initial) as →
      Run.run (step args) (start initial) as = some t → t.parent.failed = true →
        Clean args initial t) ∧
    ∀ as a s t, Run.run (step args) (start initial) as = some s → step args s a = some t →
      s.parent.failed = false → t.parent.failed = true →
        (Clean args initial t ↔ Tidy args initial s a) := by
  refine ⟨fun as t htidy h hfailed => ?_, fun as a s t hrun h hrunning hfailed => ?_⟩
  · have hswept : Swept args initial (start initial) := ⟨launched_start, nofun⟩
    have hinv := Run.invariant_along (fun s a t hs ha => swept_step hs ha) hswept htidy h
    exact hinv.failed hfailed
  · have hlaunched := Run.invariant (fun s a t hs => launched_step hs) launched_start hrun
    exact ended_clean_iff hlaunched h hrunning hfailed

def toSpawn : List Step := [.writeToken true false, .restrictToken true true, .spawn .spawned]

def unknownName : List Step :=
  toSpawn ++ List.replicate 7 (.child true) ++ [.poll, .check true, .authenticators]

def slowChild : List Step := toSpawn ++ List.replicate 10 .poll ++ [.check true]

-- The panic leaves the child serving; the kill leaves the token the child had not read yet.
theorem child_or_token_left :
    (∃ t, Run.run (step ⟨"/run/ssh_ca.sock".toList, ["ldap"]⟩) (start emptyFiles) unknownName =
        some t ∧
      t.parent = .ended (.panicked "unknown user authenticator: ldap") ∧
        t.child = .running .serving) ∧
    ∃ t, Run.run (step (runArgs "/run/ssh_ca.sock")) (start emptyFiles) slowChild = some t ∧
      t.parent = .ended (.failed "CA server did not start in time") ∧
        t.files "/run/ssh_ca.token".toList = .file .token :=
  ⟨⟨_, rfl, by rfl, rfl⟩, _, rfl, rfl, by rfl⟩

end SshCertificateAuthority.RunServer
