import SshCertificateAuthority.ReadinessCheck

namespace SshCertificateAuthority.RunServer
open UnixPath FileTable

def swept (args : Args) (initial : Files Content) : Files Content :=
  Function.update (Function.update initial (tokenFilePath args) .absent) args.socketPath .absent

def TokenTaken (args : Args) (files : Files Content) : Prop :=
  tokenFilePath args ≠ args.socketPath → files (tokenFilePath args) = .absent

-- While the socket has a path of its own, it appears there only after the token is taken.
structure Mounted (args : Args) (initial files : Files Content) : Prop where
  frame : ∀ p, p ≠ tokenFilePath args → p ≠ args.socketPath → files p = initial p
  socket : files args.socketPath = .absent ∨ ∃ kind, files args.socketPath = .file kind
  bound : files args.socketPath ≠ .absent → TokenTaken args files

def ChildPc.pastToken : ChildPc → Bool
  | .readConfig | .readToken | .removeToken => false
  | _ => true

def ParentPc.spawned : ParentPc → Bool
  | .poll _ | .check | .authenticators | .run | .serving => true
  | _ => false

structure Serviced (args : Args) (initial : Files Content) (s : State) : Prop where
  fresh : s.parent = .writeToken → s.files = initial ∧ s.child = .notSpawned
  spawned : s.parent.spawned = true → s.child ≠ .notSpawned
  mounted : Mounted args initial s.files
  taken : ∀ pc, s.child = .running pc → pc.pastToken = true → TokenTaken args s.files
  ready : s.parent.ready = true → TokenTaken args s.files
  shut : s.parent = .ended .shutDown → s.child = .gone ∧ s.files = swept args initial

section

variable {args : Args} {initial files : Files Content} {s t : State}

theorem tokenTaken_tokenRemoved (args : Args) (files : Files Content) :
    TokenTaken args (Function.update files (tokenFilePath args) .absent) :=
  fun _ => Function.update_self ..

theorem tokenTaken_socket {e : Entry Content} (h : TokenTaken args files) :
    TokenTaken args (Function.update files args.socketPath e) :=
  fun hne => (Function.update_of_ne hne ..).trans (h hne)

theorem mounted_token {e : Entry Content} (h : Mounted args initial files)
    (he : e = .absent ∨ ∃ kind, e = .file kind)
    (hfree : tokenFilePath args ≠ args.socketPath → e = .absent ∨ files args.socketPath = .absent) :
    Mounted args initial (Function.update files (tokenFilePath args) e) := by
  refine ⟨fun p hp hp' => ?_, ?_, fun hbound hne => ?_⟩
  · rw [Function.update_of_ne hp]
    exact h.frame p hp hp'
  · by_cases heq : tokenFilePath args = args.socketPath
    · rw [← heq, Function.update_self]
      exact he
    · rw [Function.update_of_ne (Ne.symm heq)]
      exact h.socket
  · rw [Function.update_of_ne hne.symm] at hbound
    rw [Function.update_self]
    exact (hfree hne).resolve_right hbound

theorem mounted_tokenRemoved (h : Mounted args initial files) :
    Mounted args initial (Function.update files (tokenFilePath args) .absent) :=
  mounted_token h (Or.inl rfl) fun _ => Or.inl rfl

theorem mounted_socket {e : Entry Content} (h : Mounted args initial files)
    (he : e = .absent ∨ ∃ kind, e = .file kind) (htaken : e ≠ .absent → TokenTaken args files) :
    Mounted args initial (Function.update files args.socketPath e) := by
  refine ⟨fun p hp hp' => ?_, ?_, fun hbound => ?_⟩
  · rw [Function.update_of_ne hp']
    exact h.frame p hp hp'
  · rw [Function.update_self]
    exact he
  · rw [Function.update_self] at hbound
    exact tokenTaken_socket (htaken hbound)

theorem removeFile_mounted (h : Mounted args initial files) :
    (removeFile files args.socketPath).getD files =
      Function.update files args.socketPath .absent := by
  rcases h.socket with hp | ⟨kind, hp⟩
  · rw [removeFile, hp]
    exact (Function.update_eq_self_iff.mpr hp.symm).symm
  · rw [removeFile, hp]
    rfl

theorem swept_of_mounted (h : Mounted args initial files) (htaken : TokenTaken args files) :
    Function.update files args.socketPath .absent = swept args initial := by
  funext p
  rw [swept]
  by_cases hsocket : p = args.socketPath
  · rw [hsocket, Function.update_self, Function.update_self]
  · rw [Function.update_of_ne hsocket, Function.update_of_ne hsocket]
    by_cases htoken : p = tokenFilePath args
    · subst htoken
      rw [Function.update_self]
      exact htaken hsocket
    · rw [Function.update_of_ne htoken]
      exact h.frame p htoken hsocket

theorem mounted_removeToken (removed : Bool) (h : Mounted args initial s.files) :
    Mounted args initial (s.removeToken args removed).files := by
  cases removed with
  | false => exact h
  | true =>
    rw [State.removeToken, if_pos rfl]
    dsimp only
    cases hr : removeFile s.files (tokenFilePath args) with
    | none => exact h
    | some files =>
      rw [removeFile_eq_some hr]
      exact mounted_tokenRemoved h

theorem tokenTaken_removeToken (removed : Bool) (h : TokenTaken args s.files) :
    TokenTaken args (s.removeToken args removed).files := by
  cases removed with
  | false => exact h
  | true =>
    rw [State.removeToken, if_pos rfl]
    dsimp only
    cases hr : removeFile s.files (tokenFilePath args) with
    | none => exact h
    | some files =>
      rw [removeFile_eq_some hr]
      exact tokenTaken_tokenRemoved args s.files

theorem tokenTaken_answered (h : Mounted args initial files)
    (hexists : pathExists files args.socketPath = true) : TokenTaken args files := by
  refine h.bound fun habsent => ?_
  simp [pathExists, maxLinks, follow, habsent, present] at hexists

theorem mounted_written {written : Files Content}
    (hsocket : initial args.socketPath = .absent)
    (htoken : ∀ target, initial (tokenFilePath args) ≠ .link target)
    (hw : writeFile writable initial (tokenFilePath args) .token = some written) :
    Mounted args initial written := by
  have hstart : Mounted args initial initial :=
    ⟨fun _ _ _ => rfl, Or.inl hsocket, fun h => (h hsocket).elim⟩
  obtain ⟨q, hfollow, -, rfl⟩ := writeFile_eq_some hw
  obtain rfl : tokenFilePath args = q :=
    Option.some.inj ((follow_unlinked htoken maxLinks).symm.trans hfollow)
  exact mounted_token hstart (Or.inr ⟨_, rfl⟩) fun _ => Or.inr hsocket

theorem serviced_start (hsocket : initial args.socketPath = .absent) :
    Serviced args initial (start initial) :=
  ⟨fun _ => ⟨rfl, rfl⟩, by simp [start, ParentPc.spawned],
    ⟨fun _ _ _ => rfl, Or.inl hsocket, fun h => (h hsocket).elim⟩, by simp [start],
    by simp [start, ParentPc.ready], by simp [start]⟩

theorem serviced_at (pc : ParentPc) (hp : t.parent = pc) (hwritten : pc ≠ .writeToken)
    (hrunning : ∀ how, pc ≠ .ended how) (hspawned : pc.spawned = true → t.child ≠ .notSpawned)
    (hm : Mounted args initial t.files)
    (htaken : ∀ pc, t.child = .running pc → pc.pastToken = true → TokenTaken args t.files)
    (hready : pc.ready = true → TokenTaken args t.files) : Serviced args initial t := by
  subst hp
  exact ⟨fun h => (hwritten h).elim, hspawned, hm, htaken, hready, fun h => (hrunning _ h).elim⟩

theorem serviced_failed {how : End} (hp : t.parent = .ended how) (hfailed : how ≠ .shutDown)
    (hm : Mounted args initial t.files)
    (htaken : ∀ pc, t.child = .running pc → pc.pastToken = true → TokenTaken args t.files) :
    Serviced args initial t := by
  refine ⟨by simp [hp], by simp [hp, ParentPc.spawned], hm, htaken,
    by simp [hp, ParentPc.ready], fun h => ?_⟩
  exact (hfailed (ParentPc.ended.inj (hp.symm.trans h))).elim

theorem serviced_cleaned {message : String} (hs : Serviced args initial s) (removed : Bool) :
    Serviced args initial ((s.removeToken args removed).ending (.failed message)) := by
  refine serviced_failed rfl (by simp) (mounted_removeToken removed hs.mounted)
    fun pc hpc hpast => ?_
  refine tokenTaken_removeToken removed (hs.taken pc ?_ hpast)
  rw [← hpc]
  cases removed <;> rfl

theorem serviced_childDies (hs : Serviced args initial s) (hrunning : s.child ≠ .notSpawned)
    (hshut : s.parent ≠ .ended .shutDown) : Serviced args initial s.childDies :=
  ⟨fun hp => (hrunning (hs.fresh hp).2).elim, fun _ => Child.noConfusion, hs.mounted,
    by simp [State.childDies], hs.ready, fun hp => (hshut hp).elim⟩

theorem serviced_childAt {pc : ChildPc} (hs : Serviced args initial s)
    (hrunning : s.child ≠ .notSpawned) (hshut : s.parent ≠ .ended .shutDown)
    (hm : Mounted args initial files) (hpast : pc.pastToken = true → TokenTaken args files)
    (hkept : TokenTaken args s.files → TokenTaken args files) :
    Serviced args initial (s.childAt pc files) :=
  ⟨fun hp => (hrunning (hs.fresh hp).2).elim, fun _ => Child.noConfusion, hm,
    fun _ hpc' => Child.running.inj hpc' ▸ hpast, fun hp => hkept (hs.ready hp),
    fun hp => (hshut hp).elim⟩

theorem serviced_child {pc : ChildPc} (hs : Serviced args initial s)
    (hpc : s.child = .running pc) : Serviced args initial (s.childStep args pc) := by
  have hrunning : s.child ≠ .notSpawned := running_ne_notSpawned hpc
  have hshut : s.parent ≠ .ended .shutDown := fun hp => by simp [(hs.shut hp).1] at hpc
  have hdies := serviced_childDies hs hrunning hshut
  have hstays : ∀ pc' : ChildPc, (pc'.pastToken = true → pc.pastToken = true) →
      Serviced args initial (s.childAt pc' s.files) := fun _ hpast =>
    serviced_childAt hs hrunning hshut hs.mounted (fun h => hs.taken pc hpc (hpast h)) id
  cases pc with
  | readConfig => exact hstays _ (fun h => h)
  | readToken =>
    rw [State.childStep]
    split
    · exact hstays _ (fun h => h)
    · exact hstays _ (fun h => h)
    · exact hdies
  | removeToken =>
    rw [State.childStep]
    split
    · next files hr =>
      rw [removeFile_eq_some hr]
      exact serviced_childAt hs hrunning hshut (mounted_tokenRemoved hs.mounted)
        (fun _ => tokenTaken_tokenRemoved args _) fun _ => tokenTaken_tokenRemoved args _
    · exact hdies
  | loadKey => exact hstays _ (fun h => h)
  | removeSocket =>
    have htaken := hs.taken _ hpc rfl
    rw [State.childStep]
    split
    · split
      · next files hr =>
        rw [removeFile_eq_some hr]
        exact serviced_childAt hs hrunning hshut (mounted_socket hs.mounted (Or.inl rfl) (by simp))
          (fun _ => tokenTaken_socket htaken) tokenTaken_socket
      · exact hdies
    · exact hstays _ (fun h => h)
  | bind =>
    have htaken := hs.taken _ hpc rfl
    rw [State.childStep]
    split
    · next files hc =>
      rw [(createFile_eq_some hc).2]
      have hbound := @serviced_childAt args initial _ s .restrictSocket hs hrunning hshut
        (mounted_socket hs.mounted (Or.inr ⟨.socket, rfl⟩) fun _ => htaken)
        (fun _ => tokenTaken_socket htaken) tokenTaken_socket
      exact ⟨hbound.fresh, hbound.spawned, hbound.mounted, hbound.taken, hbound.ready, hbound.shut⟩
    · exact hdies
  | restrictSocket => exact hstays _ (fun h => h)
  | serving => exact hs

theorem serviced_step (hsocket : initial args.socketPath = .absent)
    (htoken : ∀ target, initial (tokenFilePath args) ≠ .link target)
    (hs : Serviced args initial s) {a : Step} (h : step args s a = some t) :
    Serviced args initial t := by
  cases step_moved h with
  | @writeToken ok created _ hp hw =>
    obtain ⟨hfiles, hchild⟩ := hs.fresh hp
    rw [State.writeToken, hfiles] at hw
    cases ok with
    | false =>
      obtain rfl := Option.some.inj hw
      refine serviced_failed rfl (by simp) ?_ fun pc hpc => ?_
      · cases created with
        | false => exact hs.mounted
        | true =>
          rw [if_pos rfl]
          cases hwritten : writeFile writable initial (tokenFilePath args) .token with
          | none => exact hfiles ▸ hs.mounted
          | some written => exact mounted_written hsocket htoken hwritten
      · have hrunning : s.child = .running pc := by
          rw [← hpc]
          cases created <;> rfl
        simp [hchild] at hrunning
    | true =>
      obtain ⟨written, hwritten, rfl⟩ := Option.map_eq_some_iff.mp hw
      exact serviced_at .restrictToken rfl (by simp) (by simp) (by simp [ParentPc.spawned])
        (mounted_written hsocket htoken hwritten) (by simp [hchild]) (by simp [ParentPc.ready])
  | @restrictToken ok removed hp =>
    cases ok with
    | false =>
      exact serviced_cleaned hs removed
    | true =>
      exact serviced_at .spawn rfl (by simp) (by simp) (by simp [ParentPc.spawned]) hs.mounted
        hs.taken (by simp [ParentPc.ready])
  | @spawn o hp =>
    cases o with
    | spawned =>
      refine serviced_at (.poll 0) rfl (by simp) (by simp) (fun _ => Child.noConfusion) hs.mounted
        (fun pc hpc hpast => ?_) (by simp [ParentPc.ready])
      obtain rfl : ChildPc.readConfig = pc := Child.running.inj hpc
      simp [ChildPc.pastToken] at hpast
    | failed removed => exact serviced_cleaned hs removed
    | noCurrentExe => exact serviced_failed rfl (by simp) hs.mounted hs.taken
  | @poll n hp =>
    have hspawned : s.child ≠ .notSpawned := hs.spawned (by rw [hp]; rfl)
    rw [State.poll]
    split
    · exact serviced_at .check rfl (by simp) (by simp) (fun _ => hspawned) hs.mounted hs.taken
        (by simp [ParentPc.ready])
    · split
      · exact serviced_at (.poll (n + 1)) rfl (by simp) (by simp) (fun _ => hspawned) hs.mounted
          hs.taken (by simp [ParentPc.ready])
      · exact serviced_at .check rfl (by simp) (by simp) (fun _ => hspawned) hs.mounted hs.taken
          (by simp [ParentPc.ready])
  | @check killed hp =>
    have hspawned : s.child ≠ .notSpawned := hs.spawned (by rw [hp]; rfl)
    rw [State.check]
    split
    · next hexists =>
      have htaken := tokenTaken_answered hs.mounted hexists
      exact serviced_at .authenticators rfl (by simp) (by simp) (fun _ => hspawned) hs.mounted
        hs.taken (fun _ => htaken)
    · cases killed with
      | false => exact serviced_failed rfl (by simp) hs.mounted hs.taken
      | true =>
        refine serviced_failed rfl (by simp) hs.mounted fun pc hpc => ?_
        simp [State.ending, kill_child hspawned] at hpc
  | authenticators hp =>
    rw [State.authenticators]
    split
    · exact serviced_at .run rfl (by simp) (by simp) (fun _ => hs.spawned (by rw [hp]; rfl))
        hs.mounted hs.taken (fun _ => hs.ready (by rw [hp]; rfl))
    · exact serviced_failed rfl (by simp) hs.mounted hs.taken
  | @run ok hp =>
    cases ok with
    | false => exact serviced_failed rfl (by simp) hs.mounted hs.taken
    | true =>
      exact serviced_at .serving rfl (by simp) (by simp) (fun _ => hs.spawned (by rw [hp]; rfl))
        hs.mounted hs.taken (fun _ => hs.ready (by rw [hp]; rfl))
  | shutDown hp =>
    have hspawned : s.child ≠ .notSpawned := hs.spawned (by rw [hp]; rfl)
    have htaken := hs.ready (by rw [hp]; rfl)
    have hgone : (s.shutDown args).child = .gone := kill_child hspawned
    have hfiles : (s.shutDown args).files = Function.update s.files args.socketPath .absent :=
      removeFile_mounted hs.mounted
    refine ⟨by simp [State.shutDown], by simp [State.shutDown, ParentPc.spawned], ?_,
      by simp [hgone], by simp [State.shutDown, ParentPc.ready], fun _ => ⟨hgone, ?_⟩⟩
    · rw [hfiles]
      exact mounted_socket hs.mounted (Or.inl rfl) (by simp)
    · rw [hfiles]
      exact swept_of_mounted hs.mounted htaken
  | @child ok pc _ hpc hmoved =>
    simp only [step, hpc] at h
    obtain rfl := Option.some.inj h
    cases ok with
    | true => exact serviced_child hs hpc
    | false =>
      refine serviced_childDies hs (running_ne_notSpawned hpc) fun hp => ?_
      simp [(hs.shut hp).1] at hpc

end

theorem push_longer (base : Path) {p : Path} (hroot : hasRoot p = false) (hp : p ≠ []) :
    base.length < (push base p).length := by
  have hlength := List.length_pos_of_ne_nil hp
  rw [push, hroot, if_neg (by simp)]
  split
  · simpa using hlength
  · simp

theorem socketName_relative (l : Launch) :
    hasRoot l.socketName = false ∧ l.socketName ≠ [] := by
  have hname : l.socketName = 's' :: ("sh_ca.".toList ++ (toString l.processId).toList ++
    ".sock".toList) := rfl
  rw [hname]
  exact ⟨rfl, List.cons_ne_nil _ _⟩

theorem shutdown_restores (l : Launch) (initial : Files Content)
    (hsocket : l.prepared initial l.args.socketPath = .absent)
    (htoken : ∀ target, l.prepared initial (tokenFilePath l.args) ≠ .link target) (as : List Step)
    (t : State) (h : Run.run (step l.args) (start (l.prepared initial)) as = some t) :
    (∀ p, p ≠ tokenFilePath l.args → p ≠ l.args.socketPath →
        t.files p = l.prepared initial p) ∧
      (l.socketPath = none → l.tempDir ≠ tokenFilePath l.args → t.files l.tempDir = .directory) ∧
      (t.parent.ready = true → tokenFilePath l.args ≠ l.args.socketPath →
        t.files (tokenFilePath l.args) = .absent) ∧
      (t.parent = .ended .shutDown →
        t.child = .gone ∧ t.files = swept l.args (l.prepared initial)) := by
  have hserviced : Serviced l.args (l.prepared initial) t :=
    Run.invariant (fun _ _ _ hs => serviced_step hsocket htoken hs) (serviced_start hsocket) h
  refine ⟨hserviced.mounted.frame, fun hnone hapart => ?_, hserviced.ready, hserviced.shut⟩
  have hsocketPath : l.tempDir ≠ l.args.socketPath := by
    intro hsame
    obtain ⟨hroot, hnonempty⟩ := socketName_relative l
    have hlonger := push_longer l.tempDir hroot hnonempty
    have hpath : l.args.socketPath = push l.tempDir l.socketName := by
      rw [Launch.args, hnone, Option.getD_none]
    rw [← hpath, ← hsame] at hlonger
    exact Nat.lt_irrefl _ hlonger
  rw [hserviced.mounted.frame l.tempDir hapart hsocketPath, Launch.prepared, hnone]
  exact Function.update_self ..

def toShutdown : List Step :=
  [.writeToken true false, .restrictToken true true, .spawn .spawned, .poll] ++
    List.replicate 6 (.child true) ++
      [.poll, .check true, .authenticators, .run true, .child true, .shutDown]

def generatedPath : Launch := ⟨none, ["pam"], "/tmp/.tmpAb3dEf".toList, 4711⟩

theorem shutdown_restores_generated : ∃ t,
    Run.run (step generatedPath.args) (start (generatedPath.prepared emptyFiles)) toShutdown =
        some t ∧ t.parent = .ended .shutDown ∧
      generatedPath.args.socketPath = "/tmp/.tmpAb3dEf/ssh_ca.4711.sock".toList ∧
      (∀ p, p ≠ tokenFilePath generatedPath.args → p ≠ generatedPath.args.socketPath →
        t.files p = generatedPath.prepared emptyFiles p) ∧
      (generatedPath.socketPath = none → generatedPath.tempDir ≠ tokenFilePath generatedPath.args →
        t.files generatedPath.tempDir = .directory) ∧
      (t.parent.ready = true →
        tokenFilePath generatedPath.args ≠ generatedPath.args.socketPath →
          t.files (tokenFilePath generatedPath.args) = .absent) ∧
      (t.parent = .ended .shutDown →
        t.child = .gone ∧
          t.files = swept generatedPath.args (generatedPath.prepared emptyFiles)) := by
  refine ⟨_, rfl, rfl, rfl, ?_⟩
  exact shutdown_restores generatedPath emptyFiles rfl (fun target => by
    have habsent : generatedPath.prepared emptyFiles (tokenFilePath generatedPath.args) = .absent :=
      rfl
    simp [habsent]) toShutdown _ rfl

end SshCertificateAuthority.RunServer
