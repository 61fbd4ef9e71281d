import SshCertificateAuthority.RunServer
import SshCertificateAuthority.TokenHandover

namespace SshCertificateAuthority.RunServer
open UnixPath FileTable ByteStream
open TokenHandover (CliArgs Host Pc Process Choice)

def Holds (authToken : String) : Content → TokenHandover.Content → Prop
  | .token, content => ∃ inode, content = .data inode (utf8 authToken)
  | .socket, content => content = .socket
  | .other, content => ∃ inode text, content = .data inode (utf8 text)

def serverArgs (args : Args) : CliArgs := ⟨false, some args.socketPath, false, none⟩

inductive ParentAt (args : Args) (authToken : String) (ca : Nat) :
    ParentPc → Child → Pc → Prop where
  | writeToken : ParentAt args authToken ca .writeToken .notSpawned
      (.sshWriteToken args.socketPath authToken)
  | restrictToken : ParentAt args authToken ca .restrictToken .notSpawned
      (.sshRestrictToken args.socketPath authToken)
  | spawn : ParentAt args authToken ca .spawn .notSpawned (.sshSpawn args.socketPath authToken)
  | poll {n : Nat} {child : Child} (spawned : child ≠ .notSpawned) : ParentAt args authToken ca
      (.poll n) child (.sshAwait args.socketPath authToken (some ca))
  | check {child : Child} (spawned : child ≠ .notSpawned) : ParentAt args authToken ca
      .check child (.sshAwait args.socketPath authToken (some ca))
  | authenticators {child : Child} (spawned : child ≠ .notSpawned) : ParentAt args authToken ca
      .authenticators child (.sshServing args.socketPath authToken (some ca))
  | run {child : Child} (spawned : child ≠ .notSpawned) : ParentAt args authToken ca
      .run child (.sshServing args.socketPath authToken (some ca))
  | serving {child : Child} (spawned : child ≠ .notSpawned) : ParentAt args authToken ca
      .serving child (.sshServing args.socketPath authToken (some ca))
  | ended {how : End} {child : Child} : ParentAt args authToken ca (.ended how) child .ended

inductive ChildAt (args : Args) : Child → Option Pc → Prop where
  | notSpawned : ChildAt args .notSpawned none
  | gone : ChildAt args .gone (some .ended)
  | readConfig : ChildAt args (.running .readConfig) (some .readConfig)
  | readToken : ChildAt args (.running .readToken)
      (some (.caReadToken args.socketPath (tokenFilePath args)))
  | removeToken (authToken : String) : ChildAt args (.running .removeToken)
      (some (.caRemoveToken args.socketPath (tokenFilePath args) authToken))
  | loadKey (authToken : String) : ChildAt args (.running .loadKey)
      (some (.caLoadKey args.socketPath (tokenFilePath args) authToken))
  | removeSocket (authToken : String) : ChildAt args (.running .removeSocket)
      (some (.caRemoveSocket args.socketPath (tokenFilePath args) authToken))
  | bind (authToken : String) : ChildAt args (.running .bind)
      (some (.caBind args.socketPath (tokenFilePath args) authToken))
  | restrictSocket (authToken : String) : ChildAt args (.running .restrictSocket)
      (some (.caServing args.socketPath (tokenFilePath args) authToken))
  | serving (authToken : String) : ChildAt args (.running .serving)
      (some (.caServing args.socketPath (tokenFilePath args) authToken))

structure Refines (args : Args) (authToken : String) (server ca : Nat) (s : State) (h : Host) :
    Prop where
  apart : server ≠ ca
  files : Files.Matches (Holds authToken) s.files h.files
  parent : ∃ pc, h.processes server = some ⟨serverArgs args, pc⟩ ∧
    ParentAt args authToken ca s.parent s.child pc
  child : ∃ pc, (h.processes ca) = pc.map (Process.mk (.ofChild args.socketPath)) ∧
    ChildAt args s.child pc

section

variable {args : Args} {authToken : String} {server ca : Nat} {s t : State} {h : Host}

theorem option_rel_some {A B : Type} {R : A → B → Prop} {x : Option A} {y : Option B} {a : A}
    (h : Option.Rel R x y) (hx : x = some a) : ∃ b, y = some b ∧ R a b := by
  subst hx
  cases h with
  | some hr => exact ⟨_, rfl, hr⟩

theorem one_step {a : TokenHandover.Step} {h' : Host} (hs : h.step a = some h') :
    Run.run Host.step h [a] = some h' := by
  rw [Run.run, hs]
  rfl

theorem server_stays (hr : Refines args authToken server ca s h) (hfiles : t.files = s.files)
    (hchild : t.child = s.child)
    (hparent : ∀ pc, ParentAt args authToken ca s.parent s.child pc →
      ParentAt args authToken ca t.parent t.child pc) :
    ∃ labels h', Run.run Host.step h labels = some h' ∧ Refines args authToken server ca t h' := by
  obtain ⟨pc, at_server, hat⟩ := hr.parent
  exact ⟨[], h, rfl, hr.apart, hfiles ▸ hr.files, ⟨pc, at_server, hparent pc hat⟩,
    hchild ▸ hr.child⟩

theorem server_steps {pc pc' : Pc} {h1 : Host} (choice : Choice)
    (hr : Refines args authToken server ca s h)
    (at_server : h.processes server = some ⟨serverArgs args, pc⟩)
    (ha : h.advance server (serverArgs args) pc choice =
      some (h1.goto server (serverArgs args) pc'))
    (hfiles : Files.Matches (Holds authToken) t.files h1.files)
    (hparent : ParentAt args authToken ca t.parent t.child pc')
    (hca : ∃ pc, h1.processes ca = pc.map (Process.mk (.ofChild args.socketPath)) ∧
      ChildAt args t.child pc) :
    ∃ labels h', Run.run Host.step h labels = some h' ∧ Refines args authToken server ca t h' := by
  refine ⟨[.advance server choice], h1.goto server (serverArgs args) pc', one_step ?_, hr.apart,
    hfiles, ⟨pc', ?_, hparent⟩, ?_⟩
  · simp only [Host.step, at_server, Option.bind_some]
    exact ha
  · rw [TokenHandover.goto_processes, if_pos rfl]
  · rw [TokenHandover.goto_processes, if_neg hr.apart.symm]
    exact hca

theorem server_arrives {labels last : List TokenHandover.Step} {h1 : Host} {pc' : Pc}
    (hr : Refines args authToken server ca s h) (hrun : Run.run Host.step h labels = some h1)
    (hlast : Run.run Host.step h1 last = some (h1.goto server (serverArgs args) pc'))
    (hfiles : Files.Matches (Holds authToken) t.files h1.files)
    (hparent : ParentAt args authToken ca t.parent t.child pc')
    (hothers : ∀ j, j ≠ server → h1.processes j = h.processes j) (hchild : t.child = s.child) :
    ∃ labels h', Run.run Host.step h labels = some h' ∧ Refines args authToken server ca t h' := by
  refine ⟨labels ++ last, _, Run.run_appended hrun hlast, hr.apart, hfiles, ⟨pc', ?_, hparent⟩, ?_⟩
  · rw [TokenHandover.goto_processes, if_pos rfl]
  · rw [TokenHandover.goto_processes, if_neg hr.apart.symm, hothers ca hr.apart.symm, hchild]
    exact hr.child

theorem server_dies {how : End} {pc : Pc} (hr : Refines args authToken server ca s h)
    (at_server : h.processes server = some ⟨serverArgs args, pc⟩) (hlive : pc ≠ .ended)
    (hfiles : t.files = s.files) (hchild : t.child = s.child) (hparent : t.parent = .ended how) :
    ∃ labels h', Run.run Host.step h labels = some h' ∧ Refines args authToken server ca t h' := by
  refine server_steps _ hr at_server (TokenHandover.advance_dies hlive) (hfiles ▸ hr.files) ?_
    (hchild ▸ hr.child)
  rw [hparent]
  exact .ended

theorem remove_refined (hfiles : Files.Matches (Holds authToken) s.files h.files) (p : Path) :
    Files.Matches (Holds authToken) ((removeFile s.files p).getD s.files)
        ((h.remove p).getD h).files ∧ ((h.remove p).getD h).processes = h.processes := by
  have hremoved := matches_removeFile hfiles p
  rw [Host.remove]
  generalize removeFile s.files p = x at hremoved
  generalize removeFile h.files p = y at hremoved
  cases hremoved with
  | none => exact ⟨hfiles, rfl⟩
  | some hm => exact ⟨hm, rfl⟩

theorem writable_refined (authToken : String) (k : Content) (l : TokenHandover.Content)
    (hk : Holds authToken k l) :
    TokenHandover.writable l = writable k := by
  cases k with
  | token =>
    obtain ⟨inode, rfl⟩ := hk
    rfl
  | socket =>
    obtain rfl : l = .socket := hk
    rfl
  | other =>
    obtain ⟨inode, text, rfl⟩ := hk
    rfl

theorem fill_fresh {w : TokenHandover.Write} (hfile : h.files w.file = .file (.data w.inode []))
    (hnone : w.written = 0) : h.fill w w.text.length = { h with
      files := Function.update h.files w.file (.file (.data w.inode w.text)) } := by
  simp [Host.fill, Host.writeAt, hfile, hnone, TokenHandover.overwrite]

variable (server) in
theorem truncate_refined {files : Files Content} {p : Path}
    (hfiles : Files.Matches (Holds authToken) s.files h.files)
    (hw : writeFile writable s.files p .token = some files) : ∃ q,
      h.truncate server p (utf8 authToken) = some ({ h with
        files := Function.update h.files q (.file (.data (h.inodeAt q) []))
        made := h.made ++ [⟨q, server, some (utf8 authToken)⟩] },
          ⟨q, h.inodeAt q, utf8 authToken, 0⟩) ∧
      Files.Matches (Holds authToken) files
        (Function.update h.files q (.file (.data (h.inodeAt q) (utf8 authToken)))) := by
  obtain ⟨q, hfollow, -, rfl⟩ := writeFile_eq_some hw
  have hweak : Files.Matches (fun k l => TokenHandover.writable l = writable k) s.files h.files :=
    matches_mono (writable_refined authToken) hfiles
  obtain ⟨files', hw', -⟩ := option_rel_some
    (matches_writeFile (l := .data (h.inodeAt q) []) hweak (fun _ _ hk => hk) rfl p) hw
  obtain ⟨q', hfollow', -, rfl⟩ := writeFile_eq_some hw'
  obtain rfl := Option.some.inj (((matches_follow hfiles _ p).trans hfollow).symm.trans hfollow')
  have hholds : Holds authToken .token (.data (h.inodeAt q) (utf8 authToken)) := ⟨_, rfl⟩
  refine ⟨q, ?_, matches_update hfiles (.file hholds) q⟩
  rw [Host.truncate, hfollow', Option.bind_some, hw']
  rfl

-- The file is cut to nothing and then takes the whole token in one write.
theorem written_run {files : Files Content}
    (hfiles : Files.Matches (Holds authToken) s.files h.files)
    (at_server : h.processes server =
      some ⟨serverArgs args, .sshWriteToken args.socketPath authToken⟩)
    (hw : writeFile writable s.files (tokenFilePath args) .token = some files) :
    ∃ labels h' w, Run.run Host.step h labels = some h' ∧
      Files.Matches (Holds authToken) files h'.files ∧ h'.processes server =
        some ⟨serverArgs args, .sshFillToken args.socketPath authToken w⟩ ∧
      w.written = w.text.length ∧ ∀ j, j ≠ server → h'.processes j = h.processes j := by
  obtain ⟨q, ho, hm⟩ := truncate_refined server hfiles hw
  generalize hopened : ({ h with
    files := Function.update h.files q (.file (.data (h.inodeAt q) []))
    made := h.made ++ [⟨q, server, some (utf8 authToken)⟩] } : Host) = opened at ho
  generalize hwrite : (⟨q, h.inodeAt q, utf8 authToken, 0⟩ : TokenHandover.Write) = w at ho
  have hopen : h.step (.advance server .ok) = some (opened.goto server (serverArgs args)
      (.sshFillToken args.socketPath authToken w)) := by
    simp only [Host.step, at_server, Option.bind_some, Host.advance]
    exact congrArg (Option.map _) ho
  by_cases hempty : utf8 authToken = []
  · refine ⟨_, _, w, one_step hopen, ?_, by rw [TokenHandover.goto_processes, if_pos rfl], ?_, ?_⟩
    · rw [hempty] at hm
      subst hopened
      exact hm
    · rw [← hwrite, hempty]
      rfl
    · intro j hj
      rw [TokenHandover.goto_processes, if_neg hj, ← hopened]
  · have hfile : (opened.goto server (serverArgs args)
        (.sshFillToken args.socketPath authToken w)).files w.file = .file (.data w.inode []) := by
      rw [← hwrite, ← hopened]
      exact Function.update_self _ _ _
    have hfill := fill_fresh hfile (by rw [← hwrite])
    have hpartly : (opened.goto server (serverArgs args)
        (.sshFillToken args.socketPath authToken w)).step
          (.advance server (.partly w.text.length)) = some (((opened.goto server (serverArgs args)
            (.sshFillToken args.socketPath authToken w)).fill w w.text.length).goto server
              (serverArgs args) (.sshFillToken args.socketPath authToken
                { w with written := w.written + w.text.length })) := by
      simp only [Host.step, TokenHandover.goto_processes, if_true, Option.bind_some, Host.advance]
      rw [if_pos]
      rw [← hwrite]
      exact ⟨List.length_pos_of_ne_nil hempty, Nat.le_of_eq (Nat.zero_add _)⟩
    refine ⟨_, _, { w with written := w.written + w.text.length },
      Run.run_appended (one_step hopen) (one_step hpartly), ?_,
      by rw [TokenHandover.goto_processes, if_pos rfl], ?_, ?_⟩
    · rw [hfill]
      subst hopened
      subst hwrite
      simpa [Host.goto] using hm
    · rw [← hwrite]
      exact Nat.zero_add _
    · intro j hj
      rw [TokenHandover.goto_processes, if_neg hj, hfill]
      dsimp only
      rw [TokenHandover.goto_processes, if_neg hj, ← hopened]

theorem kill_refined (hr : Refines args authToken server ca s h)
    (hspawned : s.child ≠ .notSpawned) :
    h.kill (some ca) = h.goto ca (.ofChild args.socketPath) .ended := by
  obtain ⟨pc, hca, hat⟩ := hr.child
  generalize hc : s.child = child at hat
  cases hat with
  | notSpawned => exact (hspawned hc).elim
  | _ => simp [Host.kill, hca]

theorem parentAt_child {p : ParentPc} {child child' : Child} {pc : Pc}
    (hat : ParentAt args authToken ca p child pc) (hspawned : child ≠ .notSpawned)
    (hspawned' : child' ≠ .notSpawned) : ParentAt args authToken ca p child' pc := by
  cases hat with
  | writeToken => exact (hspawned rfl).elim
  | restrictToken => exact (hspawned rfl).elim
  | spawn => exact (hspawned rfl).elim
  | poll => exact .poll hspawned'
  | check => exact .check hspawned'
  | authenticators => exact .authenticators hspawned'
  | run => exact .run hspawned'
  | serving => exact .serving hspawned'
  | ended => exact .ended

theorem ca_steps {pc pc' : Pc} {h1 : Host} (choice : Choice)
    (hr : Refines args authToken server ca s h)
    (at_ca : h.processes ca = some ⟨.ofChild args.socketPath, pc⟩)
    (ha : h.advance ca (.ofChild args.socketPath) pc choice =
      some (h1.goto ca (.ofChild args.socketPath) pc'))
    (hprocesses : h1.processes = h.processes)
    (hfiles : Files.Matches (Holds authToken) t.files h1.files) (hparent : t.parent = s.parent)
    (hspawned : s.child ≠ .notSpawned) (hchild : ChildAt args t.child (some pc')) :
    ∃ labels h', Run.run Host.step h labels = some h' ∧ Refines args authToken server ca t h' := by
  refine ⟨[.advance ca choice], h1.goto ca (.ofChild args.socketPath) pc', one_step ?_, hr.apart,
    hfiles, ?_, some pc', ?_, hchild⟩
  · simp only [Host.step, at_ca, Option.bind_some]
    exact ha
  · obtain ⟨ppc, at_server, hat⟩ := hr.parent
    refine ⟨ppc, ?_, ?_⟩
    · rw [TokenHandover.goto_processes, if_neg hr.apart, hprocesses]
      exact at_server
    · rw [hparent]
      refine parentAt_child hat hspawned fun hc => ?_
      rw [hc] at hchild
      cases hchild
  · rw [TokenHandover.goto_processes, if_pos rfl]
    rfl

theorem childAt_process {pc : ChildPc} (hr : Refines args authToken server ca s h)
    (hpc : s.child = .running pc) : ∃ pc', ChildAt args (.running pc) (some pc') ∧ pc' ≠ .ended ∧
      h.processes ca = some ⟨.ofChild args.socketPath, pc'⟩ := by
  obtain ⟨opc, hca, hat⟩ := hr.child
  rw [hpc] at hat
  cases hat with
  | readConfig => exact ⟨_, .readConfig, by simp, hca⟩
  | readToken => exact ⟨_, .readToken, by simp, hca⟩
  | removeToken authToken' => exact ⟨_, .removeToken authToken', by simp, hca⟩
  | loadKey authToken' => exact ⟨_, .loadKey authToken', by simp, hca⟩
  | removeSocket authToken' => exact ⟨_, .removeSocket authToken', by simp, hca⟩
  | bind authToken' => exact ⟨_, .bind authToken', by simp, hca⟩
  | restrictSocket authToken' => exact ⟨_, .restrictSocket authToken', by simp, hca⟩
  | serving authToken' => exact ⟨_, .serving authToken', by simp, hca⟩

theorem ca_dies {pc : ChildPc} (hr : Refines args authToken server ca s h)
    (hpc : s.child = .running pc) : ∃ labels h', Run.run Host.step h labels = some h' ∧
      Refines args authToken server ca s.childDies h' := by
  obtain ⟨pc', -, hlive, at_ca⟩ := childAt_process hr hpc
  exact ca_steps _ hr at_ca (TokenHandover.advance_dies hlive) rfl hr.files rfl
    (running_ne_notSpawned hpc) .gone

theorem ca_refined {pc : ChildPc} (hr : Refines args authToken server ca s h)
    (hpc : s.child = .running pc) : ∃ labels h', Run.run Host.step h labels = some h' ∧
      Refines args authToken server ca (s.childStep args pc) h' := by
  have hspawned := running_ne_notSpawned hpc
  have hdies := ca_dies hr hpc
  obtain ⟨pc', hat, -, at_ca⟩ := childAt_process hr hpc
  cases hat with
  | readConfig =>
    exact ca_steps (.tempdir []) hr at_ca rfl rfl hr.files rfl hspawned .readToken
  | readToken =>
    have hread := matches_readFile hr.files (tokenFilePath args)
    simp only [State.childStep]
    generalize readFile s.files (tokenFilePath args) = x at hread
    generalize hy : readFile h.files (tokenFilePath args) = y at hread
    cases hread with
    | none => exact hdies
    | @some k l same =>
      have htext : ∀ token inode, l = .data inode (utf8 token) →
          ∃ labels h', Run.run Host.step h labels = some h' ∧
            Refines args authToken server ca (s.childAt .removeToken s.files) h' := by
        rintro token inode rfl
        have ha : h.advance ca (.ofChild args.socketPath)
            (.caReadToken args.socketPath (tokenFilePath args)) .ok =
              some (h.goto ca (.ofChild args.socketPath)
                (.caRemoveToken args.socketPath (tokenFilePath args) token)) := by
          simp [Host.advance, Host.readToken, hy, fromUtf8_utf8]
        exact ca_steps _ hr at_ca ha rfl hr.files rfl hspawned (.removeToken token)
      cases k with
      | token =>
        obtain ⟨inode, hinode⟩ := same
        exact htext authToken inode hinode
      | socket => exact hdies
      | other =>
        obtain ⟨inode, token, htoken⟩ := same
        exact htext token inode htoken
  | removeToken token =>
    have hremoved := matches_removeFile hr.files (tokenFilePath args)
    simp only [State.childStep]
    generalize removeFile s.files (tokenFilePath args) = x at hremoved
    generalize hy : removeFile h.files (tokenFilePath args) = y at hremoved
    cases hremoved with
    | none => exact hdies
    | @some files files' hm =>
      have ha : h.advance ca (.ofChild args.socketPath)
          (.caRemoveToken args.socketPath (tokenFilePath args) token) .ok =
            some ({ h with files := files', taken := h.taken ++ [(ca, tokenFilePath args)] }.goto ca
              (.ofChild args.socketPath)
                (.caLoadKey args.socketPath (tokenFilePath args) token)) := by
        simp [Host.advance, Host.remove, hy]
      exact ca_steps _ hr at_ca ha rfl hm rfl hspawned (.loadKey token)
  | loadKey token =>
    exact ca_steps .ok hr at_ca rfl rfl hr.files rfl hspawned (.removeSocket token)
  | removeSocket token =>
    have hremoved := matches_removeFile hr.files args.socketPath
    have hexists := matches_pathExists hr.files args.socketPath
    simp only [State.childStep]
    split
    · next hfound =>
      generalize removeFile s.files args.socketPath = x at hremoved
      generalize hy : removeFile h.files args.socketPath = y at hremoved
      cases hremoved with
      | none => exact hdies
      | @some files files' hm =>
        have ha : h.advance ca (.ofChild args.socketPath)
            (.caRemoveSocket args.socketPath (tokenFilePath args) token) .ok =
              some ({ h with files := files' }.goto ca (.ofChild args.socketPath)
                (.caBind args.socketPath (tokenFilePath args) token)) := by
          simp [Host.advance, Host.remove, hexists, hfound, hy]
        exact ca_steps _ hr at_ca ha rfl hm rfl hspawned (.bind token)
    · next hfound =>
      have ha : h.advance ca (.ofChild args.socketPath)
          (.caRemoveSocket args.socketPath (tokenFilePath args) token) .ok =
            some (h.goto ca (.ofChild args.socketPath)
              (.caBind args.socketPath (tokenFilePath args) token)) := by
        simp [Host.advance, hexists, hfound]
      exact ca_steps _ hr at_ca ha rfl hr.files rfl hspawned (.bind token)
  | bind token =>
    have hsocket : Holds authToken .socket .socket := rfl
    have hcreated := matches_createFile hr.files hsocket args.socketPath
    simp only [State.childStep]
    generalize createFile s.files args.socketPath .socket = x at hcreated
    generalize hy : createFile h.files args.socketPath .socket = y at hcreated
    cases hcreated with
    | none => exact hdies
    | @some files files' hm =>
      have ha : h.advance ca (.ofChild args.socketPath)
          (.caBind args.socketPath (tokenFilePath args) token) .ok =
            some (Host.goto { h with
              files := files'
              made := h.made ++ [⟨args.socketPath, ca, none⟩] } ca
              (.ofChild args.socketPath)
                (.caServing args.socketPath (tokenFilePath args) token)) := by
        simp [Host.advance, Host.create, hy]
      exact ca_steps _ hr at_ca ha rfl hm rfl hspawned (.restrictSocket token)
  | restrictSocket token =>
    obtain ⟨ppc, at_server, hparent⟩ := hr.parent
    exact ⟨[], h, rfl, hr.apart, hr.files,
      ⟨ppc, at_server, parentAt_child hparent hspawned Child.noConfusion⟩,
      some (.caServing args.socketPath (tokenFilePath args) token), at_ca, .serving token⟩
  | serving => exact ⟨[], h, rfl, hr⟩

theorem parentAt_process (hr : Refines args authToken server ca s h) {p : ParentPc}
    (hp : s.parent = p) : ∃ pc, h.processes server = some ⟨serverArgs args, pc⟩ ∧
      ParentAt args authToken ca p s.child pc := by
  subst hp
  exact hr.parent

theorem unspawned_process (hr : Refines args authToken server ca s h)
    (hchild : s.child = .notSpawned) : h.processes ca = none := by
  obtain ⟨pc, hca, hat⟩ := hr.child
  rw [hchild] at hat
  cases hat
  exact hca

-- What fails before the CA is spawned: the token is removed, or the process dies without doing it.
theorem server_cleans {pc : Pc} {removed : Bool} {message : String}
    (hr : Refines args authToken server ca s h)
    (at_server : h.processes server = some ⟨serverArgs args, pc⟩)
    (hpc : pc = .sshRestrictToken args.socketPath authToken ∨
      pc = .sshSpawn args.socketPath authToken) :
    ∃ labels h', Run.run Host.step h labels = some h' ∧ Refines args authToken server ca
      ((s.removeToken args removed).ending (.failed message)) h' := by
  cases removed with
  | false =>
    refine server_dies hr at_server ?_ rfl rfl rfl
    rcases hpc with rfl | rfl <;> simp
  | true =>
    obtain ⟨hm, hprocesses⟩ := remove_refined hr.files (tokenFilePath args)
    have ha : h.advance server (serverArgs args) pc .fails =
        some (((h.remove (tokenFilePath args)).getD h).goto server (serverArgs args) .ended) := by
      rcases hpc with rfl | rfl <;> rfl
    refine server_steps _ hr at_server ha hm .ended ?_
    rw [hprocesses]
    exact hr.child

theorem server_writes {ok created : Bool} (hr : Refines args authToken server ca s h)
    (hp : s.parent = .writeToken) (hw : s.writeToken args ok created = some t) :
    ∃ labels h', Run.run Host.step h labels = some h' ∧ Refines args authToken server ca t h' := by
  obtain ⟨pc, at_server, hat⟩ := parentAt_process hr hp
  generalize hc : s.child = child at hat
  cases hat
  have hwritten := fun files
    (hw : writeFile writable s.files (tokenFilePath args) .token = some files) =>
      written_run hr.files at_server hw
  rw [State.writeToken] at hw
  generalize writeFile writable s.files (tokenFilePath args) .token = x at hw hwritten
  cases ok with
  | false =>
    obtain rfl := Option.some.inj hw
    cases created with
    | false => exact server_dies hr at_server (by simp) rfl rfl rfl
    | true =>
      cases x with
      | none => exact server_dies hr at_server (by simp) rfl rfl rfl
      | some files =>
        obtain ⟨labels, h', w, hrun, hm, at_w, -, hothers⟩ := hwritten files rfl
        refine server_arrives hr hrun (one_step (a := .advance server .dies) ?_) hm .ended
          hothers rfl
        simp only [Host.step, at_w, Option.bind_some]
        exact TokenHandover.advance_dies (by simp)
  | true =>
    obtain ⟨files, rfl, rfl⟩ := Option.map_eq_some_iff.mp hw
    obtain ⟨labels, h', w, hrun, hm, at_w, hcomplete, hothers⟩ := hwritten files rfl
    have hparent : ParentAt args authToken ca .restrictToken s.child
        (.sshRestrictToken args.socketPath authToken) := by
      rw [hc]
      exact .restrictToken
    refine server_arrives hr hrun (one_step (a := .advance server .ok) ?_) hm hparent hothers rfl
    simp only [Host.step, at_w, Option.bind_some, Host.advance]
    exact if_pos hcomplete

theorem server_spawns (hr : Refines args authToken server ca s h)
    (at_server : h.processes server =
      some ⟨serverArgs args, .sshSpawn args.socketPath authToken⟩)
    (hchild : s.child = .notSpawned) :
    ∃ labels h', Run.run Host.step h labels = some h' ∧
      Refines args authToken server ca (s.spawn args .spawned) h' := by
  have hfree := unspawned_process hr hchild
  have hfree' : (h.goto server (serverArgs args)
      (.sshAwait args.socketPath authToken (some ca))).processes ca = none := by
    rw [TokenHandover.goto_processes, if_neg hr.apart.symm]
    exact hfree
  refine ⟨[.advance server (.spawned ca)], (h.goto server (serverArgs args)
    (.sshAwait args.socketPath authToken (some ca))).goto ca (.ofChild args.socketPath) .readConfig,
    one_step ?_, hr.apart, hr.files, ⟨.sshAwait args.socketPath authToken (some ca), ?_,
      .poll Child.noConfusion⟩, some .readConfig, ?_, .readConfig⟩
  · simp only [Host.step, at_server, Option.bind_some, Host.advance]
    rw [hfree']
  · rw [TokenHandover.goto_processes, if_neg hr.apart, TokenHandover.goto_processes, if_pos rfl]
  · rw [TokenHandover.goto_processes, if_pos rfl]
    rfl

theorem killed_process {child : Child} {killed : Host} (hgone : child = .gone)
    (hprocesses : killed.processes = (h.goto ca (.ofChild args.socketPath) .ended).processes) :
    ∃ pc, killed.processes ca = pc.map (Process.mk (.ofChild args.socketPath)) ∧
      ChildAt args child pc := by
  refine ⟨some .ended, ?_, hgone ▸ .gone⟩
  rw [hprocesses, TokenHandover.goto_processes, if_pos rfl]
  rfl

theorem server_refined {a : Step} (hr : Refines args authToken server ca s h)
    (ha : ∀ ok, a ≠ .child ok) (hs : step args s a = some t) :
    ∃ labels h', Run.run Host.step h labels = some h' ∧ Refines args authToken server ca t h' := by
  cases step_moved hs with
  | child => exact (ha _ rfl).elim
  | writeToken hp hw => exact server_writes hr hp hw
  | @restrictToken ok removed hp =>
    obtain ⟨pc, at_server, hat⟩ := parentAt_process hr hp
    generalize hc : s.child = child at hat
    cases hat
    cases ok with
    | false => exact server_cleans hr at_server (Or.inl rfl)
    | true =>
      refine server_steps .ok hr at_server rfl hr.files ?_ hr.child
      change ParentAt args authToken ca .spawn s.child _
      rw [hc]
      exact .spawn
  | @spawn o hp =>
    obtain ⟨pc, at_server, hat⟩ := parentAt_process hr hp
    generalize hc : s.child = child at hat
    cases hat
    cases o with
    | spawned => exact server_spawns hr at_server hc
    | failed removed => exact server_cleans hr at_server (Or.inr rfl)
    | noCurrentExe => exact server_dies hr at_server (by simp) rfl rfl rfl
  | @poll n hp =>
    have hstays : ∀ p, (∀ pc, ParentAt args authToken ca (.poll n) s.child pc →
        ParentAt args authToken ca p s.child pc) → ∃ labels h',
          Run.run Host.step h labels = some h' ∧
            Refines args authToken server ca { s with parent := p } h' :=
      fun p hmoves => server_stays hr rfl rfl (hp ▸ hmoves)
    have hcheck := hstays .check fun pc hat => by
      cases hat with
      | poll spawned => exact .check spawned
    rw [State.poll]
    split
    · exact hcheck
    · split
      · refine hstays (.poll (n + 1)) fun pc hat => ?_
        cases hat with
        | poll spawned => exact .poll spawned
      · exact hcheck
  | @check killed hp =>
    obtain ⟨pc, at_server, hat⟩ := parentAt_process hr hp
    have hexists := matches_pathExists hr.files args.socketPath
    cases hat with
    | check spawned =>
      rw [State.check]
      split
      · next hfound =>
        have ha : h.advance server (serverArgs args)
            (.sshAwait args.socketPath authToken (some ca)) .ok = some (h.goto server
              (serverArgs args) (.sshServing args.socketPath authToken (some ca))) := by
          simp [Host.advance, hexists, hfound]
        exact server_steps _ hr at_server ha hr.files (.authenticators spawned) hr.child
      · cases killed with
        | false => exact server_dies hr at_server (by simp) rfl rfl rfl
        | true =>
          have ha : h.advance server (serverArgs args)
              (.sshAwait args.socketPath authToken (some ca)) .fails =
                some ((h.kill (some ca)).goto server (serverArgs args) .ended) := rfl
          rw [kill_refined hr spawned] at ha
          exact server_steps _ hr at_server ha hr.files .ended
            (killed_process (kill_child spawned) rfl)
  | authenticators hp =>
    rw [State.authenticators]
    split
    · refine server_stays hr rfl rfl fun pc hat => ?_
      rw [hp] at hat
      cases hat with
      | authenticators spawned => exact .run spawned
    · obtain ⟨pc, at_server, hat⟩ := parentAt_process hr hp
      cases hat with
      | authenticators spawned => exact server_dies hr at_server (by simp) rfl rfl rfl
  | @run ok hp =>
    cases ok with
    | true =>
      refine server_stays hr rfl rfl fun pc hat => ?_
      rw [hp] at hat
      cases hat with
      | run spawned => exact .serving spawned
    | false =>
      obtain ⟨pc, at_server, hat⟩ := parentAt_process hr hp
      cases hat with
      | run spawned => exact server_dies hr at_server (by simp) rfl rfl rfl
  | shutDown hp =>
    obtain ⟨pc, at_server, hat⟩ := parentAt_process hr hp
    cases hat with
    | serving spawned =>
      have hfiles : Files.Matches (Holds authToken) s.files (h.kill (some ca)).files := by
        rw [kill_refined hr spawned]
        exact hr.files
      obtain ⟨hm, hprocesses⟩ := remove_refined hfiles args.socketPath
      have ha : h.advance server (serverArgs args)
          (.sshServing args.socketPath authToken (some ca)) .fails =
            some ((((h.kill (some ca)).remove args.socketPath).getD (h.kill (some ca))).goto server
              (serverArgs args) .ended) := rfl
      rw [kill_refined hr spawned] at ha hm hprocesses
      exact server_steps _ hr at_server ha hm .ended
        (killed_process (kill_child spawned) hprocesses)

theorem step_refined {a : Step} (hr : Refines args authToken server ca s h)
    (hs : step args s a = some t) :
    ∃ labels h', Run.run Host.step h labels = some h' ∧ Refines args authToken server ca t h' := by
  cases a with
  | child ok =>
    cases hc : s.child with
    | running pc =>
      simp only [step, hc] at hs
      obtain rfl := Option.some.inj hs
      cases ok with
      | true => exact ca_refined hr hc
      | false => exact ca_dies hr hc
    | _ => simp [step, hc] at hs
  | _ => exact server_refined hr (by simp) hs

end

def launchServer (args : Args) (tokenBytes : List UInt8) (server : Nat) :
    List TokenHandover.Step :=
  [.launch server (serverArgs args), .advance server (.tempdir []),
    .advance server (.random tokenBytes)]

theorem launched_refines (args : Args) {tokenBytes : List UInt8} (hlength : tokenBytes.length = 32)
    {server ca : Nat} (hapart : server ≠ ca) {files : Files Content}
    {files' : Files TokenHandover.Content}
    (hfiles : files.Matches (Holds (String.ofList (Base64.encode tokenBytes))) files') :
    ∃ h, Run.run Host.step (Host.start files') (launchServer args tokenBytes server) = some h ∧
      Refines args (String.ofList (Base64.encode tokenBytes)) server ca (start files) h := by
  refine ⟨(((Host.start files').goto server (serverArgs args) .readConfig).goto server
    (serverArgs args) (.sshToken args.socketPath)).goto server (serverArgs args)
      (.sshWriteToken args.socketPath (String.ofList (Base64.encode tokenBytes))), ?_, hapart,
    hfiles, ⟨_, ?_, .writeToken⟩, none, ?_, .notSpawned⟩
  · simp [launchServer, Run.run, Host.step, Host.start, Host.advance, Host.goto, serverArgs,
      CliArgs.configured, CliArgs.withToken, hlength]
  · rw [TokenHandover.goto_processes, if_pos rfl]
  · rw [TokenHandover.goto_processes, if_neg hapart.symm, TokenHandover.goto_processes,
      if_neg hapart.symm, TokenHandover.goto_processes, if_neg hapart.symm]
    rfl

-- What one server and its CA can do is what two of the host's processes can do, with these files.
theorem run_refined (args : Args) {tokenBytes : List UInt8} (hlength : tokenBytes.length = 32)
    {server ca : Nat} (hapart : server ≠ ca) {files : Files Content}
    {files' : Files TokenHandover.Content}
    (hfiles : files.Matches (Holds (String.ofList (Base64.encode tokenBytes))) files')
    {as : List Step} {t : State} (hrun : Run.run (step args) (start files) as = some t) :
    ∃ labels h, Run.run Host.step (Host.start files') labels = some h ∧
      Refines args (String.ofList (Base64.encode tokenBytes)) server ca t h := by
  obtain ⟨h, hlaunch, hr⟩ := launched_refines args hlength hapart hfiles
  obtain ⟨labels, h', hrun', hr'⟩ :=
    Run.simulated (fun _ _ _ _ hr hs => step_refined hr hs) hr hrun
  exact ⟨_, h', (Run.run_append_eq_some _).mpr ⟨h, hlaunch, hrun'⟩, hr'⟩

end SshCertificateAuthority.RunServer
