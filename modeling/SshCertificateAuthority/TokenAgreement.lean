import SshCertificateAuthority.TokenHandover

namespace SshCertificateAuthority.TokenHandover
open UnixPath FileTable ByteStream

def entries (e : Entry Content) : Nat := if present e then 1 else 0

def creations (initial : Files Content) (made : List Made) (p : Path) : Nat :=
  entries (initial p) + (made.filter fun m => m.path = p).length

structure Handed (initial : Files Content) (h : Host) : Prop where
  links : ∀ p target, h.files p = .link target → initial p = .link target
  counted : ∀ p, (h.taken.filter fun e => e.2 = p).length + entries (h.files p) ≤
    creations initial h.made p
  once : (h.taken.map Prod.fst).Nodup
  past : ∀ i p, (i, p) ∈ h.taken → ∃ proc, h.processes i = some proc ∧ proc.pc.past
  consumed : ∀ i proc p, h.processes i = some proc → proc.pc.consumed = some p → (i, p) ∈ h.taken

-- One creation, seen from the path itself and not from a link that leads elsewhere.
structure Sole (initial : Files Content) (made : List Made) (p : Path) : Prop where
  unlinked : ∀ target, initial p ≠ .link target
  once : creations initial made p ≤ 1

def Source (initial : Files Content) (made : List Made) (p : Path) (text : Bytes) : Prop :=
  (∃ maker, ⟨p, maker, some text⟩ ∈ made) ∨ ∃ inode, initial p = .file (.data inode text)

def Starts (initial : Files Content) (made : List Made) (p : Path) (bytes : Bytes) : Prop :=
  ∃ text, Source initial made p text ∧ bytes <+: text

structure Agrees (initial files : Files Content) (made : List Made) (i : Nat) (proc : Process) :
    Prop where
  held : ∀ p authToken, (p, authToken) ∈ proc.args.holds proc.pc → Sole initial made p →
    Starts initial made p (utf8 authToken)
  writing : ∀ w, proc.pc.writing = some w → ⟨w.file, i, some w.text⟩ ∈ made ∧
    (Sole initial made w.file → ∀ inode bytes, files w.file = .file (.data inode bytes) →
      inode = w.inode ∧ bytes = w.text.take w.written)
  filling : ∀ socketPath authToken w, proc.pc = .sshFillToken socketPath authToken w →
    w.text = utf8 authToken ∧ ((∀ target, initial (tokenFilePath socketPath) ≠ .link target) →
      w.file = tokenFilePath socketPath)
  wrote : ∀ p authToken, proc.pc.wrote = some (p, authToken) →
    (∀ target, initial p ≠ .link target) → ⟨p, i, some (utf8 authToken)⟩ ∈ made ∧
      (Sole initial made p → ∀ inode bytes, files p = .file (.data inode bytes) →
        bytes = utf8 authToken)

structure Agreed (initial : Files Content) (h : Host) : Prop where
  prefixed : ∀ p, Sole initial h.made p → ∀ inode bytes, h.files p = .file (.data inode bytes) →
    Starts initial h.made p bytes
  each : ∀ i proc, h.processes i = some proc → Agrees initial h.files h.made i proc
  child : ∀ i proc j p authToken, h.processes i = some proc → proc.pc.child = some j →
    proc.pc.wrote = some (p, authToken) → j ≠ i ∧ ∃ proc', h.processes j = some proc' ∧
      (Sole initial h.made p → ∀ authToken', (p, authToken') ∈ proc'.args.holds proc'.pc →
        authToken' = authToken)

section

variable {initial : Files Content} {h h' : Host} {i : Nat} {args : CliArgs} {pc pc' : Pc}
  {p : Path} {authToken : String}

theorem fill_eq (h : Host) (w : Write) (n : Nat) : ∃ files, h.fill w n = { h with files := files } ∧
    (∀ p, p ≠ w.file → files p = h.files p) ∧
    ∀ e, files w.file = e → e = h.files w.file ∧ (∀ old, e ≠ .file (.data w.inode old)) ∨
      ∃ old, h.files w.file = .file (.data w.inode old) ∧
        e = .file (.data w.inode (overwrite old w.written ((w.text.drop w.written).take n))) := by
  rw [Host.fill, Host.writeAt]
  split
  · next inode old hold =>
    split
    · next hinode =>
      refine ⟨_, rfl, fun p hp => Function.update_of_ne hp _ _, ?_⟩
      rintro e rfl
      exact Or.inr ⟨old, hinode ▸ hold, Function.update_self _ _ _⟩
    · next hinode =>
      refine ⟨h.files, rfl, fun _ _ => rfl, fun e he => Or.inl ⟨he.symm, fun old' heq => ?_⟩⟩
      simp only [← he, hold, Entry.file.injEq, Content.data.injEq] at heq
      exact hinode heq.1
  · next hother =>
    refine ⟨h.files, rfl, fun _ _ => rfl, fun e he => Or.inl ⟨he.symm, fun old heq => ?_⟩⟩
    exact hother _ _ (he.trans heq)

theorem overwrite_take (text : Bytes) {offset n : Nat} (hwithin : offset + n ≤ text.length) :
    overwrite (text.take offset) offset ((text.drop offset).take n) = text.take (offset + n) := by
  have hlength : (text.take offset).length = offset := by
    rw [List.length_take]
    omega
  have htail : (text.take offset).drop (offset + ((text.drop offset).take n).length) = [] :=
    List.drop_eq_nil_of_le (by omega)
  rw [overwrite, htail, hlength, Nat.sub_self, List.replicate_zero, List.append_nil,
    List.append_nil, List.take_take, Nat.min_self, List.take_add]

theorem handed_goto (hi : Handed initial h) (hpast : ∀ p, (i, p) ∈ h.taken → pc.past)
    (hconsumed : ∀ p, pc.consumed = some p → (i, p) ∈ h.taken) :
    Handed initial (h.goto i args pc) := by
  refine ⟨hi.links, hi.counted, hi.once, ?_, ?_⟩
  · intro j p hj
    rw [goto_processes]
    split
    · next hji => exact ⟨_, rfl, hpast p (hji ▸ hj)⟩
    · exact hi.past j p hj
  · intro j proc p hj hc
    rw [goto_processes] at hj
    split at hj
    · next hji =>
      obtain rfl := Option.some.inj hj
      exact hji ▸ hconsumed p hc
    · exact hi.consumed j proc p hj hc

theorem handed_moved (hi : Handed initial h) (at_i : h.processes i = some ⟨args, pc⟩)
    (hpast : pc.past → pc'.past) (hconsumed : ∀ p, pc'.consumed = some p → pc.consumed = some p) :
    Handed initial (h.goto i args pc') := by
  refine handed_goto hi (fun p hp => ?_) fun p hp => hi.consumed i _ p at_i (hconsumed p hp)
  obtain ⟨proc, hproc, hpc⟩ := hi.past i p hp
  obtain rfl := Option.some.inj (at_i.symm.trans hproc)
  exact hpast hpc

theorem handed_started (hi : Handed initial h) (hfree : h.processes i = none)
    (hconsumed : pc.consumed = none) : Handed initial (h.goto i args pc) := by
  refine handed_goto hi (fun p hp => ?_) (by simp [hconsumed])
  obtain ⟨proc, hproc, -⟩ := hi.past i p hp
  simp [hfree] at hproc

theorem handed_ended (hi : Handed initial h) (i : Nat) (args : CliArgs) :
    Handed initial (h.goto i args .ended) :=
  handed_goto hi (fun _ _ => rfl) (by simp [Pc.consumed])

theorem handed_kill (hi : Handed initial h) (caProcess : Option Nat) :
    Handed initial (h.kill caProcess) := by
  unfold Host.kill
  split
  · exact hi
  · split
    · exact hi
    · exact handed_ended hi _ _

theorem handed_files {files : Files Content} (hi : Handed initial h)
    (hlinks : ∀ p target, files p = .link target → h.files p = .link target)
    (hentries : ∀ p, entries (files p) ≤ entries (h.files p)) :
    Handed initial { h with files := files } :=
  ⟨fun p target hp => hi.links p target (hlinks p target hp),
    fun p => Nat.le_trans (Nat.add_le_add_left (hentries p) _) (hi.counted p),
    hi.once, hi.past, hi.consumed⟩

theorem handed_remove (hi : Handed initial h) (hr : h.remove p = some h') :
    Handed initial h' := by
  obtain ⟨rfl, -⟩ := remove_eq_some hr
  have hupdate : ∀ q, Function.update h.files p .absent q = .absent ∨
      Function.update h.files p .absent q = h.files q := by
    intro q
    rw [Function.update_apply]
    split
    · exact Or.inl rfl
    · exact Or.inr rfl
  refine handed_files hi (fun q target hq => ?_) fun q => ?_
  · rcases hupdate q with ha | ha
    · simp [ha] at hq
    · rwa [ha] at hq
  · rcases hupdate q with ha | ha
    · simp [ha, entries, present]
    · rw [ha]

theorem handed_made {content : Content} {m : Made} (hi : Handed initial h) (hm : m.path = p) :
    Handed initial { h with
      files := Function.update h.files p (.file content), made := h.made ++ [m] } := by
  refine ⟨?_, ?_, hi.once, hi.past, hi.consumed⟩
  · intro q target hq
    dsimp only at hq
    rw [Function.update_apply] at hq
    split at hq
    · simp at hq
    · exact hi.links q target hq
  · intro q
    have hq := hi.counted q
    simp only [creations, List.filter_append, List.length_append] at hq ⊢
    rw [Function.update_apply]
    split
    · next hqp =>
      have hone : (([m] : List Made).filter fun m => m.path = q).length = 1 := by
        simp [hm, hqp]
      have hentry : entries (.file content) = 1 := rfl
      omega
    · omega

theorem handed_fill (hi : Handed initial h) (w : Write) (n : Nat) :
    Handed initial (h.fill w n) := by
  obtain ⟨files, hfill, hothers, hself⟩ := fill_eq h w n
  rw [hfill]
  refine handed_files hi (fun p target hp => ?_) fun p => ?_
  · by_cases hw : p = w.file
    · subst hw
      rcases hself _ hp with ⟨hsame, -⟩ | ⟨old, -, hnew⟩
      · exact hsame.symm
      · simp at hnew
    · rwa [hothers p hw] at hp
  · by_cases hw : p = w.file
    · subst hw
      rcases hself _ rfl with ⟨hsame, -⟩ | ⟨old, hold, hnew⟩
      · rw [hsame]
      · rw [hnew, hold]
        exact Nat.le_refl _
    · rw [hothers p hw]

theorem handed_taken {socketPath tokenFile : Path} (hi : Handed initial h)
    (at_i : h.processes i = some ⟨args, .caRemoveToken socketPath tokenFile authToken⟩)
    (hr : h.remove tokenFile = some h') :
    Handed initial ({ h' with taken := h.taken ++ [(i, tokenFile)] }.goto i args
      (.caLoadKey socketPath tokenFile authToken)) := by
  have hfresh : ∀ p, (i, p) ∉ h.taken := by
    intro p hp
    obtain ⟨proc, hproc, hpast⟩ := hi.past i p hp
    obtain rfl := Option.some.inj (at_i.symm.trans hproc)
    simp [Pc.past, Pc.consumed] at hpast
  have hremoved := handed_remove hi hr
  obtain ⟨rfl, hpresent⟩ := remove_eq_some hr
  have hentry : entries (h.files tokenFile) = 1 := if_pos hpresent
  refine ⟨hremoved.links, ?_, ?_, ?_, ?_⟩
  · intro q
    have hq := hi.counted q
    simp only [creations, Host.goto, List.filter_append, List.length_append] at hq ⊢
    rw [Function.update_apply]
    split
    · next hqp =>
      subst hqp
      have hone : (([(i, q)] : List (Nat × Path)).filter fun e => e.2 = q).length = 1 := by simp
      have hnone : entries .absent = 0 := rfl
      omega
    · next hqp =>
      have hzero : (([(i, tokenFile)] : List (Nat × Path)).filter fun e => e.2 = q).length = 0 := by
        simp [Ne.symm hqp]
      omega
  · simp only [Host.goto, List.map_append]
    refine List.nodup_append.mpr ⟨hi.once, List.nodup_singleton i, ?_⟩
    rintro j hj k hk rfl
    obtain ⟨⟨j', p⟩, hmem, rfl⟩ := List.mem_map.mp hj
    obtain rfl : j' = i := List.mem_singleton.mp hk
    exact hfresh p hmem
  · intro j q hj
    rw [goto_processes]
    split
    · exact ⟨_, rfl, rfl⟩
    · next hji =>
      rcases List.mem_append.mp hj with hj | hj
      · exact hi.past j q hj
      · exact absurd (Prod.mk.inj (List.mem_singleton.mp hj)).1 hji
  · intro j proc q hj hc
    rw [goto_processes] at hj
    split at hj
    · next hji =>
      obtain rfl := Option.some.inj hj
      obtain rfl : tokenFile = q := Option.some.inj hc
      exact List.mem_append_right _ (by simp [hji])
    · exact List.mem_append_left _ (hi.consumed j proc q hj hc)

theorem handed_opened {text : Bytes} {w : Write} (hi : Handed initial h)
    (ho : h.truncate i p text = some (h', w)) : Handed initial h' := by
  obtain ⟨-, -, rfl⟩ := truncate_eq_some ho
  exact handed_made hi rfl

theorem handed_effect (hi : Handed initial h) (at_i : h.processes i = some ⟨args, pc⟩)
    (he : Effect h i args pc h') : Handed initial h' := by
  cases he with
  | moves follows => exact handed_moved hi at_i follows.past follows.consumed
  | removes removed follows =>
    have hprocesses := handed_remove hi removed
    obtain ⟨rfl, -⟩ := remove_eq_some removed
    exact handed_moved hprocesses at_i follows.past follows.consumed
  | takes removed => exact handed_taken hi at_i removed
  | binds created =>
    obtain rfl := create_eq_some created
    exact handed_moved (handed_made hi rfl) at_i (fun _ => rfl) fun _ hp => hp
  | truncates opened =>
    have hopened := handed_opened hi opened
    obtain ⟨-, -, rfl⟩ := truncate_eq_some opened
    exact handed_moved hopened at_i (by simp [Pc.past, Pc.consumed]) (by simp [Pc.consumed])
  | provides opened =>
    have hopened := handed_opened hi opened
    obtain ⟨-, -, rfl⟩ := truncate_eq_some opened
    exact handed_moved hopened at_i (by simp [Pc.past, Pc.consumed]) (by simp [Pc.consumed])
  | @fills pc pc' w n writing further =>
    obtain ⟨hpast, -⟩ := writing_idle writing
    obtain ⟨-, hconsumed, -⟩ := writing_idle further
    have hfilled := handed_fill hi w n
    obtain ⟨files, hfill, -⟩ := fill_eq h w n
    rw [hfill] at hfilled ⊢
    exact handed_moved hfilled at_i (by simp [hpast]) (by simp [hconsumed])
  | filled complete =>
    exact handed_moved hi at_i (by simp [Pc.past, Pc.consumed]) (by simp [Pc.consumed])
  | @spawns socketPath token child free =>
    have hwaiting : Handed initial (h.goto i args (.sshAwait socketPath token (some child))) :=
      handed_moved hi at_i (by simp [Pc.past, Pc.consumed]) (by simp [Pc.consumed])
    exact handed_started hwaiting free rfl
  | kills => exact handed_ended (handed_kill hi _) i args
  | killsAndRemoves removed => exact handed_ended (handed_remove (handed_kill hi _) removed) i args

theorem sole_before {extra : List Made} (hmade : h'.made = h.made ++ extra)
    (hs : Sole initial h'.made p) : Sole initial h.made p := by
  refine ⟨hs.unlinked, Nat.le_trans ?_ hs.once⟩
  simp only [creations, hmade, List.filter_append, List.length_append]
  omega

theorem made_mem (hs : Sole initial h.made p) : (h.made.filter fun m => m.path = p).length ≤ 1 := by
  have honce := hs.once
  rw [creations] at honce
  omega

theorem sole_made {m m' : Made} (hs : Sole initial h.made p) (hm : m ∈ h.made) (hp : m.path = p)
    (hm' : m' ∈ h.made) (hp' : m'.path = p) : m = m' := by
  have hshort := made_mem hs
  have hmem : m ∈ h.made.filter fun m => m.path = p := List.mem_filter.mpr ⟨hm, by simp [hp]⟩
  have hmem' : m' ∈ h.made.filter fun m => m.path = p := List.mem_filter.mpr ⟨hm', by simp [hp']⟩
  generalize h.made.filter (fun m => m.path = p) = made at hshort hmem hmem'
  obtain ⟨n, rfl⟩ : ∃ n, made = [n] :=
    List.length_eq_one_iff.mp (Nat.le_antisymm hshort (List.length_pos_of_mem hmem))
  rw [List.mem_singleton.mp hmem, List.mem_singleton.mp hmem']

theorem sole_added {extra : List Made} {m m' : Made} (hmade : h'.made = h.made ++ extra)
    (hs : Sole initial h'.made p) (hm : m ∈ h.made) (hp : m.path = p) (hm' : m' ∈ extra) :
    m'.path ≠ p := by
  intro hp'
  have hshort := made_mem hs
  rw [hmade, List.filter_append, List.length_append] at hshort
  have hold := List.length_pos_of_mem
    (List.mem_filter.mpr ⟨hm, by simp [hp]⟩ : m ∈ h.made.filter fun m => m.path = p)
  have hnew := List.length_pos_of_mem
    (List.mem_filter.mpr ⟨hm', by simp [hp']⟩ : m' ∈ extra.filter fun m => m.path = p)
  omega

theorem source_unique {text text' : Bytes} (hs : Sole initial h.made p)
    (ht : Source initial h.made p text) (ht' : Source initial h.made p text') : text = text' := by
  have hinitial : ∀ {inode t}, initial p = .file (.data inode t) →
      ∀ m ∈ h.made, m.path ≠ p := by
    intro inode t hp m hm hpath
    have honce := hs.once
    have hentry : entries (initial p) = 1 := by rw [hp]; rfl
    have hpos := List.length_pos_of_mem
      (List.mem_filter.mpr ⟨hm, by simp [hpath]⟩ : m ∈ h.made.filter fun m => m.path = p)
    rw [creations] at honce
    omega
  rcases ht with ⟨maker, hm⟩ | ⟨inode, hp⟩ <;> rcases ht' with ⟨maker', hm'⟩ | ⟨inode', hp'⟩
  · have hsame := sole_made hs hm rfl hm' rfl
    simpa using congrArg Made.text hsame
  · exact absurd rfl (hinitial hp' _ hm)
  · exact absurd rfl (hinitial hp _ hm')
  · have hsame := hp.symm.trans hp'
    simp only [Entry.file.injEq, Content.data.injEq] at hsame
    exact hsame.2

theorem starts_later {extra : List Made} {bytes : Bytes} (hmade : h'.made = h.made ++ extra)
    (hb : Starts initial h.made p bytes) : Starts initial h'.made p bytes := by
  obtain ⟨text, hsource, hfront⟩ := hb
  refine ⟨text, hsource.imp_left ?_, hfront⟩
  rintro ⟨maker, hm⟩
  exact ⟨maker, by rw [hmade]; exact List.mem_append_left _ hm⟩

-- What happens to the files leaves a sole creation as it is, or is that creation.
theorem agreed_extended (extra : List Made) (ha : Agreed initial h)
    (hmade : h'.made = h.made ++ extra) (hprocesses : h'.processes = h.processes)
    (hfiles : ∀ p inode bytes, h'.files p = .file (.data inode bytes) →
      h.files p = .file (.data inode bytes) ∨
        ∃ maker text, ⟨p, maker, some text⟩ ∈ extra ∧ bytes <+: text) :
    Agreed initial h' := by
  have hkept : ∀ {k p text}, Sole initial h'.made p → ⟨p, k, some text⟩ ∈ h.made →
      ∀ inode bytes, h'.files p = .file (.data inode bytes) →
        h.files p = .file (.data inode bytes) := by
    intro k p text hs hm inode bytes hp
    rcases hfiles p inode bytes hp with hsame | ⟨maker, text', hm', -⟩
    · exact hsame
    · exact (sole_added hmade hs hm rfl hm' rfl).elim
  have hlater : ∀ {m}, m ∈ h.made → m ∈ h'.made := by
    intro m hm
    rw [hmade]
    exact List.mem_append_left _ hm
  refine ⟨?_, ?_, ?_⟩
  · intro p hs inode bytes hp
    rcases hfiles p inode bytes hp with hsame | ⟨maker, text, hm, hfront⟩
    · exact starts_later hmade (ha.prefixed p (sole_before hmade hs) inode bytes hsame)
    · exact ⟨text, Or.inl ⟨maker, by rw [hmade]; exact List.mem_append_right _ hm⟩, hfront⟩
  · intro k proc hproc
    rw [hprocesses] at hproc
    have hk := ha.each k proc hproc
    refine ⟨?_, ?_, hk.filling, ?_⟩
    · intro p token hmem hs
      exact starts_later hmade (hk.held p token hmem (sole_before hmade hs))
    · intro w hw
      obtain ⟨hm, hcontent⟩ := hk.writing w hw
      exact ⟨hlater hm, fun hs inode bytes hp =>
        hcontent (sole_before hmade hs) inode bytes (hkept hs hm inode bytes hp)⟩
    · intro p token hw hunlinked
      obtain ⟨hm, hcontent⟩ := hk.wrote p token hw hunlinked
      exact ⟨hlater hm, fun hs inode bytes hp =>
        hcontent (sole_before hmade hs) inode bytes (hkept hs hm inode bytes hp)⟩
  · intro k proc j p token hproc hchild hwrote
    rw [hprocesses] at hproc ⊢
    obtain ⟨hne, proc', hproc', hagree⟩ := ha.child k proc j p token hproc hchild hwrote
    exact ⟨hne, proc', hproc', fun hs => hagree (sole_before hmade hs)⟩

theorem agreed_goto (ha : Agreed initial h) (hagrees : Agrees initial h.files h.made i ⟨args, pc⟩)
    (hchild : ∀ j p token, pc.child = some j → pc.wrote = some (p, token) → j ≠ i ∧
      ∃ proc', h.processes j = some proc' ∧ (Sole initial h.made p → ∀ token',
        (p, token') ∈ proc'.args.holds proc'.pc → token' = token))
    (hspawned : ∀ k proc p token, k ≠ i → h.processes k = some proc → proc.pc.child = some i →
      proc.pc.wrote = some (p, token) → Sole initial h.made p → ∀ token',
        (p, token') ∈ args.holds pc → token' = token) :
    Agreed initial (h.goto i args pc) := by
  refine ⟨ha.prefixed, ?_, ?_⟩
  · intro k proc hproc
    rw [goto_processes] at hproc
    split at hproc
    · next hk =>
      obtain rfl := Option.some.inj hproc
      exact hk ▸ hagrees
    · exact ha.each k proc hproc
  · intro k proc j p token hproc hc hwrote
    rw [goto_processes] at hproc
    split at hproc
    · next hk =>
      obtain rfl := Option.some.inj hproc
      obtain ⟨hne, proc', hproc', hagree⟩ := hchild j p token hc hwrote
      exact ⟨hk ▸ hne, proc', by rw [goto_processes, if_neg hne]; exact hproc', hagree⟩
    · next hk =>
      obtain ⟨hne, proc', hproc', hagree⟩ := ha.child k proc j p token hproc hc hwrote
      by_cases hji : j = i
      · subst hji
        refine ⟨hne, ⟨args, pc⟩, by rw [goto_processes, if_pos rfl], fun hs => ?_⟩
        exact hspawned k proc p token hk hproc hc hwrote hs
      · exact ⟨hne, proc', by rw [goto_processes, if_neg hji]; exact hproc', hagree⟩

theorem readToken_content (hi : Handed initial h) (hunlinked : ∀ target, initial p ≠ .link target)
    (hr : h.readToken p = some authToken) :
    ∃ inode, h.files p = .file (.data inode (utf8 authToken)) := by
  have hfollow : follow h.files maxLinks p = some p :=
    follow_unlinked (fun target ht => hunlinked target (hi.links p target ht)) maxLinks
  rw [Host.readToken, readFile, hfollow, Option.bind_some] at hr
  split at hr
  · next inode bytes hread =>
    split at hread
    · next content hfile =>
      obtain rfl := Option.some.inj hread
      exact ⟨inode, by rw [hfile, utf8_of_fromUtf8 hr]⟩
    · simp at hread
  · simp at hr

theorem agreed_moved (hi : Handed initial h) (ha : Agreed initial h)
    (at_i : h.processes i = some ⟨args, pc⟩)
    (hgains : ∀ p token, (p, token) ∈ args.holds pc' →
      (p, token) ∈ args.holds pc ∨ h.readToken p = some token)
    (hwriting : pc'.writing = none)
    (hwrote : ∀ p token, pc'.wrote = some (p, token) → pc.wrote = some (p, token))
    (hchild : ∀ j, pc'.child = some j → pc.child = some j) :
    Agreed initial (h.goto i args pc') := by
  have hold := ha.each i _ at_i
  refine agreed_goto ha ⟨?_, by simp [hwriting], ?_, ?_⟩ ?_ ?_
  · intro p token hmem hs
    rcases hgains p token hmem with hmem | hread
    · exact hold.held p token hmem hs
    · obtain ⟨inode, hfile⟩ := readToken_content hi hs.unlinked hread
      exact ha.prefixed p hs inode _ hfile
  · rintro socketPath token w rfl
    simp [Pc.writing] at hwriting
  · exact fun p token hp => hold.wrote p token (hwrote p token hp)
  · exact fun j p token hj hp => ha.child i _ j p token at_i (hchild j hj) (hwrote p token hp)
  · intro k proc p token _ hproc hc hw hs token' hmem
    rcases hgains p token' hmem with hmem | hread
    · obtain ⟨-, proc', hproc', hagree⟩ := ha.child k proc i p token hproc hc hw
      obtain rfl := Option.some.inj (at_i.symm.trans hproc')
      exact hagree hs token' hmem
    · obtain ⟨inode, hfile⟩ := readToken_content hi hs.unlinked hread
      have hsame := ((ha.each k proc hproc).wrote p token hw hs.unlinked).2 hs inode _ hfile
      have htext := congrArg fromUtf8 hsame
      rw [fromUtf8_utf8, fromUtf8_utf8] at htext
      exact Option.some.inj htext

theorem agreed_blank (ha : Agreed initial h) (i : Nat) (hholds : args.holds pc = [])
    (hwriting : pc.writing = none) (hwrote : pc.wrote = none) :
    Agreed initial (h.goto i args pc) := by
  refine agreed_goto ha ⟨by simp [hholds], by simp [hwriting], ?_, by simp [hwrote]⟩
    (by simp [hwrote]) (by simp [hholds])
  rintro socketPath token w rfl
  simp [Pc.writing] at hwriting

theorem agreed_kill (ha : Agreed initial h) (caProcess : Option Nat) :
    Agreed initial (h.kill caProcess) := by
  unfold Host.kill
  split
  · exact ha
  · split
    · exact ha
    · exact agreed_blank ha _ rfl rfl rfl

theorem agreed_removed (ha : Agreed initial h) (hmade : h'.made = h.made)
    (hprocesses : h'.processes = h.processes)
    (hfiles : h'.files = Function.update h.files p .absent) : Agreed initial h' := by
  refine agreed_extended [] ha (by simp [hmade]) hprocesses fun q inode bytes hq => ?_
  rw [hfiles, Function.update_apply] at hq
  split at hq
  · simp at hq
  · exact Or.inl hq

theorem agreed_opened {text : Bytes} {w : Write} (ha : Agreed initial h)
    (ho : h.truncate i p text = some (h', w)) : Agreed initial h' := by
  obtain ⟨-, -, rfl⟩ := truncate_eq_some ho
  refine agreed_extended [⟨w.file, i, some text⟩] ha rfl rfl fun q inode bytes hq => ?_
  dsimp only at hq
  rw [Function.update_apply] at hq
  split at hq
  · next hqw =>
    simp only [Entry.file.injEq, Content.data.injEq] at hq
    exact Or.inr ⟨i, text, by simp [hqw], by simp [← hq.2]⟩
  · exact Or.inl hq

theorem agreed_truncated {text : Bytes} {w : Write} (hi : Handed initial h) (ha : Agreed initial h)
    (at_i : h.processes i = some ⟨args, pc⟩) (ho : h.truncate i p text = some (h', w))
    (hwriting : pc'.writing = some w)
    (hfilling : ∀ socketPath token w', pc' = .sshFillToken socketPath token w' →
      p = tokenFilePath socketPath ∧ text = utf8 token)
    (hgains : ∀ q token, (q, token) ∈ args.holds pc' →
      (q, token) ∈ args.holds pc ∨ q = p ∧ text = utf8 token)
    (hwrote : pc'.wrote = none) : Agreed initial (h'.goto i args pc') := by
  have hopened := agreed_opened ha ho
  obtain ⟨hfollow, hw, rfl⟩ := truncate_eq_some ho
  have htext : w.text = text := by rw [hw]
  have hfile : (∀ target, initial p ≠ .link target) → w.file = p := by
    intro hunlinked
    rw [follow_unlinked fun target ht => hunlinked target (hi.links p target ht)] at hfollow
    exact (Option.some.inj hfollow).symm
  have hmem : ⟨w.file, i, some text⟩ ∈ h.made ++ [⟨w.file, i, some text⟩] :=
    List.mem_append_right _ List.mem_cons_self
  refine agreed_goto hopened ⟨?_, ?_, ?_, by simp [hwrote]⟩ (by simp [hwrote]) ?_
  · intro q token hq hs
    rcases hgains q token hq with hq | ⟨rfl, rfl⟩
    · exact (hopened.each i _ at_i).held q token hq hs
    · obtain rfl := hfile hs.unlinked
      exact ⟨_, Or.inl ⟨i, hmem⟩, List.prefix_refl _⟩
  · intro w' hw'
    obtain rfl := Option.some.inj (hwriting.symm.trans hw')
    refine ⟨by rw [htext]; exact hmem, fun hs inode bytes hq => ?_⟩
    dsimp only at hq
    rw [Function.update_self] at hq
    simp only [Entry.file.injEq, Content.data.injEq] at hq
    have hnone : w.written = 0 := by rw [hw]
    exact ⟨hq.1.symm, by rw [hnone, List.take_zero]; exact hq.2.symm⟩
  · rintro socketPath token w' rfl
    obtain ⟨rfl, rfl⟩ := hfilling socketPath token w' rfl
    obtain rfl := Option.some.inj hwriting
    exact ⟨htext, hfile⟩
  · intro k proc q token hk hproc hc hwrote' hs token' hq
    rcases hgains q token' hq with hq | ⟨rfl, rfl⟩
    · obtain ⟨-, proc', hproc', hagree⟩ := hopened.child k proc i q token hproc hc hwrote'
      obtain rfl := Option.some.inj (at_i.symm.trans hproc')
      exact hagree hs token' hq
    · obtain ⟨hmade, -⟩ := (hopened.each k proc hproc).wrote q token hwrote' hs.unlinked
      have hsame := sole_made hs hmade rfl hmem (hfile hs.unlinked)
      exact absurd (congrArg Made.maker hsame) hk

theorem agreed_filled {w : Write} {n : Nat} (ha : Agreed initial h)
    (at_i : h.processes i = some ⟨args, pc⟩) (hwriting : pc.writing = some w)
    (hfurther : pc'.writing = some { w with written := w.written + n })
    (hwithin : w.written + n ≤ w.text.length) (hholds : args.holds pc' = args.holds pc)
    (hfilling : ∀ socketPath token w', pc' = .sshFillToken socketPath token w' →
      pc = .sshFillToken socketPath token w) :
    Agreed initial ((h.fill w n).goto i args pc') := by
  have hold := ha.each i _ at_i
  obtain ⟨-, -, hwrote⟩ := writing_idle hfurther
  obtain ⟨hmem, hcontent⟩ := hold.writing w hwriting
  obtain ⟨files, hfill, hothers, hself⟩ := fill_eq h w n
  rw [hfill]
  have hwritten : ∀ inode bytes, Sole initial h.made w.file →
      files w.file = .file (.data inode bytes) →
        inode = w.inode ∧ bytes = w.text.take (w.written + n) := by
    intro inode bytes hs hfile
    rcases hself _ hfile with ⟨hsame, hother⟩ | ⟨old, hwas, hnow⟩
    · obtain ⟨rfl, -⟩ := hcontent hs inode bytes hsame.symm
      exact absurd rfl (hother bytes)
    · obtain ⟨-, rfl⟩ := hcontent hs _ _ hwas
      simp only [Entry.file.injEq, Content.data.injEq, overwrite_take _ hwithin] at hnow
      exact hnow
  have hkept : ∀ {k p text}, k ≠ i → Sole initial h.made p → ⟨p, k, some text⟩ ∈ h.made →
      files p = h.files p := by
    intro k p text hk hs hm
    refine hothers p fun hp => hk ?_
    subst hp
    exact congrArg Made.maker (sole_made hs hm rfl hmem rfl)
  refine ⟨?_, ?_, ?_⟩
  · intro p hs inode bytes hp
    by_cases hpw : p = w.file
    · subst hpw
      obtain ⟨-, rfl⟩ := hwritten inode bytes hs hp
      exact ⟨w.text, Or.inl ⟨i, hmem⟩, List.take_prefix _ _⟩
    · exact ha.prefixed p hs inode bytes ((hothers p hpw).symm.trans hp)
  · intro k proc hproc
    rw [goto_processes] at hproc
    split at hproc
    · next hk =>
      obtain rfl := Option.some.inj hproc
      subst hk
      refine ⟨?_, ?_, ?_, by simp [hwrote]⟩
      · intro p token hp hs
        exact hold.held p token (by rw [← hholds]; exact hp) hs
      · intro w' hw'
        obtain rfl := Option.some.inj (hfurther.symm.trans hw')
        exact ⟨hmem, fun hs inode bytes hp => hwritten inode bytes hs hp⟩
      · rintro socketPath token w' rfl
        obtain rfl := Option.some.inj hfurther
        exact hold.filling socketPath token w (hfilling socketPath token _ rfl)
    · next hk =>
      have hother := ha.each k proc hproc
      refine ⟨hother.held, ?_, hother.filling, ?_⟩
      · intro w' hw'
        obtain ⟨hm, hcontent'⟩ := hother.writing w' hw'
        exact ⟨hm, fun hs inode bytes hp =>
          hcontent' hs inode bytes ((hkept hk hs hm).symm.trans hp)⟩
      · intro p token hp hunlinked
        obtain ⟨hm, hcontent'⟩ := hother.wrote p token hp hunlinked
        exact ⟨hm, fun hs inode bytes hq =>
          hcontent' hs inode bytes ((hkept hk hs hm).symm.trans hq)⟩
  · intro k proc j p token hproc hc hw
    rw [goto_processes] at hproc
    split at hproc
    · obtain rfl := Option.some.inj hproc
      simp [hwrote] at hw
    · obtain ⟨hne, proc', hproc', hagree⟩ := ha.child k proc j p token hproc hc hw
      by_cases hji : j = i
      · subst hji
        obtain rfl := Option.some.inj (at_i.symm.trans hproc')
        refine ⟨hne, _, by rw [goto_processes, if_pos rfl], fun hs token' hmem' => ?_⟩
        exact hagree hs token' (by rw [← hholds]; exact hmem')
      · exact ⟨hne, proc', by rw [goto_processes, if_neg hji]; exact hproc', hagree⟩

theorem agreed_restricting {socketPath : Path} {w : Write} (ha : Agreed initial h)
    (at_i : h.processes i = some ⟨args, .sshFillToken socketPath authToken w⟩)
    (hcomplete : w.written = w.text.length) :
    Agreed initial (h.goto i args (.sshRestrictToken socketPath authToken)) := by
  have hold := ha.each i _ at_i
  obtain ⟨hmem, hcontent⟩ := hold.writing w rfl
  obtain ⟨htext, hfile⟩ := hold.filling socketPath authToken w rfl
  rw [hcomplete, List.take_length] at hcontent
  refine agreed_goto ha ⟨hold.held, by simp [Pc.writing], by simp, ?_⟩ (by simp [Pc.child]) ?_
  · intro p token hp hunlinked
    obtain ⟨rfl, rfl⟩ := Prod.mk.inj (Option.some.inj hp)
    rw [hfile hunlinked, htext] at hmem hcontent
    exact ⟨hmem, fun hs inode bytes hq => (hcontent hs inode bytes hq).2⟩
  · intro k proc p token _ hproc hc hw hs token' hmem'
    obtain ⟨-, proc', hproc', hagree⟩ := ha.child k proc i p token hproc hc hw
    obtain rfl := Option.some.inj (at_i.symm.trans hproc')
    exact hagree hs token' hmem'

theorem agreed_spawned {socketPath : Path} {child : Nat} (ha : Agreed initial h)
    (at_i : h.processes i = some ⟨args, .sshSpawn socketPath authToken⟩)
    (hfree : (h.goto i args (.sshAwait socketPath authToken (some child))).processes child = none) :
    Agreed initial ((h.goto i args (.sshAwait socketPath authToken (some child))).goto child
      (.ofChild socketPath) .readConfig) := by
  have hne : child ≠ i := by
    rintro rfl
    rw [goto_processes, if_pos rfl] at hfree
    simp at hfree
  have hswap : (h.goto i args (.sshAwait socketPath authToken (some child))).goto child
      (.ofChild socketPath) .readConfig = (h.goto child (.ofChild socketPath) .readConfig).goto i
        args (.sshAwait socketPath authToken (some child)) := by
    simp only [Host.goto, Function.update_comm hne]
  have hlaunched : Agreed initial (h.goto child (.ofChild socketPath) .readConfig) :=
    agreed_blank ha child rfl rfl rfl
  have hold := ha.each i _ at_i
  rw [hswap]
  refine agreed_goto hlaunched ⟨hold.held, by simp [Pc.writing], by simp, hold.wrote⟩ ?_ ?_
  · intro j p token hj _
    obtain rfl := Option.some.inj hj
    exact ⟨hne, _, by rw [goto_processes, if_pos rfl], by simp [CliArgs.holds]⟩
  · intro k proc p token _ hproc hc hw hs token' hmem
    obtain ⟨-, proc', hproc', hagree⟩ := hlaunched.child k proc i p token hproc hc hw
    rw [goto_processes, if_neg hne.symm] at hproc'
    obtain rfl := Option.some.inj (at_i.symm.trans hproc')
    exact hagree hs token' hmem

theorem agreed_effect (hi : Handed initial h) (ha : Agreed initial h)
    (at_i : h.processes i = some ⟨args, pc⟩) (he : Effect h i args pc h') : Agreed initial h' := by
  cases he with
  | moves follows =>
    exact agreed_moved hi ha at_i follows.gains follows.writing follows.wrote follows.child
  | @removes pc pc' g p removed follows =>
    obtain ⟨rfl, -⟩ := remove_eq_some removed
    have hmoved := agreed_moved hi ha at_i follows.gains follows.writing follows.wrote follows.child
    exact agreed_removed hmoved rfl rfl rfl
  | @takes socketPath tokenFile token g removed =>
    obtain ⟨rfl, -⟩ := remove_eq_some removed
    have hmoved : Agreed initial (h.goto i args (.caLoadKey socketPath tokenFile token)) :=
      agreed_moved hi ha at_i (fun p t hmem => Or.inl hmem) rfl (by simp [Pc.wrote])
        (by simp [Pc.child])
    exact agreed_removed hmoved rfl rfl rfl
  | @binds socketPath tokenFile token g created =>
    obtain rfl := create_eq_some created
    have hmoved : Agreed initial (h.goto i args (.caServing socketPath tokenFile token)) :=
      agreed_moved hi ha at_i (fun p t hmem => Or.inl hmem) rfl (by simp [Pc.wrote])
        (by simp [Pc.child])
    refine agreed_extended [⟨socketPath, i, none⟩] hmoved rfl rfl ?_
    intro q inode bytes hq
    dsimp only [Host.goto] at hq
    rw [Function.update_apply] at hq
    split at hq
    · simp at hq
    · exact Or.inl hq
  | @truncates socketPath token g w opened =>
    refine agreed_truncated hi ha at_i opened rfl ?_ (fun q t hmem => ?_) rfl
    · intro socketPath' token' w' hpc
      obtain ⟨rfl, rfl, -⟩ := Pc.sshFillToken.inj hpc
      exact ⟨rfl, rfl⟩
    · rcases List.mem_cons.mp hmem with heq | hmem
      · obtain ⟨rfl, rfl⟩ := Prod.mk.inj heq
        exact Or.inr ⟨rfl, rfl⟩
      · exact Or.inl hmem
  | provides opened =>
    exact agreed_truncated hi ha at_i opened rfl (by simp) (by simp [CliArgs.holds]) rfl
  | fills writing further within holds filling =>
    exact agreed_filled ha at_i writing further within holds filling
  | filled complete => exact agreed_restricting ha at_i complete
  | spawns free => exact agreed_spawned ha at_i free
  | kills => exact agreed_blank (agreed_kill ha _) i rfl rfl rfl
  | killsAndRemoves removed =>
    obtain ⟨rfl, -⟩ := remove_eq_some removed
    exact agreed_removed (agreed_blank (agreed_kill ha _) i rfl rfl rfl) rfl rfl rfl

theorem step_agreed {a : Step} (hi : Handed initial h ∧ Agreed initial h)
    (hs : h.step a = some h') : Handed initial h' ∧ Agreed initial h' := by
  obtain ⟨hi, ha⟩ := hi
  cases a with
  | launch i args =>
    simp only [Host.step] at hs
    split at hs
    · next hfree =>
      obtain rfl := Option.some.inj hs
      exact ⟨handed_started hi hfree rfl, agreed_blank ha i rfl rfl rfl⟩
    · simp at hs
  | provision i tokenFile text =>
    simp only [Host.step] at hs
    split at hs
    · next hfree =>
      obtain rfl := Option.some.inj hs
      exact ⟨handed_started hi hfree rfl, agreed_blank ha i rfl rfl rfl⟩
    · simp at hs
  | advance i choice =>
    obtain ⟨⟨args, pc⟩, at_i, hs⟩ := Option.bind_eq_some_iff.mp hs
    have he := effect_advance hs
    exact ⟨handed_effect hi at_i he, agreed_effect hi ha at_i he⟩

theorem start_handed : Handed initial (Host.start initial) where
  links _ _ hp := hp
  counted p := by simp [Host.start, creations]
  once := List.nodup_nil
  past := by simp [Host.start]
  consumed := by simp [Host.start]

theorem start_agreed : Agreed initial (Host.start initial) where
  prefixed p _ inode bytes hp := ⟨bytes, Or.inr ⟨inode, hp⟩, List.prefix_refl _⟩
  each := by simp [Host.start]
  child := by simp [Host.start]

end

structure HandedOver (initial : Files Content) (h : Host) (p : Path) : Prop where
  once : (h.taken.map Prod.fst).Nodup
  recorded : ∀ i proc, h.processes i = some proc → proc.pc.consumed = some p → (i, p) ∈ h.taken
  counted : (h.taken.filter fun e => e.2 = p).length ≤ creations initial h.made p
  comparable : Sole initial h.made p → ∀ i j proc proc' authToken authToken',
    h.processes i = some proc → h.processes j = some proc' →
      (p, authToken) ∈ proc.args.holds proc.pc → (p, authToken') ∈ proc'.args.holds proc'.pc →
        utf8 authToken <+: utf8 authToken' ∨ utf8 authToken' <+: utf8 authToken
  spawned : Sole initial h.made p → ∀ i j proc proc' authToken authToken',
    h.processes i = some proc → proc.pc.wrote = some (p, authToken) → proc.pc.child = some j →
      h.processes j = some proc' → (p, authToken') ∈ proc'.args.holds proc'.pc →
        authToken' = authToken

theorem token_handover (initial : Files Content) (labels : List Step) (h : Host)
    (hrun : Run.run Host.step (Host.start initial) labels = some h) (p : Path) :
    HandedOver initial h p := by
  obtain ⟨hi, ha⟩ := Run.invariant (I := fun h => Handed initial h ∧ Agreed initial h)
    (fun _ _ _ => step_agreed) ⟨start_handed, start_agreed⟩ hrun
  refine ⟨hi.once, fun i proc => hi.consumed i proc p, ?_, ?_, ?_⟩
  · exact Nat.le_trans (Nat.le_add_right _ _) (hi.counted p)
  · intro hs i j proc proc' token token' hproc hproc' hheld hheld'
    obtain ⟨text, hsource, hfront⟩ := (ha.each i proc hproc).held p token hheld hs
    obtain ⟨text', hsource', hfront'⟩ := (ha.each j proc' hproc').held p token' hheld' hs
    obtain rfl := source_unique hs hsource hsource'
    exact List.prefix_or_prefix_of_prefix hfront hfront'
  · intro hs i j proc proc' token token' hproc hwrote hchild hproc' hheld
    obtain ⟨-, proc'', hproc'', hagree⟩ := ha.child i proc j p token hproc hchild hwrote
    obtain rfl := Option.some.inj (hproc'.symm.trans hproc'')
    exact hagree hs token' hheld

def bareFiles : Files Content := fun _ => .absent

def spawningArgs : CliArgs := ⟨false, some "/run/ca.sock".toList, false, none⟩

def readingArgs : CliArgs :=
  ⟨false, some "/run/other.sock".toList, true, some "/run/ca.token".toList⟩

-- Process 2 reads the token when ten of its bytes are written.
def spawnCa : List Step :=
  [.launch 0 spawningArgs, .launch 2 readingArgs, .advance 0 (.tempdir []),
    .advance 2 (.tempdir []), .advance 0 (.random (List.replicate 32 7)), .advance 0 .ok,
    .advance 0 (.partly 10), .advance 2 .ok, .advance 0 (.partly 34), .advance 0 .ok,
    .advance 0 .ok, .advance 0 (.spawned 1), .advance 1 (.tempdir []), .advance 1 .ok,
    .advance 1 .ok]

theorem token_handover_spawned : ∃ h,
    Run.run Host.step (Host.start bareFiles) spawnCa = some h ∧
      h.taken = [(1, "/run/ca.token".toList)] ∧ Sole bareFiles h.made "/run/ca.token".toList ∧
        HandedOver bareFiles h "/run/ca.token".toList := by
  refine ⟨_, rfl, rfl, ⟨by simp [bareFiles], by decide⟩, ?_⟩
  exact token_handover bareFiles spawnCa _ rfl _

end SshCertificateAuthority.TokenHandover
