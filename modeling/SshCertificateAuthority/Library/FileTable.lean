import SshCertificateAuthority.Library.UnixPath
import Mathlib.Logic.Function.Basic

namespace FileTable
open UnixPath

inductive Entry (K : Type) where
  | absent
  | file (kind : K)
  | directory
  | link (target : Path)
deriving DecidableEq, Repr

abbrev Files (K : Type) := Path → Entry K

variable {K : Type}

def maxLinks : Nat := 40

def follow (files : Files K) : Nat → Path → Option Path
  | 0, p =>
    match files p with
    | .link _ => none
    | _ => some p
  | n + 1, p =>
    match files p with
    | .link target => follow files n target
    | _ => some p

def present : Entry K → Bool
  | .absent => false
  | _ => true

def pathExists (files : Files K) (p : Path) : Bool :=
  (follow files maxLinks p).any fun q => present (files q)

def readFile (files : Files K) (p : Path) : Option K :=
  (follow files maxLinks p).bind fun q =>
    match files q with
    | .file kind => some kind
    | _ => none

def removeFile (files : Files K) (p : Path) : Option (Files K) :=
  match files p with
  | .absent | .directory => none
  | _ => some (Function.update files p .absent)

-- `open(2)` with `O_CREAT`: a link is followed, and only what `writable` accepts is overwritten.
def writeFile (writable : K → Bool) (files : Files K) (p : Path) (kind : K) : Option (Files K) :=
  (follow files maxLinks p).bind fun q =>
    match files q with
    | .absent => some (Function.update files q (.file kind))
    | .file old => if writable old then some (Function.update files q (.file kind)) else none
    | _ => none

-- `bind(2)`: the name must be free, a link to nothing included.
def createFile (files : Files K) (p : Path) (kind : K) : Option (Files K) :=
  match files p with
  | .absent => some (Function.update files p (.file kind))
  | _ => none

theorem removeFile_eq_some {files files' : Files K} {p : Path}
    (h : removeFile files p = some files') : files' = Function.update files p .absent := by
  rw [removeFile] at h
  split at h
  · simp at h
  · simp at h
  · exact (Option.some.inj h).symm

theorem createFile_eq_some {files files' : Files K} {p : Path} {kind : K}
    (h : createFile files p kind = some files') :
    files p = .absent ∧ files' = Function.update files p (.file kind) := by
  rw [createFile] at h
  split at h
  · next ha => exact ⟨ha, (Option.some.inj h).symm⟩
  · simp at h

theorem writeFile_eq_some {writable : K → Bool} {files files' : Files K} {p : Path} {kind : K}
    (h : writeFile writable files p kind = some files') :
    ∃ q, follow files maxLinks p = some q ∧ (∀ target, files q ≠ .link target) ∧
      files' = Function.update files q (.file kind) := by
  obtain ⟨q, hfollow, hq⟩ := Option.bind_eq_some_iff.mp h
  split at hq
  · next ha => exact ⟨q, hfollow, by simp [ha], (Option.some.inj hq).symm⟩
  · next old ho =>
    split at hq
    · exact ⟨q, hfollow, by simp [ho], (Option.some.inj hq).symm⟩
    · simp at hq
  · simp at hq

theorem follow_unlinked {files : Files K} {p : Path} (h : ∀ target, files p ≠ .link target)
    (n : Nat) : follow files n p = some p := by
  cases n <;> rw [follow] <;> split
  · next target ht => exact absurd ht (h target)
  · rfl
  · next target ht => exact absurd ht (h target)
  · rfl

theorem follow_written {files : Files K} {q : Path} (kind : K)
    (hq : ∀ target, files q ≠ .link target) (n : Nat) (p : Path) :
    follow (Function.update files q (.file kind)) n p = follow files n p := by
  have hself : ∀ n, follow (Function.update files q (.file kind)) n q = follow files n q := by
    intro n
    rw [follow_unlinked hq, follow_unlinked (by simp)]
  induction n generalizing p with
  | zero =>
    by_cases hp : p = q
    · exact hp ▸ hself 0
    · rw [follow, follow, Function.update_of_ne hp]
  | succ n ih =>
    by_cases hp : p = q
    · exact hp ▸ hself (n + 1)
    · rw [follow, follow, Function.update_of_ne hp]
      split
      · exact ih _
      · rfl

theorem readFile_written {writable : K → Bool} {files files' : Files K} {p : Path} {kind : K}
    (h : writeFile writable files p kind = some files') : readFile files' p = some kind := by
  obtain ⟨q, hfollow, hq, rfl⟩ := writeFile_eq_some h
  rw [readFile, follow_written kind hq, hfollow, Option.bind_some, Function.update_self]

theorem removeFile_of_read {files : Files K} {p : Path} {kind : K}
    (h : readFile files p = some kind) :
    removeFile files p = some (Function.update files p .absent) := by
  rw [removeFile]
  split
  · next ha => simp [readFile, maxLinks, follow, ha] at h
  · next hd => simp [readFile, maxLinks, follow, hd] at h
  · rfl

theorem readFile_removed (files : Files K) (p : Path) :
    readFile (Function.update files p .absent) p = none := by
  simp [readFile, maxLinks, follow]

theorem follow_removed {files : Files K} {p : Path} (n : Nat) (q : Path) :
    ((follow (Function.update files p .absent) n q).any
        fun r => present (Function.update files p .absent r)) = true →
      ((follow files n q).any fun r => present (files r)) = true := by
  have hgone : ∀ n, ((follow (Function.update files p .absent) n p).any
      fun r => present (Function.update files p .absent r)) = false := by
    intro n
    rw [follow_unlinked (by simp), Option.any_some, Function.update_self]
    rfl
  induction n generalizing q with
  | zero =>
    by_cases hq : q = p
    · simp [hq, hgone]
    · rw [follow, follow, Function.update_of_ne hq]
      split
      · exact fun h => h
      · rw [Option.any_some, Option.any_some, Function.update_of_ne hq]
        exact fun h => h
  | succ n ih =>
    by_cases hq : q = p
    · simp [hq, hgone]
    · rw [follow, follow, Function.update_of_ne hq]
      split
      · exact ih _
      · rw [Option.any_some, Option.any_some, Function.update_of_ne hq]
        exact fun h => h

theorem pathExists_removed {files : Files K} {p q : Path}
    (h : pathExists (Function.update files p .absent) q = true) : pathExists files q = true :=
  follow_removed maxLinks q h

section

variable {K L : Type} {R : K → L → Prop}

inductive Entry.Matches (R : K → L → Prop) : Entry K → Entry L → Prop where
  | absent : Matches R .absent .absent
  | file {k : K} {l : L} (same : R k l) : Matches R (.file k) (.file l)
  | directory : Matches R .directory .directory
  | link (target : Path) : Matches R (.link target) (.link target)

def Files.Matches (R : K → L → Prop) (files : Files K) (files' : Files L) : Prop :=
  ∀ p, (files p).Matches R (files' p)

variable {files : Files K} {files' : Files L}

theorem matches_mono {R' : K → L → Prop} (hr : ∀ k l, R k l → R' k l)
    (h : files.Matches R files') : files.Matches R' files' := by
  intro p
  have hp := h p
  generalize files p = e at hp
  generalize files' p = e' at hp
  cases hp with
  | absent => exact .absent
  | file same => exact .file (hr _ _ same)
  | directory => exact .directory
  | link target => exact .link target

theorem matches_follow (h : files.Matches R files') (n : Nat) (p : Path) :
    follow files' n p = follow files n p := by
  induction n generalizing p with
  | zero =>
    rw [follow, follow]
    have hp := h p
    generalize files p = e at hp
    generalize files' p = e' at hp
    cases hp <;> rfl
  | succ n ih =>
    rw [follow, follow]
    have hp := h p
    generalize files p = e at hp
    generalize files' p = e' at hp
    cases hp with
    | link target => exact ih target
    | _ => rfl

theorem matches_pathExists (h : files.Matches R files') (p : Path) :
    pathExists files' p = pathExists files p := by
  rw [pathExists, pathExists, matches_follow h]
  congr 1
  funext q
  have hq := h q
  generalize files q = e at hq
  generalize files' q = e' at hq
  cases hq <;> rfl

theorem matches_update {e : Entry K} {e' : Entry L} (h : files.Matches R files')
    (he : e.Matches R e') (p : Path) :
    Files.Matches R (Function.update files p e) (Function.update files' p e') := by
  intro q
  by_cases hq : q = p
  · rw [hq, Function.update_self, Function.update_self]
    exact he
  · rw [Function.update_of_ne hq, Function.update_of_ne hq]
    exact h q

theorem matches_removeFile (h : files.Matches R files') (p : Path) :
    Option.Rel (Files.Matches R) (removeFile files p) (removeFile files' p) := by
  have hremoved := matches_update h .absent p
  have hp := h p
  rw [removeFile, removeFile]
  generalize files p = e at hp
  generalize files' p = e' at hp
  cases hp with
  | absent => exact .none
  | directory => exact .none
  | file same => exact .some hremoved
  | link target => exact .some hremoved

theorem matches_createFile {k : K} {l : L} (h : files.Matches R files') (hk : R k l) (p : Path) :
    Option.Rel (Files.Matches R) (createFile files p k) (createFile files' p l) := by
  have hcreated := matches_update h (.file hk) p
  have hp := h p
  rw [createFile, createFile]
  generalize files p = e at hp
  generalize files' p = e' at hp
  cases hp with
  | absent => exact .some hcreated
  | _ => exact .none

theorem matches_readFile (h : files.Matches R files') (p : Path) :
    Option.Rel R (readFile files p) (readFile files' p) := by
  rw [readFile, readFile, matches_follow h]
  cases follow files maxLinks p with
  | none => exact .none
  | some q =>
    rw [Option.bind_some, Option.bind_some]
    have hq := h q
    generalize files q = e at hq
    generalize files' q = e' at hq
    cases hq with
    | file same => exact .some same
    | _ => exact .none

theorem matches_writeFile {writable : K → Bool} {writable' : L → Bool} {k : K} {l : L}
    (h : files.Matches R files') (hw : ∀ k l, R k l → writable' l = writable k) (hk : R k l)
    (p : Path) : Option.Rel (Files.Matches R) (writeFile writable files p k)
      (writeFile writable' files' p l) := by
  rw [writeFile, writeFile, matches_follow h]
  cases follow files maxLinks p with
  | none => exact .none
  | some q =>
    rw [Option.bind_some, Option.bind_some]
    have hwritten := matches_update h (.file hk) q
    have hq := h q
    generalize files q = e at hq
    generalize files' q = e' at hq
    cases hq with
    | absent => exact .some hwritten
    | file same =>
      dsimp only
      rw [hw _ _ same]
      split
      · exact .some hwritten
      · exact .none
    | _ => exact .none

end

end FileTable
