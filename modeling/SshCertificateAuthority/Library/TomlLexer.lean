import SshCertificateAuthority.Library.Placeholder
import SshCertificateAuthority.Library.Run

namespace TomlLexer
open Placeholder Run

structure Escapes where
  simple : Char → Option Char
  digits : Char → Option Nat

inductive Quote where
  | basic
  | literal
deriving DecidableEq, Repr

def Quote.char : Quote → Char
  | .basic => '"'
  | .literal => '\''

inductive Mode where
  | key
  | value
deriving DecidableEq, Repr

inductive Bracket where
  | array
  | inline
deriving DecidableEq, Repr

inductive Phase where
  | plain
  | comment
  | opened (q : Quote)
  | reopened (q : Quote)
  | body (q : Quote) (content : Text)
  | escape (content : Text)
  | unicode (content : Text) (value left : Nat)
  | multi (q : Quote) (closing : Nat)
  | multiEscape
deriving DecidableEq, Repr

-- The skeleton is the document with every single-line string value replaced by `none`.
structure Lexer where
  phase : Phase
  mode : Mode
  stack : List Bracket
  skeleton : List Sym
  strings : List Text
deriving DecidableEq, Repr

structure Lexed where
  skeleton : List Sym
  strings : List Text
deriving DecidableEq, Repr

def control (c : Char) : Bool := (c.toNat < 32 && c ≠ '\t') || c.toNat = 127

def hexValue (c : Char) : Option Nat :=
  if '0' ≤ c ∧ c ≤ '9' then some (c.toNat - 48)
  else if 'a' ≤ c ∧ c ≤ 'f' then some (c.toNat - 87)
  else if 'A' ≤ c ∧ c ≤ 'F' then some (c.toNat - 55)
  else none

def bracketed (mode : Mode) (stack : List Bracket) (c : Char) : Mode × List Bracket :=
  match c, stack with
  | '=', _ => (.value, stack)
  | '[', _ => if mode = .value then (.value, .array :: stack) else (mode, stack)
  | ']', .array :: outer => (.value, outer)
  | '{', _ => (.key, .inline :: stack)
  | '}', .inline :: outer => (.value, outer)
  | ',', .inline :: _ => (.key, stack)
  | '\n', [] => (.key, [])
  | _, _ => (mode, stack)

namespace Lexer

def init : Lexer := ⟨.plain, .key, [], [], []⟩

def emit (s : Lexer) (c : Char) : Lexer := { s with skeleton := s.skeleton ++ [some c] }

-- A quoted key stays in the skeleton as it is written.
def raw (s : Lexer) (c : Char) : Lexer := if s.mode = .key then s.emit c else s

def at_ (s : Lexer) (phase : Phase) : Lexer := { s with phase }

def close (s : Lexer) (content : Text) : Lexer :=
  if s.mode = .key then s.at_ .plain
  else ⟨.plain, s.mode, s.stack, s.skeleton ++ [none], s.strings ++ [content]⟩

def bracket (s : Lexer) (c : Char) : Lexer :=
  let after := bracketed s.mode s.stack c
  { s with mode := after.1, stack := after.2 }

def plainStep (s : Lexer) (c : Char) : Lexer :=
  if c = '#' then (s.emit c).at_ .comment
  else if c = '"' then (s.raw c).at_ (.opened .basic)
  else if c = '\'' then (s.raw c).at_ (.opened .literal)
  else ((s.bracket c).emit c).at_ .plain

def commentStep (s : Lexer) (c : Char) : Lexer :=
  if c = '\n' then s.plainStep c else s.emit c

def bodyStep (s : Lexer) (q : Quote) (content : Text) (c : Char) : Option Lexer :=
  if c = q.char then some ((s.raw c).close content)
  else if q = .basic ∧ c = '\\' then some ((s.raw c).at_ (.escape content))
  else if control c then none
  else some ((s.raw c).at_ (.body q (content ++ [some c])))

def escapeStep (E : Escapes) (s : Lexer) (content : Text) (c : Char) : Option Lexer :=
  match E.simple c with
  | some d => some ((s.raw c).at_ (.body .basic (content ++ [some d])))
  | none =>
    match E.digits c with
    | some (n + 1) => some ((s.raw c).at_ (.unicode content 0 (n + 1)))
    | _ => none

def unicodeStep (s : Lexer) (content : Text) (value left : Nat) (c : Char) : Option Lexer :=
  match hexValue c with
  | none => none
  | some d =>
    let value := value * 16 + d
    if left = 1 then
      if value.isValidChar then
        some ((s.raw c).at_ (.body .basic (content ++ [some (Char.ofNat value)])))
      else none
    else some ((s.raw c).at_ (.unicode content value (left - 1)))

def multiStep (s : Lexer) (q : Quote) (closing : Nat) (c : Char) : Lexer :=
  if c = q.char then
    if closing = 5 then s.plainStep c else (s.emit c).at_ (.multi q (closing + 1))
  else if 3 ≤ closing then s.plainStep c
  else if q = .basic ∧ c = '\\' then (s.emit c).at_ .multiEscape
  else (s.emit c).at_ (.multi q 0)

def reopenedStep (s : Lexer) (q : Quote) (c : Char) : Lexer :=
  if c = q.char then
    if s.mode = .key then (s.emit c).at_ (.multi q 0)
    else (((s.emit c).emit c).emit c).at_ (.multi q 0)
  else (s.close []).plainStep c

def charStep (E : Escapes) (s : Lexer) (c : Char) : Option Lexer :=
  match s.phase with
  | .plain => some (s.plainStep c)
  | .comment => some (s.commentStep c)
  | .opened q => if c = q.char then some ((s.raw c).at_ (.reopened q)) else s.bodyStep q [] c
  | .reopened q => some (s.reopenedStep q c)
  | .body q content => s.bodyStep q content c
  | .escape content => s.escapeStep E content c
  | .unicode content value left => s.unicodeStep content value left c
  | .multi q closing => some (s.multiStep q closing c)
  | .multiEscape => some ((s.emit c).at_ (.multi .basic 0))

-- A hole is read as one more character of the string value it stands in.
def hole (s : Lexer) : Option (Quote × Text) :=
  if s.mode = .key then none
  else
    match s.phase with
    | .opened q => some (q, [])
    | .body q content => some (q, content)
    | _ => none

def step (E : Escapes) (s : Lexer) : Sym → Option Lexer
  | some c => s.charStep E c
  | none => s.hole.map fun h => s.at_ (.body h.1 (h.2 ++ [none]))

def finish (s : Lexer) : Option Lexed :=
  match s.phase with
  | .plain | .comment => some ⟨s.skeleton, s.strings⟩
  | .reopened _ => some ⟨(s.close []).skeleton, (s.close []).strings⟩
  | .multi _ closing => if 3 ≤ closing then some ⟨s.skeleton, s.strings⟩ else none
  | _ => none

end Lexer

def lex (E : Escapes) (t : Text) : Option Lexed := (run (Lexer.step E) .init t).bind Lexer.finish

def Lexer.wellPlaced (E : Escapes) : Lexer → Text → Bool
  | _, [] => true
  | s, a :: t =>
    (a.isSome || s.hole.isSome) &&
      match s.step E a with
      | none => true
      | some u => u.wellPlaced E t

def WellPlaced (E : Escapes) (t : Text) : Prop := Lexer.init.wellPlaced E t = true

instance (E : Escapes) (t : Text) : Decidable (WellPlaced E t) :=
  inferInstanceAs (Decidable (_ = true))

def Phase.fill (v : List Char) : Phase → Phase
  | .body q content => .body q (Placeholder.fill v content)
  | .escape content => .escape (Placeholder.fill v content)
  | .unicode content value left => .unicode (Placeholder.fill v content) value left
  | phase => phase

def Lexer.fill (v : List Char) (s : Lexer) : Lexer where
  phase := s.phase.fill v
  mode := s.mode
  stack := s.stack
  skeleton := s.skeleton
  strings := s.strings.map (Placeholder.fill v)

def Lexed.fill (v : List Char) (l : Lexed) : Lexed :=
  ⟨l.skeleton, l.strings.map (Placeholder.fill v)⟩

namespace Lexer

variable (v : List Char) (s : Lexer)

theorem fill_init : init.fill v = init := rfl

@[simp] theorem fill_emit (c : Char) : (s.emit c).fill v = (s.fill v).emit c := rfl

@[simp] theorem fill_at (phase : Phase) :
    (s.at_ phase).fill v = (s.fill v).at_ (phase.fill v) := rfl

@[simp] theorem fill_bracket (c : Char) : (s.bracket c).fill v = (s.fill v).bracket c := rfl

@[simp] theorem fill_raw (c : Char) : (s.raw c).fill v = (s.fill v).raw c := by
  rw [raw]
  split
  · next h => exact (if_pos h).symm
  · next h => exact (if_neg h).symm

@[simp] theorem fill_close (content : Text) :
    (s.close content).fill v = (s.fill v).close (Placeholder.fill v content) := by
  rw [close]
  split
  · next h => exact (if_pos h).symm
  · next h =>
    refine Eq.trans ?_ (if_neg h).symm
    simp [fill, Phase.fill]

@[simp] theorem fill_plainStep (c : Char) : (s.plainStep c).fill v = (s.fill v).plainStep c := by
  unfold plainStep
  split
  · rfl
  · split
    · simp [Phase.fill]
    · split
      · simp [Phase.fill]
      · simp [Phase.fill]

@[simp] theorem fill_commentStep (c : Char) :
    (s.commentStep c).fill v = (s.fill v).commentStep c := by
  unfold commentStep
  split
  · exact fill_plainStep v s c
  · rfl

theorem fill_bodyStep (q : Quote) (content : Text) (c : Char) :
    (s.fill v).bodyStep q (Placeholder.fill v content) c =
      (s.bodyStep q content c).map (Lexer.fill v) := by
  unfold bodyStep
  split
  · simp
  · split
    · simp [Phase.fill]
    · split
      · rfl
      · simp [Phase.fill]

theorem fill_escapeStep (E : Escapes) (content : Text) (c : Char) :
    (s.fill v).escapeStep E (Placeholder.fill v content) c =
      (s.escapeStep E content c).map (Lexer.fill v) := by
  unfold escapeStep
  split
  · simp [Phase.fill]
  · split
    · simp [Phase.fill]
    · rfl

theorem fill_unicodeStep (content : Text) (value left : Nat) (c : Char) :
    (s.fill v).unicodeStep (Placeholder.fill v content) value left c =
      (s.unicodeStep content value left c).map (Lexer.fill v) := by
  unfold unicodeStep
  split
  · rfl
  · dsimp only
    split
    · split
      · simp [Phase.fill]
      · rfl
    · simp [Phase.fill]

@[simp] theorem fill_multiStep (q : Quote) (closing : Nat) (c : Char) :
    (s.multiStep q closing c).fill v = (s.fill v).multiStep q closing c := by
  unfold multiStep
  split
  · split
    · exact fill_plainStep v s c
    · rfl
  · split
    · exact fill_plainStep v s c
    · split <;> rfl

@[simp] theorem fill_reopenedStep (q : Quote) (c : Char) :
    (s.reopenedStep q c).fill v = (s.fill v).reopenedStep q c := by
  unfold reopenedStep
  split
  · split
    · next h => exact (if_pos h).symm
    · next h => exact (if_neg h).symm
  · rw [fill_plainStep, fill_close, fill_nil]

theorem charStep_fill (E : Escapes) (c : Char) :
    (s.fill v).charStep E c = (s.charStep E c).map (Lexer.fill v) := by
  have hphase : (s.fill v).phase = s.phase.fill v := rfl
  unfold charStep
  rw [hphase]
  cases s.phase with
  | plain => simp [Phase.fill]
  | comment => simp [Phase.fill]
  | opened q =>
    simp only [Phase.fill]
    split
    · simp [Phase.fill]
    · exact fill_bodyStep v s q [] c
  | reopened q => simp [Phase.fill]
  | body q content => exact fill_bodyStep v s q content c
  | escape content => exact fill_escapeStep v s E content c
  | unicode content value left => exact fill_unicodeStep v s content value left c
  | multi q closing => simp [Phase.fill]
  | multiEscape => simp [Phase.fill]

end Lexer

def inert (c : Char) : Bool := c ≠ '"' && c ≠ '\'' && c ≠ '\\' && !control c

theorem inert_ne_quote {c : Char} (h : inert c = true) (q : Quote) : c ≠ q.char := by
  simp only [inert, Bool.and_eq_true, decide_eq_true_eq] at h
  cases q with
  | basic => exact h.1.1.1
  | literal => exact h.1.1.2

namespace Lexer

variable {E : Escapes} {s : Lexer} {q : Quote} {content : Text} {v : List Char}

theorem bodyStep_inert {c : Char} (hmode : s.mode = .value) (hc : inert c = true) :
    s.bodyStep q content c = some (s.at_ (.body q (content ++ [some c]))) := by
  have hquote := inert_ne_quote hc q
  simp only [inert, Bool.and_eq_true, decide_eq_true_eq, Bool.not_eq_true'] at hc
  have hraw : s.raw c = s := if_neg (by rw [hmode]; decide)
  rw [bodyStep, if_neg hquote, if_neg fun h => hc.1.2 h.2, if_neg (by rw [hc.2]; decide), hraw]

theorem run_body (hmode : s.mode = .value) (hv : ∀ c ∈ v, inert c = true) :
    run (step E) (s.at_ (.body q content)) (literal v) =
      some (s.at_ (.body q (content ++ literal v))) := by
  induction v generalizing content with
  | nil => rw [literal_nil, List.append_nil, run_nil]
  | cons c cs ih =>
    have hstep : step E (s.at_ (.body q content)) (some c) =
        some (s.at_ (.body q (content ++ [some c]))) :=
      bodyStep_inert (s := s.at_ (.body q content)) hmode (hv c List.mem_cons_self)
    rw [literal_cons, run, hstep, Option.bind_some,
      ih fun d hd => hv d (List.mem_cons_of_mem c hd), List.append_assoc, List.singleton_append]

theorem hole_eq_some (h : s.hole = some (q, content)) :
    s.mode = .value ∧ (s.phase = .opened q ∧ content = [] ∨ s.phase = .body q content) := by
  rw [hole] at h
  split at h
  · simp at h
  · next hkey =>
    have hmode : s.mode = .value := by
      cases hm : s.mode with
      | key => exact absurd hm hkey
      | value => rfl
    refine ⟨hmode, ?_⟩
    split at h
    · next q' hp =>
      obtain ⟨rfl, rfl⟩ := Prod.mk.inj (Option.some.inj h)
      exact Or.inl ⟨hp, rfl⟩
    · next q' content' hp =>
      obtain ⟨rfl, rfl⟩ := Prod.mk.inj (Option.some.inj h)
      exact Or.inr hp
    · simp at h

theorem run_hole (h : s.hole = some (q, content)) (hne : v ≠ []) (hv : ∀ c ∈ v, inert c = true) :
    run (step E) (s.fill v) (literal v) =
      some ((s.fill v).at_ (.body q (Placeholder.fill v content ++ literal v))) := by
  obtain ⟨hmode, ⟨hphase, rfl⟩ | hphase⟩ := hole_eq_some h
  · obtain ⟨c, cs, rfl⟩ := List.exists_cons_of_ne_nil hne
    have hc := hv c List.mem_cons_self
    have hopen : (s.fill (c :: cs)).phase = .opened q := by
      rw [fill, hphase]
      rfl
    have hstep : step E (s.fill (c :: cs)) (some c) =
        some ((s.fill (c :: cs)).at_ (.body q [some c])) := by
      rw [step, charStep, hopen]
      dsimp only
      rw [if_neg (inert_ne_quote hc q)]
      exact bodyStep_inert hmode hc
    rw [literal_cons, run, hstep, Option.bind_some,
      run_body (s := s.fill (c :: cs)) hmode fun d hd => hv d (List.mem_cons_of_mem c hd)]
    rfl
  · have hbody : s.fill v = (s.fill v).at_ (.body q (Placeholder.fill v content)) := by
      rw [fill, hphase]
      rfl
    rw [hbody]
    exact run_body hmode hv

theorem run_fill {t : Text} (hne : v ≠ []) (hv : ∀ c ∈ v, inert c = true)
    (ht : s.wellPlaced E t = true) :
    run (step E) (s.fill v) (Placeholder.fill v t) = (run (step E) s t).map (Lexer.fill v) := by
  induction t generalizing s with
  | nil => rfl
  | cons a t ih =>
    rw [wellPlaced, Bool.and_eq_true] at ht
    have hhead : run (step E) (s.fill v) (Placeholder.fill v [a]) =
        (step E s a).map (Lexer.fill v) := by
      cases a with
      | some c =>
        rw [fill_some, run, step, step, charStep_fill]
        cases s.charStep E c <;> rfl
      | none =>
        obtain ⟨⟨q, content⟩, hhole⟩ := Option.isSome_iff_exists.mp ht.1
        rw [fill_none, run_hole hhole hne hv, step, hhole]
        simp [Phase.fill]
    rw [show a :: t = [a] ++ t from rfl, fill_append, run_append, hhead]
    cases hstep : step E s a with
    | none => simp [run, hstep]
    | some u =>
      rw [hstep] at ht
      simp only [Option.map_some, Option.bind_some, ih ht.2, List.singleton_append, run, hstep]

theorem fill_finish (v : List Char) (s : Lexer) :
    (s.fill v).finish = s.finish.map (Lexed.fill v) := by
  have hphase : (s.fill v).phase = s.phase.fill v := rfl
  unfold finish
  rw [hphase]
  cases s.phase with
  | plain => rfl
  | comment => rfl
  | opened q => rfl
  | reopened q =>
    have hclose := fill_close v s []
    rw [fill_nil] at hclose
    simp only [Phase.fill, ← hclose]
    rfl
  | body q content => rfl
  | escape content => rfl
  | unicode content value left => rfl
  | multi q closing =>
    simp only [Phase.fill]
    split <;> rfl
  | multiEscape => rfl

end Lexer

theorem lex_fill {E : Escapes} {v : List Char} {t : Text} (hne : v ≠ [])
    (hv : ∀ c ∈ v, inert c = true) (ht : WellPlaced E t) :
    lex E (fill v t) = (lex E t).map (Lexed.fill v) := by
  have hrun := Lexer.run_fill hne hv ht
  rw [Lexer.fill_init] at hrun
  rw [lex, lex, hrun]
  cases run (Lexer.step E) .init t with
  | none => rfl
  | some s => exact Lexer.fill_finish v s

def lineBreak (c : Char) : Bool := c = '\n' || c = '\r'

structure Escapes.Inline (E : Escapes) : Prop where
  simple : ∀ c, lineBreak c = true → E.simple c = none
  digits : ∀ c, lineBreak c = true → E.digits c = none

def Lexed.emit (l : Lexed) (c : Char) : Lexed := { l with skeleton := l.skeleton ++ [some c] }

namespace Lexer

variable {E : Escapes} {s : Lexer} {c : Char}

theorem lineBreak_ne_quote (hc : lineBreak c = true) (q : Quote) : c ≠ q.char := by
  rcases Bool.or_eq_true_iff.mp hc with h | h
  all_goals
    obtain rfl := of_decide_eq_true h
    cases q <;> decide

theorem plainStep_finish (hc : lineBreak c = true) :
    (s.plainStep c).finish = some ⟨s.skeleton ++ [some c], s.strings⟩ := by
  have hbasic : c ≠ '"' := lineBreak_ne_quote hc .basic
  have hliteral : c ≠ '\'' := lineBreak_ne_quote hc .literal
  have hhash : c ≠ '#' := by
    rintro rfl
    exact absurd hc (by decide)
  rw [plainStep, if_neg hhash, if_neg hbasic, if_neg hliteral]
  rfl

theorem charStep_finish (hE : E.Inline) (hc : lineBreak c = true) :
    (s.charStep E c).bind finish = s.finish.map fun l => l.emit c := by
  have hquote := lineBreak_ne_quote hc
  have hback : c ≠ '\\' := by
    rintro rfl
    exact absurd hc (by decide)
  have hcontrol : TomlLexer.control c = true := by
    rcases Bool.or_eq_true_iff.mp hc with h | h
    all_goals
      obtain rfl := of_decide_eq_true h
      decide
  have hhex : hexValue c = none := by
    rcases Bool.or_eq_true_iff.mp hc with h | h
    all_goals
      obtain rfl := of_decide_eq_true h
      decide
  have hbody : ∀ q content, s.bodyStep q content c = none := fun q content => by
    rw [bodyStep, if_neg (hquote q), if_neg fun h => hback h.2, if_pos hcontrol]
  have hcomment : s.phase = .comment → (s.commentStep c).finish =
      some ⟨s.skeleton ++ [some c], s.strings⟩ := fun hp => by
    rw [commentStep]
    split
    · exact plainStep_finish hc
    · have hemit : (s.emit c).phase = .comment := hp
      rw [finish, hemit]
      rfl
  rw [charStep]
  rw [finish]
  cases hp : s.phase with
  | plain => exact plainStep_finish hc
  | comment => exact hcomment hp
  | opened q =>
    dsimp only
    rw [if_neg (hquote q), hbody]
    rfl
  | reopened q =>
    dsimp only
    rw [reopenedStep, if_neg (hquote q)]
    exact plainStep_finish hc
  | body q content =>
    dsimp only
    rw [hbody]
    rfl
  | escape content =>
    dsimp only
    rw [escapeStep, hE.simple c hc]
    dsimp only
    rw [hE.digits c hc]
    rfl
  | unicode content value left =>
    dsimp only
    rw [unicodeStep, hhex]
    rfl
  | multi q closing =>
    dsimp only
    rw [multiStep, if_neg (hquote q)]
    by_cases hclosing : 3 ≤ closing
    · rw [if_pos hclosing, if_pos hclosing]
      exact plainStep_finish hc
    · rw [if_neg hclosing, if_neg hclosing, if_neg fun h => hback h.2]
      rfl
  | multiEscape => rfl

end Lexer

theorem lex_lineBreak {E : Escapes} (hE : E.Inline) (t : Text) {c : Char}
    (hc : lineBreak c = true) :
    lex E (t ++ [some c]) = (lex E t).map fun l => l.emit c := by
  rw [lex, lex, run_append]
  cases run (Lexer.step E) .init t with
  | none => rfl
  | some s =>
    have hstep := Lexer.charStep_finish (s := s) hE hc
    rw [Option.bind_some, Option.bind_some, ← hstep, run, Lexer.step]
    cases s.charStep E c <;> rfl

end TomlLexer
