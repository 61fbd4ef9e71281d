import SshCertificateAuthority.SshServer.TemplateRendering

namespace SshCertificateAuthority
open ByteStream UnixPath FileTree

inductive Piece where
  | text (s : List Char)
  | printed (s : List Char)
deriving DecidableEq, Repr

def Piece.output (mode : EscapeMode) : Piece → List Char
  | .text s => s
  | .printed s => mode.escape s

def outputText (mode : EscapeMode) (pieces : List Piece) : List Char :=
  pieces.flatMap (Piece.output mode)

-- What a template prints for a value; the name of the template only decides how it is escaped.
abbrev Outputs := String → String → Except String (List Piece)

structure Prints (X : Crates) (mode : String → EscapeMode) (outputs : Outputs) : Prop where
  render_eq : ∀ name template value, X.render name template value =
    (outputs template value).map fun pieces => String.ofList (outputText (mode name) pieces)

def markupChars : List Char := ['<', '>', '&', '"', '\'', '/']

def Unmarked (pieces : List Piece) : Prop :=
  ∀ s, .printed s ∈ pieces → ∀ c ∈ s, c ∉ markupChars

theorem htmlEscape_of_unmarked {c : Char} (h : c ∉ markupChars) : htmlEscape c = [c] := by
  simp only [markupChars, List.mem_cons, List.not_mem_nil, or_false, not_or] at h
  obtain ⟨h1, h2, h3, h4, h5, h6⟩ := h
  rw [htmlEscape, if_neg h1, if_neg h2, if_neg h3, if_neg h4, if_neg h5, if_neg h6]

theorem htmlEscape_length (c : Char) :
    (c ∉ markupChars → (htmlEscape c).length = 1) ∧
      (c ∈ markupChars → 1 < (htmlEscape c).length) := by
  constructor
  · intro h
    rw [htmlEscape_of_unmarked h]
    rfl
  · intro h
    have hall : markupChars.all fun c => 1 < (htmlEscape c).length := by decide
    simpa using List.all_eq_true.mp hall c h

theorem escape_length_le (s : List Char) : s.length ≤ (EscapeMode.html.escape s).length := by
  induction s with
  | nil => exact Nat.le_refl 0
  | cons c s ih =>
    have hc : 1 ≤ (htmlEscape c).length := by
      by_cases h : c ∈ markupChars
      · exact ((htmlEscape_length c).2 h).le
      · exact ((htmlEscape_length c).1 h).ge
    rw [EscapeMode.escape] at ih ⊢
    rw [List.flatMap_cons, List.length_append, List.length_cons]
    omega

theorem escape_length_iff (s : List Char) :
    (EscapeMode.html.escape s).length = s.length ↔ ∀ c ∈ s, c ∉ markupChars := by
  induction s with
  | nil => simp [EscapeMode.escape]
  | cons c s ih =>
    have hle := escape_length_le s
    have hlen := htmlEscape_length c
    rw [EscapeMode.escape] at ih hle ⊢
    rw [List.forall_mem_cons, List.flatMap_cons, List.length_append, List.length_cons, ← ih]
    by_cases h : c ∈ markupChars
    · have := hlen.2 h
      refine iff_of_false (by omega) fun hnot => hnot.1 h
    · have := hlen.1 h
      exact ⟨fun heq => ⟨h, by omega⟩, fun heq => by omega⟩

theorem escape_eq_self {s : List Char} (h : ∀ c ∈ s, c ∉ markupChars) :
    EscapeMode.html.escape s = s := by
  have hchar : ∀ c ∈ s, htmlEscape c = [c] := fun c hc => htmlEscape_of_unmarked (h c hc)
  rw [EscapeMode.escape, List.flatMap_congr hchar, List.flatMap_singleton']

theorem output_length_le (p : Piece) : (p.output .none).length ≤ (p.output .html).length := by
  cases p with
  | text s => exact Nat.le_refl _
  | printed s => exact escape_length_le s

theorem outputText_length_le (pieces : List Piece) :
    (outputText .none pieces).length ≤ (outputText .html pieces).length := by
  induction pieces with
  | nil => exact Nat.le_refl 0
  | cons p ps ih =>
    have hp := output_length_le p
    rw [outputText, outputText] at ih ⊢
    rw [List.flatMap_cons, List.flatMap_cons, List.length_append, List.length_append]
    omega

-- Escaping only lengthens, so texts of one length are escaped nowhere.
theorem outputText_eq_iff (pieces : List Piece) :
    outputText .html pieces = outputText .none pieces ↔ Unmarked pieces := by
  constructor
  · intro h
    have hlen := congrArg List.length h
    clear h
    induction pieces with
    | nil => simp [Unmarked]
    | cons p ps ih =>
      have hp := output_length_le p
      have hps := outputText_length_le ps
      rw [outputText, outputText, List.flatMap_cons, List.flatMap_cons, List.length_append,
        List.length_append] at hlen
      rw [outputText, outputText] at hps ih
      have htail := ih (by omega)
      intro s hs
      rcases List.mem_cons.mp hs with rfl | hs
      · have hhead : (EscapeMode.html.escape s).length = s.length := by
          simp only [Piece.output, EscapeMode.escape] at hlen hp ⊢
          omega
        exact (escape_length_iff s).mp hhead
      · exact htail s hs
  · intro h
    apply List.flatMap_congr
    intro p hp
    cases p with
    | text s => rfl
    | printed s => exact escape_eq_self (h s hp)

structure SameText (X : Crates) (fs : FileSystem) (config : Ca) (user template fixed : String) :
    Prop where
  read : readUserDefaults X fs user config = Outcome.ofExcept
    ((X.render user template user).bind X.userDefaultsFromStr)
  text : X.render user template user = X.render fixed template user

def listTemplate : String :=
  "validity_in_days = 30\nprincipals = \x7b\x7b [user_name] \x7d\x7d\nextensions = []\n"

def listOutputs : Outputs := fun template value =>
  if template = listTemplate then
    .ok [.text "validity_in_days = 30\nprincipals = ".toList,
      .printed ("[\"".toList ++ value.toList ++ "\"]".toList), .text "\nextensions = []".toList]
  else .error "syntax error"

def listCrates : Crates :=
  { Crates.refusing with
    userListFromStr := fun _ => .ok ⟨[]⟩
    render := fun name template value => (listOutputs template value).map fun pieces =>
      String.ofList (outputText (autoEscape name) pieces) }

theorem listCrates_prints : Prints listCrates autoEscape listOutputs := ⟨fun _ _ _ => rfl⟩

theorem listTemplate_for (user : String) :
    TemplateFor listCrates (templateFs listTemplate) localConfig user listTemplate :=
  ⟨⟨[]⟩, _, readTomlFile_of_text (templateFs_users listTemplate), rfl,
    templateFs_template listTemplate⟩

end SshCertificateAuthority
