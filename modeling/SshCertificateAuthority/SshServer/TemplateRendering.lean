import SshCertificateAuthority.CertificatAuthority.UserDefaultsReader
import SshCertificateAuthority.Library.TomlLexer
import SshCertificateAuthority.SshServer.SshHandler

namespace SshCertificateAuthority
open ByteStream UnixPath FileTree Placeholder TomlLexer

inductive EscapeMode where
  | none
  | html
deriving DecidableEq, Repr

def htmlEscape (c : Char) : List Char :=
  if c = '<' then "&lt;".toList
  else if c = '>' then "&gt;".toList
  else if c = '&' then "&amp;".toList
  else if c = '"' then "&quot;".toList
  else if c = '\'' then "&#x27;".toList
  else if c = '/' then "&#x2f;".toList
  else [c]

def EscapeMode.escape : EscapeMode → List Char → List Char
  | .none, v => v
  | .html, v => v.flatMap htmlEscape

def userNameMark : List Char := "\x7b\x7b user_name \x7d\x7d".toList

-- Text of the template with a hole for every placeholder; `none` if it holds any other syntax.
def templateHoles (template : String) : Option Text := scan userNameMark 0 template.toList

theorem render_templateHoles {template : String} {t : Text}
    (h : templateHoles template = some t) : render userNameMark t = template.toList := by
  obtain ⟨m, mark, hm⟩ : ∃ m mark, userNameMark = m :: mark := ⟨_, _, rfl⟩
  rw [templateHoles, hm] at h
  rw [hm, render_scan h, List.drop_zero]

inductive TomlString where
  | fixed (s : List Char)
  | slot (i : Nat)
deriving DecidableEq, Repr

def TomlString.resolve (strings : List Text) : TomlString → Text
  | .fixed s => literal s
  | .slot i => strings.getD i []

structure DefaultsOf (S : Type) where
  validityInDays : UInt16
  principals : List S
  extensions : List S
deriving DecidableEq, Repr

namespace DefaultsOf

variable {S T : Type}

def map (f : S → T) (d : DefaultsOf S) : DefaultsOf T :=
  ⟨d.validityInDays, d.principals.map f, d.extensions.map f⟩

theorem map_map {R : Type} (g : T → R) (f : S → T) (d : DefaultsOf S) :
    (d.map f).map g = d.map (g ∘ f) := by
  simp [map]

def filled (v : List Char) (d : DefaultsOf Text) : UserDefaults where
  validityInDays := d.validityInDays
  principals := d.principals.map fun t => String.ofList (render v t)
  extensions := d.extensions.map fun t => String.ofList (render v t)

theorem filled_fill (v w : List Char) (d : DefaultsOf Text) :
    (d.map (fill v)).filled w = d.filled v := by
  simp [filled, map]

end DefaultsOf

abbrev Assemble := List Sym → Option (DefaultsOf TomlString)

def readToml (E : Escapes) (assemble : Assemble) (t : Text) : Option (DefaultsOf Text) :=
  (lex E t).bind fun l => (assemble l.skeleton).map fun d => d.map (TomlString.resolve l.strings)

theorem resolve_fill (v : List Char) (strings : List Text) (s : TomlString) :
    s.resolve (strings.map (fill v)) = fill v (s.resolve strings) := by
  cases s with
  | fixed s => simp [TomlString.resolve]
  | slot i =>
    rw [TomlString.resolve, TomlString.resolve, List.getD_eq_getElem?_getD,
      List.getD_eq_getElem?_getD, List.getElem?_map]
    cases strings[i]? <;> rfl

theorem readToml_fill {E : Escapes} {assemble : Assemble} {v : List Char} {t : Text}
    (hne : v ≠ []) (hv : ∀ c ∈ v, inert c = true) (ht : WellPlaced E t) :
    readToml E assemble (fill v t) = (readToml E assemble t).map (DefaultsOf.map (fill v)) := by
  rw [readToml, readToml, lex_fill hne hv ht]
  cases lex E t with
  | none => rfl
  | some l =>
    have hresolve : TomlString.resolve (l.strings.map (fill v)) =
        fill v ∘ TomlString.resolve l.strings := funext (resolve_fill v l.strings)
    simp only [Option.map_some, Option.bind_some, Lexed.fill, Option.map_map, hresolve]
    congr 1
    funext d
    exact (DefaultsOf.map_map _ _ d).symm

structure Renders (X : Crates) (mode : String → EscapeMode) : Prop where
  holes : ∀ name template value t, templateHoles template = some t →
    X.render name template value =
      .ok (String.ofList (render ((mode name).escape value.toList) (dropLineBreak t)))

structure ReadsToml (X : Crates) (E : Escapes) (assemble : Assemble) : Prop where
  lexical : ∀ text : String, (X.userDefaultsFromStr text).toOption =
    (readToml E assemble (literal text.toList)).map (DefaultsOf.filled [])
  line_feed : ∀ text : List Char, text.getLast? ≠ some '\r' →
    (X.userDefaultsFromStr (String.ofList (text ++ ['\n']))).toOption =
      (X.userDefaultsFromStr (String.ofList text)).toOption
  carriage_return : ∀ text : List Char,
    (X.userDefaultsFromStr (String.ofList (text ++ ['\r', '\n']))).toOption =
      (X.userDefaultsFromStr (String.ofList text)).toOption

section

variable {X : Crates} {E : Escapes} {assemble : Assemble} {v : List Char} {t : Text}

theorem userDefaults_filled (hX : ReadsToml X E assemble) (hne : v ≠ [])
    (hv : ∀ c ∈ v, inert c = true) (ht : WellPlaced E t) :
    (X.userDefaultsFromStr (String.ofList (render v t))).toOption =
      (readToml E assemble t).map (DefaultsOf.filled v) := by
  have hfill : literal (render v t) = fill v t := rfl
  rw [hX.lexical, String.toList_ofList, hfill, readToml_fill hne hv ht, Option.map_map]
  congr 1
  funext d
  exact DefaultsOf.filled_fill v [] d

theorem inert_ne_cr {c : Char} (h : inert c = true) : c ≠ '\r' := by
  rintro rfl
  exact absurd h (by decide)

theorem render_getLast (hne : v ≠ []) (hv : ∀ c ∈ v, inert c = true)
    (ht : t.getLast? ≠ some (some '\r')) : (render v t).getLast? ≠ some '\r' := by
  rcases List.eq_nil_or_concat' t with rfl | ⟨init, a, rfl⟩
  · simp
  · intro h
    rw [render_append, render_cons, render_nil, List.append_nil] at h
    cases a with
    | none =>
      rw [fillSym, List.getLast?_append_of_ne_nil _ hne] at h
      exact inert_ne_cr (hv _ (List.mem_of_getLast? h)) rfl
    | some c =>
      rw [fillSym, List.getLast?_concat] at h
      obtain rfl := Option.some.inj h
      exact ht List.getLast?_concat

theorem userDefaults_dropLineBreak (hX : ReadsToml X E assemble) (hne : v ≠ [])
    (hv : ∀ c ∈ v, inert c = true) (ht : t.getLast? ≠ some (some '\r')) :
    (X.userDefaultsFromStr (String.ofList (render v (dropLineBreak t)))).toOption =
      (X.userDefaultsFromStr (String.ofList (render v t))).toOption := by
  rcases dropLineBreak_cases t ht with h | ⟨h, hlast⟩ | h
  · have hsplit : render v t = render v (dropLineBreak t) ++ ['\r', '\n'] :=
      (congrArg (render v) h).trans (render_append v _ _)
    rw [hsplit]
    exact (hX.carriage_return _).symm
  · have hsplit : render v t = render v (dropLineBreak t) ++ ['\n'] :=
      (congrArg (render v) h).trans (render_append v _ _)
    rw [hsplit]
    exact (hX.line_feed _ (render_getLast hne hv hlast)).symm
  · rw [← h]

end

theorem alpha_toNat {c : Char} (h : c.isAlpha = true) :
    (65 ≤ c.toNat ∧ c.toNat ≤ 90) ∨ (97 ≤ c.toNat ∧ c.toNat ≤ 122) := by
  rcases Bool.or_eq_true_iff.mp h with hupper | hlower
  · have hrange : 65 ≤ c.val ∧ c.val ≤ 90 := of_decide_eq_true hupper
    exact Or.inl hrange
  · obtain ⟨hlow, hhigh⟩ := Bool.and_eq_true_iff.mp hlower
    have hlow : 97 ≤ c.val := of_decide_eq_true hlow
    have hhigh : c.val ≤ 122 := of_decide_eq_true hhigh
    exact Or.inr ⟨hlow, hhigh⟩

theorem digit_toNat {c : Char} (h : c.isDigit = true) : 48 ≤ c.toNat ∧ c.toNat ≤ 57 := by
  simp only [Char.isDigit, Bool.and_eq_true, decide_eq_true_eq, UInt32.le_iff_toNat_le,
    ge_iff_le] at h
  exact h

theorem username_toNat {user : String} (h : validateUsername user = true) {c : Char}
    (hc : c ∈ user.toList) :
    45 ≤ c.toNat ∧ c.toNat < 127 ∧ c.toNat ≠ 47 ∧ c.toNat ≠ 60 ∧ c.toNat ≠ 62 ∧ c.toNat ≠ 92 := by
  rw [validateUsername] at h
  obtain ⟨-, hall⟩ := Bool.and_eq_true_iff.mp h
  have hchar := List.all_eq_true.mp hall c hc
  simp only [Bool.or_eq_true, decide_eq_true_eq, Char.isAlphanum] at hchar
  rcases hchar with ((((halpha | hdigit) | rfl) | rfl) | rfl) | rfl
  · have hrange := alpha_toNat halpha
    omega
  · have hrange := digit_toNat hdigit
    omega
  all_goals decide

theorem ne_of_toNat_ne {c d : Char} (h : c.toNat ≠ d.toNat) : c ≠ d := fun e => h (e ▸ rfl)

theorem ne_of_low {c d : Char} (hlow : 45 ≤ c.toNat) (hd : d.toNat < 45) : c ≠ d :=
  ne_of_toNat_ne (ne_of_gt (Nat.lt_of_lt_of_le hd hlow))

theorem inert_of_toNat {c : Char} (hlow : 45 ≤ c.toNat) (hhigh : c.toNat < 127)
    (hback : c.toNat ≠ 92) : inert c = true := by
  have hquote : c ≠ '"' := ne_of_low hlow (by decide)
  have happos : c ≠ '\'' := ne_of_low hlow (by decide)
  have hslash : c ≠ '\\' := ne_of_toNat_ne hback
  have hspace : ¬ c.toNat < 32 := by omega
  have hdelete : c.toNat ≠ 127 := by omega
  have hcontrol : TomlLexer.control c = false := by simp [TomlLexer.control, hspace, hdelete]
  simp [inert, hquote, happos, hslash, hcontrol]

theorem letter_inert {letter : Char} (h : letter.isAlpha = true) : inert letter = true := by
  have hrange := alpha_toNat h
  exact inert_of_toNat (by omega) (by omega) (by omega)

theorem username_inert {user : String} (h : validateUsername user = true) :
    ∀ c ∈ user.toList, inert c = true := by
  intro c hc
  obtain ⟨hlow, hhigh, -, -, -, hback⟩ := username_toNat h hc
  exact inert_of_toNat hlow hhigh hback

theorem username_ne_nil {user : String} (h : validateUsername user = true) : user.toList ≠ [] := by
  rw [validateUsername] at h
  simp only [Bool.and_eq_true, decide_eq_true_eq] at h
  exact h.1.1

theorem username_escape {user : String} (h : validateUsername user = true) (mode : EscapeMode) :
    mode.escape user.toList = user.toList := by
  cases mode with
  | none => rfl
  | html =>
    have hchar : ∀ c ∈ user.toList, htmlEscape c = [c] := by
      intro c hc
      obtain ⟨hlow, -, hs, hl, hg, -⟩ := username_toNat h hc
      have hquote : c ≠ '"' := ne_of_low hlow (by decide)
      have happos : c ≠ '\'' := ne_of_low hlow (by decide)
      have hamp : c ≠ '&' := ne_of_low hlow (by decide)
      have hless : c ≠ '<' := ne_of_toNat_ne hl
      have hgreater : c ≠ '>' := ne_of_toNat_ne hg
      have hslash : c ≠ '/' := ne_of_toNat_ne hs
      simp [htmlEscape, hquote, happos, hamp, hless, hgreater, hslash]
    rw [EscapeMode.escape, List.flatMap_congr hchar, List.flatMap_singleton']

def TemplateFor (X : Crates) (fs : FileSystem) (config : Ca) (user template : String) : Prop :=
  ∃ users path, readTomlFile X.userListFromStr fs config.userListFile = .ok users ∧
    templatePath users user config = .ok path ∧ readToString fs path = .ok template

theorem toOption_eq_some {T : Type} {x : Except String T} {a : T} :
    x.toOption = some a ↔ x = .ok a := by
  cases x <;> simp [Except.toOption]

theorem toOption_eq_none {T : Type} {x : Except String T} :
    x.toOption = none ↔ ∀ a, x ≠ .ok a := by
  cases x <;> simp [Except.toOption]

theorem username_substituted {X : Crates} {mode : String → EscapeMode} {E : Escapes}
    {assemble : Assemble} (hrender : Renders X mode) (htoml : ReadsToml X E assemble)
    {fs : FileSystem} {config : Ca} {user template : String} {t : Text} {letter : Char}
    (huser : validateUsername user = true) (htemplate : TemplateFor X fs config user template)
    (hsize : template.utf8ByteSize ≤ maxTemplateSize) (hholes : templateHoles template = some t)
    (hplaced : WellPlaced E t) (hend : t.getLast? ≠ some (some '\r'))
    (hletter : letter.isAlpha = true) :
    ((∃ d, readUserDefaults X fs user config = .ok d) ↔
      ∃ d, X.userDefaultsFromStr (String.ofList (render [letter] t)) = .ok d) ∧
    ∀ d, X.userDefaultsFromStr (String.ofList (render [letter] t)) = .ok d →
      ∃ read, readToml E assemble t = some read ∧ d = read.filled [letter] ∧
        readUserDefaults X fs user config = .ok (read.filled user.toList) := by
  obtain ⟨users, path, hlist, hpath, htext⟩ := htemplate
  have hread := readUserDefaults_eq X hlist hpath htext hsize
  have hname := username_inert huser
  have hne := username_ne_nil huser
  have hrendered := hrender.holes user template user t hholes
  rw [username_escape huser] at hrendered
  have huserText := (userDefaults_dropLineBreak htoml hne hname hend).trans
    (userDefaults_filled htoml hne hname hplaced)
  have hletterText := userDefaults_filled (v := [letter]) htoml (List.cons_ne_nil _ _)
    (by simpa using letter_inert hletter) hplaced
  rw [renderUserDefaults, hrendered] at hread
  dsimp only at hread
  rw [hread]
  cases hr : readToml E assemble t with
  | none =>
    rw [hr, Option.map_none, toOption_eq_none] at huserText hletterText
    refine ⟨iff_of_false ?_ ?_, fun d hd => (hletterText d hd).elim⟩
    · rintro ⟨d, hd⟩
      exact huserText d (Outcome.ofExcept_eq_ok.mp hd)
    · rintro ⟨d, hd⟩
      exact hletterText d hd
  | some read =>
    rw [hr, Option.map_some, toOption_eq_some] at huserText hletterText
    rw [huserText, hletterText]
    exact ⟨⟨fun _ => ⟨_, rfl⟩, fun _ => ⟨_, rfl⟩⟩, fun d hd =>
      ⟨read, rfl, (Except.ok.inj hd).symm, rfl⟩⟩

def stripSuffix (suffix name : List Char) : Option (List Char) :=
  if suffix.isSuffixOf name then some (name.take (name.length - suffix.length)) else none

-- minijinja's default callback: the last part of the name, once `.j2` and its like are dropped
def autoEscape (name : String) : EscapeMode :=
  let chars := name.toList
  let stem := ([".j2", ".jinja2", ".jinja"].findSome? fun suffix =>
    stripSuffix suffix.toList chars).getD chars
  let extension := (stem.reverse.takeWhile (· ≠ '.')).reverse
  if extension ∈ ["html".toList, "htm".toList, "xml".toList] then .html else .none

example : ["x.html", "html", "x.xml.jinja2", "x.html.bak"].map autoEscape =
    [.html, .html, .html, .none] := by decide

def renderHoles (name template value : String) : Except String String :=
  match templateHoles template with
  | none => .error "syntax error"
  | some t =>
    .ok (String.ofList (render ((autoEscape name).escape value.toList) (dropLineBreak t)))

def toml1 : Escapes where
  simple c :=
    if c = 'b' then some '\x08'
    else if c = 't' then some '\t'
    else if c = 'n' then some '\n'
    else if c = 'f' then some '\x0c'
    else if c = 'r' then some '\r'
    else if c = '"' then some '"'
    else if c = '\\' then some '\\'
    else none
  digits c := if c = 'u' then some 4 else if c = 'U' then some 8 else none

theorem toml1_inline : toml1.Inline := by
  constructor
  all_goals
    intro c hc
    rcases Bool.or_eq_true_iff.mp hc with h | h
    all_goals
      obtain rfl := of_decide_eq_true h
      decide

def nameTemplate : String :=
  "validity_in_days = 30\nprincipals = [\"\x7b\x7b user_name \x7d\x7d\"]\nextensions = []\n"

def nameSkeleton : List Sym :=
  literal "validity_in_days = 30\nprincipals = [".toList ++
    none :: literal "]\nextensions = []".toList

def blankSym (a : Sym) : Bool := a = some '\n' || a = some '\r'

def assembleName : Assemble := fun skeleton =>
  if (skeleton.reverse.dropWhile blankSym).reverse = nameSkeleton then some ⟨30, [.slot 0], []⟩
  else none

theorem assembleName_blank (skeleton : List Sym) {c : Char} (hc : lineBreak c = true) :
    assembleName (skeleton ++ [some c]) = assembleName skeleton := by
  have hblank : blankSym (some c) = true := by simpa [blankSym, lineBreak] using hc
  rw [assembleName, List.reverse_append, List.reverse_singleton, List.singleton_append,
    List.dropWhile_cons_of_pos hblank, assembleName]

def nameCrates : Crates :=
  { Crates.refusing with
    userListFromStr := fun _ => .ok ⟨[]⟩
    render := renderHoles
    userDefaultsFromStr := fun text =>
      match readToml toml1 assembleName (literal text.toList) with
      | none => .error "TOML parse error"
      | some d => .ok (d.filled []) }

theorem renderHoles_renders : Renders nameCrates autoEscape where
  holes name template value t ht := by
    change renderHoles name template value = _
    rw [renderHoles, ht]

theorem nameCrates_toOption (text : String) :
    (nameCrates.userDefaultsFromStr text).toOption =
      (readToml toml1 assembleName (literal text.toList)).map (DefaultsOf.filled []) := by
  simp only [nameCrates]
  cases readToml toml1 assembleName (literal text.toList) <;> rfl

theorem readToml_blank (t : Text) {c : Char} (hc : lineBreak c = true) :
    readToml toml1 assembleName (t ++ [some c]) = readToml toml1 assembleName t := by
  rw [readToml, lex_lineBreak toml1_inline t hc, readToml]
  cases lex toml1 t with
  | none => rfl
  | some l =>
    rw [Option.map_some, Option.bind_some, Option.bind_some, Lexed.emit,
      assembleName_blank l.skeleton hc]

theorem nameCrates_reads : ReadsToml nameCrates toml1 assembleName where
  lexical := nameCrates_toOption
  line_feed text _ := by
    rw [nameCrates_toOption, nameCrates_toOption, String.toList_ofList, String.toList_ofList,
      literal_append, literal_cons, literal_nil, readToml_blank _ rfl]
  carriage_return text := by
    have hsplit : literal (text ++ ['\r', '\n']) = literal text ++ [some '\r'] ++ [some '\n'] := by
      simp
    rw [nameCrates_toOption, nameCrates_toOption, String.toList_ofList, String.toList_ofList,
      hsplit, readToml_blank _ rfl, readToml_blank _ rfl]

theorem username_substituted_html :
    ∃ t, templateHoles nameTemplate = some t ∧
      ((∃ d, readUserDefaults nameCrates (templateFs nameTemplate) "x.html" localConfig = .ok d) ↔
        ∃ d, nameCrates.userDefaultsFromStr (String.ofList (render ['a'] t)) = .ok d) := by
  obtain ⟨t, ht⟩ : ∃ t, templateHoles nameTemplate = some t :=
    Option.isSome_iff_exists.mp (by decide +kernel)
  have hplaced :
      (templateHoles nameTemplate).any (fun t => decide (WellPlaced toml1 t)) = true := by
    decide +kernel
  have hend : (templateHoles nameTemplate).any
      (fun t => decide (t.getLast? ≠ some (some '\r'))) = true := by
    decide +kernel
  rw [ht, Option.any_some] at hplaced hend
  exact ⟨t, ht, (username_substituted renderHoles_renders nameCrates_reads (by decide)
    ⟨⟨[]⟩, _, readTomlFile_of_text (templateFs_users nameTemplate), rfl,
      templateFs_template nameTemplate⟩
    (by decide +kernel) ht (of_decide_eq_true hplaced) (of_decide_eq_true hend) (by decide)).1⟩

def keyTemplate : String :=
  "\"\x7b\x7b user_name \x7d\x7d\" = 30\nprincipals = []\nextensions = []"

def keyHoles : Text :=
  some '"' :: none :: literal "\" = 30\nprincipals = []\nextensions = []".toList

def bareReturnTemplate : String := "validity_in_days = 30\nprincipals = []\nextensions = []\x0d"

-- Both readings are of a valid document; the others are missing a field or hold a bare return.
def exactCrates : Crates :=
  { nameCrates with
    userDefaultsFromStr := fun text =>
      if text = "\"validity_in_days\" = 30\nprincipals = []\nextensions = []" ∨
          text = "validity_in_days = 30\nprincipals = []\nextensions = []" then
        .ok ⟨30, [], []⟩
      else .error "TOML parse error" }

theorem quoted_key_or_bare_return :
    (validateUsername "validity_in_days" = true ∧ templateHoles keyTemplate = some keyHoles ∧
      ((Lexer.init.step toml1 (some '"')).map Lexer.phase = some (.opened .basic)) ∧
      readUserDefaults exactCrates (templateFs keyTemplate) "validity_in_days" localConfig =
        .ok ⟨30, [], []⟩ ∧
      ¬ ∃ d, exactCrates.userDefaultsFromStr (String.ofList (render ['a'] keyHoles)) = .ok d) ∧
    (validateUsername "alice" = true ∧
      templateHoles bareReturnTemplate = some (literal bareReturnTemplate.toList) ∧
      readUserDefaults exactCrates (templateFs bareReturnTemplate) "alice" localConfig =
        .ok ⟨30, [], []⟩ ∧
      ¬ ∃ d, exactCrates.userDefaultsFromStr bareReturnTemplate = .ok d) := by
  have hread : ∀ user template, template.utf8ByteSize ≤ maxTemplateSize →
      readUserDefaults exactCrates (templateFs template) user localConfig =
        Outcome.ofExcept (renderUserDefaults exactCrates user template) := fun user template h =>
    readUserDefaults_eq exactCrates (readTomlFile_of_text (templateFs_users template)) rfl
      (templateFs_template template) h
  have hkey : renderUserDefaults exactCrates "validity_in_days" keyTemplate =
    .ok ⟨30, [], []⟩ := by decide +kernel
  have hreturn : renderUserDefaults exactCrates "alice" bareReturnTemplate =
    .ok ⟨30, [], []⟩ := by decide +kernel
  have hletter : exactCrates.userDefaultsFromStr (String.ofList (render ['a'] keyHoles)) =
    .error "TOML parse error" := by decide +kernel
  have hbare : exactCrates.userDefaultsFromStr bareReturnTemplate =
    .error "TOML parse error" := by decide +kernel
  refine ⟨⟨by decide, by decide +kernel, by decide, ?_, ?_⟩, by decide, by decide +kernel, ?_, ?_⟩
  · rw [hread _ _ (by decide +kernel), hkey]
    rfl
  · simp [hletter]
  · rw [hread _ _ (by decide +kernel), hreturn]
    rfl
  · simp [hbare]

end SshCertificateAuthority
