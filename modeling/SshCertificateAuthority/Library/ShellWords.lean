import Mathlib.Data.List.DropRight
import SshCertificateAuthority.Library.ByteStream
import SshCertificateAuthority.Library.Run

namespace ShellWords
open ByteStream

def encode (s : List Char) : Bytes := s.flatMap String.utf8EncodeChar

structure Value where
  chars : List Char
  noNul : '\x00' ∉ chars

namespace Value

def of (s : String) : Value := ⟨s.toList.filter (· ≠ '\x00'), by simp⟩

def bytes (v : Value) : Bytes := encode v.chars

def append (v w : Value) : Value :=
  ⟨v.chars ++ w.chars, fun h => (List.mem_append.mp h).elim v.noNul w.noNul⟩

instance : Append Value := ⟨append⟩

end Value

-- Which characters the shell takes for printable: from the locale beyond ASCII.
structure ShellLocale where
  printable : Char → Bool
  ascii : ∀ c : Char, c.toNat < 128 → printable c = decide (32 ≤ c.toNat ∧ c.toNat < 127)

def backslashTable : List Char := "\t\n !\"$&\x27()*,;<>?[\\]^`\x7b|\x7d".toList

def startsTilde (before : Option Char) : Bool := [none, some ':', some '='].contains before

def backslash (before : Option Char) (c : Char) : List Char :=
  if backslashTable.contains c || (c == '#' && before.isNone) || (c == '~' && startsTilde before)
  then ['\\', c] else [c]

def backslashQuote : Option Char → List Char → List Char
  | _, [] => []
  | before, c :: s => backslash before c ++ backslashQuote (some c) s

def ansiLetters : List (Char × Char) :=
  [('\x1b', 'E'), ('\x07', 'a'), ('\x0b', 'v'), ('\x08', 'b'), ('\x0c', 'f'), ('\n', 'n'),
    ('\r', 'r'), ('\t', 't'), ('\\', '\\'), ('\x27', '\x27')]

def octalEscape (b : UInt8) : List Char :=
  ['\\', Nat.digitChar (b.toNat / 64), Nat.digitChar (b.toNat / 8 % 8),
    Nat.digitChar (b.toNat % 8)]

def ShellLocale.ansiEscape (L : ShellLocale) (c : Char) : List Char :=
  match ansiLetters.lookup c with
  | some letter => ['\\', letter]
  | none => if L.printable c then [c] else (String.utf8EncodeChar c).flatMap octalEscape

def ShellLocale.ansiQuote (L : ShellLocale) (s : List Char) : List Char :=
  ['$', '\x27'] ++ s.flatMap L.ansiEscape ++ ['\x27']

-- `printf %q`
def ShellLocale.quote (L : ShellLocale) (v : Value) : List Char :=
  if v.chars = [] then ['\x27', '\x27']
  else if v.chars.all L.printable then backslashQuote none v.chars
  else L.ansiQuote v.chars

inductive Quoting where
  | unquoted
  | backslash
  | single
  | dollar
  | ansi
  | ansiBackslash
  | octal (left value : Nat)
deriving DecidableEq, Repr

structure Reader where
  words : List Bytes
  word : Bytes
  before : Option Char
  quoting : Quoting
deriving DecidableEq, Repr

-- What the shell acts on outside quotes: operators, expansions, patterns, comments.
def actsOn (before : Option Char) (c : Char) : Bool :=
  "\n\"&()*;<>?[`\x7b|".toList.contains c || (c == '#' && before.isNone) ||
    (c == '~' && startsTilde before)

def octalDigit (c : Char) : Option Nat :=
  if '0' ≤ c ∧ c ≤ '7' then some (c.toNat - '0'.toNat) else none

namespace Reader

variable (r : Reader)

def start (words : List Bytes) : Reader := ⟨words, [], none, .unquoted⟩

def finish : Reader :=
  start (if r.before.isNone then r.words else r.words ++ [r.word])

def put (c : Char) : Reader :=
  { r with word := r.word ++ String.utf8EncodeChar c, before := some c, quoting := .unquoted }

def openQuote (quoting : Quoting) : Reader := { r with before := some '\x27', quoting := quoting }

def add (content : Bytes) (quoting : Quoting) : Reader :=
  { r with word := r.word ++ content, quoting := quoting }

def stepUnquoted (c : Char) : Option Reader :=
  if c = ' ' ∨ c = '\t' then some r.finish
  else if c = '\\' then some { r with quoting := .backslash }
  else if c = '\x27' then some (r.openQuote .single)
  else if c = '$' then some { r with quoting := .dollar }
  else if actsOn r.before c then none
  else some (r.put c)

def stepAnsi (c : Char) : Option Reader :=
  if c = '\x27' then some { r with quoting := .unquoted }
  else if c = '\\' then some { r with quoting := .ansiBackslash }
  else some (r.add (String.utf8EncodeChar c) .ansi)

-- A NUL would end the word; the reader stops there, and at `\x`, `\u`, `\U` and `\c`.
def addOctal (value : Nat) : Option Reader :=
  if value % 256 = 0 then none else some (r.add [.ofNat value] .ansi)

def stepAnsiBackslash (c : Char) : Option Reader :=
  match octalDigit c with
  | some d => some { r with quoting := .octal 2 d }
  | none =>
    match ansiLetters.find? (·.2 == c) with
    | some e => some (r.add (String.utf8EncodeChar e.1) .ansi)
    | none =>
      if c = 'e' then some (r.add [27] .ansi)
      else if c = '"' ∨ c = '?' then some (r.add (String.utf8EncodeChar c) .ansi)
      else if ['x', 'u', 'U', 'c'].contains c then none
      else some (r.add (encode ['\\', c]) .ansi)

def stepOctal (left value : Nat) (c : Char) : Option Reader :=
  match octalDigit c with
  | none => (r.addOctal value).bind fun r => r.stepAnsi c
  | some d =>
    if left ≤ 1 then r.addOctal (8 * value + d)
    else some { r with quoting := .octal (left - 1) (8 * value + d) }

def step (c : Char) : Option Reader :=
  match r.quoting with
  | .unquoted => r.stepUnquoted c
  | .backslash => some (if c = '\n' then { r with quoting := .unquoted } else r.put c)
  | .single =>
    some (if c = '\x27' then { r with quoting := .unquoted }
      else r.add (String.utf8EncodeChar c) .single)
  | .dollar => if c = '\x27' then some (r.openQuote .ansi) else none
  | .ansi => r.stepAnsi c
  | .ansiBackslash => r.stepAnsiBackslash c
  | .octal left value => r.stepOctal left value c

end Reader

def readWords (text : List Char) : Option (List Bytes) :=
  (Run.run Reader.step (.start []) text).bind fun r =>
    if r.quoting = .unquoted then some r.finish.words else none

def reservedWords : List Bytes :=
  ["if", "then", "elif", "else", "fi", "time", "for", "in", "until", "while", "do", "done", "case",
    "esac", "coproc", "select", "function", "\x7b", "\x7d", "[[", "]]", "!"].map
      fun s => encode s.toList

-- The words of a text that is one command without assignments, expansions or redirections.
def simpleCommand (text : List Char) : Option (List Bytes) :=
  (readWords text).filter fun words =>
    match words with
    | [] => false
    | word :: _ => !reservedWords.contains word && !word.contains 61

-- `$(..)` drops the newlines at the end.
def commandSubstitution (text : List Char) : List Char := text.rdropWhile (· = '\n')

def printfQ (L : ShellLocale) (words : List Value) : List Char :=
  words.flatMap fun word => L.quote word ++ [' ']

section

variable {r : Reader} {L : ShellLocale} {c : Char} {s : List Char}

theorem actsOn_backslash {before : Option Char} (h : actsOn before c = true) :
    backslash before c = ['\\', c] := by
  have htable : "\n\"&()*;<>?[`\x7b|".toList.all backslashTable.contains = true := rfl
  simp only [actsOn, Bool.or_eq_true, List.contains_iff_mem] at h
  rw [backslash, if_pos]
  rcases h with (h | h) | h
  · rw [List.all_eq_true.mp htable c h, Bool.true_or, Bool.true_or]
  · rw [h, Bool.or_true, Bool.true_or]
  · rw [h, Bool.or_true]

theorem run_backslash (hr : r.quoting = .unquoted) (hc : c ≠ '\n') :
    Run.run Reader.step r (backslash r.before c) = some (r.put c) := by
  have htable : [' ', '\t', '\\', '\x27', '$'].all backslashTable.contains = true := rfl
  by_cases hq : backslash r.before c = ['\\', c]
  · rw [hq]
    simp [Run.run, Reader.step, hr, Reader.stepUnquoted, hc]
    rfl
  · have hplain : backslash r.before c = [c] := by
      rw [backslash] at hq ⊢
      split at hq
      · exact absurd rfl hq
      · next h => rw [if_neg h]
    have hmem : ∀ d ∈ [' ', '\t', '\\', '\x27', '$'], c ≠ d := by
      rintro d hd rfl
      rw [backslash, List.all_eq_true.mp htable c hd] at hq
      exact hq rfl
    have hacts : ¬ actsOn r.before c = true := fun h => hq (actsOn_backslash h)
    simp only [List.mem_cons, List.not_mem_nil, or_false, forall_eq_or_imp, forall_eq] at hmem
    simp [hplain, Run.run, Reader.step, hr, Reader.stepUnquoted, hmem, hacts]

theorem run_backslashQuote (hr : r.quoting = .unquoted) (hs : ∀ c ∈ s, c ≠ '\n') :
    Run.run Reader.step r (backslashQuote r.before s) =
      some { r with word := r.word ++ encode s, before := s.getLast?.or r.before } := by
  induction s generalizing r with
  | nil => simp [backslashQuote, encode]
  | cons c s ih =>
    have hfirst := run_backslash hr (hs c List.mem_cons_self)
    have hrest := ih (r := r.put c) rfl fun d hd => hs d (List.mem_cons_of_mem c hd)
    rw [backslashQuote, Run.run_append, hfirst, Option.bind_some]
    refine hrest.trans ?_
    rw [List.getLast?_cons]
    cases s.getLast? <;> simp [Reader.put, encode, hr]

theorem octalDigit_digitChar {d : Nat} (hd : d < 8) : octalDigit (Nat.digitChar d) = some d := by
  have hall : ∀ d < 8, octalDigit (Nat.digitChar d) = some d := by decide
  exact hall d hd

theorem addOctal_toNat {b : UInt8} (hb : b ≠ 0) :
    r.addOctal b.toNat = some (r.add [b] .ansi) := by
  have hlt : b.toNat < 256 := b.toNat_lt
  have hne : b.toNat ≠ 0 := fun h => hb (UInt8.toNat_inj.mp h)
  rw [Reader.addOctal, if_neg (by omega), UInt8.ofNat_toNat]

theorem run_octalEscape {b : UInt8} (hr : r.quoting = .ansi) (hb : b ≠ 0) :
    Run.run Reader.step r (octalEscape b) = some (r.add [b] .ansi) := by
  have hlt : b.toNat < 256 := b.toNat_lt
  have hvalue : 8 * (8 * (b.toNat / 64) + b.toNat / 8 % 8) + b.toNat % 8 = b.toNat := by omega
  have h2 := octalDigit_digitChar (d := b.toNat / 64) (by omega)
  have h1 := octalDigit_digitChar (d := b.toNat / 8 % 8) (by omega)
  have h0 := octalDigit_digitChar (d := b.toNat % 8) (by omega)
  have hbackslash : r.step '\\' = some { r with quoting := .ansiBackslash } := by
    rw [Reader.step, hr]
    rfl
  have hfirst : Reader.step { r with quoting := .ansiBackslash } (Nat.digitChar (b.toNat / 64)) =
      some { r with quoting := .octal 2 (b.toNat / 64) } := by
    simp only [Reader.step, Reader.stepAnsiBackslash, h2]
  have hsecond : Reader.step { r with quoting := .octal 2 (b.toNat / 64) }
      (Nat.digitChar (b.toNat / 8 % 8)) =
        some { r with quoting := .octal 1 (8 * (b.toNat / 64) + b.toNat / 8 % 8) } := by
    simp only [Reader.step, Reader.stepOctal, h1]
    rfl
  have hthird : Reader.step
      { r with quoting := .octal 1 (8 * (b.toNat / 64) + b.toNat / 8 % 8) }
        (Nat.digitChar (b.toNat % 8)) = some (r.add [b] .ansi) := by
    simp only [Reader.step, Reader.stepOctal, h0, hvalue, Nat.le_refl, if_true]
    exact addOctal_toNat hb
  rw [octalEscape, Run.run, hbackslash, Option.bind_some, Run.run, hfirst, Option.bind_some,
    Run.run, hsecond, Option.bind_some, Run.run, hthird]
  rfl

theorem utf8EncodeChar_ne_zero (hc : c ≠ '\x00') : ∀ b ∈ String.utf8EncodeChar c, b ≠ 0 := by
  have hv : c.val.toNat ≠ 0 := fun h => hc (Char.ext (UInt32.toNat_inj.mp h))
  intro b hb hzero
  have hpos : 0 < b.toNat := by
    rw [String.utf8EncodeChar] at hb
    split_ifs at hb <;>
      simp only [List.mem_cons, List.not_mem_nil, or_false] at hb <;>
      rcases hb with rfl | rfl | rfl | rfl <;>
      rw [UInt8.toNat_ofNat'] <;> omega
  rw [hzero] at hpos
  exact absurd hpos (by decide)

theorem run_octalEscapes {bs : Bytes} (hr : r.quoting = .ansi) (hbs : ∀ b ∈ bs, b ≠ 0) :
    Run.run Reader.step r (bs.flatMap octalEscape) = some (r.add bs .ansi) := by
  induction bs generalizing r with
  | nil => simp [Reader.add, ← hr]
  | cons b bs ih =>
    rw [List.flatMap_cons, Run.run_append, run_octalEscape hr (hbs b List.mem_cons_self),
      Option.bind_some]
    refine (ih rfl fun d hd => hbs d (List.mem_cons_of_mem b hd)).trans ?_
    simp [Reader.add]

theorem run_ansiEscape (hr : r.quoting = .ansi) (hc : c ≠ '\x00') :
    Run.run Reader.step r (L.ansiEscape c) = some (r.add (String.utf8EncodeChar c) .ansi) := by
  rw [ShellLocale.ansiEscape]
  split
  · next letter hletter =>
    have hall : ∀ e ∈ ansiLetters, octalDigit e.2 = none ∧
        ansiLetters.find? (·.2 == e.2) = some e := by decide
    obtain ⟨front, rest, htable, -⟩ := List.lookup_eq_some_iff.mp hletter
    obtain ⟨hoctal, hfind⟩ := hall (c, letter) (by rw [htable]; simp)
    simp [Run.run, Reader.step, hr, Reader.stepAnsi, Reader.stepAnsiBackslash, hoctal, hfind]
    rfl
  · next hletter =>
    split
    · have hplain : c ≠ '\x27' ∧ c ≠ '\\' := by
        constructor
        · rintro rfl
          exact absurd hletter (by decide)
        · rintro rfl
          exact absurd hletter (by decide)
      simp [Run.run, Reader.step, hr, Reader.stepAnsi, hplain]
    · exact run_octalEscapes hr (utf8EncodeChar_ne_zero hc)

theorem run_ansiEscapes (hr : r.quoting = .ansi) (hs : '\x00' ∉ s) :
    Run.run Reader.step r (s.flatMap L.ansiEscape) = some (r.add (encode s) .ansi) := by
  induction s generalizing r with
  | nil => simp [Reader.add, encode, ← hr]
  | cons c s ih =>
    have hc : c ≠ '\x00' := fun h => hs (h ▸ List.mem_cons_self)
    rw [List.flatMap_cons, Run.run_append, run_ansiEscape hr hc, Option.bind_some]
    refine (ih rfl fun hmem => hs (List.mem_cons_of_mem c hmem)).trans ?_
    simp [Reader.add, encode]

theorem printable_not_newline (hs : s.all L.printable = true) : ∀ c ∈ s, c ≠ '\n' := by
  rintro c hc rfl
  have hprint := List.all_eq_true.mp hs _ hc
  rw [L.ascii '\n' (by decide)] at hprint
  exact absurd hprint (by decide)

theorem run_quote (L : ShellLocale) (v : Value) (words : List Bytes) : ∃ before,
    Run.run Reader.step (.start words) (L.quote v) =
      some ⟨words, v.bytes, some before, .unquoted⟩ := by
  rw [ShellLocale.quote]
  split
  · next hempty =>
    rw [Value.bytes, hempty]
    exact ⟨'\x27', rfl⟩
  · next hne =>
    split
    · next hprint =>
      obtain ⟨last, hlast⟩ := Option.ne_none_iff_exists'.mp (List.getLast?_eq_none_iff.not.mpr hne)
      have hrun := run_backslashQuote (r := .start words) rfl (printable_not_newline hprint)
      refine ⟨last, hrun.trans ?_⟩
      rw [hlast]
      rfl
    · rw [ShellLocale.ansiQuote, Run.run_append, Run.run_append]
      have hbody := run_ansiEscapes (L := L) (r := ⟨words, [], some '\x27', .ansi⟩) rfl v.noNul
      refine ⟨'\x27', ?_⟩
      change ((Run.run Reader.step ⟨words, [], some '\x27', .ansi⟩ _).bind _) = _
      rw [hbody]
      rfl

theorem run_printfQ (L : ShellLocale) (vs : List Value) (words : List Bytes) :
    Run.run Reader.step (.start words) (printfQ L vs) =
      some (.start (words ++ vs.map Value.bytes)) := by
  induction vs generalizing words with
  | nil => simp [printfQ]
  | cons v vs ih =>
    obtain ⟨before, hword⟩ := run_quote L v words
    rw [printfQ, List.flatMap_cons, ← printfQ, List.append_assoc, Run.run_append, hword,
      Option.bind_some, Run.run_append]
    refine (ih (words ++ [v.bytes])).trans ?_
    rw [List.map_cons, List.append_assoc, List.singleton_append]

theorem readWords_printfQ (L : ShellLocale) (vs : List Value) :
    readWords (printfQ L vs) = some (vs.map Value.bytes) := by
  rw [readWords, run_printfQ]
  simp [Reader.start, Reader.finish]

theorem printfQ_ends (L : ShellLocale) (word : Value) (words : List Value) :
    ∃ front, printfQ L (word :: words) = front ++ [' '] := by
  induction words generalizing word with
  | nil => exact ⟨L.quote word, by simp [printfQ]⟩
  | cons next words ih =>
    obtain ⟨front, hfront⟩ := ih next
    refine ⟨L.quote word ++ [' '] ++ front, ?_⟩
    rw [printfQ, List.flatMap_cons, ← printfQ, hfront, List.append_assoc _ front]

theorem commandSubstitution_printfQ (L : ShellLocale) (word : Value) (words : List Value) :
    commandSubstitution (printfQ L (word :: words)) = printfQ L (word :: words) := by
  obtain ⟨front, hfront⟩ := printfQ_ends L word words
  rw [commandSubstitution, hfront, List.rdropWhile_concat_neg _ _ _ (by decide)]

theorem simpleCommand_printfQ {L : ShellLocale} {word : Value} {words : List Value}
    (hreserved : word.bytes ∉ reservedWords) (hassign : 61 ∉ word.bytes) :
    simpleCommand (printfQ L (word :: words)) = some ((word :: words).map Value.bytes) := by
  rw [simpleCommand, readWords_printfQ, Option.filter_some, List.map_cons, if_pos]
  simp [hreserved, hassign]

end

def posixLocale : ShellLocale where
  printable c := decide (32 ≤ c.toNat ∧ c.toNat < 127)
  ascii _ _ := rfl

example : printfQ posixLocale [.of "a b;c", .of "", .of "p=~/$x", .of "~\n"] =
    "a\\ b\\;c \x27\x27 p=\\~/\\$x $\x27~\\n\x27 ".toList := by decide

end ShellWords
