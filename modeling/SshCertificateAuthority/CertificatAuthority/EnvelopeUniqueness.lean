import SshCertificateAuthority.CertificatAuthority.KeyIdentity
import SshCertificateAuthority.CertificatAuthority.RequestFraming
import SshCertificateAuthority.CertificatAuthority.ResponseSize
import SshCertificateAuthority.Library.SelfDelimiting

namespace SshCertificateAuthority
open ByteStream Delimited

theorem utf8EncodeChar_delimiting : SelfDelimiting String.utf8EncodeChar := by
  refine SelfDelimiting.of_peek (fun bs => ByteArray.utf8DecodeChar? bs.toByteArray 0) ?_
  intro c x
  rw [List.toByteArray_append]
  exact ByteArray.utf8DecodeChar?_utf8EncodeChar_append

theorem utf8_eq_flatMap (s : String) : utf8 s = s.toList.flatMap String.utf8EncodeChar := by
  rw [utf8, ← String.utf8Encode_toList, List.utf8Encode, List.toList_data_toByteArray]

theorem toList_front_of_utf8 {s t : String} (h : utf8 s <+: utf8 t) : s.toList <+: t.toList := by
  obtain ⟨x, hx⟩ := h
  rw [utf8_eq_flatMap, utf8_eq_flatMap] at hx
  exact utf8EncodeChar_delimiting.flatMap_front (fun _ => String.utf8EncodeChar_ne_nil) hx

namespace Json

def hexValue (c : Char) : Nat := "0123456789abcdef".toList.idxOf c

def unescapeBackslash : List Char → Option (Char × List Char)
  | '"' :: x => some ('"', x)
  | '\\' :: x => some ('\\', x)
  | 'b' :: x => some ('\x08', x)
  | 'f' :: x => some ('\x0c', x)
  | 'n' :: x => some ('\n', x)
  | 'r' :: x => some ('\r', x)
  | 't' :: x => some ('\t', x)
  | 'u' :: '0' :: '0' :: a :: b :: x => some (Char.ofNat (hexValue a * 16 + hexValue b), x)
  | _ => none

def unescape : List Char → Option (Char × List Char)
  | [] => none
  | c :: x => if c = '\\' then unescapeBackslash x else some (c, x)

theorem hexValue_hexDigit :
    ∀ n < 32, hexValue (hexDigit (n / 16)) * 16 + hexValue (hexDigit (n % 16)) = n := by
  decide

theorem unescape_escape (c : Char) (x : List Char) : unescape (escape c ++ x) = some (c, x) := by
  rw [escape]
  split_ifs with h₁ h₂ h₃ h₄ h₅ h₆ h₇ h₈
  · rw [h₁]; rfl
  · rw [h₂]; rfl
  · rw [h₃]; rfl
  · rw [h₄]; rfl
  · rw [h₅]; rfl
  · rw [h₆]; rfl
  · rw [h₇]; rfl
  · simp [unescape, unescapeBackslash, hexValue_hexDigit c.toNat h₈]
  · simp [unescape, h₂]

theorem escape_delimiting : SelfDelimiting escape := SelfDelimiting.of_read unescape unescape_escape

theorem escape_ne_quote (c : Char) (x y : List Char) : escape c ++ x ≠ '"' :: y := by
  intro heq
  have hread := unescape_escape c x
  have hquote : unescape ('"' :: y) = some ('"', y) := rfl
  rw [heq, hquote] at hread
  obtain ⟨rfl, -⟩ := Prod.mk.inj (Option.some.inj hread)
  simp [escape] at heq

theorem string_toList (s : String) :
    (string s).toList = ['"'] ++ (s.toList.flatMap escape ++ ['"']) := by
  simp [string]

theorem string_delimiting : SelfDelimiting fun s : String => (string s).toList := by
  intro s t x y heq
  simp only [string_toList, List.append_assoc] at heq
  have hquoted := List.append_cancel_left heq
  obtain ⟨hchars, hrest⟩ := escape_delimiting.terminated escape_ne_quote s.toList t.toList x y
    (by simpa only [List.append_assoc] using hquoted)
  exact ⟨String.toList_injective hchars, hrest⟩

theorem counter_delimiting :
    SelfDelimiting fun n : UInt64 => (toString n.toNat).toList ++ [','] := by
  refine SelfDelimiting.separated (fun a b heq => ?_) fun n => ?_
  · have hvalue : Nat.ofDigitChars 10 (Nat.toDigits 10 a.toNat) 0 =
        Nat.ofDigitChars 10 (Nat.toDigits 10 b.toNat) 0 := by
      simpa using congrArg (fun ds => Nat.ofDigitChars 10 ds 0) heq
    exact UInt64.toNat_inj.mp (by simpa using hvalue)
  · intro hmem
    have hdigit := Nat.isDigit_of_mem_toDigits (b := 10) (n := n.toNat) (c := ',') (by decide)
      (by decide) (by simpa using hmem)
    exact absurd hdigit (by decide)

theorem concat_toList (pieces : List String) :
    (concat pieces).toList = (pieces.map String.toList).flatten := by
  induction pieces with
  | nil => rfl
  | cons s pieces ih =>
    rw [List.map_cons, List.flatten_cons, ← ih, ← String.toList_append]
    rfl

theorem requestText_unique {key key' : String} {q q' : CaRequest} {x y : List Char}
    (heq : (requestText key q).toList ++ x = (requestText key' q').toList ++ y) :
    key = key' ∧ x = y ∧ (q.publicKey = q'.publicKey → q = q') := by
  cases q with
  | signCertificate user publicKey =>
    cases q' with
    | signCertificate user' publicKey' =>
      simp only [requestText, concat_toList, List.map_cons, List.map_nil, List.flatten_cons,
        List.flatten_nil, List.append_assoc, List.nil_append] at heq
      obtain ⟨hname, hkey⟩ := string_delimiting _ _ _ _ (List.append_cancel_left heq)
      obtain ⟨rfl, hend⟩ := string_delimiting _ _ _ _ (List.append_cancel_left hkey)
      rw [hname]
      exact ⟨rfl, List.append_cancel_left hend, congrArg _⟩
    | checkPublicKey publicKey' => simp [requestText, concat_toList] at heq
    | signHostCertificate hostName publicKey' => simp [requestText, concat_toList] at heq
  | checkPublicKey publicKey =>
    cases q' with
    | signCertificate user' publicKey' => simp [requestText, concat_toList] at heq
    | checkPublicKey publicKey' =>
      simp only [requestText, concat_toList, List.map_cons, List.map_nil, List.flatten_cons,
        List.flatten_nil, List.append_assoc, List.nil_append] at heq
      obtain ⟨rfl, hend⟩ := string_delimiting _ _ _ _ (List.append_cancel_left heq)
      exact ⟨rfl, List.append_cancel_left hend, congrArg _⟩
    | signHostCertificate hostName publicKey' => simp [requestText, concat_toList] at heq
  | signHostCertificate hostName publicKey =>
    cases q' with
    | signCertificate user' publicKey' => simp [requestText, concat_toList] at heq
    | checkPublicKey publicKey' => simp [requestText, concat_toList] at heq
    | signHostCertificate hostName' publicKey' =>
      simp only [requestText, concat_toList, List.map_cons, List.map_nil, List.flatten_cons,
        List.flatten_nil, List.append_assoc, List.nil_append] at heq
      obtain ⟨hname, hkey⟩ := string_delimiting _ _ _ _ (List.append_cancel_left heq)
      obtain ⟨rfl, hend⟩ := string_delimiting _ _ _ _ (List.append_cancel_left hkey)
      rw [hname]
      exact ⟨rfl, List.append_cancel_left hend, congrArg _⟩

theorem authenticatedText_unique {r r' : AuthenticatedRequest} {key key' : String} {x y : List Char}
    (heq : (authenticatedText r key).toList ++ x = (authenticatedText r' key').toList ++ y) :
    r.token = r'.token ∧ r.counter = r'.counter ∧ key = key' ∧
      (r.request.publicKey = r'.request.publicKey → r.request = r'.request) := by
  have hcomma : ",\"request\":".toList = [','] ++ "\"request\":".toList := rfl
  simp only [authenticatedText, concat_toList, List.map_cons, List.map_nil, List.flatten_cons,
    List.flatten_nil, List.append_assoc, List.nil_append] at heq
  obtain ⟨htoken, heq⟩ := string_delimiting _ _ _ _ (List.append_cancel_left heq)
  have hrest := List.append_cancel_left heq
  rw [hcomma, List.append_assoc, List.append_assoc, ← List.append_assoc,
    ← List.append_assoc _ [',']] at hrest
  obtain ⟨hcounter, hrest⟩ := counter_delimiting _ _ _ _ hrest
  obtain ⟨hkey, -, hrequest⟩ := requestText_unique (List.append_cancel_left hrest)
  exact ⟨htoken, hcounter, hkey, hrequest⟩

end Json

theorem opensshText_toList {algorithm comment text : String} {body : Bytes}
    (h : opensshText algorithm body comment = .ok text) :
    text.toList ++ [' '] = algorithm.toList ++ ' ' :: (Base64.encode body ++
      ' ' :: if comment = "" then [] else comment.toList ++ [' ']) := by
  rw [opensshText] at h
  split at h
  · obtain rfl := Except.ok.inj h
    have hspace : " ".toList = [' '] := rfl
    by_cases hc : comment = ""
    · simp [hc, hspace]
    · simp [hc, hspace]
  · simp at h

theorem space_not_mem_encode (bs : Bytes) : ' ' ∉ Base64.encode bs := fun h =>
  absurd (Base64.mem_encode h) (by decide +kernel)

theorem space_not_mem_algorithm (k : KeyData) : ' ' ∉ k.algorithm.toList := fun h =>
  absurd (k.algorithm_word _ h) (by decide)

theorem PublicKey.toOpenssh_injective {k k' : PublicKey} {text : String}
    (h : k.toOpenssh = .ok text) (h' : k'.toOpenssh = .ok text) : k = k' := by
  obtain ⟨⟨algorithm, word, fields⟩, comment⟩ := k
  obtain ⟨⟨algorithm', word', fields'⟩, comment'⟩ := k'
  have hparts := (opensshText_toList h).symm.trans (opensshText_toList h')
  have hsplit := splitAtFirst_append (space_not_mem_algorithm ⟨algorithm, word, fields⟩)
    (Base64.encode (Wire.string algorithm ++ fields) ++
      ' ' :: if comment = "" then [] else comment.toList ++ [' '])
  rw [hparts, splitAtFirst_append (space_not_mem_algorithm ⟨algorithm', word', fields'⟩)] at hsplit
  obtain ⟨halgorithm, hrest⟩ := Prod.mk.inj (Option.some.inj hsplit)
  obtain rfl : algorithm' = algorithm := String.toList_injective halgorithm
  have hsplit' := splitAtFirst_append (space_not_mem_encode (Wire.string algorithm' ++ fields))
    (if comment = "" then [] else comment.toList ++ [' '])
  rw [← hrest, splitAtFirst_append (space_not_mem_encode _)] at hsplit'
  obtain ⟨hbody, hcomment⟩ := Prod.mk.inj (Option.some.inj hsplit')
  obtain rfl : fields' = fields := List.append_cancel_left (Base64.encode_injective hbody)
  have hsame : comment' = comment := by
    by_cases hc : comment = "" <;> by_cases hc' : comment' = ""
    · rw [hc, hc']
    · simp [hc, hc'] at hcomment
    · simp [hc, hc'] at hcomment
    · exact String.toList_injective (by simpa [hc, hc'] using hcomment)
  rw [hsame]

def CaResponse.Same : CaResponse → CaResponse → Prop
  | .signedCertificate cert, .signedCertificate cert' => cert.toOpenssh = cert'.toOpenssh
  | .error e, .error e' => e = e'
  | .keyFound host, .keyFound host' => host = host'
  | _, _ => False

theorem Json.object_unique {label close a b : String} {x y : List Char}
    (heq : (concat [label, string a, close]).toList ++ x =
      (concat [label, string b, close]).toList ++ y) : a = b := by
  simp only [concat_toList, List.map_cons, List.map_nil, List.flatten_cons, List.flatten_nil,
    List.append_assoc] at heq
  exact (string_delimiting _ _ _ _ (List.append_cancel_left heq)).1

inductive Json.Printed : CaResponse → String → Prop where
  | signed {cert : Certificate} {text : String} (text_of : cert.toOpenssh = .ok text) :
      Printed (.signedCertificate cert)
        (concat ["\x7b\"SignedCertificate\":", string text, "\x7d"])
  | failed (e : String) : Printed (.error e) (concat ["\x7b\"Error\":", string e, "\x7d"])
  | absent : Printed (.keyFound none) "\x7b\"KeyFound\":null\x7d"
  | found (host : String) :
      Printed (.keyFound (some host)) (concat ["\x7b\"KeyFound\":", string host, "\x7d"])

theorem Json.response_printed {r : CaResponse} {json : String} (h : response r = .ok json) :
    Printed r json := by
  cases r with
  | signedCertificate cert =>
    cases ht : cert.toOpenssh with
    | error e => simp [response, ht, Except.map] at h
    | ok text =>
      rw [response, ht] at h
      obtain rfl := Except.ok.inj h
      exact .signed ht
  | error e =>
    obtain rfl := Except.ok.inj h
    exact .failed e
  | keyFound host =>
    cases host with
    | none =>
      obtain rfl := Except.ok.inj h
      exact .absent
    | some host =>
      obtain rfl := Except.ok.inj h
      exact .found host

theorem Json.printed_unique {r r' : CaResponse} {json json' : String} {x : List Char}
    (h : Printed r json) (h' : Printed r' json') (heq : json.toList ++ x = json'.toList) :
    r.Same r' := by
  have heq' := heq.trans (List.append_nil _).symm
  cases h with
  | signed text_of =>
    cases h' with
    | signed text_of' => rw [CaResponse.Same, text_of, text_of', object_unique heq']
    | failed e => simp [concat_toList] at heq
    | absent => simp [concat_toList] at heq
    | found host => simp [concat_toList] at heq
  | failed e =>
    cases h' with
    | signed text_of' => simp [concat_toList] at heq
    | failed e' => exact object_unique heq'
    | absent => simp [concat_toList] at heq
    | found host => simp [concat_toList] at heq
  | absent =>
    cases h' with
    | signed text_of' => simp [concat_toList] at heq
    | failed e => simp [concat_toList] at heq
    | absent => rfl
    | found host => simp [concat_toList, string] at heq
  | found host =>
    cases h' with
    | signed text_of' => simp [concat_toList] at heq
    | failed e => simp [concat_toList] at heq
    | absent => simp [concat_toList, string] at heq
    | found host' => exact congrArg some (object_unique heq')

namespace Wire

theorem bytes_append_inj {a b x y : Bytes} (ha : a.length < 4294967296) (hb : b.length < 4294967296)
    (heq : bytes a ++ x = bytes b ++ y) : a = b ∧ x = y := by
  rw [bytes, bytes, List.append_assoc, List.append_assoc] at heq
  obtain ⟨hfront, hrest⟩ := List.append_inj heq rfl
  have hcast : UInt32.ofNat a.length = UInt32.ofNat b.length := by
    simpa using congrArg fromBeBytes hfront
  have hlength : a.length = b.length := by
    have hmod := congrArg UInt32.toNat hcast
    rwa [UInt32.toNat_ofNat', UInt32.toNat_ofNat', Nat.mod_eq_of_lt ha, Nat.mod_eq_of_lt hb]
      at hmod
  exact List.append_inj hrest hlength

theorem string_append_inj {s t : String} {x y : Bytes} (hs : s.utf8ByteSize < 4294967296)
    (ht : t.utf8ByteSize < 4294967296) (heq : string s ++ x = string t ++ y) : s = t ∧ x = y := by
  obtain ⟨hbytes, hrest⟩ := bytes_append_inj (by rwa [utf8_length]) (by rwa [utf8_length]) heq
  have hread := congrArg fromUtf8 hbytes
  rw [fromUtf8_utf8, fromUtf8_utf8] at hread
  exact ⟨Option.some.inj hread, hrest⟩

theorem strings_inj {ss ts : List String} (hs : stringsSize ss < 4294967296)
    (ht : stringsSize ts < 4294967296) (heq : ss.flatMap string = ts.flatMap string) : ss = ts := by
  induction ss generalizing ts with
  | nil =>
    cases ts with
    | nil => rfl
    | cons t ts =>
      have hlength := congrArg List.length heq
      simp only [List.flatMap_nil, List.flatMap_cons, List.length_append, string_length,
        List.length_nil] at hlength
      omega
  | cons s ss ih =>
    cases ts with
    | nil =>
      have hlength := congrArg List.length heq
      simp only [List.flatMap_nil, List.flatMap_cons, List.length_append, string_length,
        List.length_nil] at hlength
      omega
    | cons t ts =>
      simp only [stringsSize, List.map_cons, List.sum_cons] at hs ht
      obtain ⟨rfl, hrest⟩ := string_append_inj (by omega) (by omega) heq
      rw [ih (by rw [stringsSize]; omega) (by rw [stringsSize]; omega) hrest]

end Wire

theorem typeCode_inj {t u : CertType}
    (h : toBeBytes (Certificate.typeCode t) = toBeBytes (Certificate.typeCode u)) : t = u := by
  cases t <;> cases u <;> first | rfl | exact absurd h (by decide)

theorem opensshText_body {algorithm comment comment' text : String} {body body' : Bytes}
    (h : opensshText algorithm body comment = .ok text)
    (h' : opensshText algorithm body' comment' = .ok text) : body = body' := by
  have hrest := List.append_cancel_left ((opensshText_toList h).symm.trans (opensshText_toList h'))
  have hsplit := splitAtFirst_append (space_not_mem_encode body)
    (if comment = "" then [] else comment.toList ++ [' '])
  rw [(List.cons.inj hrest).2, splitAtFirst_append (space_not_mem_encode body')] at hsplit
  exact (Base64.encode_injective (Prod.mk.inj (Option.some.inj hsplit)).1).symm

theorem opensshText_short {algorithm comment text : String} {body : Bytes}
    (h : opensshText algorithm body comment = .ok text) : body.length < 4294967296 := by
  rw [opensshText] at h
  split at h
  · next hlt => exact hlt
  · simp at h

theorem Certificate.toOpenssh_content {c c' : Certificate} {text : String}
    (h : c.toOpenssh = .ok text) (h' : c'.toOpenssh = .ok text)
    (hkey : c'.publicKey = c.publicKey) :
    c'.certType = c.certType ∧ c'.validPrincipals = c.validPrincipals := by
  have hlt := opensshText_short h
  have hlt' := opensshText_short h'
  rw [toOpenssh, hkey] at h'
  have heq := opensshText_body h' h
  rw [body, body, toBeSigned, toBeSigned, hkey] at heq
  simp only [List.append_assoc] at heq
  simp only [body, toBeSigned, List.length_append, Wire.bytes_length, Wire.string_length,
    Wire.strings_length] at hlt hlt'
  have heq := List.append_cancel_left heq
  obtain ⟨-, heq⟩ := Wire.bytes_append_inj (by omega) (by omega) heq
  have heq := List.append_cancel_left heq
  obtain ⟨-, heq⟩ := List.append_inj heq rfl
  obtain ⟨htype, heq⟩ := List.append_inj heq rfl
  obtain ⟨-, heq⟩ := Wire.string_append_inj (by omega) (by omega) heq
  have hstrings : ∀ ss, (ss.flatMap Wire.string).length = Wire.stringsSize ss := by
    intro ss
    have hsize := Wire.strings_length ss
    rw [Wire.strings, Wire.bytes_length] at hsize
    omega
  obtain ⟨hprincipals, -⟩ := Wire.bytes_append_inj (by rw [hstrings]; omega)
    (by rw [hstrings]; omega) heq
  exact ⟨typeCode_inj htype, Wire.strings_inj (by omega) (by omega) hprincipals⟩

end SshCertificateAuthority
