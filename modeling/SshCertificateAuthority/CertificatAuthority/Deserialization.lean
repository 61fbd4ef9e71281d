import SshCertificateAuthority.CertificatAuthority.EnvelopeUniqueness

namespace SshCertificateAuthority
open ByteStream

inductive AnswerKind where
  | certificate
  | lookup
deriving DecidableEq, Repr

def CaRequest.kind : CaRequest → AnswerKind
  | .signCertificate _ _ | .signHostCertificate _ _ => .certificate
  | .checkPublicKey _ => .lookup

def CaResponse.kind : CaResponse → Option AnswerKind
  | .signedCertificate _ => some .certificate
  | .error _ => none
  | .keyFound _ => some .lookup

def Fits (q : CaRequest) (a : CaResponse) : Prop := a.kind = none ∨ a.kind = some q.kind

-- What serde_json decodes from the text of a value, or from a prefix of it, has the value's tag.
structure KeepsKind (X : Crates) : Prop where
  request : ∀ r json text r', X.requestToString r = .ok json → utf8 text <+: utf8 json →
    X.requestFromStr text = .ok r' → r'.request.kind = r.request.kind
  response : ∀ r json text r', X.responseToString r = .ok json → utf8 text <+: utf8 json →
    X.responseFromStr text = .ok r' → r'.kind = r.kind

def CaRequest.Denotes : CaRequest → CaRequest → Prop
  | .signCertificate user key, .signCertificate user' key' =>
    user' = user ∧ key'.keyData = key.keyData
  | .checkPublicKey key, .checkPublicKey key' => key'.keyData = key.keyData
  | .signHostCertificate hostName key, .signHostCertificate hostName' key' =>
    hostName' = hostName ∧ key'.keyData = key.keyData
  | _, _ => False

def CaResponse.Denotes : CaResponse → CaResponse → Prop
  | .signedCertificate c, .signedCertificate c' =>
    c'.certType = c.certType ∧ c'.publicKey = c.publicKey ∧ c'.validPrincipals = c.validPrincipals
  | .error e, .error e' => e' = e
  | .keyFound host, .keyFound host' => host' = host
  | _, _ => False

def Parsed (X : Crates) (key : KeyData) : Prop :=
  ∃ text k, X.fromOpenssh text = .ok k ∧ k.keyData = key

-- ssh-key and serde_json read back the key, the names and the principals that they wrote.
structure KeepsContent (X : Crates) : Prop where
  keyText : ∀ (k : PublicKey) text k', Parsed X k.keyData → X.toOpenssh k = .ok text →
    X.fromOpenssh text = .ok k' → k'.keyData = k.keyData
  request : ∀ r json text r', Parsed X r.request.publicKey.keyData →
    X.requestToString r = .ok json → utf8 text <+: utf8 json →
    X.requestFromStr text = .ok r' → r.request.Denotes r'.request
  response : ∀ r json text r', (∀ c, r = .signedCertificate c → Parsed X c.publicKey) →
    X.responseToString r = .ok json → utf8 text <+: utf8 json → X.responseFromStr text = .ok r' →
    r.Denotes r'

-- Reads back the texts of the values it knows.
def readBack {T : Type} (print : T → Except String String) (known : List T) (text : String) :
    Except String T :=
  match known.find? fun v => print v = .ok text with
  | some v => .ok v
  | none => .error "expected value"

section

variable {T : Type} {print : T → Except String String} {known : List T} {text : String} {v : T}

theorem readBack_eq_ok (h : readBack print known text = .ok v) :
    v ∈ known ∧ print v = .ok text := by
  rw [readBack] at h
  split at h
  · next u hu =>
    obtain rfl := Except.ok.inj h
    exact ⟨List.mem_of_find?_eq_some hu, by simpa using List.find?_some hu⟩
  · simp at h

theorem readBack_of_mem (hmem : v ∈ known) (hprint : print v = .ok text)
    (hunique : ∀ u ∈ known, print u = .ok text → u = v) : readBack print known text = .ok v := by
  cases hfind : known.find? fun u => print u = .ok text with
  | none => exact absurd hprint (by simpa using List.find?_eq_none.mp hfind v hmem)
  | some u =>
    rw [readBack, hfind, hunique u (List.mem_of_find?_eq_some hfind)
      (by simpa using List.find?_some hfind)]

theorem authenticatedRequest_text {r : AuthenticatedRequest} {json : String}
    (h : Json.authenticatedRequest r = .ok json) :
    ∃ key, r.request.publicKey.toOpenssh = .ok key ∧ Json.authenticatedText r key = json := by
  rw [Json.authenticatedRequest] at h
  cases hkey : r.request.publicKey.toOpenssh with
  | error e => simp [hkey, Except.map] at h
  | ok key => exact ⟨key, rfl, by simpa [hkey, Except.map] using h⟩

theorem request_read_back {known : List AuthenticatedRequest} {r r' : AuthenticatedRequest}
    {json text : String} (h : Json.authenticatedRequest r = .ok json)
    (hfront : utf8 text <+: utf8 json)
    (hread : readBack Json.authenticatedRequest known text = .ok r') : r' = r := by
  obtain ⟨-, hprint⟩ := readBack_eq_ok hread
  obtain ⟨key, hkey, rfl⟩ := authenticatedRequest_text h
  obtain ⟨key', hkey', rfl⟩ := authenticatedRequest_text hprint
  obtain ⟨x, hx⟩ := toList_front_of_utf8 hfront
  obtain ⟨htoken, hcounter, rfl, hrequest⟩ :=
    Json.authenticatedText_unique (hx.trans (List.append_nil _).symm)
  have hsame := hrequest (PublicKey.toOpenssh_injective hkey' hkey)
  obtain ⟨token, counter, request⟩ := r
  obtain ⟨token', counter', request'⟩ := r'
  dsimp only at htoken hcounter hsame
  rw [htoken, hcounter, hsame]

theorem certificate_printed {cert : Certificate} {json : String}
    (h : Json.response (.signedCertificate cert) = .ok json) :
    ∃ text, cert.toOpenssh = .ok text := by
  cases Json.response_printed h with
  | signed text_of => exact ⟨_, text_of⟩

theorem response_read_back {known : List CaResponse} {r r' : CaResponse} {json text : String}
    (h : Json.response r = .ok json) (hfront : utf8 text <+: utf8 json)
    (hread : readBack Json.response known text = .ok r') : r' ∈ known ∧ r'.Same r := by
  obtain ⟨hmem, hprint⟩ := readBack_eq_ok hread
  obtain ⟨x, hx⟩ := toList_front_of_utf8 hfront
  exact ⟨hmem, Json.printed_unique (Json.response_printed hprint) (Json.response_printed h) hx⟩

end

section

variable {X : Crates} {orders : List AuthenticatedRequest} {answers : List CaResponse}

theorem keepsKind_readBack (hX : X.WritesJson)
    (hr : X.requestFromStr = readBack Json.authenticatedRequest orders)
    (ha : X.responseFromStr = readBack Json.response answers) : KeepsKind X := by
  constructor
  · intro r json text r' h hfront hread
    rw [hX.request] at h
    rw [hr] at hread
    rw [request_read_back h hfront hread]
  · intro r json text r' h hfront hread
    rw [hX.response] at h
    rw [ha] at hread
    obtain ⟨-, hsame⟩ := response_read_back h hfront hread
    cases r <;> cases r' <;> first | rfl | exact hsame.elim

theorem keepsContent_readBack (hX : X.WritesJson)
    (hr : X.requestFromStr = readBack Json.authenticatedRequest orders)
    (ha : X.responseFromStr = readBack Json.response answers) (subject : PublicKey)
    (hkeys : ∀ text k, X.fromOpenssh text = .ok k → k = subject)
    (hcerts : ∀ cert, .signedCertificate cert ∈ answers → cert.publicKey = subject.keyData) :
    KeepsContent X := by
  have hparsed : ∀ key, Parsed X key → key = subject.keyData := by
    rintro key ⟨text, k, hk, rfl⟩
    rw [hkeys text k hk]
  constructor
  · intro k text k' hp _ hk'
    rw [hkeys text k' hk', hparsed _ hp]
  · intro r json text r' _ h hfront hread
    rw [hX.request] at h
    rw [hr] at hread
    rw [request_read_back h hfront hread]
    cases r.request with
    | signCertificate user key => exact ⟨rfl, rfl⟩
    | checkPublicKey key => rfl
    | signHostCertificate hostName key => exact ⟨rfl, rfl⟩
  · intro r json text r' hp h hfront hread
    rw [hX.response] at h
    rw [ha] at hread
    obtain ⟨hmem, hsame⟩ := response_read_back h hfront hread
    cases r with
    | signedCertificate cert =>
      cases r' with
      | signedCertificate cert' =>
        have hkey : cert'.publicKey = cert.publicKey := by
          rw [hcerts cert' hmem, hparsed _ (hp cert rfl)]
        obtain ⟨text, htext⟩ := certificate_printed h
        obtain ⟨htype, hprincipals⟩ :=
          Certificate.toOpenssh_content htext (hsame.trans htext) hkey
        exact ⟨htype, hkey, hprincipals⟩
      | error e => exact hsame.elim
      | keyFound host => exact hsame.elim
    | error e =>
      cases r' with
      | error e' => exact hsame
      | _ => exact hsame.elim
    | keyFound host =>
      cases r' with
      | keyFound host' => exact hsame
      | _ => exact hsame.elim

end

end SshCertificateAuthority
