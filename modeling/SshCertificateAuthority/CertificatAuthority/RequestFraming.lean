import SshCertificateAuthority.CertificatAuthority.CaClient
import SshCertificateAuthority.CertificatAuthority.CaServer

namespace SshCertificateAuthority
open ByteStream

namespace CaClient

variable (client : CaClient) {X : Crates} (counter : UInt64) (request : CaRequest)

theorem encodeRequest_eq {json : String}
    (h : X.requestToString (client.authRequest counter request) = .ok json) :
    client.encodeRequest X counter request =
      let requestLen := UInt32.ofNat (utf8 json).length
      if maxMessageSize < requestLen then
        .error s!"Request size {requestLen} exceeds maximum allowed {maxMessageSize}"
      else .ok (frame (utf8 json)) := by
  simp only [encodeRequest, h, frame]

theorem encodeRequest_ok {sent : Bytes} (h : client.encodeRequest X counter request = .ok sent) :
    ∃ json, X.requestToString (client.authRequest counter request) = .ok json ∧
      sent = frame (utf8 json) ∧ UInt32.ofNat (utf8 json).length ≤ maxMessageSize := by
  cases hj : X.requestToString (client.authRequest counter request) with
  | error e => simp [encodeRequest, hj] at h
  | ok json =>
    rw [encodeRequest_eq client counter request hj] at h
    dsimp only at h
    split at h
    · simp at h
    · next hle => exact ⟨json, rfl, (Except.ok.inj h).symm, UInt32.not_lt.mp hle⟩

variable (X) in
def LosslessOrFails (payload : Bytes) : Prop :=
  ((∃ e, client.encodeRequest X counter request = .error e) ↔
    maxMessageSize.toNat < payload.length) ∧
  ∀ sent, client.encodeRequest X counter request = .ok sent →
    ∀ chunks : List Bytes, chunks.flatten = sent →
      ∃ unread, readFrame maxMessageSize chunks = .ok (payload, unread) ∧ unread.flatten = []

end CaClient

theorem authenticatedText_sign_size (token user key : String) (n : UInt64) (k : PublicKey) :
    (utf8 (Json.authenticatedText ⟨token, n, .signCertificate user k⟩ key)).length =
      81 + Json.escapedSize token + (toString n.toNat).utf8ByteSize + Json.escapedSize user +
        Json.escapedSize key := by
  have h1 : "\x7b\"token\":".utf8ByteSize = 9 := by decide
  have h2 : ",\"counter\":".utf8ByteSize = 11 := by decide
  have h3 : ",\"request\":".utf8ByteSize = 11 := by decide
  have h4 : "\x7b\"SignCertificate\":\x7b\"user\":".utf8ByteSize = 27 := by decide
  have h5 : ",\"public_key\":".utf8ByteSize = 14 := by decide
  have h6 : "\x7d\x7d".utf8ByteSize = 2 := by decide
  have h7 : "\x7d".utf8ByteSize = 1 := by decide
  simp only [utf8_length, Json.authenticatedText, Json.requestText, Json.concat_size, List.map_cons,
    List.map_nil, List.sum_cons, List.sum_nil, Json.string_size, h1, h2, h3, h4, h5, h6, h7]
  omega

theorem lengthCast_lt_iff (n : Nat) :
    maxMessageSize < UInt32.ofNat n ↔ maxMessageSize.toNat < n % 2 ^ 32 := by
  rw [UInt32.lt_iff_toNat_lt]
  simp

theorem request_framing_lossless_iff (X : Crates) (client : CaClient) (counter : UInt64)
    (request : CaRequest) (json : String)
    (h : X.requestToString (client.authRequest counter request) = .ok json) :
    client.LosslessOrFails X counter request (utf8 json) ↔
      (utf8 json).length < 2 ^ 32 ∨ maxMessageSize.toNat < (utf8 json).length % 2 ^ 32 := by
  have henc := client.encodeRequest_eq counter request h
  have hmax : maxMessageSize.toNat = 65536 := rfl
  constructor
  · rintro ⟨hfail, -⟩
    by_contra hbad
    obtain ⟨hlong, hcast⟩ := not_or.mp hbad
    rw [if_neg (mt (lengthCast_lt_iff _).mp hcast)] at henc
    obtain ⟨e, he⟩ := hfail.mpr (by omega)
    simp [henc] at he
  · intro hok
    by_cases hcast : maxMessageSize.toNat < (utf8 json).length % 2 ^ 32
    · rw [if_pos ((lengthCast_lt_iff _).mpr hcast)] at henc
      have hlong : maxMessageSize.toNat < (utf8 json).length := hcast.trans_le (Nat.mod_le _ _)
      exact ⟨⟨fun _ => hlong, fun _ => ⟨_, henc⟩⟩, fun sent hs => by simp [henc] at hs⟩
    · have hshort := hok.resolve_right hcast
      have hmod := Nat.mod_eq_of_lt hshort
      have hle := UInt32.not_lt.mp (mt (lengthCast_lt_iff (utf8 json).length).mp hcast)
      rw [if_neg (UInt32.not_lt.mpr hle)] at henc
      refine ⟨⟨fun ⟨e, he⟩ => by simp [henc] at he, fun hl => by omega⟩, ?_⟩
      intro sent hs chunks hc
      obtain rfl : frame (utf8 json) = sent := by simpa [henc] using hs
      obtain ⟨unread, hr, hu⟩ := readFrame_frame hc hle
      rw [hmod, List.take_length] at hr
      rw [hmod, List.drop_length] at hu
      exact ⟨unread, hr, hu⟩

def nameOfLength (n : Nat) : String := String.ofList (List.replicate n 'a')

theorem nameOfLength_size (n : Nat) : (nameOfLength n).utf8ByteSize = n := by
  have hc : Char.utf8Size 'a' = 1 := by decide
  simp [nameOfLength, utf8ByteSize_ofList, hc]

theorem escapedSize_nameOfLength (n : Nat) : Json.escapedSize (nameOfLength n) = n := by
  have h : (List.replicate n 'a').flatMap Json.escape = List.replicate n 'a' := by
    induction n with
    | zero => rfl
    | succ n ih =>
      rw [List.replicate_succ, List.flatMap_cons, ih]
      rfl
  have hc : Char.utf8Size 'a' = 1 := by decide
  simp [nameOfLength, Json.escapedSize, h, hc]

def signRequest (n : Nat) : CaRequest := .signCertificate (nameOfLength n) ed25519Key

def signRequestText (counter : UInt64) (n : Nat) : String :=
  Json.authenticatedText (localClient.authRequest counter (signRequest n))
    ed25519Text

theorem signRequest_json {X : Crates} (hX : X.WritesJson) (counter : UInt64) (n : Nat) :
    X.requestToString (localClient.authRequest counter (signRequest n)) =
      .ok (signRequestText counter n) := by
  rw [hX.request]
  exact Json.authenticatedRequest_eq ed25519Key_text

theorem signRequest_size (counter : UInt64) (n : Nat) :
    (utf8 (signRequestText counter n)).length =
      166 + (toString counter.toNat).utf8ByteSize + n := by
  have ht : Json.escapedSize localClient.authToken = 5 := by decide
  have hk : Json.escapedSize ed25519Text = 80 := by decide +kernel
  rw [signRequestText, CaClient.authRequest, signRequest, authenticatedText_sign_size,
    escapedSize_nameOfLength, ht, hk]
  omega

theorem request_framing_lossless_short :
    localClient.LosslessOrFails .refusing 1 (signRequest 8) (utf8 (signRequestText 1 8)) ↔
      (utf8 (signRequestText 1 8)).length < 2 ^ 32 ∨
        maxMessageSize.toNat < (utf8 (signRequestText 1 8)).length % 2 ^ 32 :=
  request_framing_lossless_iff .refusing localClient 1 (signRequest 8) (signRequestText 1 8)
    (signRequest_json Crates.refusing_writesJson 1 8)

theorem request_framing_truncates :
    ∃ json, Crates.refusing.requestToString (localClient.authRequest 1 (signRequest (2 ^ 32))) =
        .ok json ∧
      ¬ localClient.LosslessOrFails .refusing 1 (signRequest (2 ^ 32)) (utf8 json) := by
  have hdigit : (toString (1 : UInt64).toNat).utf8ByteSize = 1 := by decide
  have hjson := signRequest_json Crates.refusing_writesJson 1 (2 ^ 32)
  refine ⟨_, hjson, ?_⟩
  rw [request_framing_lossless_iff _ _ _ _ _ hjson, signRequest_size, hdigit]
  decide

end SshCertificateAuthority
