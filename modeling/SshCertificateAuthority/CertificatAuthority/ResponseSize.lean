import SshCertificateAuthority.CertificatAuthority.CaServer
import Mathlib.Algebra.BigOperators.Group.List.Basic

namespace SshCertificateAuthority
open ByteStream

namespace Wire

@[simp] theorem u64_length (n : Nat) : (u64 n).length = 8 := rfl

@[simp] theorem bytes_length (bs : Bytes) : (bytes bs).length = 4 + bs.length := by
  rw [bytes, List.length_append, toBeBytes_length]

@[simp] theorem string_length (s : String) : (string s).length = 4 + s.utf8ByteSize := by
  rw [string, bytes_length, utf8_length]

def stringsSize (ss : List String) : Nat := (ss.map fun s => 4 + s.utf8ByteSize).sum

@[simp] theorem strings_length (ss : List String) :
    (strings ss).length = 4 + stringsSize ss := by
  rw [strings, bytes_length, List.length_flatMap, stringsSize]
  simp only [string_length]

def flagsSize (names : List String) : Nat := (names.map fun name => 8 + name.utf8ByteSize).sum

theorem options_length {os : List (String × String)} {names : List String}
    (h : os.Perm (names.map (·, ""))) : (options os).length = 4 + flagsSize names := by
  have hflag : ∀ name : String, (string name ++ optionData "").length = 8 + name.utf8ByteSize := by
    intro name
    rw [List.length_append, string_length, optionData, if_pos rfl, bytes_length, List.length_nil]
    omega
  rw [options, bytes_length, List.length_flatMap, (h.map _).sum_eq, List.map_map, flagsSize]
  simp only [Function.comp_def, hflag]

@[simp] theorem key_length (k : KeyData) :
    (key k).length = 8 + k.algorithm.utf8ByteSize + k.fields.length := by
  rw [key, bytes_length, List.length_append, string_length]
  omega

end Wire

def certificateBodySize (caKey subject : KeyData) (keyId : String)
    (principals extensions : List String) (signature : Bytes) : Nat :=
  84 + (certAlgorithm subject.algorithm).utf8ByteSize + subject.fields.length +
    keyId.utf8ByteSize + Wire.stringsSize principals + Wire.flagsSize extensions +
    caKey.algorithm.utf8ByteSize + caKey.fields.length + signature.length

theorem certificate_body_length {c : Certificate} (extensions : List String)
    (hnonce : c.nonce.length = 16) (hcritical : c.criticalOptions = [])
    (hextensions : c.extensions.Perm (extensions.map (·, ""))) :
    c.body.length = certificateBodySize c.signatureKey c.publicKey c.keyId c.validPrincipals
      extensions c.signature := by
  have hcrit : (Wire.options c.criticalOptions).length = 4 := by
    rw [hcritical]
    rfl
  simp only [Certificate.body, Certificate.toBeSigned, List.length_append, Wire.string_length,
    Wire.bytes_length, Wire.u64_length, toBeBytes_length, Wire.strings_length, hcrit,
    Wire.options_length hextensions, Wire.key_length, hnonce, List.length_nil, certificateBodySize]
  omega

namespace Json

theorem escapedSize_append (s t : String) :
    escapedSize (s ++ t) = escapedSize s + escapedSize t := by
  simp only [escapedSize, String.toList_append, List.flatMap_append, List.map_append,
    List.sum_append]

theorem escapedSize_base64 (bs : Bytes) :
    escapedSize (String.ofList (Base64.encode bs)) = 4 * ((bs.length + 2) / 3) := by
  have hplain : ∀ cs : List Char, (∀ c ∈ cs, c ∈ '=' :: Base64.alphabet) →
      ((cs.flatMap escape).map Char.utf8Size).sum = cs.length := by
    intro cs hcs
    induction cs with
    | nil => rfl
    | cons c cs ih =>
      have hall : ('=' :: Base64.alphabet).all
          (fun c => ((escape c).map Char.utf8Size).sum = 1) = true := by decide +kernel
      have hc : ((escape c).map Char.utf8Size).sum = 1 := by
        simpa using List.all_eq_true.mp hall c (hcs c List.mem_cons_self)
      rw [List.flatMap_cons, List.map_append, List.sum_append, hc,
        ih fun d hd => hcs d (List.mem_cons_of_mem c hd), List.length_cons, Nat.add_comm]
  rw [escapedSize, String.toList_ofList, hplain _ fun c => Base64.mem_encode,
    Base64.encode_length]

end Json

def commentSize (comment : String) : Nat :=
  if comment = "" then 0 else 1 + Json.escapedSize comment

def opensshSize (algorithm comment : String) (bodySize : Nat) : Nat :=
  Json.escapedSize algorithm + 1 + 4 * ((bodySize + 2) / 3) + commentSize comment

theorem opensshText_size {algorithm comment text : String} {body : Bytes}
    (h : opensshText algorithm body comment = .ok text) :
    Json.escapedSize text = opensshSize algorithm comment body.length := by
  have hspace : Json.escapedSize " " = 1 := by decide
  have hnone : Json.escapedSize "" = 0 := by decide
  rw [opensshText] at h
  split at h
  · obtain rfl := Except.ok.inj h
    rw [Json.escapedSize_append, Json.escapedSize_append, Json.escapedSize_append,
      Json.escapedSize_base64, hspace, opensshSize, commentSize]
    split
    · rw [hnone]
    · rw [Json.escapedSize_append, hspace]
  · simp at h

theorem opensshText_of_lt (algorithm comment : String) {body : Bytes}
    (h : body.length < 4294967296) : ∃ text, opensshText algorithm body comment = .ok text := by
  rw [opensshText, if_pos h]
  exact ⟨_, rfl⟩

def responseSize : CaResponse → Nat
  | .signedCertificate cert =>
    24 + opensshSize (certAlgorithm cert.publicKey.algorithm) cert.comment cert.body.length
  | .error e => 12 + Json.escapedSize e
  | .keyFound none => 17
  | .keyFound (some host) => 15 + Json.escapedSize host

theorem response_size {r : CaResponse} {json : String} (h : Json.response r = .ok json) :
    json.utf8ByteSize = responseSize r := by
  have h1 : "\x7b\"SignedCertificate\":".utf8ByteSize = 21 := by decide
  have h2 : "\x7b\"Error\":".utf8ByteSize = 9 := by decide
  have h3 : "\x7b\"KeyFound\":".utf8ByteSize = 12 := by decide
  have h4 : "\x7d".utf8ByteSize = 1 := by decide
  cases r with
  | signedCertificate cert =>
    cases ht : cert.toOpenssh with
    | error e => simp [Json.response, ht, Except.map] at h
    | ok text =>
      simp only [Json.response, ht, Except.map, Except.ok.injEq] at h
      rw [← h, responseSize, ← opensshText_size ht, Json.concat_size]
      simp only [List.map_cons, List.map_nil, List.sum_cons, List.sum_nil, Json.string_size, h1, h4]
      omega
  | error e =>
    obtain rfl := Except.ok.inj h
    simp only [Json.concat_size, List.map_cons, List.map_nil, List.sum_cons, List.sum_nil,
      Json.string_size, h2, h4, responseSize]
    omega
  | keyFound host =>
    cases host with
    | none =>
      obtain rfl := Except.ok.inj h
      decide
    | some name =>
      obtain rfl := Except.ok.inj h
      simp only [Json.concat_size, List.map_cons, List.map_nil, List.sum_cons, List.sum_nil,
        Json.string_size, h3, h4, responseSize]
      omega

theorem response_of_size_le {r : CaResponse} (h : responseSize r ≤ maxMessageSize.toNat) :
    ∃ json, Json.response r = .ok json := by
  cases r with
  | signedCertificate cert =>
    have hmax : maxMessageSize.toNat = 65536 := rfl
    simp only [responseSize, opensshSize, hmax] at h
    have hbody : cert.body.length < 4294967296 := by omega
    obtain ⟨text, htext⟩ := opensshText_of_lt (certAlgorithm cert.publicKey.algorithm) cert.comment
      hbody
    rw [Json.response, Certificate.toOpenssh, htext]
    exact ⟨_, rfl⟩
  | error e => exact ⟨_, rfl⟩
  | keyFound host =>
    cases host with
    | none => exact ⟨_, rfl⟩
    | some name => exact ⟨_, rfl⟩

end SshCertificateAuthority
