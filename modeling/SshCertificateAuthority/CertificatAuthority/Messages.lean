import SshCertificateAuthority.CertificatAuthority.Data

namespace SshCertificateAuthority
open ByteStream

namespace Json

def hexDigit (n : Nat) : Char := "0123456789abcdef".toList.getD n '0'

def escape (c : Char) : List Char :=
  if c = '"' then ['\\', '"']
  else if c = '\\' then ['\\', '\\']
  else if c = '\x08' then ['\\', 'b']
  else if c = '\x0c' then ['\\', 'f']
  else if c = '\n' then ['\\', 'n']
  else if c = '\r' then ['\\', 'r']
  else if c = '\t' then ['\\', 't']
  else if c.toNat < 32 then
    ['\\', 'u', '0', '0', hexDigit (c.toNat / 16), hexDigit (c.toNat % 16)]
  else [c]

def string (s : String) : String := "\"" ++ String.ofList (s.toList.flatMap escape) ++ "\""

def escapedSize (s : String) : Nat := ((s.toList.flatMap escape).map Char.utf8Size).sum

theorem string_size (s : String) : (string s).utf8ByteSize = escapedSize s + 2 := by
  simp only [string, String.utf8ByteSize_append, utf8ByteSize_ofList, escapedSize]
  have : ("\"" : String).utf8ByteSize = 1 := by decide
  omega

def concat (pieces : List String) : String := pieces.foldr (· ++ ·) ""

theorem concat_size (pieces : List String) :
    (concat pieces).utf8ByteSize = (pieces.map String.utf8ByteSize).sum := by
  induction pieces with
  | nil => rfl
  | cons s pieces ih =>
    rw [List.map_cons, List.sum_cons, ← ih]
    exact String.utf8ByteSize_append

def requestText (key : String) : CaRequest → String
  | .signCertificate user _ =>
    concat ["\x7b\"SignCertificate\":\x7b\"user\":", string user, ",\"public_key\":", string key,
      "\x7d\x7d"]
  | .checkPublicKey _ =>
    concat ["\x7b\"CheckPublicKey\":\x7b\"public_key\":", string key, "\x7d\x7d"]
  | .signHostCertificate hostName _ =>
    concat ["\x7b\"SignHostCertificate\":\x7b\"host_name\":", string hostName, ",\"public_key\":",
      string key, "\x7d\x7d"]

def authenticatedText (r : AuthenticatedRequest) (key : String) : String :=
  concat ["\x7b\"token\":", string r.token, ",\"counter\":", toString r.counter.toNat,
    ",\"request\":", requestText key r.request, "\x7d"]

def authenticatedRequest (r : AuthenticatedRequest) : Except String String :=
  r.request.publicKey.toOpenssh.map (authenticatedText r)

theorem authenticatedRequest_eq {r : AuthenticatedRequest} {key : String}
    (h : r.request.publicKey.toOpenssh = .ok key) :
    authenticatedRequest r = .ok (authenticatedText r key) := by
  rw [authenticatedRequest, h]
  rfl

def response : CaResponse → Except String String
  | .signedCertificate cert =>
    cert.toOpenssh.map fun text => concat ["\x7b\"SignedCertificate\":", string text, "\x7d"]
  | .error e => .ok (concat ["\x7b\"Error\":", string e, "\x7d"])
  | .keyFound none => .ok "\x7b\"KeyFound\":null\x7d"
  | .keyFound (some host) => .ok (concat ["\x7b\"KeyFound\":", string host, "\x7d"])

theorem response_plain (r : CaResponse) (h : ∀ cert, r ≠ .signedCertificate cert) :
    ∃ json, response r = .ok json := by
  cases r with
  | signedCertificate cert => exact absurd rfl (h cert)
  | error e => exact ⟨_, rfl⟩
  | keyFound host => cases host <;> exact ⟨_, rfl⟩

end Json
end SshCertificateAuthority
