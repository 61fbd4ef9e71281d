import SshCertificateAuthority.Library.Base64
import SshCertificateAuthority.Library.Text
import Mathlib.Data.List.Infix

namespace SshCertificateAuthority
open ByteStream

structure KeyData where
  algorithm : String
  algorithm_word : ∀ c ∈ algorithm.toList, 32 < c.toNat
  fields : Bytes
deriving DecidableEq, Repr

structure PublicKey where
  keyData : KeyData
  comment : String
deriving DecidableEq, Repr

inductive CertType where
  | user
  | host
deriving DecidableEq, Repr

structure PrivateKey where
  publicKey : KeyData
  sign : Bytes → Option Bytes

structure Certificate where
  nonce : Bytes
  publicKey : KeyData
  serial : UInt64
  certType : CertType
  keyId : String
  validPrincipals : List String
  validAfter : Nat
  validBefore : Nat
  criticalOptions : List (String × String)
  extensions : List (String × String)
  comment : String
  signatureKey : KeyData
  signature : Bytes
deriving DecidableEq, Repr

namespace Wire

def u64 (n : Nat) : Bytes :=
  toBeBytes (.ofNat (n / 4294967296)) ++ toBeBytes (.ofNat n)

def bytes (bs : Bytes) : Bytes := toBeBytes (.ofNat bs.length) ++ bs

def string (s : String) : Bytes := bytes (utf8 s)

def strings (ss : List String) : Bytes := bytes (ss.flatMap string)

def optionData (data : String) : Bytes :=
  if data = "" then bytes [] else bytes (string data)

def options (os : List (String × String)) : Bytes :=
  bytes (os.flatMap fun o => string o.1 ++ optionData o.2)

def key (k : KeyData) : Bytes := bytes (string k.algorithm ++ k.fields)

end Wire

-- A field that does not fit its 32-bit length prefix makes the encoder fail.
def opensshText (algorithm : String) (body : Bytes) (comment : String) : Except String String :=
  if body.length < 4294967296 then
    .ok (algorithm ++ " " ++ String.ofList (Base64.encode body) ++
      if comment = "" then "" else " " ++ comment)
  else .error "length invalid"

def PublicKey.toOpenssh (k : PublicKey) : Except String String :=
  opensshText k.keyData.algorithm (Wire.string k.keyData.algorithm ++ k.keyData.fields) k.comment

def certAlgorithm (algorithm : String) : String :=
  if algorithm.toList.drop (algorithm.length - 12) = "@openssh.com".toList then
    String.ofList (algorithm.toList.take (algorithm.length - 12)) ++ "-cert-v01@openssh.com"
  else algorithm ++ "-cert-v01@openssh.com"

namespace Certificate

def typeCode : CertType → UInt32
  | .user => 1
  | .host => 2

def toBeSigned (c : Certificate) : Bytes :=
  Wire.string (certAlgorithm c.publicKey.algorithm) ++ Wire.bytes c.nonce ++ c.publicKey.fields ++
    Wire.u64 c.serial.toNat ++ toBeBytes (typeCode c.certType) ++ Wire.string c.keyId ++
    Wire.strings c.validPrincipals ++ Wire.u64 c.validAfter ++ Wire.u64 c.validBefore ++
    Wire.options c.criticalOptions ++ Wire.options c.extensions ++ Wire.bytes [] ++
    Wire.key c.signatureKey

def body (c : Certificate) : Bytes := c.toBeSigned ++ Wire.bytes c.signature

def toOpenssh (c : Certificate) : Except String String :=
  opensshText (certAlgorithm c.publicKey.algorithm) c.body c.comment

end Certificate

structure CertBuilder where
  nonce : Bytes
  publicKey : KeyData
  serial : Option UInt64
  certType : Option CertType
  keyId : Option String
  validPrincipals : Option (List String)
  validAfter : Nat
  validBefore : Nat
  criticalOptions : List (String × String)
  extensions : List (String × String)
  comment : Option String
deriving DecidableEq, Repr

namespace CertBuilder

def maxSecs : Nat := 9223372036854775807

def new (nonce : Bytes) (publicKey : KeyData) (validAfter validBefore : Nat) :
    Except String CertBuilder :=
  if maxSecs < validAfter then .error "certificate field invalid: valid after"
  else if maxSecs < validBefore ∨ validBefore < validAfter then
    .error "certificate field invalid: valid before"
  else
    .ok { nonce, publicKey, serial := none, certType := none, keyId := none,
          validPrincipals := none, validAfter, validBefore, criticalOptions := [],
          extensions := [], comment := none }

def setSerial (b : CertBuilder) (serial : UInt64) : Except String CertBuilder :=
  if b.serial.isSome then .error "certificate field invalid: serial"
  else .ok { b with serial := some serial }

def setKeyId (b : CertBuilder) (keyId : String) : Except String CertBuilder :=
  if b.keyId.isSome then .error "certificate field invalid: key id"
  else .ok { b with keyId := some keyId }

def setCertType (b : CertBuilder) (certType : CertType) : Except String CertBuilder :=
  if b.certType.isSome then .error "certificate field invalid: type"
  else .ok { b with certType := some certType }

def validPrincipal (b : CertBuilder) (principal : String) : Except String CertBuilder :=
  .ok { b with validPrincipals := some (b.validPrincipals.getD [] ++ [principal]) }

def setComment (b : CertBuilder) (comment : String) : Except String CertBuilder :=
  if b.comment.isSome then .error "certificate field invalid: comment"
  else .ok { b with comment := some comment }

def insertOption (o : String × String) : List (String × String) → List (String × String)
  | [] => [o]
  | p :: ps => if o.1 < p.1 then o :: p :: ps else p :: insertOption o ps

def extension (b : CertBuilder) (name data : String) : Except String CertBuilder :=
  if name ∈ b.extensions.map Prod.fst then .error "certificate field invalid: extensions"
  else .ok { b with extensions := insertOption (name, data) b.extensions }

def certificate (b : CertBuilder) (principals : List String) (key : PrivateKey) : Certificate where
  nonce := b.nonce
  publicKey := b.publicKey
  serial := b.serial.getD 0
  certType := b.certType.getD .user
  keyId := b.keyId.getD ""
  validPrincipals := principals
  validAfter := b.validAfter
  validBefore := b.validBefore
  criticalOptions := b.criticalOptions
  extensions := b.extensions
  comment := b.comment.getD ""
  signatureKey := key.publicKey
  signature := []

def sign (b : CertBuilder) (key : PrivateKey) : Except String Certificate :=
  match b.validPrincipals with
  | none => .error "certificate field invalid: valid principals"
  | some principals =>
    let cert := b.certificate principals key
    match key.sign cert.toBeSigned with
    | none => .error "cryptographic error"
    | some signature => .ok { cert with signature }

theorem insertOption_perm (o : String × String) (os : List (String × String)) :
    (insertOption o os).Perm (o :: os) := by
  induction os with
  | nil => exact List.Perm.refl _
  | cons p ps ih =>
    rw [insertOption]
    split
    · exact List.Perm.refl _
    · exact (ih.cons p).trans (List.Perm.swap o p ps)

end CertBuilder

def ed25519Key : PublicKey := ⟨⟨"ssh-ed25519", by simp, Wire.bytes (List.replicate 32 7)⟩, ""⟩

def ed25519Text : String :=
  "ssh-ed25519 AAAAC3NzaC1lZDI1NTE5AAAAIAcHBwcHBwcHBwcHBwcHBwcHBwcHBwcHBwcHBwcHBwcH"

theorem ed25519Key_text : ed25519Key.toOpenssh = .ok ed25519Text := by decide +kernel

def ed25519Signature : Bytes := Wire.string "ssh-ed25519" ++ Wire.bytes (List.replicate 64 7)

end SshCertificateAuthority
