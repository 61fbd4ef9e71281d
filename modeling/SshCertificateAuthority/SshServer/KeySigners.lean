import SshCertificateAuthority.CertificatAuthority.Environment
import SshCertificateAuthority.Library.Coroutine
import SshCertificateAuthority.Library.Text

namespace SshCertificateAuthority
open ByteStream Coroutine

inductive AuthMethod where
  | password
  | publicKey
deriving DecidableEq, Repr

structure ConnectionHandler where
  username : Option String
  authMethod : Option AuthMethod
  publicKey : Option PublicKey
deriving DecidableEq, Repr

inductive SessionOutput where
  | disconnect (message : String)
  | data (channel : Nat) (text : String)
  | exitStatus (channel : Nat) (status : Nat)
  | eof (channel : Nat)
  | close (channel : Nat)
deriving DecidableEq, Repr

inductive PanicSite where
  | signedCertificateReply
  | keyFoundReply
  | userNotSet
  | usernameUnwrap
  | toOpenssh
  | fromOpenssh
deriving DecidableEq, Repr

abbrev SessionTask (R : Type) := Coroutine CaRequest (Except String CaResponse) PanicSite R

variable (X : Crates)

def parseOpensshKey (raw : String) : Option PublicKey × List SessionOutput :=
  match X.fromOpenssh raw with
  | .ok key => (some key, [])
  | .error e => (none, [.disconnect ("failed to read openssh public key: " ++ e)])

def sendSignRequest (request : CaRequest) :
    SessionTask (Option Certificate × List SessionOutput) :=
  .ask request fun
    | .ok (.signedCertificate cert) => .ret (some cert, [])
    | .ok (.error e) => .ret (none, [.disconnect ("CA server error: " ++ e)])
    | .error e => .ret (none, [.disconnect ("Failed to send request to CA server: " ++ e)])
    | .ok (.keyFound _) => .stop .keyFoundReply

def sendCertAndClose (cert : Certificate) (channel : Nat) : List SessionOutput :=
  match X.certificateToOpenssh cert with
  | .error e => [.disconnect ("failed to convert cert to openssh format: " ++ e)]
  | .ok opensshCert =>
    [.data channel opensshCert, .exitStatus channel 0, .eof channel, .close channel]

def signAndClose (channel : Nat) (request : CaRequest) : SessionTask (List SessionOutput) := do
  match ← sendSignRequest request with
  | (none, output) => pure output
  | (some cert, output) => pure (output ++ sendCertAndClose X cert channel)

def handlerSignUserKey (handler : ConnectionHandler) (channel : Nat) (data : Bytes) :
    SessionTask (List SessionOutput) :=
  match handler.username with
  | none => .stop .userNotSet
  | some username =>
    if handler.authMethod = some .publicKey then
      .ret [.disconnect "Public key authenticated users can only request host certificates."]
    else
      match parseOpensshKey X (Text.fromUtf8Lossy data) with
      | (none, output) => .ret output
      | (some publicKey, _) => signAndClose X channel (.signCertificate username publicKey)

def validateHostname (hostName : String) : Except String Unit :=
  let name := hostName.toList
  if name = [] ∨ '/' ∈ name ∨ '\\' ∈ name ∨ ['.', '.'] <:+: name ∨ '\x00' ∈ name then
    .error s!"invalid host name: '{hostName}'"
  else .ok ()

def handleSignHostKey (handler : ConnectionHandler) (channel : Nat) :
    List String → SessionTask (List SessionOutput)
  | hostName :: key :: keys =>
    match validateHostname hostName with
    | .error e => .ret [.disconnect e]
    | .ok () =>
      match parseOpensshKey X (" ".intercalate (key :: keys)) with
      | (none, output) => .ret output
      | (some publicKey, _) =>
        if handler.username = none then .stop .usernameUnwrap
        else signAndClose X channel (.signHostCertificate hostName publicKey)
  | _ => .ret [.disconnect "Usage: sign_host_key <host_name> <public_key>"]

def certificateReply (channel : Nat) (text : String) : List SessionOutput :=
  [.data channel text, .exitStatus channel 0, .eof channel, .close channel]

theorem sendCertAndClose_of_text {X : Crates} {cert : Certificate} {text : String} (channel : Nat)
    (h : X.certificateToOpenssh cert = .ok text) :
    sendCertAndClose X cert channel = certificateReply channel text := by
  rw [sendCertAndClose, h]
  rfl

theorem signAndClose_ask (channel : Nat) (request : CaRequest) :
    ∃ k, signAndClose X channel request = .ask request k ∧
      ∀ cert, k (.ok (.signedCertificate cert)) = .ret (sendCertAndClose X cert channel) := by
  unfold signAndClose sendSignRequest
  rw [ask_bind]
  refine ⟨_, rfl, fun cert => ?_⟩
  simp only [ret_bind, pure_eq, List.nil_append]

end SshCertificateAuthority
