import SshCertificateAuthority.CertificatAuthority.Environment
import SshCertificateAuthority.Library.Text

namespace SshCertificateAuthority
open ByteStream

structure CaClient where
  socketPath : String
  authToken : String
deriving DecidableEq, Repr

namespace CaClient

variable (client : CaClient)

def fetchAdd (counter : UInt64) : UInt64 × UInt64 := (counter, counter + 1)

def checkedAddOne (prev : UInt64) : Option UInt64 :=
  if prev.toNat + 1 < 18446744073709551616 then some (prev + 1) else none

def exhausted : String := "IPC counter exhausted: restart the CA process to restore service"

def authRequest (counter : UInt64) (request : CaRequest) : AuthenticatedRequest where
  token := client.authToken
  counter := counter
  request := request

def encodeRequest (X : Crates) (counter : UInt64) (request : CaRequest) : Except String Bytes :=
  match X.requestToString (client.authRequest counter request) with
  | .error e => .error e
  | .ok requestJson =>
    let requestBytes := utf8 requestJson
    let requestLen := UInt32.ofNat requestBytes.length
    if maxMessageSize < requestLen then
      .error s!"Request size {requestLen} exceeds maximum allowed {maxMessageSize}"
    else .ok (toBeBytes requestLen ++ requestBytes)

def decodeResponse (X : Crates) (chunks : List Bytes) : Except String CaResponse :=
  match readFrame maxMessageSize chunks with
  | .error .length => .error "early eof"
  | .error (.tooLarge responseLen) =>
    .error s!"Response size {responseLen} exceeds maximum allowed {maxMessageSize}"
  | .error .payload => .error "early eof"
  | .ok (responseBuf, _) =>
    match fromUtf8 responseBuf with
    | none => .error (Text.utf8Error responseBuf)
    | some responseJson => X.responseFromStr responseJson

end CaClient

def localClient : CaClient := ⟨"/run/ssh_ca.sock", "token"⟩

end SshCertificateAuthority
