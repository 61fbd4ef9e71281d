import SshCertificateAuthority.SshServer.KeySigners

namespace SshCertificateAuthority
open ByteStream Coroutine

def validateUsername (user : String) : Bool :=
  user.toList ≠ [] && user.utf8ByteSize ≤ 64 &&
    user.toList.all fun c => c.isAlphanum || c = '.' || c = '_' || c = '@' || c = '-'

def parseExecCommand (data : Bytes) : String × List String :=
  match Text.splitWhitespace (Text.fromUtf8Lossy data) with
  | [] => ("", [])
  | commandName :: args => (commandName, args)

abbrev Authenticator := World → String → String → Except String Bool

inductive Auth where
  | accept
  | reject
deriving DecidableEq, Repr

inductive RusshError where
  | requestDenied
  | sshKey (e : String)
deriving DecidableEq, Repr

structure SshCaServer where
  testAuth : Bool
  userAuthenticators : List Authenticator

inductive Callback where
  | authPassword (user password : String)
  | authPublickey (user : String) (publicKey : PublicKey)
  | channelOpenSession (channel : Nat)
  | data (channel : Nat) (data : Bytes)
  | execRequest (channel : Nat) (data : Bytes)
deriving DecidableEq, Repr

structure Reply where
  handler : ConnectionHandler
  result : Except RusshError (Option Auth)
  output : List SessionOutput

namespace ConnectionHandler

variable (X : Crates) (server : SshCaServer) (w : World) (handler : ConnectionHandler)

def new : ConnectionHandler := ⟨none, none, none⟩

def loginWithPassword (user : String) : ConnectionHandler :=
  { handler with username := some user, authMethod := some .password }

def authPassword (user password : String) : Reply :=
  if !validateUsername user then ⟨handler, .ok (some .reject), []⟩
  else if server.testAuth then
    if user = "test" ∧ password = "test" then
      ⟨handler.loginWithPassword user, .ok (some .accept), []⟩
    else ⟨handler, .ok (some .reject), []⟩
  else if server.userAuthenticators.any fun a => a w user password matches .ok true then
    ⟨handler.loginWithPassword user, .ok (some .accept), []⟩
  else ⟨handler, .error .requestDenied, []⟩

def keyReply (publicKey : PublicKey) : Option String → Reply
  | none => ⟨handler, .ok (some .reject), []⟩
  | some hostName =>
    ⟨{ username := some hostName, authMethod := some .publicKey, publicKey := some publicKey },
      .ok (some .accept), []⟩

def authPublickey (publicKey : PublicKey) : SessionTask Reply :=
  match X.toOpenssh publicKey with
  | .error _ => .stop .toOpenssh
  | .ok text =>
    match X.fromOpenssh text with
    | .error _ => .stop .fromOpenssh
    | .ok key =>
      .ask (.checkPublicKey key) fun
        | .ok (.keyFound found) => .ret (handler.keyReply publicKey found)
        | .ok (.error _) => .ret (handler.keyReply publicKey none)
        | .error _ => .ret (handler.keyReply publicKey none)
        | .ok (.signedCertificate _) => .stop .signedCertificateReply

def execRequest (channel : Nat) (data : Bytes) : SessionTask Reply :=
  match handler.publicKey, handler.username with
  | none, _ => .ret ⟨handler, .error .requestDenied, []⟩
  | some publicKey, username =>
    match X.toOpenssh publicKey, username with
    | .error e, _ => .ret ⟨handler, .error (.sshKey e), []⟩
    | .ok _, none => .ret ⟨handler, .error .requestDenied, []⟩
    | .ok pubKey, some hostName =>
      let commandName := (parseExecCommand data).1
      if commandName = "sign_host_key" then do
        let output ← handleSignHostKey X handler channel [hostName, pubKey]
        pure ⟨handler, .ok none, output⟩
      else .ret ⟨handler, .ok none, [.disconnect ("Unknown command: " ++ commandName)]⟩

def callback : Callback → SessionTask Reply
  | .authPassword user password => .ret (handler.authPassword server w user password)
  | .authPublickey _ publicKey => handler.authPublickey X publicKey
  | .channelOpenSession _ => .ret ⟨handler, .ok none, []⟩
  | .data channel data => do
    let output ← handlerSignUserKey X handler channel data
    pure ⟨handler, .ok none, output⟩
  | .execRequest channel data => handler.execRequest X channel data

end ConnectionHandler
end SshCertificateAuthority
