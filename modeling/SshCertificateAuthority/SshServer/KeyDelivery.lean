import SshCertificateAuthority.SshServer.SshHandler

namespace SshCertificateAuthority
open ByteStream Coroutine

def SessionOutput.ends : SessionOutput → Bool
  | .disconnect _ | .close _ => true
  | _ => false

-- russh calls `data` no more once the session was disconnected or the channel closed.
def deliverPieces (X : Crates) (server : SshCaServer) (w : World) (channel : Nat) :
    ConnectionHandler → List Bytes → SessionTask (List SessionOutput)
  | _, [] => .ret []
  | handler, piece :: pieces => do
    let reply ← handler.callback X server w (.data channel piece)
    if reply.output.any SessionOutput.ends then pure reply.output
    else do
      let rest ← deliverPieces X server w channel reply.handler pieces
      pure (reply.output ++ rest)

structure PasswordUser (handler : ConnectionHandler) (user : String) : Prop where
  username : handler.username = some user
  method : handler.authMethod = some .password

structure OneCertificate (X : Crates) (user : String) (key : PublicKey) (channel : Nat)
    (task : SessionTask (List SessionOutput)) : Prop where
  request : ∃ k, task = .ask (.signCertificate user key) k ∧
    ∀ cert text, X.certificateToOpenssh cert = .ok text →
      k (.ok (.signedCertificate cert)) = .ret (certificateReply channel text)

def FirstDenotes (X : Crates) (key : PublicKey) (pieces : List Bytes) : Prop :=
  ∃ first later, pieces = first :: later ∧ X.fromOpenssh (Text.fromUtf8Lossy first) = .ok key

section

variable {X : Crates} {server : SshCaServer} {w : World} {handler : ConnectionHandler}
  {user : String} {channel : Nat} {piece : Bytes} {pieces : List Bytes} {key : PublicKey}

theorem data_of_unparsed (hu : PasswordUser handler user) {e : String}
    (h : X.fromOpenssh (Text.fromUtf8Lossy piece) = .error e) :
    handler.callback X server w (.data channel piece) =
      .ret ⟨handler, .ok none, [.disconnect ("failed to read openssh public key: " ++ e)]⟩ := by
  simp only [ConnectionHandler.callback, handlerSignUserKey, hu.username, hu.method,
    parseOpensshKey, h]
  rfl

theorem data_of_parsed (hu : PasswordUser handler user)
    (h : X.fromOpenssh (Text.fromUtf8Lossy piece) = .ok key) :
    handler.callback X server w (.data channel piece) =
      signAndClose X channel (.signCertificate user key) >>= fun output =>
        .ret ⟨handler, .ok none, output⟩ := by
  simp only [ConnectionHandler.callback, handlerSignUserKey, hu.username, hu.method,
    parseOpensshKey, h]
  rfl

theorem deliverPieces_of_unparsed (hu : PasswordUser handler user) {e : String}
    (h : X.fromOpenssh (Text.fromUtf8Lossy piece) = .error e) :
    deliverPieces X server w channel handler (piece :: pieces) =
      .ret [.disconnect ("failed to read openssh public key: " ++ e)] := by
  rw [deliverPieces, data_of_unparsed hu h]
  rfl

theorem sendCertAndClose_ends (X : Crates) (cert : Certificate) (channel : Nat) :
    (sendCertAndClose X cert channel).any SessionOutput.ends = true := by
  unfold sendCertAndClose
  split
  · rfl
  · rfl

-- Whatever the authority answers, the reply to a key ends the channel or the session.
theorem signAndClose_last (request : CaRequest)
    (more : List SessionOutput → SessionTask (List SessionOutput)) :
    (signAndClose X channel request >>= fun output =>
      if output.any SessionOutput.ends then .ret output else more output) =
        signAndClose X channel request := by
  rw [signAndClose, sendSignRequest, ask_bind, ask_bind]
  refine congrArg _ (funext fun a => ?_)
  cases a with
  | error e => rfl
  | ok r =>
    cases r with
    | signedCertificate cert =>
      simp only [ret_bind, pure_eq, List.nil_append, sendCertAndClose_ends, if_true]
    | error e => rfl
    | keyFound host => rfl

theorem deliverPieces_of_parsed (hu : PasswordUser handler user)
    (h : X.fromOpenssh (Text.fromUtf8Lossy piece) = .ok key) :
    deliverPieces X server w channel handler (piece :: pieces) =
      signAndClose X channel (.signCertificate user key) := by
  rw [deliverPieces, data_of_parsed hu h, bind_bind]
  exact signAndClose_last _ fun output =>
    deliverPieces X server w channel handler pieces >>= fun rest => .ret (output ++ rest)

theorem signAndClose_one (X : Crates) (user : String) (key : PublicKey) (channel : Nat) :
    OneCertificate X user key channel (signAndClose X channel (.signCertificate user key)) := by
  obtain ⟨k, hask, hret⟩ := signAndClose_ask X channel (.signCertificate user key)
  refine ⟨k, hask, fun cert text htext => ?_⟩
  rw [hret, sendCertAndClose_of_text channel htext]

theorem deliverPieces_asks (hu : PasswordUser handler user)
    {k : Except String CaResponse → SessionTask (List SessionOutput)}
    (h : deliverPieces X server w channel handler pieces = .ask (.signCertificate user key) k) :
    FirstDenotes X key pieces := by
  cases pieces with
  | nil => simp [deliverPieces] at h
  | cons first later =>
    cases hp : X.fromOpenssh (Text.fromUtf8Lossy first) with
    | error e =>
      rw [deliverPieces_of_unparsed hu hp] at h
      simp at h
    | ok key' =>
      obtain ⟨k', hask, -⟩ := signAndClose_ask X channel (.signCertificate user key')
      rw [deliverPieces_of_parsed hu hp, hask, Coroutine.ask.injEq,
        CaRequest.signCertificate.injEq] at h
      obtain ⟨⟨-, rfl⟩, -⟩ := h
      exact ⟨first, later, rfl, hp⟩

theorem chunked_key_iff (server : SshCaServer) (w : World) (channel : Nat)
    (hu : PasswordUser handler user) {pieces : List Bytes}
    (hkey : X.fromOpenssh (Text.fromUtf8Lossy pieces.flatten) = .ok key) :
    (deliverPieces X server w channel handler pieces =
      deliverPieces X server w channel handler [pieces.flatten] ↔ FirstDenotes X key pieces) ∧
    (OneCertificate X user key channel (deliverPieces X server w channel handler pieces) ↔
      FirstDenotes X key pieces) := by
  have hone : FirstDenotes X key pieces →
      deliverPieces X server w channel handler pieces =
        signAndClose X channel (.signCertificate user key) := by
    rintro ⟨first, later, rfl, hfirst⟩
    exact deliverPieces_of_parsed hu hfirst
  rw [deliverPieces_of_parsed hu hkey]
  refine ⟨⟨fun h => ?_, hone⟩, fun h => ?_, fun h => ?_⟩
  · obtain ⟨k, hask, -⟩ := signAndClose_ask X channel (.signCertificate user key)
    exact deliverPieces_asks hu (h.trans hask)
  · obtain ⟨k, hask, -⟩ := h.request
    exact deliverPieces_asks hu hask
  · rw [hone h]
    exact signAndClose_one X user key channel

end

def aliceKey (comment : String) : PublicKey := { ed25519Key with comment }

def aliceText (comment : String) : String := ed25519Text ++ " " ++ comment

def aliceCrates : Crates :=
  { Crates.refusing with
    fromOpenssh := fun text =>
      if text = aliceText "alice@host" ∨ text = aliceText "alice@host\n" then
        .ok (aliceKey "alice@host")
      else if text = aliceText "alice" then .ok (aliceKey "alice")
      else .error "encoding invalid" }

def aliceHandler : ConnectionHandler := ConnectionHandler.new.loginWithPassword "alice"

def localSshServer : SshCaServer := ⟨false, []⟩

theorem aliceHandler_user : PasswordUser aliceHandler "alice" := ⟨rfl, rfl⟩

-- Only the newline, which parsing ignores, comes in a piece of its own.
theorem cut_newline_delivered :
    [utf8 (aliceText "alice@host"), utf8 "\n"].flatten = utf8 (aliceText "alice@host\n") ∧
    deliverPieces aliceCrates localSshServer bareWorld 0 aliceHandler
        [utf8 (aliceText "alice@host"), utf8 "\n"] =
      deliverPieces aliceCrates localSshServer bareWorld 0 aliceHandler
        [utf8 (aliceText "alice@host\n")] ∧
    OneCertificate aliceCrates "alice" (aliceKey "alice@host") 0
      (deliverPieces aliceCrates localSshServer bareWorld 0 aliceHandler
        [utf8 (aliceText "alice@host"), utf8 "\n"]) := by
  have hwhole : aliceCrates.fromOpenssh (Text.fromUtf8Lossy (utf8 (aliceText "alice@host\n"))) =
    .ok (aliceKey "alice@host") := by decide +kernel
  have hfirst : FirstDenotes aliceCrates (aliceKey "alice@host")
      [utf8 (aliceText "alice@host"), utf8 "\n"] :=
    ⟨_, _, rfl, by decide +kernel⟩
  have hflatten : [utf8 (aliceText "alice@host"), utf8 "\n"].flatten =
    utf8 (aliceText "alice@host\n") := by decide +kernel
  rw [← hflatten] at hwhole
  obtain ⟨hsame, hone⟩ := chunked_key_iff localSshServer bareWorld 0 aliceHandler_user hwhole
  rw [← hflatten]
  exact ⟨rfl, hsame.mpr hfirst, hone.mpr hfirst⟩

-- The comment is cut: the key that is signed is not the one that was sent.
theorem cut_comment_signed :
    [utf8 (aliceText "alice"), utf8 "@host"].flatten = utf8 (aliceText "alice@host") ∧
      (∃ k, deliverPieces aliceCrates localSshServer bareWorld 0 aliceHandler
        [utf8 (aliceText "alice"), utf8 "@host"] =
          .ask (.signCertificate "alice" (aliceKey "alice")) k) ∧
      ¬ OneCertificate aliceCrates "alice" (aliceKey "alice@host") 0
        (deliverPieces aliceCrates localSshServer bareWorld 0 aliceHandler
          [utf8 (aliceText "alice"), utf8 "@host"]) := by
  have hcut : aliceCrates.fromOpenssh (Text.fromUtf8Lossy (utf8 (aliceText "alice"))) =
    .ok (aliceKey "alice") := by decide +kernel
  obtain ⟨k, hk, -⟩ := signAndClose_ask aliceCrates 0 (.signCertificate "alice" (aliceKey "alice"))
  have hpieces : deliverPieces aliceCrates localSshServer bareWorld 0 aliceHandler
      [utf8 (aliceText "alice"), utf8 "@host"] =
        signAndClose aliceCrates 0 (.signCertificate "alice" (aliceKey "alice")) :=
    deliverPieces_of_parsed aliceHandler_user hcut
  refine ⟨by decide +kernel, ⟨k, hpieces.trans hk⟩, fun h => ?_⟩
  obtain ⟨k', hk', -⟩ := h.request
  rw [hpieces, hk, Coroutine.ask.injEq, CaRequest.signCertificate.injEq] at hk'
  exact absurd hk'.1.2 (by decide)

end SshCertificateAuthority
