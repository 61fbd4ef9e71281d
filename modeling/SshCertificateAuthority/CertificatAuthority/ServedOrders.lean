import SshCertificateAuthority.CertificatAuthority.CertificateContents
import SshCertificateAuthority.CertificatAuthority.Conversation
import SshCertificateAuthority.CertificatAuthority.Deserialization
import SshCertificateAuthority.CertificatAuthority.InventoryPattern

namespace SshCertificateAuthority
open ByteStream UnixPath FileTree CertificateAuthority

def webCertificate : Certificate :=
  { certificateOf (weekWorld 0) localAuthority .host "host" "web" 1755000000
      (1755000000 + 30 * 86400) ["web"] [] ed25519Key with signature := ed25519Signature }

def aliceCertificate : Certificate :=
  { certificateOf (weekWorld 0) localAuthority .user "user" "alice" 1755000000
      (1755000000 + 7 * 86400) ["alice"] ["permit-pty"] ed25519Key with
    signature := ed25519Signature }

def orders : List AuthenticatedRequest :=
  [localClient.authRequest 1 (.checkPublicKey ed25519Key),
    localClient.authRequest 2 (.signHostCertificate "web" ed25519Key),
    localClient.authRequest 3 (.signCertificate "alice" ed25519Key)]

def guessedOrder : AuthenticatedRequest := ⟨"guess", 9, .checkPublicKey ed25519Key⟩

def answers : List CaResponse :=
  [.keyFound (some "web"), .signedCertificate webCertificate, .signedCertificate aliceCertificate]

def readingCrates : Crates :=
  { weekCrates with
    fromOpenssh := fun text =>
      if text = ed25519Text then .ok ed25519Key else .error "encoding invalid"
    glob := treeGlob
    requestFromStr := readBack Json.authenticatedRequest (guessedOrder :: orders)
    responseFromStr := readBack Json.response answers }

theorem readingCrates_writesJson : readingCrates.WritesJson where
  request := by simp only [readingCrates, weekCrates, webCrates, Crates.refusing]
  response := by simp only [readingCrates, weekCrates, webCrates, Crates.refusing]

theorem readingCrates_writesOpenssh : readingCrates.WritesOpenssh where
  key := by simp only [readingCrates, weekCrates, webCrates, Crates.refusing]
  certificate := by simp only [readingCrates, weekCrates, webCrates, Crates.refusing]

theorem ed25519Key_written : readingCrates.toOpenssh ed25519Key = .ok ed25519Text := by
  rw [readingCrates_writesOpenssh.key, ed25519Key_text]

theorem ed25519Text_read : readingCrates.fromOpenssh ed25519Text = .ok ed25519Key := by
  simp [readingCrates]

theorem ed25519Key_only {text : String} {k : PublicKey}
    (h : readingCrates.fromOpenssh text = .ok k) : k = ed25519Key := by
  simp only [readingCrates] at h
  split at h
  · exact (Except.ok.inj h).symm
  · simp at h

theorem keepsKind_reading : KeepsKind readingCrates :=
  keepsKind_readBack readingCrates_writesJson rfl rfl

theorem keepsContent_reading : KeepsContent readingCrates :=
  keepsContent_readBack readingCrates_writesJson rfl rfl ed25519Key (fun _ _ => ed25519Key_only) (by
    intro cert hmem
    simp only [answers, List.mem_cons, reduceCtorEq, CaResponse.signedCertificate.injEq,
      List.not_mem_nil, or_false, false_or] at hmem
    rcases hmem with rfl | rfl <;> rfl)

theorem host_certificate_signed :
    signHostCertificate readingCrates (weekWorld 0) localAuthority "web" ed25519Key =
      .ok webCertificate := by
  have hread : readHostConfig readingCrates (weekWorld 0).fs "web" localAuthority.config =
    .ok webConfig := webConfig_read 0
  rw [signHostCertificate_of_match hread ed25519Text_read rfl,
    issue_of_issuable _ _ ⟨by decide, by decide, by decide, by decide, by decide⟩]
  rfl

theorem user_certificate_signed :
    signCertificate readingCrates (weekWorld 0) localAuthority "alice" ed25519Key =
      .ok aliceCertificate := by
  have hread : readUserDefaults readingCrates (weekWorld 0).fs "alice" localAuthority.config =
    .ok weekDefaults := weekDefaults_read 0 "alice"
  rw [signCertificate_of_defaults hread,
    issue_of_issuable _ _ ⟨by decide, by decide, by decide, by decide, by decide⟩]
  rfl

def weekInventory : Location := ["etc".toList, "ssh_ca".toList, "hosts".toList]

theorem web_visited :
    visit readingCrates weekFs weekInventory ed25519Key "/etc/ssh_ca/hosts/web.toml".toList =
      .found webConfig := by
  have hloc : weekFs.canonicalize "/etc/ssh_ca/hosts/web.toml".toList =
    .ok (weekInventory ++ ["web.toml".toList]) := rfl
  have hwithin : startsWith (ofLocation (weekInventory ++ ["web.toml".toList]))
    (ofLocation weekInventory) = true := rfl
  have hread : readTomlFile readingCrates.hostConfigFromStr weekFs
    "/etc/ssh_ca/hosts/web.toml".toList = .ok webConfig := readTomlFile_of_read rfl
  simp only [visit, hloc, hwithin, hread, Bool.not_true, Bool.false_eq_true, if_false, webConfig,
    ed25519Text_read, ne_eq, not_true_eq_false]

theorem web_found :
    checkPublicKey readingCrates (weekWorld 0) localAuthority ed25519Text = .ok (some "web") := by
  have hbase : weekFs.canonicalize localConfig.hostInventory = .ok weekInventory := rfl
  have htext : toStr weekFs (ofLocation weekInventory) = some "/etc/ssh_ca/hosts" := rfl
  have hglob : readingCrates.glob weekFs (inventoryPattern weekInventory) =
    .ok [.ok "/etc/ssh_ca/hosts/web.toml".toList] := rfl
  have hflat : flattenOk [(.ok "/etc/ssh_ca/hosts/web.toml".toList : Except String Path)] =
    ["/etc/ssh_ca/hosts/web.toml".toList] := rfl
  have hfound : findConfigByPublicKey readingCrates weekFs ed25519Text localConfig =
      ⟨["/etc/ssh_ca/hosts/web.toml".toList], .ok (some ("web", webConfig))⟩ := by
    simp only [findConfigByPublicKey, ed25519Text_read, hbase, htext, hglob]
    rw [hflat, searchFiles, web_visited]
    rfl
  change ((findConfigByPublicKey readingCrates weekFs ed25519Text localConfig).result >>=
    fun found => pure (found.map Prod.fst)) = _
  rw [hfound]
  rfl

theorem orders_read_back {r : AuthenticatedRequest} (hmem : r ∈ guessedOrder :: orders)
    (hkey : r.request.publicKey = ed25519Key) :
    readingCrates.requestFromStr (Json.authenticatedText r ed25519Text) = .ok r := by
  have hcounters : ∀ u ∈ guessedOrder :: orders, ∀ v ∈ guessedOrder :: orders,
    u.counter = v.counter → u = v := by decide
  refine readBack_of_mem hmem (Json.authenticatedRequest_eq (hkey ▸ ed25519Key_text)) ?_
  intro u hu hprint
  obtain ⟨key, -, heq⟩ := authenticatedRequest_text hprint
  have hsame : (Json.authenticatedText u key).toList ++ [] =
      (Json.authenticatedText r ed25519Text).toList ++ [] := by rw [heq]
  obtain ⟨-, hcounter, -⟩ := Json.authenticatedText_unique hsame
  exact hcounters u hu r hmem hcounter

def CaResponse.text (r : CaResponse) : String := (Json.response r).toOption.getD ""

theorem answers_text {r : CaResponse} (hmem : r ∈ answers) :
    Json.response r = .ok r.text ∧ r.text.utf8ByteSize ≤ maxMessageSize.toNat := by
  have hsizes : ∀ r ∈ answers, responseSize r ≤ maxMessageSize.toNat := by decide +kernel
  obtain ⟨json, hjson⟩ := response_of_size_le (hsizes r hmem)
  have htext : r.text = json := by rw [CaResponse.text, hjson]; rfl
  exact ⟨by rw [htext, hjson], by rw [htext, response_size hjson]; exact hsizes r hmem⟩

theorem certificates_differ : webCertificate.toOpenssh ≠ aliceCertificate.toOpenssh := by
  intro hsame
  have hmem : .signedCertificate aliceCertificate ∈ answers := by simp [answers]
  obtain ⟨text, htext⟩ := certificate_printed (answers_text hmem).1
  obtain ⟨htype, -⟩ := Certificate.toOpenssh_content htext (hsame.trans htext) rfl
  exact absurd htype (by decide)

theorem answers_distinct {u r : CaResponse} (hu : u ∈ answers) (hr : r ∈ answers)
    (h : u.Same r) : u = r := by
  simp only [answers, List.mem_cons, List.not_mem_nil, or_false] at hu hr
  rcases hu with rfl | rfl | rfl <;> rcases hr with rfl | rfl | rfl
  · rfl
  · exact h.elim
  · exact h.elim
  · exact h.elim
  · rfl
  · exact absurd h certificates_differ
  · exact h.elim
  · exact absurd h.symm certificates_differ
  · rfl

theorem answers_read_back {r : CaResponse} (hmem : r ∈ answers) :
    readingCrates.responseFromStr r.text = .ok r := by
  refine readBack_of_mem hmem (answers_text hmem).1 fun u hu hprint => ?_
  exact answers_distinct hu hmem (Json.printed_unique (Json.response_printed hprint)
    (Json.response_printed (answers_text hmem).1) (List.append_nil _))

theorem answers_served {first : Ipc} {r : AuthenticatedRequest} {a : CaResponse}
    (hr : r ∈ orders) (hkey : r.request.publicKey = ed25519Key) (ha : a ∈ answers)
    (hclient : first.client = localClient)
    (hhandle : first.server.handleRequest readingCrates (weekWorld 0) r.request = .ok a) :
    ServedCall readingCrates first (weekWorld 0) r.counter r.request
      (Json.authenticatedText r ed25519Text) a a.text := by
  have hclients : ∀ r ∈ orders, localClient.authRequest r.counter r.request = r := by decide
  have hsizes : ∀ r ∈ orders, (Json.authenticatedText r ed25519Text).utf8ByteSize ≤
    maxMessageSize.toNat := by decide +kernel
  obtain ⟨htext, hshort⟩ := answers_text ha
  have hsame : first.client.authRequest r.counter r.request = r := hclient ▸ hclients r hr
  refine ⟨?_, hsizes r hr, ?_, hhandle, ?_, hshort⟩
  · rw [hsame, readingCrates_writesJson.request]
    exact Json.authenticatedRequest_eq (hkey ▸ ed25519Key_text)
  · rw [hsame]
    exact orders_read_back (.tail _ hr) hkey
  · rw [readingCrates_writesJson.response]
    exact htext

def orderText (t : UInt64) (request : CaRequest) : String :=
  Json.authenticatedText (localClient.authRequest t request) ed25519Text

theorem web_handled :
    localIpc.server.handleRequest readingCrates (weekWorld 0) (.checkPublicKey ed25519Key) =
      .ok (.keyFound (some "web")) := by
  unfold CaServer.handleRequest
  dsimp only
  rw [ed25519Key_written]
  dsimp only
  change (checkPublicKey readingCrates (weekWorld 0) localAuthority ed25519Text >>= _) = _
  rw [web_found]
  rfl

theorem host_handled :
    localIpc.server.handleRequest readingCrates (weekWorld 0)
      (.signHostCertificate "web" ed25519Key) = .ok (.signedCertificate webCertificate) := by
  change (signHostCertificate readingCrates (weekWorld 0) localAuthority "web" ed25519Key >>= _) = _
  rw [host_certificate_signed]
  rfl

theorem user_handled :
    localIpc.server.handleRequest readingCrates (weekWorld 0)
        (.signCertificate "alice" ed25519Key) =
      .ok (.signedCertificate aliceCertificate) := by
  change (signCertificate readingCrates (weekWorld 0) localAuthority "alice" ed25519Key >>= _) = _
  rw [user_certificate_signed]
  rfl

theorem orders_served {t : UInt64} {request : CaRequest} {a : CaResponse}
    (hr : localClient.authRequest t request ∈ orders) (hkey : request.publicKey = ed25519Key)
    (ha : a ∈ answers)
    (hhandle : localIpc.server.handleRequest readingCrates (weekWorld 0) request = .ok a) :
    ServedCall readingCrates localIpc (weekWorld 0) t request (orderText t request) a
      a.text :=
  answers_served hr hkey ha rfl hhandle

def twoCalls : List IpcStep :=
  (.connect 0 (.checkPublicKey ed25519Key) :: Ipc.converse 0 (weekWorld 0)
    (orderText 1 (.checkPublicKey ed25519Key)) (CaResponse.keyFound (some "web")).text) ++
  [.connect 1 (.signHostCertificate "web" ed25519Key)]

def secondAnswer : List IpcStep :=
  Ipc.converse 1 (weekWorld 0) (orderText 2 (.signHostCertificate "web" ed25519Key))
    (CaResponse.signedCertificate webCertificate).text

theorem twoCalls_run :
    ∃ s call, Run.run (Ipc.step readingCrates) localIpc (twoCalls ++ secondAnswer) = some s ∧
      Ipc.Rested localIpc 2 s ∧ s.calls 1 = some call ∧
        call.phase = .returned (.ok (.signedCertificate webCertificate)) := by
  have hfound : .keyFound (some "web") ∈ answers := by simp [answers]
  have hsigned : .signedCertificate webCertificate ∈ answers := by simp [answers]
  have hstart := Ipc.start_rested "/run/ssh_ca.sock" "token" localAuthority 1000
  obtain ⟨s₁, h₁, s₂, -, h₂, r₂, -⟩ := Ipc.converse_run hstart (by decide) rfl
    (orders_served (t := 1) (by simp [orders]) rfl hfound web_handled)
  obtain ⟨s₃, h₃, s₄, call, h₄, r₄, hcall, hphase⟩ := Ipc.converse_run r₂ (by decide) rfl
    (orders_served (t := 2) (by simp [orders]) rfl hsigned host_handled)
  rw [answers_read_back hsigned] at hphase
  refine ⟨s₄, call, ?_, r₄, hcall, hphase⟩
  have hfirst := (Run.run_cons_eq_some _).mpr ⟨s₁, h₁, h₂⟩
  have hconnect : Run.run (Ipc.step readingCrates) s₂
      [.connect 1 (.signHostCertificate "web" ed25519Key)] = some s₃ :=
    (Run.run_cons_eq_some _).mpr ⟨s₃, h₃, rfl⟩
  rw [twoCalls, secondAnswer]
  exact Run.run_appended (Run.run_appended hfirst hconnect) h₄

end SshCertificateAuthority
