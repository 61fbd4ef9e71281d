import SshCertificateAuthority.IdentiyHandlers.PamAuth

namespace SshCertificateAuthority

def SshCaServer.ofAuthenticators (authenticators : List Authenticator) : SshCaServer :=
  ⟨false, authenticators⟩

def Granted (authenticators : List Authenticator) (w : World) (user password : String) : Prop :=
  validateUsername user = true ∧ ∃ a ∈ authenticators, a w user password = .ok true

structure PasswordLogin (authenticators : List Authenticator) (w : World)
    (handler : ConnectionHandler) (user password : String) (reply : Reply) : Prop where
  accept_iff : reply.result = .ok (some .accept) ↔ Granted authenticators w user password
  granted : Granted authenticators w user password →
    reply.handler = { handler with username := some user, authMethod := some .password }
  refused : ¬ Granted authenticators w user password →
    reply.result = .ok (some .reject) ∧ reply.handler = handler

namespace ConnectionHandler

variable {authenticators : List Authenticator} {w : World} {handler : ConnectionHandler}
  {user password : String}

theorem any_accepts_iff :
    (authenticators.any fun a => a w user password matches .ok true) = true ↔
      ∃ a ∈ authenticators, a w user password = .ok true := by
  rw [List.any_eq_true]
  refine exists_congr fun a => and_congr_right fun _ => ?_
  split
  · next h => simp [h]
  · next h => simpa using h

theorem authPassword_of_invalid (h : validateUsername user = false) :
    handler.authPassword (.ofAuthenticators authenticators) w user password =
      ⟨handler, .ok (some .reject), []⟩ := by
  rw [authPassword, h]
  rfl

theorem authPassword_of_granted (h : Granted authenticators w user password) :
    handler.authPassword (.ofAuthenticators authenticators) w user password =
      ⟨handler.loginWithPassword user, .ok (some .accept), []⟩ := by
  have hany := any_accepts_iff.mpr h.2
  rw [authPassword, h.1]
  exact if_pos hany

theorem authPassword_of_denied (hvalid : validateUsername user = true)
    (h : ∀ a ∈ authenticators, a w user password ≠ .ok true) :
    handler.authPassword (.ofAuthenticators authenticators) w user password =
      ⟨handler, .error .requestDenied, []⟩ := by
  have hany := mt any_accepts_iff.mp fun ⟨a, ha, hok⟩ => h a ha hok
  rw [authPassword, hvalid]
  exact if_neg hany

theorem authPassword_accept_iff :
    (handler.authPassword (.ofAuthenticators authenticators) w user password).result =
      .ok (some .accept) ↔ Granted authenticators w user password := by
  by_cases hgranted : Granted authenticators w user password
  · rw [authPassword_of_granted hgranted]
    exact iff_of_true rfl hgranted
  · refine iff_of_false (fun h => ?_) hgranted
    cases hvalid : validateUsername user with
    | false => simp [authPassword_of_invalid hvalid] at h
    | true =>
      have hdenied := fun a ha hok => hgranted ⟨hvalid, a, ha, hok⟩
      simp [authPassword_of_denied hvalid hdenied] at h

theorem password_login_exact_iff (authenticators : List Authenticator) (w : World)
    (handler : ConnectionHandler) (user password : String) :
    PasswordLogin authenticators w handler user password
        (handler.authPassword (.ofAuthenticators authenticators) w user password) ↔
      validateUsername user = false ∨ ∃ a ∈ authenticators, a w user password = .ok true := by
  constructor
  · intro h
    by_contra hnot
    obtain ⟨hvalid, hnone⟩ := not_or.mp hnot
    rw [Bool.not_eq_false] at hvalid
    have hdenied := fun a ha hok => hnone ⟨a, ha, hok⟩
    rw [authPassword_of_denied hvalid hdenied] at h
    simpa using (h.refused fun hg => hnone hg.2).1
  · rintro (hinvalid | hsome)
    · refine ⟨authPassword_accept_iff, fun hg => ?_, fun _ => ?_⟩
      · exact absurd hg.1 (by simp [hinvalid])
      · rw [authPassword_of_invalid hinvalid]
        exact ⟨rfl, rfl⟩
    · refine ⟨authPassword_accept_iff, fun hg => ?_, fun hg => ?_⟩
      · rw [authPassword_of_granted hg]
        rfl
      · have hinvalid : validateUsername user = false :=
          Bool.eq_false_iff.mpr fun hvalid => hg ⟨hvalid, hsome⟩
        rw [authPassword_of_invalid hinvalid]
        exact ⟨rfl, rfl⟩

def wrongPassword : Authenticator := fun _ _ _ => .ok false

theorem wrong_password_aborts :
    ¬ PasswordLogin [wrongPassword] bareWorld new "alice" "guess"
      (new.authPassword (.ofAuthenticators [wrongPassword]) bareWorld "alice" "guess") := by
  intro h
  have hnone : ∀ a ∈ [wrongPassword], a bareWorld "alice" "guess" ≠ .ok true := by
    simp [wrongPassword]
  have hreject := (h.refused fun ⟨_, a, ha, hok⟩ => hnone a ha hok).1
  rw [authPassword_of_denied (by decide) hnone] at hreject
  simp at hreject

variable {db : AccountDatabase}

def daemonAccounts : AccountDatabase := fun user => if user = "daemon" then some 1 else none

def daemonLogin (answer : Except String (Option UInt32))
    (h : ∀ uid, answer = .ok (some uid) → uid = 1) : LoginEnvironment daemonAccounts where
  lookup :=
    { fromName := fun user => if user = "daemon" then answer else .ok none
      found := fun user uid hf => by
        by_cases hu : user = "daemon"
        · rw [if_pos hu] at hf
          rw [daemonAccounts, if_pos hu, h uid hf]
        · simp [hu] at hf }
  pam := ⟨fun _ => .ok (), fun _ _ => .ok ()⟩

def foundDaemon : LoginEnvironment daemonAccounts :=
  daemonLogin (.ok (some 1)) fun uid h => by simpa using h.symm

def lostDaemon : LoginEnvironment daemonAccounts :=
  daemonLogin (.error "EIO: I/O error") fun uid h => by simp at h

theorem daemon_blocked : Blocked daemonAccounts "daemon" := Or.inr ⟨1, by rfl, by decide⟩

theorem blocked_accounts_iff (hblocked : Blocked db user) (password : String) :
    (∀ env : LoginEnvironment db,
      pamAuthenticateUser env user password ≠ .ok true ↔ Stopped env user password) ∧
    ∀ (envs : Nat → World → LoginEnvironment db) names authenticators w handler,
      setupUserAuthenticators envs names = .ok authenticators →
      ((authPassword (.ofAuthenticators authenticators) w handler user password).result ≠
          .ok (some .accept) ↔
        validateUsername user = false ∨ ∀ i < names.length, Stopped (envs i w) user password) := by
  refine ⟨fun env => pamAuthenticateUser_refused_iff hblocked, ?_⟩
  intro envs names authenticators w handler hsetup
  have hstopped : (∀ i < names.length, Stopped (envs i w) user password) ↔
      ∀ a ∈ authenticators, a w user password ≠ .ok true := by
    constructor
    · intro h a ha
      obtain ⟨i, hi, rfl⟩ := (mem_setupUserAuthenticators hsetup).mp ha
      exact (pamAuthenticateUser_refused_iff hblocked).mpr (h i hi)
    · intro h i hi
      have ha := (mem_setupUserAuthenticators hsetup).mpr ⟨i, hi, rfl⟩
      exact (pamAuthenticateUser_refused_iff hblocked).mp (h _ ha)
  rw [hstopped, ne_eq, authPassword_accept_iff, Granted, not_and_or, Bool.not_eq_true]
  apply or_congr_right
  simp

theorem daemon_stopped :
    (new.authPassword (.ofAuthenticators [pamAuthenticator fun _ => foundDaemon]) bareWorld
      "daemon" "guess").result ≠ .ok (some .accept) := by
  have hsetup : setupUserAuthenticators (fun _ _ => foundDaemon) ["pam"] =
    .ok [pamAuthenticator fun _ => foundDaemon] := rfl
  obtain ⟨-, hlogin⟩ := blocked_accounts_iff daemon_blocked "guess"
  exact (hlogin _ _ _ bareWorld new hsetup).mpr (Or.inr fun _ _ => .found rfl)

-- A lookup that fails lets the system account through to PAM.
theorem daemon_accepted :
    Blocked daemonAccounts "daemon" ∧ pamAuthenticateUser lostDaemon "daemon" "guess" = .ok true ∧
      (new.authPassword (.ofAuthenticators [pamAuthenticator fun _ => lostDaemon]) bareWorld
        "daemon" "guess").result = .ok (some .accept) := by
  have hpam : pamAuthenticateUser lostDaemon "daemon" "guess" = .ok true := by rfl
  have hmem := List.mem_singleton_self (pamAuthenticator fun _ => lostDaemon)
  exact ⟨daemon_blocked, hpam, authPassword_accept_iff.mpr ⟨by decide, _, hmem, hpam⟩⟩

end ConnectionHandler
end SshCertificateAuthority
