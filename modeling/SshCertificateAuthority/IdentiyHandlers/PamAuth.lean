import SshCertificateAuthority.SshServer.SshHandler

namespace SshCertificateAuthority

abbrev AccountDatabase := String → Option UInt32

-- A lookup that finds an account finds the record of the database; it may also miss it or fail.
structure AccountLookup (db : AccountDatabase) where
  fromName : String → Except String (Option UInt32)
  found : ∀ user uid, fromName user = .ok (some uid) → db user = some uid

structure PamClient where
  withPassword : String → Except String Unit
  authenticate : String → String → Except String Unit

structure LoginEnvironment (db : AccountDatabase) where
  lookup : AccountLookup db
  pam : PamClient

def forbiddenUser (user : String) : String := s!"user {user} is forbidden from logging in"

variable {db : AccountDatabase}

def systemAccount (lookup : AccountLookup db) (user : String) : Bool :=
  match lookup.fromName user with
  | .ok (some uid) => uid < 1000
  | _ => false

def pamAuthenticateUser (env : LoginEnvironment db) (user password : String) :
    Except String Bool :=
  if user = "root" then .error (forbiddenUser user)
  else if systemAccount env.lookup user then .error (forbiddenUser user)
  else do
    env.pam.withPassword "login"
    env.pam.authenticate user password
    pure true

def pamAuthenticator (env : World → LoginEnvironment db) : Authenticator :=
  fun w user password => pamAuthenticateUser (env w) user password

-- Every configured authenticator meets its own lookup and its own answer of PAM.
def setupUserAuthenticators (envs : Nat → World → LoginEnvironment db) :
    List String → Outcome (List Authenticator)
  | [] => .ok []
  | name :: names =>
    if name = "pam" then do
      let authenticators ← setupUserAuthenticators (fun i => envs (i + 1)) names
      pure (pamAuthenticator (envs 0) :: authenticators)
    else .panic ("unknown user authenticator: " ++ name)

theorem mem_setupUserAuthenticators {envs : Nat → World → LoginEnvironment db}
    {names : List String} {authenticators : List Authenticator}
    (h : setupUserAuthenticators envs names = .ok authenticators) {a : Authenticator} :
    a ∈ authenticators ↔ ∃ i < names.length, a = pamAuthenticator (envs i) := by
  induction names generalizing envs authenticators with
  | nil =>
    obtain rfl := Outcome.ok.inj h
    simp
  | cons name names ih =>
    rw [setupUserAuthenticators] at h
    split at h
    · obtain ⟨rest, hrest, hall⟩ := Outcome.bind_eq_ok h
      obtain rfl := Outcome.ok.inj hall
      rw [List.mem_cons, ih hrest]
      constructor
      · rintro (ha | ⟨i, hi, ha⟩)
        · exact ⟨0, Nat.zero_lt_succ _, ha⟩
        · exact ⟨i + 1, Nat.succ_lt_succ hi, ha⟩
      · rintro ⟨i, hi, ha⟩
        cases i with
        | zero => exact Or.inl ha
        | succ i => exact Or.inr ⟨i, Nat.lt_of_succ_lt_succ hi, ha⟩
    · simp at h

def Blocked (db : AccountDatabase) (user : String) : Prop :=
  user = "root" ∨ ∃ uid, db user = some uid ∧ uid < 1000

inductive Stopped (env : LoginEnvironment db) (user password : String) : Prop where
  | root : user = "root" → Stopped env user password
  | found {uid : UInt32} : env.lookup.fromName user = .ok (some uid) → Stopped env user password
  | service {e : String} : env.pam.withPassword "login" = .error e → Stopped env user password
  | refused {e : String} : env.pam.authenticate user password = .error e →
    Stopped env user password

section

variable {env : LoginEnvironment db} {user password : String}

theorem systemAccount_of_blocked (hblocked : Blocked db user) (hroot : user ≠ "root")
    {uid : UInt32} (h : env.lookup.fromName user = .ok (some uid)) :
    systemAccount env.lookup user = true := by
  obtain hr | ⟨uid', hdb, hlow⟩ := hblocked
  · exact (hroot hr).elim
  · have hsame := env.lookup.found user uid h
    rw [hdb, Option.some.injEq] at hsame
    rw [systemAccount, h]
    exact decide_eq_true (hsame ▸ hlow)

theorem systemAccount_of_not_found (h : ∀ uid, env.lookup.fromName user ≠ .ok (some uid)) :
    systemAccount env.lookup user = false := by
  rw [systemAccount]
  split
  · next uid hf => exact (h uid hf).elim
  · rfl

theorem pamAuthenticateUser_refused_iff (hblocked : Blocked db user) :
    pamAuthenticateUser env user password ≠ .ok true ↔ Stopped env user password := by
  rw [pamAuthenticateUser]
  by_cases hroot : user = "root"
  · rw [if_pos hroot]
    exact iff_of_true (by simp) (.root hroot)
  · rw [if_neg hroot]
    by_cases hfound : ∃ uid, env.lookup.fromName user = .ok (some uid)
    · obtain ⟨uid, hf⟩ := hfound
      rw [if_pos (systemAccount_of_blocked hblocked hroot hf)]
      exact iff_of_true (by simp) (.found hf)
    · have hno := fun uid hf => hfound ⟨uid, hf⟩
      rw [systemAccount_of_not_found hno, if_neg (by simp)]
      cases hs : env.pam.withPassword "login" with
      | error e => exact iff_of_true (by simp [bind, Except.bind]) (.service hs)
      | ok u =>
        cases ha : env.pam.authenticate user password with
        | error e => exact iff_of_true (by simp [bind, Except.bind]) (.refused ha)
        | ok u =>
          apply iff_of_false (by simp [bind, Except.bind, pure, Except.pure])
          intro h
          cases h with
          | root h => exact hroot h
          | found h => exact hno _ h
          | service h => simp [hs] at h
          | refused h => simp [ha] at h

end

end SshCertificateAuthority
