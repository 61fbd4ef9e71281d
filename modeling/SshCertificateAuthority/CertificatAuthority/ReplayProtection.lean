import SshCertificateAuthority.CertificatAuthority.CaServer
import SshCertificateAuthority.Library.Records

namespace SshCertificateAuthority
open ByteStream Records

def authenticFrame (X : Crates) (uid : Nat) (token : String) (c : Connection) :
    Option AuthenticatedRequest :=
  if c.peerCred = .ok uid then
    (framedPayload maxMessageSize c.chunks.flatten).bind fun payload =>
      (fromUtf8 payload).bind fun json =>
        (X.requestFromStr json).toOption.filter fun r => r.token = token
  else none

def counterOf (r : AuthenticatedRequest) : Nat := r.counter.toNat

theorem utf8_injective {s t : String} : utf8 s = utf8 t ↔ s = t := by
  constructor
  · intro h
    have := congrArg fromUtf8 h
    simpa using this
  · exact congrArg utf8

inductive Reception (s : CaServer) : Received → Option AuthenticatedRequest → Prop where
  | dropped : Reception s .dropped none
  | invalid (e : String) : Reception s (.refused (.error ("Invalid request format: " ++ e))) none
  | decoded (r : AuthenticatedRequest) :
      Reception s (s.authenticate r) (if r.token = s.authToken then some r else none)

namespace CaServer

variable (X : Crates)

theorem reception (s : CaServer) (c : Connection) :
    Reception s (s.receive X c) (authenticFrame X s.serverUid s.authToken c) := by
  unfold receive authenticFrame
  cases hc : c.peerCred with
  | error e => exact .dropped
  | ok uid =>
    by_cases hu : uid = s.serverUid
    · have hp := readFrame_payload maxMessageSize c.chunks
      subst hu
      simp only [ne_eq, not_true_eq_false, if_false, if_true, ← hp]
      cases readFrame maxMessageSize c.chunks with
      | error e => exact .dropped
      | ok r =>
        simp only [Except.toOption, Option.map_some, Option.bind_some]
        cases hj : fromUtf8 r.1 with
        | none => exact .dropped
        | some json =>
          cases hq : X.requestFromStr json with
          | error e => simpa [hq] using Reception.invalid e
          | ok q => simpa [hq, Option.filter] using Reception.decoded (s := s) q
    · simpa [hu] using Reception.dropped (s := s)

theorem authenticate_handed (s : CaServer) (r : AuthenticatedRequest) :
    (s.authenticate r).handed =
      if r.token = s.authToken ∧ s.lastCounter.toNat < counterOf r then [r] else [] := by
  rw [authenticate]
  by_cases ht : r.token = s.authToken
  · have hl : r.counter ≤ s.lastCounter ↔ ¬ s.lastCounter.toNat < counterOf r := by
      rw [UInt64.le_iff_toNat_le, Nat.not_lt, counterOf]
    by_cases hlt : s.lastCounter.toNat < counterOf r <;> simp [ht, hl, hlt, Received.handed]
  · simp [ht, utf8_injective, Received.handed]

theorem receive_step (s : CaServer) (c : Connection) :
    (s.receive X c).handed =
        sweep counterOf s.lastCounter.toNat
          (authenticFrame X s.serverUid s.authToken c).toList ∧
      (s.noted (s.receive X c)).lastCounter.toNat =
        top counterOf s.lastCounter.toNat (authenticFrame X s.serverUid s.authToken c).toList := by
  have h := reception X s c
  generalize s.receive X c = received at h ⊢
  generalize authenticFrame X s.serverUid s.authToken c = frame at h ⊢
  cases h with
  | dropped => exact ⟨rfl, rfl⟩
  | invalid e => exact ⟨rfl, rfl⟩
  | decoded r =>
    constructor
    · rw [authenticate_handed]
      by_cases ht : r.token = s.authToken <;> simp [ht, sweep]
    · have hh := authenticate_handed s r
      by_cases ht : r.token = s.authToken ∧ s.lastCounter.toNat < counterOf r
      · rw [if_pos ht] at hh
        cases hv : s.authenticate r with
        | dispatched q =>
          obtain rfl : q = r := by simpa [hv, Received.handed] using hh
          simpa [noted, ht.1, top, counterOf] using ht.2.le
        | dropped => simp [hv, Received.handed] at hh
        | refused _ => simp [hv, Received.handed] at hh
      · rw [if_neg ht] at hh
        have hn : s.noted (s.authenticate r) = s := by
          cases hv : s.authenticate r with
          | dispatched q => simp [hv, Received.handed] at hh
          | dropped => rfl
          | refused _ => rfl
        rw [hn]
        by_cases htok : r.token = s.authToken
        · have hle : counterOf r ≤ s.lastCounter.toNat := Nat.not_lt.mp fun hl => ht ⟨htok, hl⟩
          simp [htok, top, max_eq_left hle]
        · simp [htok]

def authenticAmong (uid : Nat) (token : String) (history : List (World × Connection)) :
    List AuthenticatedRequest :=
  history.filterMap fun p => authenticFrame X uid token p.2

theorem authenticAmong_cons (uid : Nat) (token : String) (w : World) (c : Connection)
    (history : List (World × Connection)) :
    authenticAmong X uid token ((w, c) :: history) =
      (authenticFrame X uid token c).toList ++ authenticAmong X uid token history := by
  unfold authenticAmong
  cases h : authenticFrame X uid token c <;> simp [h]

theorem run_records (s : CaServer) (history : List (World × Connection)) :
    let r := s.run X history
    let authentic := authenticAmong X s.serverUid s.authToken (history.take r.accepted)
    r.dispatched = sweep counterOf s.lastCounter.toNat authentic ∧
      r.server.lastCounter.toNat = top counterOf s.lastCounter.toNat authentic := by
  induction history generalizing s with
  | nil => exact ⟨rfl, rfl⟩
  | cons p history ih =>
    obtain ⟨w, c⟩ := p
    obtain ⟨hh, hl⟩ := receive_step X s c
    have hs := noted_steady s (s.receive X c)
    have hlast : authenticAmong X s.serverUid s.authToken (((w, c) :: history).take 1) =
        (authenticFrame X s.serverUid s.authToken c).toList := by
      rw [List.take_succ_cons, List.take_zero, authenticAmong_cons]
      simp [authenticAmong]
    simp only [run]
    cases ha : s.accept X w c with
    | ok r =>
      obtain ⟨t, out⟩ := r
      obtain rfl := accept_server X ha
      obtain ⟨hd, ht⟩ := ih (s.noted (s.receive X c))
      rw [hs.1, hs.2, hl] at hd ht
      simp only [List.take_succ_cons, authenticAmong_cons, sweep_append, top_append]
      exact ⟨by rw [hh, hd], ht⟩
    | err e => exact ⟨by rw [hlast]; exact hh, by rw [hlast]; exact hl⟩
    | panic site => exact ⟨by rw [hlast]; exact hh, by rw [hlast]; exact hl⟩

theorem receive_stranger {s : CaServer} {c : Connection}
    (h : authenticFrame X s.serverUid s.authToken c = none) :
    s.receive X c = .dropped ∨ ∃ e, s.receive X c = .refused (.error e) := by
  have hr := reception X s c
  generalize s.receive X c = received at hr
  generalize authenticFrame X s.serverUid s.authToken c = frame at h hr
  cases hr with
  | dropped => exact Or.inl rfl
  | invalid e => exact Or.inr ⟨_, rfl⟩
  | decoded r =>
    have ht : r.token ≠ s.authToken := by simpa using h
    exact Or.inr ⟨"authentication failed", by simp [authenticate, utf8_injective, ht]⟩

theorem accept_of_not_authentic {w : World} {s : CaServer} {c : Connection}
    (h : authenticFrame X s.serverUid s.authToken c = none) :
    (s.receive X c).handed = [] ∧ ∃ out, s.accept X w c = .ok (s, out) := by
  have hr := receive_stranger X h
  refine ⟨?_, accept_refused X hr⟩
  rcases hr with hr | ⟨e, hr⟩
  · rw [hr]
    rfl
  · rw [hr]
    rfl

theorem run_authentic_only (s : CaServer) (history : List (World × Connection)) :
    let kept := history.filter fun p => (authenticFrame X s.serverUid s.authToken p.2).isSome
    (s.run X history).dispatched = (s.run X kept).dispatched ∧
      (s.run X history).server = (s.run X kept).server := by
  induction history generalizing s with
  | nil => exact ⟨rfl, rfl⟩
  | cons p history ih =>
    obtain ⟨w, c⟩ := p
    cases hf : authenticFrame X s.serverUid s.authToken c with
    | none =>
      obtain ⟨hh, out, ha⟩ := accept_of_not_authentic X (w := w) hf
      simpa [run, ha, hh, hf] using ih s
    | some r =>
      simp only [List.filter_cons, hf, Option.isSome_some, if_true, run]
      cases ha : s.accept X w c with
      | ok q =>
        obtain ⟨t, out⟩ := q
        have hs := noted_steady s (s.receive X c)
        obtain rfl := accept_server X ha
        have := ih (s.noted (s.receive X c))
        rw [hs.1, hs.2] at this
        exact ⟨congrArg ((s.receive X c).handed ++ ·) this.1, this.2⟩
      | err e => exact ⟨rfl, rfl⟩
      | panic site => exact ⟨rfl, rfl⟩

theorem run_stopped (s : CaServer) (history : List (World × Connection)) :
    (s.run X history).accepted = history.length ∨
      ∃ before w c after, history = before ++ (w, c) :: after ∧
        (s.run X history).accepted = before.length + 1 ∧
        ∀ t out, (s.run X before).server.accept X w c ≠ .ok (t, out) := by
  induction history generalizing s with
  | nil => exact Or.inl rfl
  | cons p history ih =>
    obtain ⟨w, c⟩ := p
    cases ha : s.accept X w c with
    | ok q =>
      obtain ⟨t, out⟩ := q
      rcases ih t with hall | ⟨before, w', c', after, hsplit, hacc, hstop⟩
      · exact Or.inl (by simp [run, ha, hall])
      · refine Or.inr
          ⟨(w, c) :: before, w', c', after, by simp [hsplit], by simp [run, ha, hacc], ?_⟩
        simpa [run, ha] using hstop
    | err e => exact Or.inr ⟨[], w, c, history, rfl, by simp [run, ha], by simp [run, ha]⟩
    | panic site => exact Or.inr ⟨[], w, c, history, rfl, by simp [run, ha], by simp [run, ha]⟩

end CaServer

open CaServer in
theorem dispatched_are_left_to_right_maxima (X : Crates) (socketPath : String)
    (ca : CertificateAuthority) (token : String) (uid : Nat)
    (history : List (World × Connection)) :
    let server := CaServer.new socketPath ca token uid
    let r := server.run X history
    let authentic := authenticAmong X uid token (history.take r.accepted)
    r.dispatched = leftToRightMaxima counterOf 0 authentic ∧
      r.server.lastCounter.toNat = top counterOf 0 r.dispatched ∧
      r.dispatched.Pairwise (fun a b => counterOf a < counterOf b) ∧
      (∀ other : List (World × Connection),
        other.filter (fun p => (authenticFrame X uid token p.2).isSome) =
            history.filter (fun p => (authenticFrame X uid token p.2).isSome) →
          (server.run X other).dispatched = r.dispatched ∧
            (server.run X other).server = r.server) ∧
      (r.accepted = history.length ∨
        ∃ before w c after, history = before ++ (w, c) :: after ∧
          r.accepted = before.length + 1 ∧
          ∀ t out, (server.run X before).server.accept X w c ≠ .ok (t, out)) := by
  intro server r authentic
  obtain ⟨hd, hl⟩ := run_records X server history
  have hzero : server.lastCounter.toNat = 0 := rfl
  rw [hzero] at hd hl
  refine ⟨?_, ?_, ?_, ?_, run_stopped X server history⟩
  · rw [leftToRightMaxima_eq_sweep]
    exact hd
  · rw [hl, hd, top_sweep]
  · rw [hd]
    exact sweep_increasing counterOf 0 _
  · intro other hsame
    have ho := run_authentic_only X server other
    have hh := run_authentic_only X server history
    simp only [server, CaServer.new] at ho hh
    rw [hsame] at ho
    exact ⟨ho.1.trans hh.1.symm, ho.2.trans hh.2.symm⟩

end SshCertificateAuthority
