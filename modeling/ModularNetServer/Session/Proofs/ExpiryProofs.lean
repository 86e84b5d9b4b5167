import ModularNetServer.Session.ServedSessions

/-!
# Expired sessions

No look-up of a session reads its `expireTime`, and nothing ticks the timers that would remove it. An
expired session is found until it is removed, and refreshing it makes it last again.
-/

namespace ModularNetServer

open Cxx

namespace SessionManager

/-- The manager holds the sessions of the ledger with their data, and their deadlines as long as these
    have not passed. -/
structure Agrees (m : SessionManager) (ledger : SessionLedger) (clock : Int) : Prop where
  data : ∀ id, (m.sessions id).map Session.data = (ledger id).map SessionRecord.data
  deadline : ∀ id, ∀ session ∈ m.sessions id, ∀ r ∈ ledger id, clock < r.deadline →
    session.expireTime = r.deadline

variable {m : SessionManager} {ledger : SessionLedger} {clock : Int}

theorem Agrees.isSome_eq (h : m.Agrees ledger clock) (id : Str) :
    (m.sessions id).isSome = (ledger id).isSome := by
  have hdata := congrArg Option.isSome (h.data id)
  rwa [Option.isSome_map, Option.isSome_map] at hdata

/-- A session and its record. -/
theorem Agrees.cases (h : m.Agrees ledger clock) (id : Str) :
    (m.sessions id = none ∧ ledger id = none) ∨
      ∃ session r, m.sessions id = some session ∧ ledger id = some r ∧ session.data = r.data := by
  have hdata := h.data id
  rcases hs : m.sessions id with _ | session
  · rw [hs] at hdata
    exact .inl ⟨rfl, Option.map_eq_none_iff.mp hdata.symm⟩
  · rw [hs] at hdata
    obtain ⟨r, hr, hrd⟩ := Option.map_eq_some_iff.mp hdata.symm
    exact .inr ⟨session, r, rfl, hr, hrd.symm⟩

/-- Time goes by. -/
theorem Agrees.mono (h : m.Agrees ledger clock) {clock' : Int} (hle : clock ≤ clock') :
    m.Agrees ledger clock' :=
  ⟨h.data, fun id session hs r hr hlt => h.deadline id session hs r hr (by omega)⟩

/-- A session and its record are written. -/
theorem Agrees.insert (h : m.Agrees ledger clock) {m' : SessionManager} {id : Str} {session : Session}
    {r : SessionRecord} (hm : m'.sessions = m.sessions.insert id session) (hdata : session.data = r.data)
    (hdeadline : clock < r.deadline → session.expireTime = r.deadline) :
    m'.Agrees (ledger.insert id r) clock := by
  refine ⟨?_, ?_⟩
  · intro id'
    rw [hm]
    by_cases hid : id' = id
    · subst hid
      simp [hdata]
    · rw [Table.insert_of_ne _ hid, Table.insert_of_ne _ hid]
      exact h.data id'
  · intro id' session' hs' r' hr'
    rw [hm] at hs'
    by_cases hid : id' = id
    · subst hid
      rw [Table.insert_self, Option.mem_some] at hs' hr'
      subst hs' hr'
      exact hdeadline
    · rw [Table.insert_of_ne _ hid] at hs' hr'
      exact h.deadline id' session' hs' r' hr'

/-! ## Calls -/

/-- `refresh` writes the session that it finds. -/
theorem sessions_refresh (m : SessionManager) (now1 now2 : Int) (id : Str) (timeoutMs : Int) :
    (m.refresh now1 now2 id timeoutMs).sessions =
      match m.sessions id with
      | none => m.sessions
      | some session =>
        m.sessions.insert id { session with expireTime := TimerNode.after now1 timeoutMs } := by
  unfold refresh
  rcases m.sessions id with _ | session
  · rfl
  · rcases m.sessionTimers id with _ | timerId <;> rfl

theorem Agrees.refresh (h : m.Agrees ledger clock) {now1 : Int} (hle : now1 ≤ clock) (now2 : Int)
    (id : Str) (timeoutMs : Int) :
    (m.refresh now1 now2 id timeoutMs).Agrees (ledger.refresh now1 id timeoutMs) clock := by
  have hsessions := sessions_refresh m now1 now2 id timeoutMs
  rcases h.cases id with ⟨hs, hr⟩ | ⟨session, r, hs, hr, hdata⟩
  · have hm : m.refresh now1 now2 id timeoutMs = m := by
      unfold SessionManager.refresh
      rw [hs]
    unfold SessionLedger.refresh
    rw [hm, hr]
    exact h
  · rw [hs] at hsessions
    unfold SessionLedger.refresh
    rw [hr]
    dsimp only
    split_ifs with halive
    · exact h.insert hsessions hdata (fun _ => rfl)
    · -- the record of an expired session stays, whatever deadline the session gets
      have hrecord : ledger.insert id r = ledger := by
        funext id'
        rw [Table.insert_apply]
        split_ifs with hid
        · rw [hid, hr]
        · rfl
      have hwritten := h.insert (r := r) hsessions hdata (fun hlt => absurd (by omega) halive)
      rwa [hrecord] at hwritten

theorem sessions_isSessionIdExpired (m : SessionManager) (now : Int) (id : Str) :
    (m.isSessionIdExpired now id).2.sessions = m.sessions := by
  unfold isSessionIdExpired
  split <;> rfl

theorem Agrees.of_sessions_eq (h : m.Agrees ledger clock) {m' : SessionManager}
    (hm : m'.sessions = m.sessions) : m'.Agrees ledger clock := by
  refine ⟨?_, ?_⟩
  · rw [hm]
    exact h.data
  · rw [hm]
    exact h.deadline

/-- The ledger keeps up with every call. -/
theorem Agrees.call (h : m.Agrees ledger clock) (c : SessionCall) (htimes : ∀ t ∈ c.times, t ≤ clock) :
    (m.call c).Agrees (ledger.call c) clock := by
  cases c with
  | createSession now1 now2 now3 tid timeoutMs => exact h.insert rfl rfl (fun _ => rfl)
  | set id key value =>
    simp only [SessionManager.call, SessionManager.set, SessionLedger.call]
    rcases h.cases id with ⟨hs, hr⟩ | ⟨session, r, hs, hr, hdata⟩
    · rw [hs, hr]
      exact h
    · rw [hs, hr]
      exact h.insert rfl (by simp [hdata]) (fun hlt => h.deadline id session hs r hr hlt)
  | get => exact h
  | sessionExists => exact h
  | isSessionIdValid => exact h
  | refresh now1 now2 id timeoutMs =>
    exact h.refresh (htimes now1 (by simp [SessionCall.times])) now2 id timeoutMs
  | removeSession id =>
    refine ⟨?_, ?_⟩
    · intro id'
      show ((m.sessions.erase id) id').map _ = ((ledger.erase id) id').map _
      rw [Table.erase_apply, Table.erase_apply]
      split_ifs
      · rfl
      · exact h.data id'
    · intro id' session hs r hr
      exact h.deadline id' session (Table.of_erase_eq_some hs).2 r (Table.of_erase_eq_some hr).2
  | parseAuthContext now id =>
    simp only [SessionManager.call, SessionLedger.call]
    split_ifs
    · exact h.of_sessions_eq (sessions_isSessionIdExpired m now id)
    · exact h
  | refreshSession now1 now2 id =>
    simp only [SessionManager.call, SessionLedger.call]
    split_ifs with hid hexists
    · exact h
    · exact h.refresh (htimes now1 (by simp [SessionCall.times])) now2 id 1800000
    · have hrefresh := h.refresh (htimes now1 (by simp [SessionCall.times])) now2 id 1800000
      refine hrefresh.of_sessions_eq ?_
      rw [sessions_refresh]
      rcases hs : m.sessions id with _ | session
      · rfl
      · exact absurd (by simp [sessionExists, hs]) hexists

/-! ## Look-ups -/

/-- A session is not alive if it has passed its deadline, or is not there. -/
theorem not_alive_iff (ledger : SessionLedger) (now : Int) (id : Str) :
    decide (ledger.Alive now id) = false ↔ ∀ r ∈ ledger id, r.deadline ≤ now := by
  rw [decide_eq_false_iff_not]
  unfold SessionLedger.Alive
  simp

/-- Finding what the ledger has is right if it has not passed its deadline. -/
theorem found_iff (ledger : SessionLedger) (now : Int) (id : Str) :
    (decide (ledger.Alive now id) = false → (ledger id).isSome = false) ↔
      ∀ r ∈ ledger id, now < r.deadline := by
  rw [not_alive_iff]
  rcases ledger id with _ | r
  · simp
  · simp

/-- Refreshing neither makes nor removes a session. -/
theorem isSome_refresh (m : SessionManager) (now1 now2 : Int) (id : Str) (timeoutMs : Int) :
    ((m.refresh now1 now2 id timeoutMs).sessions id).isSome = (m.sessions id).isSome := by
  rw [sessions_refresh]
  rcases hs : m.sessions id with _ | session
  · simp [hs]
  · simp

/-- What a call other than `get` finds is what the ledger has. -/
theorem Agrees.lookup_looksUp (h : m.Agrees ledger clock) {c : SessionCall} {now : Int} {id : Str}
    (hc : c.looksUp = some (now, id)) :
    m.lookup ledger c = some ⟨decide (ledger.Alive now id), (ledger id).isSome⟩ := by
  have hsome := h.isSome_eq id
  cases c with
  | createSession => cases hc
  | set => cases hc
  | get => cases hc
  | sessionExists now' id' =>
    cases hc
    simp only [lookup, SessionManager.sessionExists, hsome]
  | isSessionIdValid now' id' =>
    cases hc
    simp only [lookup, isSessionIdValid, SessionManager.sessionExists, hsome]
  | refresh now1 now2 id' timeoutMs =>
    cases hc
    simp only [lookup, isSessionIdValid, SessionManager.sessionExists, SessionManager.call,
      isSome_refresh, hsome]
  | removeSession => cases hc
  | parseAuthContext now' id' =>
    cases hc
    simp only [lookup, isSessionIdValid, SessionManager.sessionExists, hsome]
  | refreshSession now1 now2 id' =>
    simp only [SessionCall.looksUp] at hc
    split_ifs at hc with hid
    cases hc
    simp only [lookup, isSessionIdValid, SessionManager.sessionExists, SessionManager.call, if_neg hid,
      hsome]
    split_ifs with hexists
    · rw [isSome_refresh, hsome]
    · rw [hsome]

/-- What `get` answers is what the ledger has. -/
theorem Agrees.get (h : m.Agrees ledger clock) (id key : Str) :
    m.get id key = ((ledger id).bind (fun r => r.data key)).getD [] := by
  unfold SessionManager.get
  rcases h.cases id with ⟨hs, hr⟩ | ⟨session, r, hs, hr, hdata⟩
  · rw [hs, hr]
    rfl
  · rw [hs, hr]
    simp only [hdata, Option.bind_some]

/-- `get` is right if the session has not passed its deadline or does not hold the key. -/
theorem Agrees.lookup_get (h : m.Agrees ledger clock) (now : Int) (id key : Str) :
    (∀ l ∈ m.lookup ledger (.get now id key), l.alive = false → l.found = false) ↔
      ∀ r ∈ ledger id, r.deadline ≤ now → (r.data key).getD [] = [] := by
  simp only [lookup, h.get, Option.mem_some, forall_eq', not_alive_iff]
  rcases ledger id with _ | r
  · simp
  · simp

end SessionManager

namespace ServedSessions

/-- The history agrees with the session manager. -/
def Inv (s : ServedSessions) : Prop := s.sessions.Agrees s.ledger s.clock

theorem inv_start (clock : Int) : (start clock).Inv :=
  ⟨fun _ => rfl, fun _ _ h => nomatch h⟩

variable {model : ActorModel} {s s' : ServedSessions} {a : Action}

theorem step_call {c : SessionCall} (h : step model s (.call c) = some s') :
    (s.clock :: c.times).Pairwise (· ≤ ·) ∧
      s' = { s with
        sessions := s.sessions.call c
        clock := c.times.getLastD s.clock
        ledger := s.ledger.call c
        lookups := s.lookups ++ (s.sessions.lookup s.ledger c).toList } := by
  unfold step at h
  dsimp only at h
  split_ifs at h with htimes
  exact ⟨htimes, (Option.some.inj h).symm⟩

theorem step_server {now : Int} {act : TimedServer.Action} (h : step model s (.server now act) = some s') :
    s.clock ≤ now ∧ ∃ server, s' = { s with server := server, clock := now } := by
  unfold step at h
  dsimp only at h
  split_ifs at h with hle
  obtain ⟨server, -, rfl⟩ := Option.map_eq_some_iff.mp h
  exact ⟨hle, server, rfl⟩

/-- The last of increasing times is the greatest. -/
theorem le_getLastD {clock : Int} {times : List Int} (h : (clock :: times).Pairwise (· ≤ ·)) :
    clock ≤ times.getLastD clock ∧ ∀ t ∈ times, t ≤ times.getLastD clock := by
  induction times generalizing clock with
  | nil => exact ⟨le_rfl, by simp⟩
  | cons t times ih =>
    obtain ⟨hclock, htimes⟩ := List.pairwise_cons.mp h
    obtain ⟨hle, hall⟩ := ih htimes
    rw [List.getLastD_cons]
    refine ⟨(hclock t (by simp)).trans hle, ?_⟩
    intro t' ht'
    rcases List.mem_cons.mp ht' with rfl | ht'
    · exact hle
    · exact hall t' ht'

theorem step_inv (hs : s.Inv) (h : step model s a = some s') : s'.Inv := by
  rcases a with c | ⟨now, act⟩
  · obtain ⟨htimes, rfl⟩ := step_call h
    obtain ⟨hle, hall⟩ := le_getLastD htimes
    exact (SessionManager.Agrees.mono hs hle).call c hall
  · obtain ⟨hle, server, rfl⟩ := step_server h
    exact SessionManager.Agrees.mono hs hle

/-- A call finds no session that is not alive if and only if it looks up none that has expired. -/
theorem lookup_iff (hs : s.Inv) (c : SessionCall) :
    (∀ l ∈ s.sessions.lookup s.ledger c, l.alive = false → l.found = false) ↔
      LooksUpNoExpired s (.call c) := by
  unfold LooksUpNoExpired
  dsimp only
  rcases hc : c.looksUp with _ | ⟨now, id⟩
  · cases c with
    | get now id key =>
      rw [SessionManager.Agrees.lookup_get hs]
      simp
    | createSession => simp [SessionManager.lookup]
    | set => simp [SessionManager.lookup]
    | removeSession => simp [SessionManager.lookup]
    | refreshSession now1 now2 id =>
      simp only [SessionCall.looksUp] at hc
      split_ifs at hc with hid
      simp [SessionManager.lookup, hid]
    | sessionExists => cases hc
    | isSessionIdValid => cases hc
    | refresh => cases hc
    | parseAuthContext => cases hc
  · have hget : ∀ now id key, c ≠ .get now id key := by
      rintro now id key rfl
      cases hc
    have hfound := SessionManager.found_iff s.ledger now id
    rw [SessionManager.Agrees.lookup_looksUp hs hc]
    simp only [Option.mem_some, forall_eq', hfound]
    refine ⟨fun hall => ⟨?_, fun now' id' key heq => absurd heq (hget now' id' key)⟩, ?_⟩
    · rintro now' id' ⟨⟩
      exact hall
    · exact fun hall => hall.1 now id rfl

theorem step_good (hs : s.Inv) (h : step model s a = some s') :
    s'.ExpiredStayExpired ↔ s.ExpiredStayExpired ∧ LooksUpNoExpired s a := by
  unfold ExpiredStayExpired
  rcases a with c | ⟨now, act⟩
  · obtain ⟨-, rfl⟩ := step_call h
    rw [← lookup_iff hs c]
    simp only [List.mem_append, Option.mem_toList, Option.mem_def, or_imp, forall_and]
  · obtain ⟨-, server, rfl⟩ := step_server h
    simp [LooksUpNoExpired]

/-- **Expired sessions.** In every run the ledger has the `expireTime` of each session that is alive, and
    no call has found a session that was not alive if and only if none has looked up one that had
    expired and had not been removed since. -/
theorem run_expired_iff {clock : Int} {actions : List Action}
    (h : Transition.run (step model) (start clock) actions = some s) :
    (∀ id, ∀ session ∈ s.sessions.sessions id, ∀ r ∈ s.ledger id, s.clock < r.deadline →
      session.expireTime = r.deadline) ∧
    (s.ExpiredStayExpired ↔ Transition.Meets (step model) LooksUpNoExpired (start clock) actions) := by
  refine ⟨?_, ?_⟩
  · have hinv : s.Inv := Transition.run_invariant_of_step (fun _ _ _ => step_inv) (inv_start clock) h
    exact hinv.deadline
  · exact @Transition.run_iff_meets _ _ _ _ Inv ExpiredStayExpired (fun _ _ _ => step_inv)
      (fun _ _ _ => step_good) _ _ _ (inv_start clock) (fun _ hl => nomatch hl) h

/-- A session for ten milliseconds is looked up and refreshed after eleven, with a tick of the server in
    between, and looked up again. -/
def lateActions : List Action :=
  [.call (.createSession 0 0 0 (str "1") 10), .server 11000000 (.call (.epollWait [])),
    .call (.sessionExists 11000000 (str "sess_0_1")),
    .call (.refreshSession 11000000 11000000 (str "sess_0_1")),
    .call (.isSessionIdValid 12000000 (str "sess_0_1"))]

/-- It is found each time. -/
theorem expired_session_found :
    ∃ s, Transition.run (step .Reactor) (start 0) lateActions = some s ∧
      s.lookups.map (fun l => (l.alive, l.found)) = [(false, true), (false, true), (false, true)] ∧
      ¬ s.ExpiredStayExpired := by
  have h : (Transition.run (step .Reactor) (start 0) lateActions).map
      (fun s => s.lookups.map (fun l => (l.alive, l.found))) =
        some [(false, true), (false, true), (false, true)] := by decide +kernel
  obtain ⟨s, hs, hlookups⟩ := Option.map_eq_some_iff.mp h
  refine ⟨s, hs, hlookups, ?_⟩
  intro hgood
  obtain ⟨l, hl, heq⟩ := List.mem_map.mp (show (false, true) ∈ s.lookups.map (fun l => (l.alive, l.found)) by
    rw [hlookups]
    exact List.mem_cons_self)
  have halive : l.alive = false := congrArg Prod.fst heq
  have hfound : l.found = true := congrArg Prod.snd heq
  rw [hgood l hl halive] at hfound
  cases hfound

/-- A session is refreshed in time, and found after that. -/
def timelyActions : List Action :=
  [.call (.createSession 0 0 0 (str "1") 10), .call (.refreshSession 9000000 9000000 (str "sess_0_1")),
    .call (.sessionExists 11000000 (str "sess_0_1"))]

theorem run_expired_iff_timely :
    ∃ s, Transition.run (step .Reactor) (start 0) timelyActions = some s ∧
      (s.ExpiredStayExpired ↔
        Transition.Meets (step .Reactor) LooksUpNoExpired (start 0) timelyActions) := by
  obtain ⟨s, hs⟩ := Option.isSome_iff_exists.mp
    (show (Transition.run (step .Reactor) (start 0) timelyActions).isSome = true by decide +kernel)
  exact ⟨s, hs, (run_expired_iff hs).2⟩

end ServedSessions

end ModularNetServer
