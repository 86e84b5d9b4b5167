import ModularNetServer.Library.PairedTables
import ModularNetServer.Library.Transition
import ModularNetServer.Session.SessionManager
import ModularNetServer.Token.TokenManager

/-!
# The parallel maps of the credential stores

`SessionManager` and `TokenManager` keep a map to timer ids beside the map of what they store. The look-up
of an expiry writes an entry for an id that has none, into one of the two maps only; every other operation
leaves them over the same keys.
-/

namespace ModularNetServer

open Cxx Transition

/-! ## Sessions -/

/-- Does the operation only ask? -/
def SessionOp.isQuery : SessionOp → Bool
  | isSessionIdValid _ => true
  | isSessionIdExpired _ _ => true
  | get _ _ => true
  | sessionExists _ => true
  | createSession _ _ _ _ _ => false
  | set _ _ _ => false
  | removeSession _ => false
  | refresh _ _ _ _ => false

/-- Does the operation create a session? -/
def SessionOp.creates : SessionOp → Bool
  | createSession _ _ _ _ _ => true
  | _ => false

namespace SessionManager

/-- An operation as a step. -/
def opStep (m : SessionManager) (op : SessionOp) : Option SessionManager := some (m.apply op)

/-- The sessions and their timers have the same ids, and no two sessions share a timer id. -/
def Consistent (m : SessionManager) : Prop := Table.Paired m.sessions m.sessionTimers

/-- The operation leaves the maps consistent and, if it only asks, as they were. -/
def StaysConsistent (m : SessionManager) (op : SessionOp) : Prop :=
  (m.apply op).Consistent ∧ (op.isQuery = true → m.apply op = m)

/-- An expiry is only looked up for a session that has a timer, and a session is only created while no
    other has the next timer id. -/
def Regular (m : SessionManager) : SessionOp → Prop
  | .isSessionIdExpired _ id => (m.sessionTimers id).isSome = true
  | .createSession now1 now2 now3 tid timeoutMs =>
    ∀ id, m.sessionTimers id = some m.timerSeed → id = (m.createSession now1 now2 now3 tid timeoutMs).1
  | _ => True

/-- An expiry is only looked up for a session that has a timer. -/
def AsksKnown (m : SessionManager) : SessionOp → Prop
  | .isSessionIdExpired _ id => (m.sessionTimers id).isSome = true
  | _ => True

theorem consistent_empty : Consistent empty := Table.paired_empty

/-- The look-up of an expiry changes the manager exactly if the session has no timer. -/
theorem isSessionIdExpired_known {m : SessionManager} (now : Int) {id : Str}
    (h : (m.sessionTimers id).isSome = true) : (m.isSessionIdExpired now id).2 = m := by
  obtain ⟨timerId, ht⟩ := Option.isSome_iff_exists.mp h
  simp [isSessionIdExpired, ht]

theorem isSessionIdExpired_unknown {m : SessionManager} (now : Int) {id : Str}
    (h : m.sessionTimers id = none) :
    (m.isSessionIdExpired now id).2 = { m with sessionTimers := m.sessionTimers.insert id 0 } := by
  simp [isSessionIdExpired, h]

theorem Consistent.set {m : SessionManager} (h : m.Consistent) (id key value : Str) :
    (m.set id key value).Consistent := by
  unfold SessionManager.set
  cases hs : m.sessions id with
  | none => exact h
  | some session => exact Table.Paired.replace h (by simp [hs]) _

theorem Consistent.refresh {m : SessionManager} (h : m.Consistent) (now1 now2 : Int) (id : Str)
    (timeoutMs : Int) : (m.refresh now1 now2 id timeoutMs).Consistent := by
  unfold SessionManager.refresh
  cases hs : m.sessions id with
  | none => exact h
  | some session =>
    have hsome : (m.sessions id).isSome = true := by simp [hs]
    have hp := Table.Paired.replace h hsome { session with expireTime := TimerNode.after now1 timeoutMs }
    cases m.sessionTimers id with
    | none => exact hp
    | some timerId => exact hp

/-- What an operation does to a consistent manager. -/
theorem staysConsistent_iff {m : SessionManager} (h : m.Consistent) (op : SessionOp) :
    m.StaysConsistent op ↔ m.Regular op := by
  cases op with
  | createSession now1 now2 now3 tid timeoutMs =>
    simp only [StaysConsistent, SessionOp.isQuery, Bool.false_eq_true, false_implies, and_true, Regular]
    exact Table.Paired.insert_iff h _ _ _
  | isSessionIdExpired now id =>
    simp only [StaysConsistent, SessionOp.isQuery, forall_true_left, Regular, apply]
    cases ht : m.sessionTimers id with
    | some timerId =>
      rw [isSessionIdExpired_known now (by simp [ht])]
      simp [h]
    | none =>
      rw [isSessionIdExpired_unknown now ht]
      have hs : (m.sessions id).isSome = false := by rw [h.keys id, ht]; rfl
      simp only [Option.isSome_none, Bool.false_eq_true, iff_false, not_and]
      exact fun hc => absurd hc (Table.not_paired_insert hs 0)
  | isSessionIdValid id => simp [StaysConsistent, Regular, apply, h]
  | get id key => simp [StaysConsistent, Regular, apply, h]
  | sessionExists id => simp [StaysConsistent, Regular, apply, h]
  | set id key value => simp [StaysConsistent, Regular, apply, h.set, SessionOp.isQuery]
  | removeSession id =>
    simp only [StaysConsistent, SessionOp.isQuery, Bool.false_eq_true, false_implies, and_true, Regular, iff_true]
    exact Table.Paired.erase h id
  | refresh now1 now2 id timeoutMs => simp [StaysConsistent, Regular, apply, h.refresh, SessionOp.isQuery]

theorem meets_consistent_iff (ops : List SessionOp) :
    Meets opStep StaysConsistent empty ops ↔ Meets opStep Regular empty ops := by
  refine @meets_congr _ _ _ _ Consistent _ (fun _ op h => staysConsistent_iff h op) ?_ _ consistent_empty ops
  rintro m op m' h hreg hstep
  cases hstep
  exact ((staysConsistent_iff h op).mpr hreg).1

theorem set_timers (m : SessionManager) (id key value : Str) :
    (m.set id key value).sessionTimers = m.sessionTimers ∧ (m.set id key value).timerSeed = m.timerSeed := by
  unfold SessionManager.set
  cases m.sessions id with
  | none => exact ⟨rfl, rfl⟩
  | some session => exact ⟨rfl, rfl⟩

theorem refresh_timers (m : SessionManager) (now1 now2 : Int) (id : Str) (timeoutMs : Int) :
    (m.refresh now1 now2 id timeoutMs).sessionTimers = m.sessionTimers ∧
      (m.refresh now1 now2 id timeoutMs).timerSeed = m.timerSeed := by
  unfold SessionManager.refresh
  cases m.sessions id with
  | none => exact ⟨rfl, rfl⟩
  | some session => cases m.sessionTimers id <;> exact ⟨rfl, rfl⟩

/-- The timer ids are below the next one, and `n` more of them can be given out. -/
def HasIds (m : SessionManager) (n : Nat) : Prop :=
  Table.Below m.sessionTimers m.timerSeed ∧ 0 < m.timerSeed ∧ m.timerSeed + n < 2 ^ 31

theorem HasIds.apply {m : SessionManager} {n : Nat} {op : SessionOp}
    (h : m.HasIds (n + if op.creates then 1 else 0)) : (m.apply op).HasIds n := by
  obtain ⟨hbelow, hpos, hlt⟩ := h
  cases op with
  | createSession now1 now2 now3 tid timeoutMs =>
    simp only [SessionOp.creates, if_true] at hlt
    have hseed : toInt32 (m.timerSeed + 1) = m.timerSeed + 1 := toInt32_of_lt (by omega) (by omega)
    refine ⟨?_, ?_, ?_⟩
    · simp only [SessionManager.apply, createSession, hseed]
      exact hbelow.insert _
    · simp only [SessionManager.apply, createSession, hseed]
      omega
    · simp only [SessionManager.apply, createSession, hseed]
      omega
  | isSessionIdExpired now id =>
    cases ht : m.sessionTimers id with
    | some timerId =>
      rw [SessionManager.apply, isSessionIdExpired_known now (by simp [ht])]
      exact ⟨hbelow, hpos, hlt⟩
    | none =>
      rw [SessionManager.apply, isSessionIdExpired_unknown now ht]
      exact ⟨hbelow.insert_lt id hpos, hpos, hlt⟩
  | set id key value =>
    obtain ⟨htimers, hseed⟩ := set_timers m id key value
    rw [HasIds, SessionManager.apply, htimers, hseed]
    exact ⟨hbelow, hpos, hlt⟩
  | refresh now1 now2 id timeoutMs =>
    obtain ⟨htimers, hseed⟩ := refresh_timers m now1 now2 id timeoutMs
    rw [HasIds, SessionManager.apply, htimers, hseed]
    exact ⟨hbelow, hpos, hlt⟩
  | removeSession id => exact ⟨hbelow.erase id, hpos, hlt⟩
  | isSessionIdValid id => exact ⟨hbelow, hpos, hlt⟩
  | get id key => exact ⟨hbelow, hpos, hlt⟩
  | sessionExists id => exact ⟨hbelow, hpos, hlt⟩

/-- Before the timer ids run out, only the look-ups of expiries matter. -/
theorem meets_regular_iff {ops : List SessionOp} {m : SessionManager}
    (h : m.HasIds (ops.countP SessionOp.creates)) :
    Meets opStep Regular m ops ↔ Meets opStep AsksKnown m ops := by
  induction ops generalizing m with
  | nil => exact Iff.rfl
  | cons op ops ih =>
    rw [List.countP_cons] at h
    refine and_congr ?_ (ih h.apply)
    cases op with
    | createSession now1 now2 now3 tid timeoutMs =>
      simp only [Regular, AsksKnown, iff_true]
      intro id hid
      exact absurd (h.1 id _ hid) (lt_irrefl _)
    | _ => exact Iff.rfl

end SessionManager

/-! ## Tokens -/

/-- Does the operation only ask? -/
def TokenOp.isQuery : TokenOp → Bool
  | exist _ => true
  | isTokenValid _ => true
  | isTokenExpired _ _ => true
  | getUsername _ _ => true
  | createToken _ _ _ _ _ => false
  | removeToken _ => false
  | refreshToken _ _ _ _ => false

/-- Does the operation create a token? -/
def TokenOp.creates : TokenOp → Bool
  | createToken _ _ _ _ _ => true
  | _ => false

namespace TokenManager

variable (crypto : CryptoUtils)

/-- A call as a step. -/
def opStep (m : TokenManager) (op : TokenOp) : Option TokenManager := some (m.call crypto op)

/-- The user names and the timers have the same tokens, and no two tokens share a timer id. -/
def Consistent (m : TokenManager) : Prop := Table.Paired m.tokenUsername m.tokenTimers

/-- The operation leaves the maps consistent and, if it only asks, as they were. -/
def StaysConsistent (m : TokenManager) (op : TokenOp) : Prop :=
  (m.call crypto op).Consistent ∧ (op.isQuery = true → m.call crypto op = m)

/-- An expiry is only looked up for a token that has a timer, and a token is only created while no other
    has the next timer id. -/
def Regular (m : TokenManager) : TokenOp → Prop
  | .isTokenExpired _ token => (m.tokenTimers token).isSome = true
  | .createToken now1 _ tid username _ =>
    ∀ token, m.tokenTimers token = some m.timerSeed → token = makeToken crypto now1 tid username
  | _ => True

/-- An expiry is only looked up for a token that has a timer. -/
def AsksKnown (m : TokenManager) : TokenOp → Prop
  | .isTokenExpired _ token => (m.tokenTimers token).isSome = true
  | _ => True

theorem consistent_empty : Consistent empty := Table.paired_empty

variable {crypto}

/-- The look-up of an expiry changes the manager exactly if the token has no timer. -/
theorem isTokenExpired_known {m : TokenManager} (now : Int) {token : Str}
    (h : (m.tokenTimers token).isSome = true) : (m.isTokenExpired now token).2 = m := by
  obtain ⟨timerId, ht⟩ := Option.isSome_iff_exists.mp h
  simp [isTokenExpired, ht]

theorem isTokenExpired_unknown {m : TokenManager} (now : Int) {token : Str}
    (h : m.tokenTimers token = none) :
    (m.isTokenExpired now token).2 = { m with tokenTimers := m.tokenTimers.insert token 0 } := by
  simp [isTokenExpired, h]

/-- A valid token has a timer. -/
theorem Consistent.timer_of_valid {m : TokenManager} (h : m.Consistent) {token : Str}
    (hvalid : m.isTokenValid crypto token = true) : (m.tokenTimers token).isSome = true := by
  rw [← h.keys token]
  unfold TokenManager.isTokenValid at hvalid
  cases hdot : Scan.find (str ".") token with
  | none => simp [hdot] at hvalid
  | some pos =>
    simp only [hdot] at hvalid
    split_ifs at hvalid
    exact hvalid

theorem Consistent.getUsername {m : TokenManager} (h : m.Consistent) (now : Int) (token : Str) :
    (m.getUsername crypto now token).2 = m := by
  unfold TokenManager.getUsername
  split_ifs with hvalid
  · have hm := isTokenExpired_known now (h.timer_of_valid hvalid)
    generalize m.isTokenExpired now token = r at hm
    obtain ⟨expired, m'⟩ := r
    obtain rfl : m' = m := hm
    simp only
    split_ifs <;> rfl
  · rfl

theorem Consistent.refreshToken {m : TokenManager} (h : m.Consistent) (now1 now2 : Int) (token : Str)
    (timeoutMs : Int) : (m.refreshToken crypto now1 now2 token timeoutMs).Consistent := by
  unfold TokenManager.refreshToken
  split_ifs with hvalid
  · have hm := isTokenExpired_known now1 (h.timer_of_valid hvalid)
    generalize m.isTokenExpired now1 token = r at hm
    obtain ⟨expired, m'⟩ := r
    obtain rfl : m' = m := hm
    simp only
    split_ifs
    · exact h
    · cases m'.tokenTimers token with
      | none => exact h
      | some timerId => exact h
  · exact h

theorem Consistent.removeToken {m : TokenManager} (h : m.Consistent) (token : Str) :
    (m.removeToken crypto token).Consistent := by
  unfold TokenManager.removeToken
  split_ifs
  · exact Table.Paired.erase h token
  · exact h

/-- What a call does to a consistent manager. -/
theorem staysConsistent_iff {m : TokenManager} (h : m.Consistent) (op : TokenOp) :
    m.StaysConsistent crypto op ↔ m.Regular crypto op := by
  cases op with
  | createToken now1 now2 tid username timeoutMs =>
    simp only [StaysConsistent, TokenOp.isQuery, Bool.false_eq_true, false_implies, and_true, Regular]
    exact Table.Paired.insert_iff h _ _ _
  | isTokenExpired now token =>
    simp only [StaysConsistent, TokenOp.isQuery, forall_true_left, Regular, call]
    cases ht : m.tokenTimers token with
    | some timerId =>
      rw [isTokenExpired_known now (by simp [ht])]
      simp [h]
    | none =>
      rw [isTokenExpired_unknown now ht]
      have hs : (m.tokenUsername token).isSome = false := by rw [h.keys token, ht]; rfl
      simp only [Option.isSome_none, Bool.false_eq_true, iff_false, not_and]
      exact fun hc => absurd hc (Table.not_paired_insert hs 0)
  | exist token => simp [StaysConsistent, Regular, call, h]
  | isTokenValid token => simp [StaysConsistent, Regular, call, h]
  | getUsername now token => simp [StaysConsistent, Regular, call, h.getUsername, h]
  | removeToken token => simp [StaysConsistent, Regular, call, h.removeToken, TokenOp.isQuery]
  | refreshToken now1 now2 token timeoutMs =>
    simp [StaysConsistent, Regular, call, h.refreshToken, TokenOp.isQuery]

theorem meets_consistent_iff (crypto : CryptoUtils) (ops : List TokenOp) :
    Meets (opStep crypto) (StaysConsistent crypto) empty ops ↔ Meets (opStep crypto) (Regular crypto) empty ops := by
  refine @meets_congr _ _ _ _ Consistent _ (fun _ op h => staysConsistent_iff h op) ?_ _ consistent_empty ops
  rintro m op m' h hreg hstep
  cases hstep
  exact ((staysConsistent_iff h op).mpr hreg).1

/-- The timer ids are below the next one, and `n` more of them can be given out. -/
def HasIds (m : TokenManager) (n : Nat) : Prop :=
  Table.Below m.tokenTimers m.timerSeed ∧ 0 < m.timerSeed ∧ m.timerSeed + n < 2 ^ 31

theorem HasIds.isTokenExpired {m : TokenManager} {n : Nat} (h : m.HasIds n) (now : Int) (token : Str) :
    (m.isTokenExpired now token).2.HasIds n := by
  cases ht : m.tokenTimers token with
  | some timerId =>
    rw [isTokenExpired_known now (by simp [ht])]
    exact h
  | none =>
    rw [isTokenExpired_unknown now ht]
    exact ⟨h.1.insert_lt token h.2.1, h.2⟩

theorem getUsername_eq (m : TokenManager) (now : Int) (token : Str) :
    (m.getUsername crypto now token).2 = m ∨
      (m.getUsername crypto now token).2 = (m.isTokenExpired now token).2 := by
  unfold TokenManager.getUsername
  split_ifs
  · refine .inr ?_
    simp only
    split_ifs <;> rfl
  · exact .inl rfl

theorem HasIds.refreshToken {m : TokenManager} {n : Nat} (h : m.HasIds n) (now1 now2 : Int) (token : Str)
    (timeoutMs : Int) : (m.refreshToken crypto now1 now2 token timeoutMs).HasIds n := by
  have hexpired := h.isTokenExpired now1 token
  unfold TokenManager.refreshToken
  split_ifs
  · generalize m.isTokenExpired now1 token = r at hexpired
    obtain ⟨expired, m'⟩ := r
    simp only at hexpired ⊢
    split_ifs
    · exact hexpired
    · cases m'.tokenTimers token <;> exact hexpired
  · exact h

theorem HasIds.call {m : TokenManager} {n : Nat} {op : TokenOp}
    (h : m.HasIds (n + if op.creates then 1 else 0)) : (m.call crypto op).HasIds n := by
  have hn : op.creates = false → m.HasIds n := fun hop => by simpa [hop] using h
  cases op with
  | createToken now1 now2 tid username timeoutMs =>
    obtain ⟨hbelow, hpos, hlt⟩ := h
    simp only [TokenOp.creates, if_true] at hlt
    have hseed : toInt32 (m.timerSeed + 1) = m.timerSeed + 1 := toInt32_of_lt (by omega) (by omega)
    refine ⟨?_, ?_, ?_⟩
    · simp only [TokenManager.call, createToken, hseed]
      exact hbelow.insert _
    · simp only [TokenManager.call, createToken, hseed]
      omega
    · simp only [TokenManager.call, createToken, hseed]
      omega
  | isTokenExpired now token => exact (hn rfl).isTokenExpired now token
  | getUsername now token =>
    rw [TokenManager.call]
    rcases @getUsername_eq crypto m now token with hm | hm
    · rw [hm]
      exact hn rfl
    · rw [hm]
      exact (hn rfl).isTokenExpired now token
  | removeToken token =>
    obtain ⟨hbelow, hpos, hlt⟩ := hn rfl
    rw [TokenManager.call]
    unfold TokenManager.removeToken
    split_ifs
    · exact ⟨hbelow.erase token, hpos, hlt⟩
    · exact ⟨hbelow, hpos, hlt⟩
  | refreshToken now1 now2 token timeoutMs => exact (hn rfl).refreshToken now1 now2 token timeoutMs
  | exist token => exact hn rfl
  | isTokenValid token => exact hn rfl

/-- Before the timer ids run out, only the look-ups of expiries matter. -/
theorem meets_regular_iff {ops : List TokenOp} {m : TokenManager}
    (h : m.HasIds (ops.countP TokenOp.creates)) :
    Meets (opStep crypto) (Regular crypto) m ops ↔ Meets (opStep crypto) AsksKnown m ops := by
  induction ops generalizing m with
  | nil => exact Iff.rfl
  | cons op ops ih =>
    rw [List.countP_cons] at h
    refine and_congr ?_ (ih h.call)
    cases op with
    | createToken now1 now2 tid username timeoutMs =>
      simp only [Regular, AsksKnown, iff_true]
      intro token htoken
      exact absurd (h.1 token _ htoken) (lt_irrefl _)
    | _ => exact Iff.rfl

end TokenManager

/-- In a sequence of operations of either manager, the maps stay consistent and the queries change nothing if
    and only if expiries are only looked up for ids that have a timer and no timer id is given out while
    another entry has it. -/
theorem credential_stores_consistent_iff (sessionOps : List SessionOp) (crypto : CryptoUtils)
    (tokenOps : List TokenOp) :
    (Meets SessionManager.opStep SessionManager.StaysConsistent SessionManager.empty sessionOps ↔
      Meets SessionManager.opStep SessionManager.Regular SessionManager.empty sessionOps) ∧
    (Meets (TokenManager.opStep crypto) (TokenManager.StaysConsistent crypto) TokenManager.empty tokenOps ↔
      Meets (TokenManager.opStep crypto) (TokenManager.Regular crypto) TokenManager.empty tokenOps) :=
  ⟨SessionManager.meets_consistent_iff sessionOps, TokenManager.meets_consistent_iff crypto tokenOps⟩

/-- Both managers are asked for the expiry of an id that they have never seen. -/
theorem unknown_expiry_inconsistent :
    ¬ Meets SessionManager.opStep SessionManager.StaysConsistent SessionManager.empty
        [.isSessionIdExpired 0 (str "x")] ∧
      ∀ crypto, ¬ Meets (TokenManager.opStep crypto) (TokenManager.StaysConsistent crypto) TokenManager.empty
        [.isTokenExpired 0 (str "x")] := by
  constructor
  · rw [SessionManager.meets_consistent_iff]
    exact fun h => by cases h.1
  · intro crypto
    rw [TokenManager.meets_consistent_iff]
    exact fun h => by cases h.1

end ModularNetServer
