import ModularNetServer.Http.Proofs.AuthenticationProofs

/-!
# Whose name a request carries

An authenticated request carries the name that its token was issued to, unless the token's deadline
falls between the two expiry checks that `parseAuthContext` makes.
-/

namespace ModularNetServer

open Cxx

namespace TokenManager

variable {crypto : CryptoUtils}

/-- A stored name is the one that the token was issued to. -/
def NamesIssued (m : TokenManager) (issued : Table Str Str) : Prop :=
  ∀ token username, m.tokenUsername token = some username → issued token = some username

/-- Expiry checks leave the names alone. -/
@[simp] theorem tokenUsername_isTokenExpired (m : TokenManager) (now : Int) (token : Str) :
    (m.isTokenExpired now token).2.tokenUsername = m.tokenUsername := by
  unfold isTokenExpired
  split <;> rfl

theorem tokenUsername_getUsername (m : TokenManager) (now : Int) (token : Str) :
    (m.getUsername crypto now token).2.tokenUsername = m.tokenUsername := by
  unfold getUsername
  simp only
  split_ifs
  · exact tokenUsername_isTokenExpired m now token
  · exact tokenUsername_isTokenExpired m now token
  · rfl

theorem tokenUsername_refreshToken (m : TokenManager) (now1 now2 : Int) (token : Str)
    (timeoutMs : Int) :
    (m.refreshToken crypto now1 now2 token timeoutMs).tokenUsername = m.tokenUsername := by
  unfold refreshToken
  simp only
  split_ifs
  · exact tokenUsername_isTokenExpired m now1 token
  · split <;> exact tokenUsername_isTokenExpired m now1 token
  · rfl

/-- Removing a token forgets at most its name. -/
theorem of_removeToken {m : TokenManager} {token token' username : Str}
    (h : (m.removeToken crypto token).tokenUsername token' = some username) :
    m.tokenUsername token' = some username := by
  unfold removeToken at h
  split_ifs at h
  · exact (Table.of_erase_eq_some h).2
  · exact h

/-- A name is stored by a call that issues its token. -/
theorem NamesIssued.call {m : TokenManager} {issued : Table Str Str} (h : m.NamesIssued issued)
    (op : TokenOp) : (m.call crypto op).NamesIssued (issue crypto issued op) := by
  intro token username hname
  cases op with
  | createToken now1 now2 tid name timeoutMs =>
    simp only [TokenManager.call, createToken, Table.insert_apply] at hname
    simp only [issue, Table.insert_apply]
    split_ifs at hname ⊢ with htoken
    · exact hname
    · exact h token username hname
  | exist => exact h token username hname
  | isTokenValid => exact h token username hname
  | isTokenExpired now token' =>
    simp only [TokenManager.call, tokenUsername_isTokenExpired] at hname
    exact h token username hname
  | removeToken token' => exact h token username (of_removeToken hname)
  | getUsername now token' =>
    simp only [TokenManager.call, tokenUsername_getUsername] at hname
    exact h token username hname
  | refreshToken now1 now2 token' timeoutMs =>
    simp only [TokenManager.call, tokenUsername_refreshToken] at hname
    exact h token username hname

/-- After any calls the stored names are those that the tokens were issued to. -/
theorem NamesIssued.run {m : TokenManager} {issued : Table Str Str} (h : m.NamesIssued issued)
    (ops : List TokenOp) : (m.run crypto ops).NamesIssued (ops.foldl (issue crypto) issued) := by
  induction ops generalizing m issued with
  | nil => exact h
  | cons op ops ih => exact ih (h.call op)

theorem namesIssued_run (ops : List TokenOp) :
    (empty.run crypto ops).NamesIssued (issuedTo crypto ops) := by
  refine NamesIssued.run ?_ ops
  intro token username h
  simp [empty] at h

/-! ## Expiry checks -/

/-- The deadline that an expiry check of a token looks at. -/
def deadline (m : TokenManager) (token : Str) : Option Int :=
  (m.timerManager.map ((m.tokenTimers token).getD 0)).map TimerNode.expire

theorem isTokenExpired_iff (m : TokenManager) (now : Int) (token : Str) :
    (m.isTokenExpired now token).1 = true ↔ ∀ d ∈ m.deadline token, d ≤ now := by
  unfold isTokenExpired deadline TimerManager.isExpired
  rcases m.tokenTimers token with _ | id
  · simp only [Option.getD_none]
    rcases m.timerManager.map 0 with _ | timer
    · simp
    · simp [TimerNode.isExpired]
  · simp only [Option.getD_some]
    rcases m.timerManager.map id with _ | timer
    · simp
    · simp [TimerNode.isExpired]

/-- An expiry check leaves the deadline. -/
theorem deadline_isTokenExpired (m : TokenManager) (now : Int) (token : Str) :
    (m.isTokenExpired now token).2.deadline token = m.deadline token := by
  unfold isTokenExpired deadline
  rcases htimer : m.tokenTimers token with _ | id
  · simp
  · simp [htimer]

theorem isTokenValid_isTokenExpired (m : TokenManager) (now : Int) (token : Str) :
    (m.isTokenExpired now token).2.isTokenValid crypto token = m.isTokenValid crypto token := by
  unfold isTokenValid exist
  rw [tokenUsername_isTokenExpired]

/-- A valid token is stored with a name. -/
theorem exists_of_isTokenValid {m : TokenManager} {token : Str}
    (h : m.isTokenValid crypto token = true) : ∃ username, m.tokenUsername token = some username := by
  unfold isTokenValid at h
  split at h
  · cases h
  · simp only at h
    split_ifs at h
    exact Option.isSome_iff_exists.mp h

/-- The name of a valid token, unless it has expired by then. -/
theorem getUsername_of_valid {m : TokenManager} {now : Int} {token username : Str}
    (h : m.isTokenValid crypto token = true) (hname : m.tokenUsername token = some username) :
    (m.getUsername crypto now token).1 = if (m.isTokenExpired now token).1 then [] else username := by
  unfold getUsername
  rw [if_pos h]
  simp only
  split_ifs
  · rfl
  · rw [tokenUsername_isTokenExpired, hname, Option.getD_some]

end TokenManager

namespace HttpConn

/-- The clock readings of the two expiry checks that `parseAuthContext` makes of a token. The session is
    checked before, if there is one. -/
def expiryChecks (w : World) (base : HttpBase) : Int × Int :=
  let first :=
    if w.sessions.isSessionIdValid (HttpRequest.getRequestCookie base (str "session_id")) then
      w.readings + 1
    else w.readings
  (w.clock first, w.clock (first + 1))

/-- A request that counts as authenticated carries the name that its token was issued to. -/
def CarriesIssued (issued : Table Str Str) (base : HttpBase) : Prop :=
  base.authenticated = true → issued (HttpRequest.getToken base) = some base.username

/-- The deadline of a request's token falls between the two checks, and the token has a name to lose. -/
structure LapsesBetween (env : Environment) (w : World) (base : HttpBase) : Prop where
  valid : w.tokens.isTokenValid env.crypto (HttpRequest.getToken base) = true
  named : w.tokens.tokenUsername (HttpRequest.getToken base) ≠ some []
  lapses : ∃ d ∈ w.tokens.deadline (HttpRequest.getToken base),
    (expiryChecks w base).1 < d ∧ d ≤ (expiryChecks w base).2

/-- The session check leaves the tokens and the clock alone. -/
theorem sessionCheck_eq (w : World) (sessionId : Str) :
    ∃ w1 : World, (if w.sessions.isSessionIdValid sessionId then
        { w.tick 1 with sessions := (w.sessions.isSessionIdExpired w.now sessionId).2 } else w) = w1 ∧
      w1.tokens = w.tokens ∧ w1.clock = w.clock ∧
      w1.readings = if w.sessions.isSessionIdValid sessionId then w.readings + 1 else w.readings := by
  refine ⟨_, rfl, ?_⟩
  split_ifs <;> exact ⟨rfl, rfl, rfl⟩

/-- What `parseAuthContext` makes of a request, by its two checks. -/
theorem parseAuthContext_base (env : Environment) (w : World) (base : HttpBase) :
    (parseAuthContext env w base).2 =
      if w.tokens.isTokenValid env.crypto (HttpRequest.getToken base) = true ∧
          (w.tokens.isTokenExpired (expiryChecks w base).1 (HttpRequest.getToken base)).1 = false then
        base.setUsername ((w.tokens.isTokenExpired (expiryChecks w base).1
          (HttpRequest.getToken base)).2.getUsername env.crypto (expiryChecks w base).2
            (HttpRequest.getToken base)).1
      else base := by
  obtain ⟨w1, hw1, htokens, hclock, hreadings⟩ :=
    sessionCheck_eq w (HttpRequest.getRequestCookie base (str "session_id"))
  unfold parseAuthContext expiryChecks
  simp only [hw1]
  simp only [← hreadings, ← hclock, ← htokens, World.now, World.tick]
  by_cases hvalid : w1.tokens.isTokenValid env.crypto (HttpRequest.getToken base) = true
  · rw [if_pos hvalid]
    by_cases hexpired : (w1.tokens.isTokenExpired (w1.clock w1.readings) (HttpRequest.getToken base)).1 = true
    · simp [hexpired]
    · simp [hexpired, hvalid]
  · simp [hvalid]

/-- A request that is given a name. -/
theorem carriesIssued_setUsername {issued : Table Str Str} {base : HttpBase} {username : Str}
    (h : issued (HttpRequest.getToken base) = some username) (name : Str) :
    CarriesIssued issued (base.setUsername name) ↔ name = username := by
  show (true = true → issued (HttpRequest.getToken base) = some name) ↔ _
  rw [h]
  simp [eq_comm]

/-- The name that `getUsername` finds after the first check, when the second check is made at `now`. -/
theorem getUsername_secondCheck {crypto : CryptoUtils} {m : TokenManager} {first now : Int}
    {token username : Str} (hvalid : m.isTokenValid crypto token = true)
    (hname : m.tokenUsername token = some username)
    (hdeadline : (m.deadline token).isSome) :
    ((m.isTokenExpired first token).2.getUsername crypto now token).1 =
      if ∃ d ∈ m.deadline token, d ≤ now then [] else username := by
  rw [TokenManager.getUsername_of_valid
    ((TokenManager.isTokenValid_isTokenExpired m first token).trans hvalid)
    ((congrFun (TokenManager.tokenUsername_isTokenExpired m first token) token).trans hname)]
  refine if_congr ?_ rfl rfl
  rw [TokenManager.isTokenExpired_iff, TokenManager.deadline_isTokenExpired]
  obtain ⟨d, hd⟩ := Option.isSome_iff_exists.mp hdeadline
  simp [hd]

/-- **Identity binding.** After any calls of the token manager, and for a request that does not carry
    another name already: it carries the name that its token was issued to if and only if the deadline
    does not fall between the two checks. -/
theorem carriesIssued_iff (env : Environment) (ops : List TokenOp) {w : World}
    (htokens : w.tokens = TokenManager.empty.run env.crypto ops) {base : HttpBase}
    (hbase : CarriesIssued (TokenManager.issuedTo env.crypto ops) base) :
    CarriesIssued (TokenManager.issuedTo env.crypto ops) (parseAuthContext env w base).2 ↔
      ¬ LapsesBetween env w base := by
  have hissued := @TokenManager.namesIssued_run env.crypto ops
  rw [← htokens] at hissued
  rw [parseAuthContext_base]
  split_ifs with hchecked
  · obtain ⟨hvalid, hfirst⟩ := hchecked
    obtain ⟨username, hname⟩ := TokenManager.exists_of_isTokenValid hvalid
    rw [carriesIssued_setUsername (hissued _ _ hname)]
    -- the first check has seen a deadline that is still to come
    have hcoming : ∃ d ∈ w.tokens.deadline (HttpRequest.getToken base), (expiryChecks w base).1 < d := by
      by_contra hpassed
      have hpassed : ∀ d ∈ w.tokens.deadline (HttpRequest.getToken base), d ≤ (expiryChecks w base).1 :=
        fun d hd => Int.not_lt.mp fun hlt => hpassed ⟨d, hd, hlt⟩
      rw [← TokenManager.isTokenExpired_iff, hfirst] at hpassed
      cases hpassed
    obtain ⟨d, hd, hlt⟩ := hcoming
    rw [getUsername_secondCheck hvalid hname (Option.isSome_iff_exists.mpr ⟨d, hd⟩)]
    by_cases hsecond : d ≤ (expiryChecks w base).2
    · rw [if_pos ⟨d, hd, hsecond⟩]
      refine ⟨?_, ?_⟩
      · rintro rfl ⟨-, hnamed, -⟩
        exact hnamed hname
      · intro hlapses
        by_contra hne
        refine hlapses ⟨hvalid, ?_, d, hd, hlt, hsecond⟩
        rw [hname]
        exact fun heq => hne (Option.some.inj heq).symm
    · have hlater : ¬ ∃ d ∈ w.tokens.deadline (HttpRequest.getToken base), d ≤ (expiryChecks w base).2 := by
        rintro ⟨d', hd', hle⟩
        rw [Option.mem_def] at hd hd'
        rw [hd] at hd'
        cases hd'
        exact hsecond hle
      rw [if_neg hlater]
      refine iff_of_true rfl ?_
      rintro ⟨-, -, d', hd', -, hle⟩
      exact hlater ⟨d', hd', hle⟩
  · refine iff_of_true hbase ?_
    rintro ⟨hvalid, -, d, hd, hlt, -⟩
    refine hchecked ⟨hvalid, ?_⟩
    rw [Bool.eq_false_iff, ne_eq, TokenManager.isTokenExpired_iff]
    intro hexpired
    have := hexpired d hd
    omega

/-- A token for ten milliseconds. -/
def briefOps : List TokenOp := [.createToken 0 1 (str "1") (str "alice") 10]

/-- The clock is read before the deadline, and then after it. -/
def briefWorld (clock : Nat → Int) : World :=
  { World.start clock clock (str "1") (fun _ _ => ⟨true, true, true, true, true, true, []⟩)
      ⟨fun _ => none, fun _ => false, 0⟩ false false with
    tokens := TokenManager.empty.run World.aliceCrypto briefOps }

/-- A request that is found valid just before its deadline is authenticated, under no name. -/
theorem lapsed_token_authenticates_nobody :
    ∃ w : World, w.tokens = TokenManager.empty.run World.aliceEnvironment.crypto briefOps ∧
      (∀ i j, i ≤ j → w.clock i ≤ w.clock j) ∧
      World.aliceRequest.httpBase.authenticated = false ∧
      ((parseAuthContext World.aliceEnvironment w World.aliceRequest.httpBase).2.authenticated = true ∧
        TokenManager.issuedTo World.aliceEnvironment.crypto briefOps
          (HttpRequest.getToken World.aliceRequest.httpBase) = some (str "alice") ∧
        (parseAuthContext World.aliceEnvironment w World.aliceRequest.httpBase).2.username = []) := by
  refine ⟨briefWorld (fun i => if i = 0 then 10000000 else 10000001), rfl, ?_, rfl, ?_, ?_, ?_⟩
  · intro i j hle
    show (if i = 0 then (10000000 : Int) else 10000001) ≤ if j = 0 then 10000000 else 10000001
    split_ifs <;> omega
  · decide
  · decide
  · decide

/-- Both checks come before the deadline. -/
theorem carriesIssued_iff_early :
    CarriesIssued (TokenManager.issuedTo World.aliceEnvironment.crypto briefOps)
        (parseAuthContext World.aliceEnvironment (briefWorld (fun i => i)) World.aliceRequest.httpBase).2 ↔
      ¬ LapsesBetween World.aliceEnvironment (briefWorld (fun i => i)) World.aliceRequest.httpBase :=
  carriesIssued_iff World.aliceEnvironment briefOps rfl (fun h => nomatch h)

end HttpConn

end ModularNetServer
