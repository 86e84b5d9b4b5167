import ModularNetServer.Token.TokenLedger

/-!
# The token manager keeps the ledger

Three maps stand for the ledger: the token names a user and a timer id, the timer id names a node
with the deadline. Timer ids are used for one issue only, as long as the seed does not wrap.
-/

namespace ModularNetServer

open Cxx

namespace TokenManager

variable {crypto : CryptoUtils}

/-- A token with the signature that belongs to its first part. -/
def Signed (crypto : CryptoUtils) (token : Str) : Prop :=
  ∃ body, (∀ b ∈ body, b ≠ 46) ∧ token = body ++ str "." ++ crypto.hmacSha256 body secretKey

/-- The three maps agree with the ledger, and no timer id is used twice. -/
structure Keeps (crypto : CryptoUtils) (m : TokenManager) (ledger : TokenLedger) : Prop where
  issued : ∀ token deadline, ledger token = some deadline →
    Signed crypto token ∧ (m.tokenUsername token).isSome ∧
      ∃ id, m.tokenTimers token = some id ∧
        (m.timerManager.map id).map TimerNode.expire = some deadline
  absent : ∀ token, ledger token = none → m.tokenUsername token = none ∧ m.tokenTimers token = none
  old : ∀ token id, m.tokenTimers token = some id → id < m.timerSeed
  unshared : ∀ token token' id, m.tokenTimers token = some id → m.tokenTimers token' = some id →
    token = token'

theorem keeps_empty : Keeps crypto empty Table.empty where
  issued := by simp
  absent := fun _ _ => ⟨rfl, rfl⟩
  old := by simp [empty]
  unshared := by simp [empty]

theorem signed_makeToken (hdot : ∀ s, ∀ b ∈ crypto.base64Encode s, b ≠ 46) (now : Int)
    (tid username : Str) : Signed crypto (makeToken crypto now tid username) :=
  ⟨_, hdot _, rfl⟩

/-! ## Checks -/

/-- The two parts that `isTokenValid` takes from a token at its first dot. -/
def SplitsInto (token tokenBase64 tokenSignature : Str) : Prop :=
  ∃ pos, Scan.find (str ".") token = some pos ∧ token.take pos = tokenBase64 ∧
    token.drop (pos + 1) = tokenSignature

theorem splitsInto_append {body : Str} (hdot : ∀ b ∈ body, b ≠ 46) (signature : Str) :
    SplitsInto (body ++ str "." ++ signature) body signature := by
  have hstr : str "." = [46] := by decide
  refine ⟨body.length, ?_, ?_, ?_⟩
  · rw [hstr]
    exact Scan.find_append_of_forall_ne body signature hdot
  · rw [List.append_assoc, List.take_left]
  · exact List.drop_left' (by rw [List.length_append, hstr]; rfl)

/-- The signature is found again behind the first dot. -/
theorem isTokenValid_of_signed {m : TokenManager} {token : Str} (h : Signed crypto token) :
    m.isTokenValid crypto token = m.exist token := by
  obtain ⟨body, hdot, rfl⟩ := h
  obtain ⟨pos, hfind, htake, hdrop⟩ := splitsInto_append hdot (crypto.hmacSha256 body secretKey)
  unfold isTokenValid
  rw [hfind]
  simp only [htake, hdrop, ne_eq, not_true_eq_false, if_false]

theorem Keeps.exist_iff {m : TokenManager} {ledger : TokenLedger} (h : Keeps crypto m ledger)
    (token : Str) : m.exist token = (ledger token).isSome := by
  unfold exist
  cases hl : ledger token with
  | none => rw [(h.absent token hl).1]; rfl
  | some deadline => exact (h.issued token deadline hl).2.1

/-- A token is valid if it is in the ledger, expired or not. -/
theorem Keeps.isTokenValid {m : TokenManager} {ledger : TokenLedger} (h : Keeps crypto m ledger)
    (token : Str) : m.isTokenValid crypto token = (ledger token).isSome := by
  cases hl : ledger token with
  | some deadline => rw [isTokenValid_of_signed (h.issued token deadline hl).1, h.exist_iff, hl]
  | none =>
    have hexist : m.exist token = false := by rw [h.exist_iff, hl]; rfl
    unfold TokenManager.isTokenValid
    cases Scan.find (str ".") token with
    | none => rfl
    | some pos =>
      simp only [hexist, Option.isSome_none]
      split_ifs <;> rfl

/-- A token in the ledger expires at its deadline; checking it changes nothing. -/
theorem Keeps.isTokenExpired {m : TokenManager} {ledger : TokenLedger} (h : Keeps crypto m ledger)
    {token : Str} {deadline : Int} (hl : ledger token = some deadline) (now : Int) :
    m.isTokenExpired now token = (decide (deadline ≤ now), m) := by
  obtain ⟨-, -, id, hid, hexpire⟩ := h.issued token deadline hl
  obtain ⟨timer, htimer, rfl⟩ := Option.map_eq_some_iff.mp hexpire
  simp only [TokenManager.isTokenExpired, hid, TimerManager.isExpired, htimer, TimerNode.isExpired]

/-- Looking up the user checks the token once more and changes nothing. -/
theorem Keeps.getUsername {m : TokenManager} {ledger : TokenLedger} (h : Keeps crypto m ledger)
    {token : Str} {deadline : Int} (hl : ledger token = some deadline) (now : Int) :
    (m.getUsername crypto now token).2 = m := by
  unfold TokenManager.getUsername
  simp only [h.isTokenValid, hl, Option.isSome_some, if_true, h.isTokenExpired hl]
  split_ifs <;> rfl

/-! ## Changes -/

/-- The new node for a timer id, and the nodes of the others. -/
theorem map_addTimer {C : Type*} (m : TimerManager C) (now id : Int) (cb : C) (timeoutMs : Int)
    (id' : Int) :
    ((m.addTimer now id cb timeoutMs false).map id').map TimerNode.expire =
      if id' = id then some (TimerNode.after now timeoutMs)
      else (m.map id').map TimerNode.expire := by
  unfold TimerManager.addTimer
  simp only [Table.insert_apply]
  split_ifs <;> rfl

/-- A new timer id: the new token gets it, and no other token has it. -/
theorem Keeps.createToken {m : TokenManager} {ledger : TokenLedger} (h : Keeps crypto m ledger)
    (hdot : ∀ s, ∀ b ∈ crypto.base64Encode s, b ≠ 46) (h0 : 0 ≤ m.timerSeed)
    (h1 : m.timerSeed + 1 < 2 ^ 31) (now1 now2 : Int) (tid username : Str) (timeoutMs : Int) :
    Keeps crypto (m.createToken crypto now1 now2 tid username timeoutMs).2
      (ledger.insert (makeToken crypto now1 tid username) (TimerNode.after now2 timeoutMs)) := by
  have hseed : toInt32 (m.timerSeed + 1) = m.timerSeed + 1 := toInt32_of_lt (by omega) (by omega)
  have hne : ∀ token id, m.tokenTimers token = some id → id ≠ m.timerSeed := fun token id hid =>
    ne_of_lt (h.old token id hid)
  simp only [TokenManager.createToken, hseed]
  generalize hnew : makeToken crypto now1 tid username = new
  refine ⟨fun token deadline hl => ?_, fun token hl => ?_, fun token id hid => ?_,
    fun token token' id hid hid' => ?_⟩
  · by_cases heq : token = new
    · subst heq
      rw [Table.insert_self] at hl
      cases hl
      refine ⟨hnew ▸ signed_makeToken hdot now1 tid username, by simp, m.timerSeed, by simp, ?_⟩
      rw [map_addTimer, if_pos rfl]
    · rw [Table.insert_of_ne _ heq] at hl
      obtain ⟨hsigned, huser, id, hid, hexpire⟩ := h.issued token deadline hl
      simp only [Table.insert_of_ne _ heq]
      exact ⟨hsigned, huser, id, hid, by rwa [map_addTimer, if_neg (hne token id hid)]⟩
  · have heq : token ≠ new := by
      rintro rfl
      simp at hl
    rw [Table.insert_of_ne _ heq] at hl
    simpa only [Table.insert_of_ne _ heq] using h.absent token hl
  · by_cases heq : token = new
    · simp only [heq, Table.insert_self, Option.some.injEq] at hid
      simp only [← hid]
      omega
    · simp only [Table.insert_of_ne _ heq] at hid
      have hold := h.old token id hid
      simp only
      omega
  · simp only [Table.insert_apply] at hid hid'
    split_ifs at hid hid' with heq heq' heq'
    · rw [heq, heq']
    · cases hid
      exact absurd rfl (hne token' _ hid')
    · cases hid'
      exact absurd rfl (hne token _ hid)
    · exact h.unshared token token' id hid hid'

/-- The node for the token's timer id is replaced, no other token has that id. -/
theorem Keeps.refreshToken {m : TokenManager} {ledger : TokenLedger} (h : Keeps crypto m ledger)
    (now1 now2 : Int) (token : Str) (timeoutMs : Int) :
    Keeps crypto (m.refreshToken crypto now1 now2 token timeoutMs)
      (ledger.refresh now1 token (TimerNode.after now2 timeoutMs)) := by
  unfold TokenManager.refreshToken TokenLedger.refresh
  rw [h.isTokenValid]
  cases hl : ledger token with
  | none => simpa [hl] using h
  | some deadline =>
    simp only [Option.isSome_some, if_true, h.isTokenExpired hl]
    by_cases hnow : now1 < deadline
    · have hlive : ¬ deadline ≤ now1 := by omega
      obtain ⟨hsigned, huser, id, hid, hexpire⟩ := h.issued token deadline hl
      simp only [hnow, hlive, decide_false, Bool.false_eq_true, if_false, if_true, hid]
      refine ⟨?_, ?_, h.old, h.unshared⟩
      · intro token' deadline' hl'
        by_cases heq : token' = token
        · subst heq
          rw [Table.insert_self] at hl'
          cases hl'
          exact ⟨hsigned, huser, id, hid, by rw [map_addTimer, if_pos rfl]⟩
        · rw [Table.insert_of_ne _ heq] at hl'
          obtain ⟨hsigned', huser', id', hid', hexpire'⟩ := h.issued token' deadline' hl'
          have hne : id' ≠ id := by
            rintro rfl
            exact heq (h.unshared token' token id' hid' hid)
          exact ⟨hsigned', huser', id', hid', by rwa [map_addTimer, if_neg hne]⟩
      · intro token' hl'
        have heq : token' ≠ token := by
          rintro rfl
          simp at hl'
        rw [Table.insert_of_ne _ heq] at hl'
        exact h.absent token' hl'
    · have hdead : deadline ≤ now1 := by omega
      simpa [hnow, hdead] using h

theorem Keeps.removeToken {m : TokenManager} {ledger : TokenLedger} (h : Keeps crypto m ledger)
    (token : Str) : Keeps crypto (m.removeToken crypto token) (ledger.erase token) := by
  unfold TokenManager.removeToken
  rw [h.isTokenValid]
  cases hl : ledger token with
  | none =>
    have hsame : ledger.erase token = ledger := by
      funext token'
      rw [Table.erase_apply]
      split_ifs with heq
      · rw [heq, hl]
      · rfl
    simpa [hsame] using h
  | some deadline =>
    simp only [Option.isSome_some, if_true]
    refine ⟨fun token' deadline' hl' => ?_, fun token' hl' => ?_, fun token' id hid => ?_,
      fun token' token'' id hid hid' => ?_⟩
    · have heq : token' ≠ token := by
        rintro rfl
        simp at hl'
      rw [Table.erase_of_ne _ heq] at hl'
      simpa only [Table.erase_of_ne _ heq] using h.issued token' deadline' hl'
    · by_cases heq : token' = token
      · subst heq
        simp
      · rw [Table.erase_of_ne _ heq] at hl'
        simpa only [Table.erase_of_ne _ heq] using h.absent token' hl'
    · simp only [Table.erase_apply] at hid
      split_ifs at hid
      exact h.old token' id hid
    · simp only [Table.erase_apply] at hid hid'
      split_ifs at hid hid'
      exact h.unshared token' token'' id hid hid'

theorem timerSeed_isTokenExpired (m : TokenManager) (now : Int) (token : Str) :
    (m.isTokenExpired now token).2.timerSeed = m.timerSeed := by
  unfold TokenManager.isTokenExpired
  split <;> rfl

theorem timerSeed_refreshToken (crypto : CryptoUtils) (m : TokenManager) (now1 now2 : Int)
    (token : Str) (timeoutMs : Int) :
    (m.refreshToken crypto now1 now2 token timeoutMs).timerSeed = m.timerSeed := by
  have h := m.timerSeed_isTokenExpired now1 token
  unfold TokenManager.refreshToken
  grind

theorem timerSeed_removeToken (crypto : CryptoUtils) (m : TokenManager) (token : Str) :
    (m.removeToken crypto token).timerSeed = m.timerSeed := by
  unfold TokenManager.removeToken
  split_ifs <;> rfl

end TokenManager

end ModularNetServer
