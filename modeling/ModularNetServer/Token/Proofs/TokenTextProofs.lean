import ModularNetServer.Library.Base64
import ModularNetServer.Token.Proofs.TokenManagerProofs

/-!
# Tokens are not ambiguous

The raw token is read from the left: the clock reading and the thread id are numbers, so each ends at the
first `_` behind it, and the user name is the rest. The signed token is split at its first `.`, since base64
has none; what the user name contains does not matter, and neither does what the signature contains.
-/

namespace ModularNetServer

open Cxx

namespace TokenManager

/-- `token_raw` of `createToken`. -/
def tokenRaw (now : Int) (tid username : Str) : Str :=
  str "token_" ++ Cxx.toString now ++ str "_" ++ tid ++ str "_" ++ username

theorem makeToken_eq (crypto : CryptoUtils) (now : Int) (tid username : Str) :
    makeToken crypto now tid username = crypto.base64Encode (tokenRaw now tid username) ++ str "." ++
      crypto.hmacSha256 (crypto.base64Encode (tokenRaw now tid username)) secretKey := rfl

/-! ## The raw token -/

theorem underscore_notMem_toString (i : Int) : 95 ∉ Cxx.toString i := by
  intro h
  rcases mem_toString h with h | h
  · exact absurd h (by decide)
  · exact absurd h (by decide)

theorem underscore_notMem_decimal (n : Nat) : 95 ∉ decimal n := by
  intro h
  exact absurd (isDigit_of_mem_decimal h) (by decide)

/-- The raw token of a thread that is printed as a number says what it was made from. -/
theorem tokenRaw_inj {now now' : Int} {n n' : Nat} {username username' : Str}
    (h : tokenRaw now (decimal n) username = tokenRaw now' (decimal n') username') :
    now = now' ∧ decimal n = decimal n' ∧ username = username' := by
  have hraw : ∀ now n username, tokenRaw now (decimal n) username =
      str "token_" ++ (Cxx.toString now ++ 95 :: (decimal n ++ 95 :: username)) := by
    intro now n username
    simp [tokenRaw, show str "_" = [95] by decide]
  rw [hraw, hraw] at h
  obtain ⟨hnow, hrest⟩ := Scan.append_cons_inj (underscore_notMem_toString now)
    (underscore_notMem_toString now') (List.append_cancel_left h)
  obtain ⟨hn, husername⟩ := Scan.append_cons_inj (underscore_notMem_decimal n)
    (underscore_notMem_decimal n') hrest
  exact ⟨toString_injective hnow, hn, husername⟩

/-! ## The signed token -/

section Tokens

variable {crypto : CryptoUtils} {ThreadId : Type*} {threadIdStr : ThreadId → Str}

/-- The raw token is found again in the signed one. -/
theorem tokenRaw_eq_of_makeToken_eq (hinj : Function.Injective crypto.base64Encode)
    (hdot : ∀ s, ∀ b ∈ crypto.base64Encode s, b ≠ 46) {now now' : Int} {tid tid' username username' : Str}
    (h : makeToken crypto now tid username = makeToken crypto now' tid' username') :
    tokenRaw now tid username = tokenRaw now' tid' username' := by
  have hnotMem : ∀ s, 46 ∉ crypto.base64Encode s := fun s hmem => hdot s 46 hmem rfl
  rw [makeToken_eq, makeToken_eq, show str "." = [46] by decide, List.append_assoc, List.append_assoc] at h
  exact hinj (Scan.append_cons_inj (hnotMem _) (hnotMem _) h).1

/-- Two tokens are equal only if they were made at the same clock tick, by the same thread, for the same
    user. -/
theorem makeToken_inj (hinj : Function.Injective crypto.base64Encode)
    (hdot : ∀ s, ∀ b ∈ crypto.base64Encode s, b ≠ 46) (hthread : Function.Injective threadIdStr)
    (hdecimal : ∀ t, ∃ n, threadIdStr t = decimal n) {now now' : Int} {t t' : ThreadId}
    {username username' : Str}
    (h : makeToken crypto now (threadIdStr t) username =
      makeToken crypto now' (threadIdStr t') username') :
    now = now' ∧ t = t' ∧ username = username' := by
  have hraw := tokenRaw_eq_of_makeToken_eq hinj hdot h
  obtain ⟨n, hn⟩ := hdecimal t
  obtain ⟨n', hn'⟩ := hdecimal t'
  rw [hn, hn'] at hraw
  obtain ⟨hnow, hnumber, husername⟩ := tokenRaw_inj hraw
  have hthreads : threadIdStr t = threadIdStr t' := by rw [hn, hn', hnumber]
  exact ⟨hnow, hthread hthreads, husername⟩

/-- A new token is valid. -/
theorem isTokenValid_createToken (hdot : ∀ s, ∀ b ∈ crypto.base64Encode s, b ≠ 46) (m : TokenManager)
    (now1 now2 : Int) (tid username : Str) (timeoutMs : Int) :
    (m.createToken crypto now1 now2 tid username timeoutMs).2.isTokenValid crypto
      (m.createToken crypto now1 now2 tid username timeoutMs).1 = true := by
  have hsigned : Signed crypto (m.createToken crypto now1 now2 tid username timeoutMs).1 :=
    signed_makeToken hdot now1 tid username
  rw [isTokenValid_of_signed hsigned]
  simp [createToken, exist]

/-- Tokens are equal only for the same clock tick, thread and user name, whatever bytes the name has. The
    first dot of a token splits it into its base64 part and the signature of that part, so no token fails
    the signature check, whichever manager makes it, and the one that made the token finds it valid. -/
theorem createToken_injective (hinj : Function.Injective crypto.base64Encode)
    (hdot : ∀ s, ∀ b ∈ crypto.base64Encode s, b ≠ 46) (hthread : Function.Injective threadIdStr)
    (hdecimal : ∀ t, ∃ n, threadIdStr t = decimal n) :
    (∀ (m m' : TokenManager) (now1 now1' now2 now2' : Int) (t t' : ThreadId) (username username' : Str)
        (timeoutMs timeoutMs' : Int),
      (m.createToken crypto now1 now2 (threadIdStr t) username timeoutMs).1 =
          (m'.createToken crypto now1' now2' (threadIdStr t') username' timeoutMs').1 ↔
        now1 = now1' ∧ t = t' ∧ username = username') ∧
    ∀ (m : TokenManager) (now1 now2 : Int) (t : ThreadId) (username : Str) (timeoutMs : Int),
      let (token, m') := m.createToken crypto now1 now2 (threadIdStr t) username timeoutMs
      let tokenBase64 := crypto.base64Encode (tokenRaw now1 (threadIdStr t) username)
      SplitsInto token tokenBase64 (crypto.hmacSha256 tokenBase64 secretKey) ∧
        (∀ m'' : TokenManager, m''.isTokenValid crypto token = m''.exist token) ∧
        m'.isTokenValid crypto token = true := by
  refine ⟨fun m m' now1 now1' now2 now2' t t' username username' timeoutMs timeoutMs' => ⟨?_, ?_⟩,
    fun m now1 now2 t username timeoutMs => ⟨?_, fun m'' => ?_, ?_⟩⟩
  · exact makeToken_inj hinj hdot hthread hdecimal
  · rintro ⟨rfl, rfl, rfl⟩
    rfl
  · exact splitsInto_append (hdot _) _
  · exact isTokenValid_of_signed (signed_makeToken hdot now1 (threadIdStr t) username)
  · exact isTokenValid_createToken hdot m now1 now2 (threadIdStr t) username timeoutMs

end Tokens

theorem encode_ne_dot (s : Str) : ∀ b ∈ Base64.encode s, b ≠ 46 := by
  rintro b hb rfl
  rcases Base64.mem_encode hb with h | ⟨n, hn, h⟩
  · exact absurd h (by decide)
  · exact absurd h ((by decide : ∀ n < 64, 46 ≠ Base64.digit n) n hn)

/-- What the functions of OpenSSL answer for two raw tokens, `token_7_1_2.bob` and `token_7_12_.bob`. -/
def bobCrypto : CryptoUtils where
  base64Encode := Base64.encode
  hmacSha256 data key :=
    if key = secretKey ∧ data = str "dG9rZW5fN18xXzIuYm9i" then
      str "2f77412ac8ab7aa0d0d8c2106ba60093804017ac3a0a5843551a4a17cd91971f"
    else if key = secretKey ∧ data = str "dG9rZW5fN18xMl8uYm9i" then
      str "d99ba7fd9dd3f2b31ef86d799e3abeb33d1fe6deb7570001525bbc593c76bb7a"
    else []

/-- Two threads that start a token with the same bytes. -/
theorem createToken_injective_bob :
    (empty.createToken bobCrypto 7 8 (decimal 1) (str "2.bob") 1000).1 ≠
        (empty.createToken bobCrypto 7 8 (decimal 12) (str ".bob") 1000).1 ∧
      (empty.createToken bobCrypto 7 8 (decimal 1) (str "2.bob") 1000).2.isTokenValid bobCrypto
        (str "dG9rZW5fN18xXzIuYm9i.2f77412ac8ab7aa0d0d8c2106ba60093804017ac3a0a5843551a4a17cd91971f") =
          true := by
  have h := @createToken_injective bobCrypto Nat decimal Base64.encode_injective encode_ne_dot
    decimal_injective fun n => ⟨n, rfl⟩
  have htoken : (empty.createToken bobCrypto 7 8 (decimal 1) (str "2.bob") 1000).1 =
      str "dG9rZW5fN18xXzIuYm9i.2f77412ac8ab7aa0d0d8c2106ba60093804017ac3a0a5843551a4a17cd91971f" := by
    decide +kernel
  constructor
  · intro heq
    have htriple := (h.1 empty empty 7 7 8 8 1 12 _ _ 1000 1000).mp heq
    exact absurd htriple.2.1 (by decide)
  · rw [← htoken]
    exact (h.2 empty 7 8 1 (str "2.bob") 1000).2.2

end TokenManager

end ModularNetServer
