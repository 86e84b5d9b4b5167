import ModularNetServer.WebSocket.SessionClaim
import ModularNetServer.WebSocket.Proofs.StreamProofs

/-!
# Which session a handshake is bound to

`process` binds what a search for the expression finds, anywhere in the request, and does not ask whether
there is such a session.
-/

namespace ModularNetServer

open Cxx

namespace WebSocketConn

/-! ## The expression -/

/-- A search finds the leftmost start at which a pattern matches. -/
theorem search_eq_some_iff {α : Type} {pattern : Str → Option α} {text : Str} {a : α} :
    search pattern text = some a ↔ ∃ pre rest, text = pre ++ rest ∧ pattern rest = some a ∧
      ∀ pre' rest', text = pre' ++ rest' → pre'.length < pre.length → pattern rest' = none := by
  induction text with
  | nil =>
    simp only [search]
    constructor
    · intro h
      exact ⟨[], [], rfl, h, by simp⟩
    · rintro ⟨pre, rest, heq, hrest, -⟩
      obtain ⟨rfl, rfl⟩ := List.append_eq_nil_iff.mp heq.symm
      exact hrest
  | cons b text ih =>
    simp only [search]
    cases hb : pattern (b :: text) with
    | some found =>
      constructor
      · intro h
        cases h
        exact ⟨[], b :: text, rfl, hb, by simp⟩
      · rintro ⟨pre, rest, heq, hrest, hleft⟩
        cases pre with
        | nil =>
          obtain rfl : b :: text = rest := heq
          rw [hb] at hrest
          exact hrest
        | cons c pre =>
          have hnone := hleft [] (b :: text) rfl (by simp)
          rw [hb] at hnone
          cases hnone
    | none =>
      dsimp only
      rw [ih]
      constructor
      · rintro ⟨pre, rest, rfl, hrest, hleft⟩
        refine ⟨b :: pre, rest, rfl, hrest, ?_⟩
        intro pre' rest' heq hlt
        cases pre' with
        | nil =>
          obtain rfl : b :: (pre ++ rest) = rest' := heq
          exact hb
        | cons c pre' =>
          rw [List.cons_append, List.cons.injEq] at heq
          exact hleft pre' rest' heq.2 (by simpa using hlt)
      · rintro ⟨pre, rest, heq, hrest, hleft⟩
        cases pre with
        | nil =>
          obtain rfl : b :: text = rest := heq
          rw [hb] at hrest
          cases hrest
        | cons c pre =>
          rw [List.cons_append, List.cons.injEq] at heq
          obtain ⟨rfl, rfl⟩ := heq
          refine ⟨pre, rest, rfl, hrest, ?_⟩
          intro pre' rest' heq' hlt
          exact hleft (b :: pre') rest' (by rw [heq', List.cons_append]) (by simpa using hlt)

theorem after_eq_some_iff {pattern text rest : Str} :
    after pattern text = some rest ↔ text = pattern ++ rest := by
  unfold after
  split_ifs with h
  · obtain ⟨r, rfl⟩ := List.isPrefixOf_iff_prefix.mp h
    rw [List.drop_left, Option.some.injEq, List.append_cancel_left_eq]
  · refine iff_of_false (by simp) ?_
    rintro rfl
    exact h (List.isPrefixOf_iff_prefix.mpr (List.prefix_append _ _))

/-- The match of the parameter with a word that goes on. -/
theorem matchesParameter_cons {b : UInt8} {text word group : Str} :
    MatchesParameter (b :: text) (b :: word) group ↔ isSpace b = false ∧ MatchesParameter text word group := by
  simp [MatchesParameter, NoSpace, and_assoc]

/-- The word of a match goes on with the text, or the match starts here. -/
theorem matchesParameter_head {b : UInt8} {text word group : Str} (h : MatchesParameter (b :: text) word group) :
    (word = [] ∧ (b = 63 ∨ b = 38) ∧ ∃ rest, after (str "sessionId=") text = some rest ∧
      group = rest.takeWhile (fun b => b ≠ 38 && b ≠ 32) ∧ group ≠ []) ∨
      ∃ word', word = b :: word' ∧ isSpace b = false ∧ MatchesParameter text word' group := by
  cases word with
  | nil =>
    obtain ⟨-, q, rest, heq, hq, hgroup, hne⟩ := h
    rw [List.nil_append, List.cons.injEq] at heq
    obtain ⟨rfl, rfl⟩ := heq
    exact .inl ⟨rfl, hq, rest, after_eq_some_iff.mpr rfl, hgroup, hne⟩
  | cons c word =>
    obtain ⟨q, rest, heq, -⟩ := h.2
    obtain ⟨rfl, -⟩ := List.cons.inj heq
    exact .inr ⟨word, rfl, matchesParameter_cons.mp h⟩

theorem sessionGroup_eq_none {text : Str} (h : sessionGroup text = none) (word group : Str) :
    ¬ MatchesParameter text word group := by
  induction text generalizing word with
  | nil =>
    rintro ⟨-, q, rest, heq, -⟩
    simp at heq
  | cons b text ih =>
    intro hmatch
    simp only [sessionGroup] at h
    rcases matchesParameter_head hmatch with ⟨-, hq, rest, hafter, rfl, hne⟩ | ⟨word', -, hspace, hmatch'⟩
    · have hspace : isSpace b = false := by rcases hq with rfl | rfl <;> rfl
      rw [hspace] at h
      cases hgroup : sessionGroup text with
      | some g => simp [hgroup] at h
      | none =>
        rw [hgroup, hafter] at h
        simp only [Bool.false_eq_true, if_false, if_pos hq, if_neg hne] at h
        cases h
    · rw [hspace] at h
      cases hgroup : sessionGroup text with
      | some g => simp [hgroup] at h
      | none => exact ih hgroup word' hmatch'

/-- The match that is found starts last in the word, so that its word is the longest. -/
theorem sessionGroup_some {text group : Str} (h : sessionGroup text = some group) :
    ∃ word, MatchesParameter text word group ∧
      ∀ word' group', MatchesParameter text word' group' → word'.length ≤ word.length := by
  induction text with
  | nil => cases h
  | cons b text ih =>
    simp only [sessionGroup] at h
    cases hspace : isSpace b with
    | true => simp [hspace] at h
    | false =>
      rw [hspace] at h
      simp only [Bool.false_eq_true, if_false] at h
      cases hgroup : sessionGroup text with
      | some g =>
        rw [hgroup] at h
        cases h
        obtain ⟨word, hmatch, hlong⟩ := ih hgroup
        refine ⟨b :: word, matchesParameter_cons.mpr ⟨hspace, hmatch⟩, ?_⟩
        intro word' group' hmatch'
        rcases matchesParameter_head hmatch' with ⟨rfl, -⟩ | ⟨word'', rfl, -, hmatch''⟩
        · exact Nat.zero_le _
        · exact Nat.succ_le_succ (hlong word'' group' hmatch'')
      | none =>
        rw [hgroup] at h
        dsimp only at h
        split_ifs at h with hq
        · split at h
          · cases h
          · rename_i rest hafter
            split_ifs at h with hne
            cases h
            obtain rfl := after_eq_some_iff.mp hafter
            refine ⟨[], ⟨by simp [NoSpace], b, rest, rfl, hq, rfl, hne⟩, ?_⟩
            intro word' group' hmatch'
            rcases matchesParameter_head hmatch' with ⟨rfl, -⟩ | ⟨word'', -, -, hmatch''⟩
            · exact Nat.zero_le _
            · exact absurd hmatch'' (sessionGroup_eq_none hgroup _ _)

/-- A match is told by the length of its word. -/
theorem MatchesParameter.group_unique {text word word' group group' : Str}
    (h : MatchesParameter text word group) (h' : MatchesParameter text word' group')
    (hlen : word.length = word'.length) : group = group' := by
  obtain ⟨-, q, rest, rfl, -, rfl, -⟩ := h
  obtain ⟨-, q', rest', heq, -, rfl, -⟩ := h'
  obtain ⟨-, htail⟩ := List.append_inj heq hlen
  obtain rfl := List.append_cancel_left (List.cons.inj htail).2
  rfl

theorem sessionGroup_eq_some_iff {text group : Str} :
    sessionGroup text = some group ↔ ∃ word, MatchesParameter text word group ∧
      ∀ word' group', MatchesParameter text word' group' → word'.length ≤ word.length := by
  constructor
  · exact sessionGroup_some
  · rintro ⟨word, hmatch, hlong⟩
    cases hgroup : sessionGroup text with
    | none => exact absurd hmatch (sessionGroup_eq_none hgroup _ _)
    | some g =>
      obtain ⟨word', hmatch', hlong'⟩ := sessionGroup_some hgroup
      have hlen : word.length = word'.length :=
        Nat.le_antisymm (hlong' word group hmatch) (hlong word' g hmatch')
      rw [MatchesParameter.group_unique hmatch hmatch' hlen]

/-- White space is skipped as a whole: what is matched after it does not start with white space. -/
theorem matchesSession_iff {text word group : Str} :
    MatchesSession text word group ↔ ∃ rest, afterGet text = some rest ∧ MatchesParameter rest word group := by
  constructor
  · rintro ⟨spaces, rest, rfl, hne, hspaces, hmatch⟩
    have hstart : rest.takeWhile isSpace = [] ∧ rest.dropWhile isSpace = rest := by
      obtain ⟨hword, q, tail, rfl, hq, -⟩ := hmatch
      cases word with
      | nil => rcases hq with rfl | rfl <;> exact ⟨rfl, rfl⟩
      | cons b word =>
        have hb : isSpace b = false := hword b (by simp)
        simp [hb]
    refine ⟨rest, ?_, hmatch⟩
    unfold afterGet
    rw [after_eq_some_iff.mpr rfl]
    dsimp only
    rw [List.takeWhile_append_of_pos hspaces, List.dropWhile_append_of_pos hspaces, hstart.1, hstart.2,
      if_neg (by simpa using hne)]
  · rintro ⟨rest, hafter, hmatch⟩
    unfold afterGet at hafter
    split at hafter
    · cases hafter
    · rename_i tail hget
      split_ifs at hafter with hspaces
      cases hafter
      refine ⟨tail.takeWhile isSpace, tail.dropWhile isSpace, ?_, hspaces, ?_, hmatch⟩
      · rw [List.takeWhile_append_dropWhile]
        exact after_eq_some_iff.mp hget
      · intro b hb
        exact List.mem_takeWhile_imp hb

theorem pattern_eq_some_iff {text group : Str} :
    (afterGet text).bind sessionGroup = some group ↔ ∃ word, MatchesSession text word group ∧
      ∀ word' group', MatchesSession text word' group' → word'.length ≤ word.length := by
  simp only [matchesSession_iff, Option.bind_eq_some_iff, sessionGroup_eq_some_iff]
  constructor
  · rintro ⟨rest, hafter, word, hmatch, hlong⟩
    refine ⟨word, ⟨rest, hafter, hmatch⟩, ?_⟩
    rintro word' group' ⟨rest', hafter', hmatch'⟩
    rw [hafter] at hafter'
    cases hafter'
    exact hlong word' group' hmatch'
  · rintro ⟨word, ⟨rest, hafter, hmatch⟩, hlong⟩
    exact ⟨rest, hafter, word, hmatch, fun word' group' hmatch' => hlong word' group' ⟨rest, hafter, hmatch'⟩⟩

theorem pattern_eq_none_iff {text : Str} :
    (afterGet text).bind sessionGroup = none ↔ ∀ word group, ¬ MatchesSession text word group := by
  constructor
  · intro hnone word group hmatch
    obtain ⟨rest, hafter, hmatch⟩ := matchesSession_iff.mp hmatch
    rw [hafter] at hnone
    exact sessionGroup_eq_none hnone word group hmatch
  · intro h
    rw [Option.eq_none_iff_forall_ne_some]
    intro group hsome
    obtain ⟨word, hmatch, -⟩ := pattern_eq_some_iff.mp hsome
    exact h word group hmatch

/-- `extractSessionIdFromRequest` gives the group of the match that a search finds. -/
theorem extractSessionId_iff {request group : Str} :
    extractSessionIdFromRequest request = group ∧ group ≠ [] ↔ FindsSession request group := by
  have hsearch : search (fun text => (afterGet text).bind sessionGroup) request = some group ↔
      FindsSession request group := by
    rw [search_eq_some_iff]
    simp only [pattern_eq_some_iff, pattern_eq_none_iff]
    constructor
    · rintro ⟨pre, text, heq, ⟨word, hmatch, hlong⟩, hleft⟩
      exact ⟨pre, text, word, heq, hmatch, hlong, hleft⟩
    · rintro ⟨pre, text, word, heq, hmatch, hlong, hleft⟩
      exact ⟨pre, text, heq, ⟨word, hmatch, hlong⟩, hleft⟩
  have hne : FindsSession request group → group ≠ [] := by
    rintro ⟨-, -, -, -, ⟨-, -, -, -, -, -, -, -, -, -, -, hne⟩, -⟩
    exact hne
  rw [← hsearch] at hne ⊢
  unfold extractSessionIdFromRequest
  constructor
  · rintro ⟨rfl, hgroup⟩
    cases h : search (fun text => (afterGet text).bind sessionGroup) request with
    | none => simp [h] at hgroup
    | some g => rfl
  · intro h
    rw [h]
    exact ⟨rfl, hne h⟩

/-! ## The handshake -/

variable {acc : Str → Str} {handler : WsHandler} {m : WebsocketConnManager} {c : WebSocketConn}

/-- A complete request is answered, and nothing that `process` reads afterwards changes. -/
theorem handleHandshake_completes (acc : Str → Str) (hs : c.status = .handshake)
    (h : CompletesHandshake c.readBuf) :
    ∃ w, c.handleHandshake acc = (true, { c with writeBuf := w, status := .connected }) := by
  obtain ⟨hend, pos, hpos, hline⟩ := h
  obtain ⟨e, he⟩ := Option.isSome_iff_exists.mp hend
  obtain ⟨len, hlen⟩ := Option.isSome_iff_exists.mp hline
  exact ⟨_, handleHandshake_found acc hs he hpos hlen⟩

theorem handleHandshake_incomplete (acc : Str → Str) (h : ¬ CompletesHandshake c.readBuf) :
    c.handleHandshake acc = (false, c) := by
  unfold handleHandshake
  split_ifs
  · rfl
  · split
    · rfl
    · rename_i hend
      split
      · rfl
      · rename_i pos hpos
        dsimp only
        split
        · rfl
        · rename_i hline
          refine absurd ⟨?_, pos, hpos, ?_⟩ h
          · rw [hend]
            rfl
          · rw [hline]
            rfl

theorem process_incomplete (hs : c.status = .handshake) (h : ¬ CompletesHandshake c.readBuf) :
    c.process acc handler m = .ok ⟨false, m, c, none⟩ := by
  unfold process
  rw [hs]
  dsimp only
  rw [handleHandshake_incomplete acc h]

/-- A complete request binds what the search finds. -/
theorem process_completes (hs : c.status = .handshake) (h : CompletesHandshake c.readBuf) :
    ∃ r, c.process acc handler m = .ok r ∧
      r.manager = if extractSessionIdFromRequest c.readBuf = [] then m
        else m.bindSession c.sockfd (extractSessionIdFromRequest c.readBuf) := by
  obtain ⟨w, hdone⟩ := handleHandshake_completes acc hs h
  unfold process
  rw [hs]
  dsimp only
  rw [hdone]
  exact ⟨_, rfl, rfl⟩

/-- The manager after a request that names a session, or that names none. -/
theorem process_manager (hs : c.status = .handshake) :
    ∃ r, c.process acc handler m = .ok r ∧
      ((∃ s, NamesSession c.readBuf s ∧ r.manager = m.bindSession c.sockfd s) ∨
        (∀ s, ¬ NamesSession c.readBuf s) ∧ r.manager = m) := by
  by_cases h : CompletesHandshake c.readBuf
  · obtain ⟨r, hr, hm⟩ := @process_completes acc handler m c hs h
    refine ⟨r, hr, ?_⟩
    by_cases hne : extractSessionIdFromRequest c.readBuf = []
    · rw [if_pos hne] at hm
      refine .inr ⟨?_, hm⟩
      rintro s ⟨-, hfinds⟩
      obtain ⟨rfl, hs⟩ := extractSessionId_iff.mpr hfinds
      exact hs hne
    · rw [if_neg hne] at hm
      exact .inl ⟨_, ⟨h, extractSessionId_iff.mp ⟨rfl, hne⟩⟩, hm⟩
  · exact ⟨_, process_incomplete hs h, .inr ⟨fun s hnames => h hnames.1, rfl⟩⟩

theorem NamesSession.unique {request s s' : Str} (h : NamesSession request s) (h' : NamesSession request s') :
    s = s' := by
  rw [← (extractSessionId_iff.mpr h.2).1, ← (extractSessionId_iff.mpr h'.2).1]

/-- What a number is bound to after `process`: the session that the request names, and what it was bound to
    before, unless the entry is replaced. -/
theorem process_binds (hs : c.status = .handshake) :
    ∃ r, c.process acc handler m = .ok r ∧ ∀ s, r.manager.Binds c.sockfd s ↔
      NamesSession c.readBuf s ∨ m.KeepsBound c.sockfd c.readBuf s := by
  obtain ⟨r, hr, ⟨s, hnames, hm⟩ | ⟨hnone, hm⟩⟩ := @process_manager acc handler m c hs
  · refine ⟨r, hr, ?_⟩
    intro s'
    have hunique : NamesSession c.readBuf s' ↔ s' = s :=
      ⟨fun h => NamesSession.unique h hnames, fun h => h ▸ hnames⟩
    have hreplaced : ¬ ∀ group, ¬ NamesSession c.readBuf group := fun h => h s hnames
    rw [hunique, hm]
    unfold WebsocketConnManager.Binds WebsocketConnManager.KeepsBound WebsocketConnManager.bindSession
    by_cases heq : s' = s
    · subst heq
      simp
    · simp [heq, Ne.symm heq, hreplaced, Table.insert_of_ne]
  · refine ⟨r, hr, ?_⟩
    intro s
    rw [hm]
    unfold WebsocketConnManager.Binds WebsocketConnManager.KeepsBound
    simp [hnone, or_comm]

/-- Only sessions that exist and that the request line names are bound, exactly when that is so of what the
    search finds in a complete request and of the bindings that the request does not replace. -/
theorem process_binds_claimed_iff (acc : Str → Str) (handler : WsHandler) (m : WebsocketConnManager)
    (calls : List SessionCall) (hs : c.status = .handshake) :
    ∃ r, c.process acc handler m = .ok r ∧
      ((∀ s, r.manager.Binds c.sockfd s → IsSessionParameter c.readBuf s ∧
          WebsocketConnManager.isSessionAlive (calls.foldl SessionManager.call SessionManager.empty) s) ↔
        (∀ s, NamesSession c.readBuf s → IsSessionParameter c.readBuf s ∧
          WebsocketConnManager.isSessionAlive (calls.foldl SessionManager.call SessionManager.empty) s) ∧
        ∀ s, m.KeepsBound c.sockfd c.readBuf s → IsSessionParameter c.readBuf s ∧
          WebsocketConnManager.isSessionAlive (calls.foldl SessionManager.call SessionManager.empty) s) := by
  obtain ⟨r, hr, hbinds⟩ := @process_binds acc handler m c hs
  refine ⟨r, hr, ?_⟩
  constructor
  · intro h
    exact ⟨fun s hnames => h s ((hbinds s).mpr (.inl hnames)), fun s hkept => h s ((hbinds s).mpr (.inr hkept))⟩
  · rintro ⟨hnamed, hkept⟩ s hbound
    rcases (hbinds s).mp hbound with h | h
    · exact hnamed s h
    · exact hkept s h

/-- A handshake for a path. -/
def handshakeFor (path : String) : Str :=
  str "GET " ++ str path ++ str " HTTP/1.1\r\nSec-WebSocket-Key: abc\r\n\r\n"

theorem process_binds_claimed_iff_chat :
    ∃ r, ((make.init 5).receive (handshakeFor "/chat")).process id (fun _ => []) WebsocketConnManager.empty =
        .ok r ∧
      ((∀ s, r.manager.Binds 5 s → IsSessionParameter (handshakeFor "/chat") s ∧
          WebsocketConnManager.isSessionAlive ([].foldl SessionManager.call SessionManager.empty) s) ↔
        (∀ s, NamesSession (handshakeFor "/chat") s → IsSessionParameter (handshakeFor "/chat") s ∧
          WebsocketConnManager.isSessionAlive ([].foldl SessionManager.call SessionManager.empty) s) ∧
        ∀ s, WebsocketConnManager.empty.KeepsBound 5 (handshakeFor "/chat") s →
          IsSessionParameter (handshakeFor "/chat") s ∧
          WebsocketConnManager.isSessionAlive ([].foldl SessionManager.call SessionManager.empty) s) :=
  @process_binds_claimed_iff ((make.init 5).receive (handshakeFor "/chat")) id (fun _ => [])
    WebsocketConnManager.empty [] rfl

/-- Without any session, a handshake is bound to the one that it names. -/
theorem process_binds_unknown :
    ∃ r, ((make.init 5).receive (handshakeFor "/chat?sessionId=nosuch")).process id (fun _ => [])
        WebsocketConnManager.empty = .ok r ∧
      ¬ ∀ s, r.manager.Binds 5 s → IsSessionParameter (handshakeFor "/chat?sessionId=nosuch") s ∧
        WebsocketConnManager.isSessionAlive ([].foldl SessionManager.call SessionManager.empty) s := by
  refine ⟨_, rfl, fun h => ?_⟩
  have hbound := h (str "nosuch") (.inl (by decide))
  exact absurd hbound.2 (by decide)

/-- A session that exists is bound from a header, and the request line names none. -/
example :
    let request := str "GET /chat HTTP/1.1\r\nX: GET /?sessionId=sess_0_1 \r\nSec-WebSocket-Key: abc\r\n\r\n"
    extractSessionIdFromRequest request = str "sess_0_1" ∧ ¬ IsSessionParameter request (str "sess_0_1") := by
  decide

end WebSocketConn

end ModularNetServer
