import ModularNetServer.Library.Base64
import ModularNetServer.WebSocket.WsServer
import ModularNetServer.WebSocket.Proofs.StreamProofs
import ModularNetServer.WebSocket.Proofs.WriteBufferProofs

/-!
# Each client reads what is meant for it

A session is bound to the open connection that has claimed it last, so that a push finds that connection, which has
completed its handshake. What has been taken of a connection, followed by its write buffer, is the answer to the
handshake and the frames of the messages for it.
-/

namespace ModularNetServer

open Cxx HttpReader

namespace WsHistory

variable {h es : WsHistory} {i : Nat} {sessionId : Str}

theorem messagesTo_append (h es : WsHistory) (i : Nat) :
    (h ++ es).messagesTo i = h.messagesTo i ++ es.messagesTo i := List.filterMap_append

theorem takenFrom_append (h es : WsHistory) (i : Nat) :
    (h ++ es).takenFrom i = h.takenFrom i ++ es.takenFrom i := List.flatMap_append

/-- What happens on other connections is not for this one. -/
theorem messagesTo_eq_nil (hes : ∀ e ∈ es, e.conn ≠ i) : es.messagesTo i = [] := by
  rw [messagesTo, List.filterMap_eq_nil_iff]
  intro e he
  have hne := hes e he
  cases e with
  | answered j msg => exact if_neg hne
  | pushed j s msg => exact if_neg hne
  | greeted => rfl
  | claimed => rfl
  | taken => rfl

theorem takenFrom_eq_nil (hes : ∀ e ∈ es, e.conn ≠ i) : es.takenFrom i = [] := by
  rw [takenFrom, List.flatMap_eq_nil_iff]
  intro e he
  have hne := hes e he
  cases e with
  | taken j bytes => exact if_neg hne
  | greeted => rfl
  | claimed => rfl
  | answered => rfl
  | pushed => rfl

/-- Only a claim changes who has claimed a session. -/
theorem lastClaim_append_of_none (hes : ∀ e ∈ es, e.claimant sessionId = none) :
    (h ++ es).lastClaim sessionId = h.lastClaim sessionId := by
  rw [lastClaim, lastClaim, List.filterMap_append, List.filterMap_eq_nil_iff.mpr hes, List.append_nil]

end WsHistory

namespace WebSocketConn

variable {c : WebSocketConn} {acc : Str → Str} {handler : WsHandler} {m : WebsocketConnManager} {r : WsProcessed}

/-- A handshake that is not complete changes nothing; another is answered with the client's key. -/
theorem handleHandshake_cases (acc : Str → Str) (hs : c.status = .handshake) :
    c.handleHandshake acc = (false, c) ∨
      c.handleHandshake acc = (true, { c with
        writeBuf := c.writeBuf ++ switchingProtocols (acc (clientKey c.readBuf))
        status := .connected }) := by
  unfold handleHandshake clientKey
  rw [if_neg (by rw [hs]; decide)]
  rcases Scan.find (str "\r\n\r\n") c.readBuf with _ | e
  · exact .inl rfl
  rcases Scan.find (str "Sec-WebSocket-Key: ") c.readBuf with _ | pos
  · exact .inl rfl
  dsimp only
  rcases Scan.find (str "\r\n") (c.readBuf.drop (pos + (str "Sec-WebSocket-Key: ").length)) with _ | len
  · exact .inl rfl
  · exact .inr rfl

/-- A `process` call before the handshake is complete. -/
theorem process_handshake_cases (hs : c.status = .handshake) (h : c.process acc handler m = .ok r) :
    r = ⟨false, m, c, none⟩ ∨
      r = ⟨true,
        if extractSessionIdFromRequest c.readBuf = [] then m
          else m.bindSession c.sockfd (extractSessionIdFromRequest c.readBuf),
        { c with
          path := extractPathFromRequest c.readBuf
          readBuf := []
          writeBuf := c.writeBuf ++ switchingProtocols (acc (clientKey c.readBuf))
          status := .connected },
        none⟩ := by
  unfold process at h
  rw [hs] at h
  dsimp only at h
  rcases handleHandshake_cases acc hs with heq | heq
  all_goals
    rw [heq] at h
    cases h
  · exact .inl rfl
  · exact .inr rfl

/-- A `process` call after the handshake: a handler answers a message that has arrived. -/
theorem process_connected_cases (hs : c.status = .connected) (h : c.process acc handler m = .ok r) :
    r = ⟨false, m, c, none⟩ ∨
      ∃ d rest, r = ⟨true, m, (handler d).foldl sendTextFrame { c with readBuf := rest }, some d⟩ := by
  unfold process at h
  split at h
  · rename_i hs'
    rw [hs] at hs'
    cases hs'
  · split at h
    · cases h
    · cases h
      exact .inl rfl
    · cases h
      exact .inr ⟨_, _, rfl⟩

theorem read_fields (c : WebSocketConn) (edgeTriggered : Bool) (calls : List Received) :
    ∃ buf, (c.read edgeTriggered calls).2 = { c with readBuf := buf } := by
  have hET : ∀ (calls : List Received) (c : WebSocketConn), ∃ buf, (c.readET calls).2 = { c with readBuf := buf } := by
    intro calls
    induction calls with
    | nil => exact fun c => ⟨c.readBuf, rfl⟩
    | cons call calls ih =>
      intro c
      cases call with
      | data bytes => exact ih (c.receive bytes)
      | again => exact ⟨c.readBuf, rfl⟩
      | failed => exact ⟨c.readBuf, rfl⟩
      | ended => exact ⟨c.readBuf, rfl⟩
  unfold read
  split_ifs
  · exact ⟨c.readBuf, rfl⟩
  · exact hET calls c
  · rcases calls with _ | ⟨_ | _ | _ | _, calls⟩
    · exact ⟨c.readBuf, rfl⟩
    · exact ⟨_, rfl⟩
    · exact ⟨c.readBuf, rfl⟩
    · exact ⟨c.readBuf, rfl⟩
    · exact ⟨c.readBuf, rfl⟩

theorem writeOver_fields (c : WebSocketConn) (rs : List SocketResult) :
    ∃ buf, (c.writeOver rs).2.2 = { c with writeBuf := buf } := by
  unfold writeOver
  split_ifs
  · exact ⟨c.writeBuf, rfl⟩
  · generalize sendLoop c.writeBuf.length 0 rs = sent
    obtain ⟨status, positions⟩ := sent
    dsimp only
    split_ifs
    · exact ⟨[], rfl⟩
    · exact ⟨c.writeBuf, rfl⟩

end WebSocketConn

namespace WsServer

variable {acc : Str → Str} {handler : WsHandler} {s s' : WsServer} {h es : WsHistory} {i k : Nat}
  {c c' : WebSocketConn} {fd : Int} {a : Action}

/-! ## Where a session leads -/

/-- A number belongs to one object, which `m_users` has under it if any; a session leads to the open connection that
    has claimed it last. -/
structure Routes (s : WsServer) (h : WsHistory) : Prop where
  known : ∀ e ∈ h, e.conn < s.conns.length
  opened : ∀ (i : Nat) (c : WebSocketConn), s.conns[i]? = some c → c.isClosed = false → c.sockfd ≠ -1
  unique : ∀ (i j : Nat) (c d : WebSocketConn), s.conns[i]? = some c → s.conns[j]? = some d → c.sockfd = d.sockfd →
    c.sockfd ≠ -1 → i = j
  user : ∀ (i : Nat) (c : WebSocketConn) (k : Nat), s.conns[i]? = some c → c.sockfd ≠ -1 →
    s.users c.sockfd = some k → k = i
  noUser : s.users (-1) = none
  bound : ∀ t fd, s.manager.sessionToFd t = some fd → fd ≠ -1 → s.manager.fdToSession fd = some t
  claims : ∀ t fd, s.manager.sessionToFd t = some fd → fd ≠ -1 → ∃ (i : Nat) (c : WebSocketConn),
    h.lastClaim t = some i ∧ s.conns[i]? = some c ∧ c.sockfd = fd ∧ c.status = .connected

namespace Routes

theorem start : Routes WsServer.start [] where
  known := fun e he => by cases he
  opened := fun i c hc => by cases hc
  unique := fun i j c d hc => by cases hc
  user := fun i c k hc => by cases hc
  noUser := rfl
  bound := fun t fd ht => by cases ht
  claims := fun t fd ht => by cases ht

/-- A push finds the claimant, which has completed its handshake. -/
theorem target (hr : Routes s h) {t : Str} (ht : (s.manager.sessionToFd t).bind s.users = some k) :
    h.lastClaim t = some k ∧ ∃ c, s.conns[k]? = some c ∧ c.status = .connected := by
  obtain ⟨fd, hfd, huser⟩ := Option.bind_eq_some_iff.mp ht
  have hopen : fd ≠ -1 := by
    rintro rfl
    rw [hr.noUser] at huser
    cases huser
  obtain ⟨i, c, hclaim, hc, rfl, hstatus⟩ := hr.claims t fd hfd hopen
  obtain rfl : k = i := hr.user i c k hc hopen huser
  exact ⟨hclaim, c, hc, hstatus⟩

/-- The objects after one of them has changed, in terms of those before. -/
theorem getElem?_set_cases {conns : List WebSocketConn} {j : Nat} {d' : WebSocketConn} (hc : conns[i]? = some c)
    (hd : (conns.set i c')[j]? = some d') : (j = i ∧ d' = c') ∨ (j ≠ i ∧ conns[j]? = some d') := by
  have hi : i < conns.length := (List.getElem?_eq_some_iff.mp hc).1
  rw [List.getElem?_set] at hd
  by_cases hj : i = j
  · rw [if_pos hj, if_pos hi] at hd
    exact .inl ⟨hj.symm, (Option.some.inj hd).symm⟩
  · rw [if_neg hj] at hd
    exact .inr ⟨fun h => hj h.symm, hd⟩

/-- An object changes, but not its number; its handshake stays complete. -/
theorem setConn (hr : Routes s h) (hc : s.conns[i]? = some c) (hfd : c'.sockfd = c.sockfd)
    (hclosed : c'.isClosed = false → c.isClosed = false) (hstatus : c.status = .connected → c'.status = .connected)
    (hes : ∀ e ∈ es, e.conn = i) (hclaims : ∀ t, ∀ e ∈ es, e.claimant t = none) :
    Routes { s with conns := s.conns.set i c' } (h ++ es) := by
  have hi : i < s.conns.length := (List.getElem?_eq_some_iff.mp hc).1
  have hback : ∀ {j : Nat} {d' : WebSocketConn}, (s.conns.set i c')[j]? = some d' →
      ∃ d, s.conns[j]? = some d ∧ d'.sockfd = d.sockfd ∧ (d'.isClosed = false → d.isClosed = false) := by
    intro j d' hd
    rcases getElem?_set_cases hc hd with ⟨rfl, rfl⟩ | ⟨-, hd⟩
    · exact ⟨c, hc, hfd, hclosed⟩
    · exact ⟨d', hd, rfl, id⟩
  refine ⟨?_, ?_, ?_, ?_, hr.noUser, hr.bound, ?_⟩
  · intro e he
    rw [List.length_set]
    rcases List.mem_append.mp he with he | he
    · exact hr.known e he
    · rw [hes e he]
      exact hi
  · intro j d' hd hopen
    obtain ⟨d, hd, hsame, hclosed⟩ := hback hd
    rw [hsame]
    exact hr.opened j d hd (hclosed hopen)
  · intro j j' d d' hd hd' hsame hne
    obtain ⟨e, he, hfd, -⟩ := hback hd
    obtain ⟨e', he', hfd', -⟩ := hback hd'
    rw [hfd, hfd'] at hsame
    rw [hfd] at hne
    exact hr.unique j j' e e' he he' hsame hne
  · intro j d k hd hne huser
    obtain ⟨e, he, hfd, -⟩ := hback hd
    rw [hfd] at hne huser
    exact hr.user j e k he hne huser
  · intro t fd ht hne
    obtain ⟨j, d, hclaim, hd, hsame, hconnected⟩ := hr.claims t fd ht hne
    rw [WsHistory.lastClaim_append_of_none (hclaims t)]
    by_cases hj : j = i
    · subst hj
      obtain rfl : c = d := Option.some.inj (hc.symm.trans hd)
      exact ⟨j, c', hclaim, List.getElem?_set_self hi, hfd.trans hsame, hstatus hconnected⟩
    · refine ⟨j, d, hclaim, ?_, hsame, hconnected⟩
      rw [List.getElem?_set_ne (Ne.symm hj)]
      exact hd

/-- A connection is accepted under a number that none has. -/
theorem accept (hr : Routes s h) {fd : Nat} (hfree : ∀ c ∈ s.conns, c.sockfd ≠ fd) :
    Routes { s with
      conns := s.conns ++ [WebSocketConn.make.init fd]
      users := s.users.insert fd s.conns.length } h := by
  have hnew : (WebSocketConn.make.init fd).sockfd = fd := rfl
  have hcases : ∀ {j : Nat} {d : WebSocketConn}, (s.conns ++ [WebSocketConn.make.init fd])[j]? = some d →
      s.conns[j]? = some d ∨ (j = s.conns.length ∧ d = WebSocketConn.make.init fd) := by
    intro j d hd
    rw [List.getElem?_append] at hd
    split_ifs at hd with hj
    · exact .inl hd
    · obtain ⟨hlt, hd⟩ := List.getElem?_eq_some_iff.mp hd
      rw [List.length_singleton] at hlt
      refine .inr ⟨by omega, ?_⟩
      rw [← hd, List.getElem_singleton]
  have hold : ∀ {j : Nat} {d : WebSocketConn}, s.conns[j]? = some d → d.sockfd ≠ fd :=
    fun hd => hfree _ (List.mem_of_getElem? hd)
  refine ⟨?_, ?_, ?_, ?_, ?_, hr.bound, ?_⟩
  · intro e he
    have := hr.known e he
    rw [List.length_append, List.length_singleton]
    omega
  · intro j d hd hopen
    rcases hcases hd with hd | ⟨rfl, rfl⟩
    · exact hr.opened j d hd hopen
    · rw [hnew]
      omega
  · intro j j' d d' hd hd' hsame hne
    rcases hcases hd with hd | ⟨rfl, rfl⟩
    · rcases hcases hd' with hd' | ⟨rfl, rfl⟩
      · exact hr.unique j j' d d' hd hd' hsame hne
      · exact absurd hsame (hold hd)
    · rcases hcases hd' with hd' | ⟨rfl, rfl⟩
      · exact absurd hsame.symm (hold hd')
      · rfl
  · intro j d k hd hne huser
    dsimp only at huser
    rcases hcases hd with hd | ⟨rfl, rfl⟩
    · rw [Table.insert_of_ne _ (hold hd)] at huser
      exact hr.user j d k hd hne huser
    · rw [hnew, Table.insert_self, Option.some.injEq] at huser
      exact huser.symm
  · have hne : (-1 : Int) ≠ fd := by omega
    exact (Table.insert_of_ne s.users hne s.conns.length).trans hr.noUser
  · intro t fd' ht hne
    obtain ⟨j, d, hclaim, hd, hsame, hconnected⟩ := hr.claims t fd' ht hne
    refine ⟨j, d, hclaim, ?_, hsame, hconnected⟩
    rw [List.getElem?_append_left (List.getElem?_eq_some_iff.mp hd).1]
    exact hd

/-- `m_users` forgets a number. -/
theorem erase (hr : Routes s h) (fd : Int) : Routes { s with users := s.users.erase fd } h := by
  refine ⟨hr.known, hr.opened, hr.unique, ?_, ?_, hr.bound, hr.claims⟩
  · intro j d k hd hne huser
    exact hr.user j d k hd hne (Table.of_erase_eq_some huser).2
  · dsimp only
    rw [Table.erase_apply, hr.noUser]
    exact ite_self none

/-- A handshake that names a session binds its connection. -/
theorem bindSession (hr : Routes s h) (hc : s.conns[i]? = some c) (hs : c.status = .handshake)
    (hsame : c'.sockfd = c.sockfd) (hclosed : c'.isClosed = c.isClosed) (hs' : c'.status = .connected)
    (request sessionId : Str) :
    Routes { s with conns := s.conns.set i c', manager := s.manager.bindSession c.sockfd sessionId }
      (h ++ [.greeted i request, .claimed i sessionId]) := by
  have hi : i < s.conns.length := (List.getElem?_eq_some_iff.mp hc).1
  have hset : Routes { s with conns := s.conns.set i c' } (h ++ [.greeted i request]) := by
    refine hr.setConn hc hsame (by rw [hclosed]; exact id) (fun _ => hs') ?_ ?_
    · intro e he
      rw [List.mem_singleton.mp he]
      rfl
    · intro t e he
      rw [List.mem_singleton.mp he]
      rfl
  have hself : (s.conns.set i c')[i]? = some c' := List.getElem?_set_self hi
  -- the number is bound to no other session, since its handshake has not been complete
  have hfree : ∀ t, c.sockfd ≠ -1 → s.manager.sessionToFd t ≠ some c.sockfd := by
    intro t hne ht
    obtain ⟨j, d, -, hd, hdfd, hconnected⟩ := hr.claims t c.sockfd ht hne
    obtain rfl : j = i := hr.unique j i d c hd hc hdfd (by rw [hdfd]; exact hne)
    obtain rfl : d = c := Option.some.inj (hd.symm.trans hc)
    rw [hs] at hconnected
    cases hconnected
  refine ⟨?_, hset.opened, hset.unique, hset.user, hset.noUser, ?_, ?_⟩
  · intro e he
    rw [← List.singleton_append, ← List.append_assoc] at he
    rcases List.mem_append.mp he with he | he
    · exact hset.known e he
    · rw [List.mem_singleton.mp he]
      exact (List.length_set (a := c')).symm ▸ hi
  · intro t fd ht hne
    dsimp only [WebsocketConnManager.bindSession] at ht ⊢
    by_cases htt : t = sessionId
    · rw [htt, Table.insert_self, Option.some.injEq] at ht
      rw [htt, ← ht, Table.insert_self]
    · rw [Table.insert_of_ne _ htt] at ht
      have hother : fd ≠ c.sockfd := by
        rintro rfl
        exact hfree t hne ht
      rw [Table.insert_of_ne _ hother]
      exact hr.bound t fd ht hne
  · intro t fd ht hne
    dsimp only [WebsocketConnManager.bindSession] at ht ⊢
    by_cases htt : t = sessionId
    · rw [htt, Table.insert_self, Option.some.injEq] at ht
      refine ⟨i, c', ?_, hself, hsame.trans ht, hs'⟩
      rw [htt]
      simp [WsHistory.lastClaim, WsEvent.claimant]
    · rw [Table.insert_of_ne _ htt] at ht
      obtain ⟨j, d, hclaim, hd, hdfd, hconnected⟩ := hset.claims t fd ht hne
      refine ⟨j, d, ?_, hd, hdfd, hconnected⟩
      rw [← hclaim]
      simp [WsHistory.lastClaim, WsEvent.claimant, Ne.symm htt]

/-- The second `closeConn` gives the number back and unbinds it. -/
theorem close (hr : Routes s h) (hc : s.conns[i]? = some c) (hclosed : c.isClosed = true) :
    Routes { s with
      conns := s.conns.set i { c with sockfd := -1 }
      manager := s.manager.removeFd c.sockfd } h := by
  have hi : i < s.conns.length := (List.getElem?_eq_some_iff.mp hc).1
  have hback : ∀ {j : Nat} {d' : WebSocketConn}, (s.conns.set i { c with sockfd := -1 })[j]? = some d' →
      d'.sockfd ≠ -1 → s.conns[j]? = some d' := by
    intro j d' hd hne
    rcases getElem?_set_cases hc hd with ⟨rfl, rfl⟩ | ⟨-, hd⟩
    · exact absurd rfl hne
    · exact hd
  -- what is still bound was bound before, to another number
  have hleft : ∀ t fd, (s.manager.removeFd c.sockfd).sessionToFd t = some fd → fd ≠ -1 →
      s.manager.sessionToFd t = some fd ∧ fd ≠ c.sockfd ∧ (s.manager.removeFd c.sockfd).fdToSession fd = some t := by
    intro t fd ht hopen
    unfold WebsocketConnManager.removeFd at ht ⊢
    rcases hbound : s.manager.fdToSession c.sockfd with _ | u
    all_goals rw [hbound] at ht
    · have hne : fd ≠ c.sockfd := by
        rintro rfl
        rw [hr.bound t _ ht hopen] at hbound
        cases hbound
      exact ⟨ht, hne, hr.bound t fd ht hopen⟩
    · obtain ⟨hne, ht⟩ := Table.of_erase_eq_some ht
      have hfds : fd ≠ c.sockfd := by
        rintro rfl
        rw [hr.bound t _ ht hopen, Option.some.injEq] at hbound
        exact hne hbound
      refine ⟨ht, hfds, ?_⟩
      dsimp only
      rw [Table.erase_of_ne _ hfds]
      exact hr.bound t fd ht hopen
  refine ⟨?_, ?_, ?_, ?_, hr.noUser, ?_, ?_⟩
  · intro e he
    rw [List.length_set]
    exact hr.known e he
  · intro j d' hd hopen
    rcases getElem?_set_cases hc hd with ⟨rfl, rfl⟩ | ⟨-, hd⟩
    · rw [hclosed] at hopen
      cases hopen
    · exact hr.opened j d' hd hopen
  · intro j j' d d' hd hd' hsame hne
    exact hr.unique j j' d d' (hback hd hne) (hback hd' (hsame ▸ hne)) hsame hne
  · intro j d k hd hne huser
    exact hr.user j d k (hback hd hne) hne huser
  · intro t fd ht hopen
    exact (hleft t fd ht hopen).2.2
  · intro t fd ht hopen
    obtain ⟨hbefore, hfds, -⟩ := hleft t fd ht hopen
    obtain ⟨j, d, hclaim, hd, hdfd, hconnected⟩ := hr.claims t fd hbefore hopen
    refine ⟨j, d, hclaim, ?_, hdfd, hconnected⟩
    have hj : i ≠ j := by
      rintro rfl
      obtain rfl : c = d := Option.some.inj (hc.symm.trans hd)
      exact hfds hdfd.symm
    rw [List.getElem?_set_ne hj]
    exact hd

end Routes

/-! ## What a connection carries -/

/-- Before the handshake is complete nothing is to be sent. After it, what has been taken, followed by the write
    buffer, is the answer to the handshake and the frames of the messages, cut between two of these. -/
structure Carries (acc : Str → Str) (h : WsHistory) (i : Nat) (c : WebSocketConn) : Prop where
  short : ∀ msg ∈ h.messagesTo i, msg.length < 2 ^ 63
  waiting : c.status = .handshake → c.writeBuf = [] ∧ h.takenFrom i = [] ∧ h.messagesTo i = []
  connected : c.status = .connected → ∃ request items later, .greeted i request ∈ h ∧
    h.messagesTo i = items ++ later ∧
    (h.takenFrom i = [] ∧ items = [] ∧ c.writeBuf =
        WebSocketConn.switchingProtocols (acc (WebSocketConn.clientKey request)) ++
          later.flatMap WebSocketConn.textFrame ∨
      h.takenFrom i = WebSocketConn.switchingProtocols (acc (WebSocketConn.clientKey request)) ++
          items.flatMap WebSocketConn.textFrame ∧
        c.writeBuf = later.flatMap WebSocketConn.textFrame)

namespace Carries

/-- Events that neither put a message into the write buffer nor take from it. -/
theorem append (hc : Carries acc h i c) (hmessages : es.messagesTo i = []) (htaken : es.takenFrom i = []) :
    Carries acc (h ++ es) i c := by
  have hmessages' : (h ++ es).messagesTo i = h.messagesTo i := by
    rw [WsHistory.messagesTo_append, hmessages, List.append_nil]
  have htaken' : (h ++ es).takenFrom i = h.takenFrom i := by
    rw [WsHistory.takenFrom_append, htaken, List.append_nil]
  refine ⟨?_, ?_, ?_⟩
  · rw [hmessages']
    exact hc.short
  · rw [hmessages', htaken']
    exact hc.waiting
  · intro hs
    obtain ⟨request, items, later, hmem, hcarries⟩ := hc.connected hs
    rw [hmessages', htaken']
    exact ⟨request, items, later, List.mem_append_left _ hmem, hcarries⟩

theorem of_eq (hc : Carries acc h i c) (hstatus : c'.status = c.status) (hbuf : c'.writeBuf = c.writeBuf) :
    Carries acc h i c' := by
  refine ⟨hc.short, ?_, ?_⟩
  · rw [hstatus, hbuf]
    exact hc.waiting
  · rw [hstatus, hbuf]
    exact hc.connected

/-- A connection that nothing has happened on. -/
theorem fresh (hnone : ∀ e ∈ h, e.conn ≠ i) (fd : Int) : Carries acc h i (WebSocketConn.make.init fd) := by
  have hmessages := WsHistory.messagesTo_eq_nil hnone
  refine ⟨?_, fun _ => ⟨rfl, WsHistory.takenFrom_eq_nil hnone, hmessages⟩, ?_⟩
  · rw [hmessages]
    exact fun msg hmsg => absurd hmsg List.not_mem_nil
  · intro hs
    cases hs

/-- A handshake is completed. -/
theorem greet (hc : Carries acc h i c) (hs : c.status = .handshake) {request : Str}
    (hbuf : c'.writeBuf = c.writeBuf ++ WebSocketConn.switchingProtocols (acc (WebSocketConn.clientKey request)))
    (hs' : c'.status = .connected) (hmem : .greeted i request ∈ es) (hmessages : es.messagesTo i = [])
    (htaken : es.takenFrom i = []) : Carries acc (h ++ es) i c' := by
  obtain ⟨hempty, htakenBefore, hnoMessages⟩ := hc.waiting hs
  have hmessages' : (h ++ es).messagesTo i = [] := by
    rw [WsHistory.messagesTo_append, hmessages, hnoMessages, List.append_nil]
  refine ⟨?_, ?_, ?_⟩
  · rw [hmessages']
    exact fun msg hmsg => absurd hmsg List.not_mem_nil
  · rw [hs']
    exact fun h => nomatch h
  · intro _
    refine ⟨request, [], [], List.mem_append_right _ hmem, hmessages', .inl ⟨?_, rfl, ?_⟩⟩
    · rw [WsHistory.takenFrom_append, htaken, htakenBefore, List.append_nil]
    · rw [hbuf, hempty, List.flatMap_nil, List.append_nil, List.nil_append]

/-- Messages are put into the write buffer. -/
theorem send (hc : Carries acc h i c) (hs : c.status = .connected) {msgs : List Str}
    (hbuf : c'.writeBuf = c.writeBuf ++ msgs.flatMap WebSocketConn.textFrame) (hs' : c'.status = .connected)
    (hmessages : es.messagesTo i = msgs) (htaken : es.takenFrom i = []) (hshort : ∀ msg ∈ msgs, msg.length < 2 ^ 63) :
    Carries acc (h ++ es) i c' := by
  have htaken' : (h ++ es).takenFrom i = h.takenFrom i := by
    rw [WsHistory.takenFrom_append, htaken, List.append_nil]
  have hmessages' : (h ++ es).messagesTo i = h.messagesTo i ++ msgs := by
    rw [WsHistory.messagesTo_append, hmessages]
  refine ⟨?_, ?_, ?_⟩
  · rw [hmessages', List.forall_mem_append]
    exact ⟨hc.short, hshort⟩
  · rw [hs']
    exact fun h => nomatch h
  · intro _
    obtain ⟨request, items, later, hmem, hsplit, hcarries⟩ := hc.connected hs
    refine ⟨request, items, later ++ msgs, List.mem_append_left _ hmem, ?_, ?_⟩
    · rw [hmessages', hsplit, List.append_assoc]
    · rw [htaken', hbuf, List.flatMap_append]
      rcases hcarries with ⟨hnone, hitems, hwrite⟩ | ⟨htaken, hwrite⟩
      · exact .inl ⟨hnone, hitems, by rw [hwrite, List.append_assoc]⟩
      · exact .inr ⟨htaken, by rw [hwrite]⟩

/-- The socket takes the write buffer. -/
theorem write (hc : Carries acc h i c) (hs' : c'.status = c.status) (hbuf : c'.writeBuf = []) :
    Carries acc (h ++ [WsEvent.taken i c.writeBuf]) i c' := by
  have htaken : (h ++ [WsEvent.taken i c.writeBuf]).takenFrom i = h.takenFrom i ++ c.writeBuf := by
    rw [WsHistory.takenFrom_append]
    simp [WsHistory.takenFrom, WsEvent.takenFrom]
  have hmessages : (h ++ [WsEvent.taken i c.writeBuf]).messagesTo i = h.messagesTo i := by
    rw [WsHistory.messagesTo_append]
    simp [WsHistory.messagesTo, WsEvent.messageTo]
  refine ⟨?_, ?_, ?_⟩
  · rw [hmessages]
    exact hc.short
  · rw [hs', hmessages, htaken]
    intro hs
    obtain ⟨hempty, hnone, hno⟩ := hc.waiting hs
    exact ⟨hbuf, by rw [hempty, hnone, List.append_nil], hno⟩
  · rw [hs', hmessages, htaken]
    intro hs
    obtain ⟨request, items, later, hmem, hsplit, hcarries⟩ := hc.connected hs
    refine ⟨request, items ++ later, [], List.mem_append_left _ hmem, ?_, .inr ⟨?_, hbuf⟩⟩
    · rw [hsplit, List.append_nil]
    · rcases hcarries with ⟨hnone, hitems, hwrite⟩ | ⟨htaken, hwrite⟩
      · rw [hnone, hwrite, hitems, List.nil_append, List.nil_append]
      · rw [htaken, hwrite, List.flatMap_append, List.append_assoc]

end Carries

/-! ## Steps -/

/-- A handshake is completed with a request. -/
structure Greets (acc : Str → Str) (request : Str) (c c' : WebSocketConn) : Prop where
  waiting : c.status = .handshake
  status : c'.status = .connected
  writeBuf : c'.writeBuf = c.writeBuf ++ WebSocketConn.switchingProtocols (acc (WebSocketConn.clientKey request))
  sockfd : c'.sockfd = c.sockfd
  isClosed : c'.isClosed = c.isClosed

/-- Messages are put into a write buffer. -/
structure Sends (msgs : List Str) (c c' : WebSocketConn) : Prop where
  status : c'.status = c.status
  writeBuf : c'.writeBuf = c.writeBuf ++ msgs.flatMap WebSocketConn.textFrame
  sockfd : c'.sockfd = c.sockfd
  isClosed : c'.isClosed = c.isClosed

/-- What a step comes to, and what is recorded of it. -/
inductive Effect (acc : Str → Str) (s : WsServer) : WsServer → WsHistory → Prop
  | none : Effect acc s s []
  | accepted (fd : Nat) (hfree : ∀ c ∈ s.conns, c.sockfd ≠ fd) :
    Effect acc s { s with
      conns := s.conns ++ [WebSocketConn.make.init fd]
      users := s.users.insert fd s.conns.length } []
  | forgotten (fd : Int) : Effect acc s { s with users := s.users.erase fd } []
  | closed (i : Nat) (c : WebSocketConn) (hc : s.conns[i]? = some c) (hclosed : c.isClosed = true) :
    Effect acc s { s with
      conns := s.conns.set i { c with sockfd := -1 }
      manager := s.manager.removeFd c.sockfd } []
  | kept (i : Nat) (c c' : WebSocketConn) (hc : s.conns[i]? = some c) (hstatus : c'.status = c.status)
      (hbuf : c'.writeBuf = c.writeBuf) (hfd : c'.sockfd = c.sockfd)
      (hclosed : c'.isClosed = false → c.isClosed = false) :
    Effect acc s { s with conns := s.conns.set i c' } []
  | greeted (i : Nat) (c c' : WebSocketConn) (request : Str) (hc : s.conns[i]? = some c)
      (hg : Greets acc request c c') :
    Effect acc s { s with conns := s.conns.set i c' } [.greeted i request]
  | claimed (i : Nat) (c c' : WebSocketConn) (request sessionId : Str) (hc : s.conns[i]? = some c)
      (hg : Greets acc request c c') :
    Effect acc s { s with
      conns := s.conns.set i c'
      manager := s.manager.bindSession c.sockfd sessionId } [.greeted i request, .claimed i sessionId]
  | answered (i : Nat) (c c' : WebSocketConn) (msgs : List Str) (hc : s.conns[i]? = some c)
      (hs : c.status = .connected) (hsent : Sends msgs c c') :
    Effect acc s { s with conns := s.conns.set i c' } (msgs.map (.answered i))
  | pushed (i : Nat) (c c' : WebSocketConn) (sessionId msg : Str) (hc : s.conns[i]? = some c)
      (htarget : (s.manager.sessionToFd sessionId).bind s.users = some i) (hsent : Sends [msg] c c') :
    Effect acc s { s with conns := s.conns.set i c' } [.pushed i sessionId msg]
  | wrote (i : Nat) (c : WebSocketConn) (results : List SocketResult) (hc : s.conns[i]? = some c) :
    Effect acc s { s with conns := s.conns.set i (c.writeOver results).2.2 }
      [.taken i ((c.writeOver results).2.1.map fun pos => c.writeBuf.getD pos 0)]

namespace Effect

theorem of_process (hc : s.conns[i]? = some c) (hstep : step acc handler s (.process i) = some s') :
    Effect acc s s' (processEvents acc handler s.manager i c) := by
  simp only [step, hc] at hstep
  unfold processEvents
  rcases hp : c.process acc handler s.manager with _ | r
  all_goals simp only [hp] at hstep ⊢
  · cases hstep
  cases hstep
  rcases hs : c.status with _ | _
  · rcases WebSocketConn.process_handshake_cases hs hp with rfl | rfl
    · exact .kept i c c hc rfl rfl rfl id
    · dsimp only
      rw [if_pos rfl]
      split_ifs with hsession
      · exact .greeted i c _ c.readBuf hc ⟨hs, rfl, rfl, rfl, rfl⟩
      · exact .claimed i c _ c.readBuf _ hc ⟨hs, rfl, rfl, rfl, rfl⟩
  · rcases WebSocketConn.process_connected_cases hs hp with rfl | ⟨d, rest, rfl⟩
    · exact .kept i c c hc rfl rfl rfl id
    · refine .answered i c _ (handler d) hc hs ?_
      obtain ⟨buf, hbuf⟩ := WebSocketConn.foldl_sendTextFrame { c with readBuf := rest } (handler d)
      have hwrite := WebSocketConn.foldl_sendTextFrame_writeBuf { c with readBuf := rest } (handler d)
      dsimp only
      rw [hbuf] at hwrite ⊢
      exact ⟨rfl, hwrite, rfl, rfl⟩

theorem of_sendToSession {sessionId msg : Str}
    (hstep : step acc handler s (.sendToSession sessionId msg) = some s') :
    Effect acc s s' (s.events acc handler (.sendToSession sessionId msg)) := by
  simp only [step, events] at hstep ⊢
  unfold WebsocketConnManager.sendToSession getConn at hstep
  rcases hfd : s.manager.sessionToFd sessionId with _ | fd
  all_goals simp only [hfd, Option.bind_none, Option.bind_some] at hstep ⊢
  · cases hstep
    exact .none
  rcases hi : s.users fd with _ | i
  all_goals simp only [hi, Option.bind_none, Option.bind_some, Option.map_none] at hstep ⊢
  · cases hstep
    exact .none
  rcases hc : s.conns[i]? with _ | c
  all_goals simp only [hc, Option.map_none, Option.map_some] at hstep ⊢
  · cases hstep
    exact .none
  · cases hstep
    have htarget : (s.manager.sessionToFd sessionId).bind s.users = some i := by
      rw [hfd]
      exact hi
    refine .pushed i c _ sessionId msg hc htarget ⟨rfl, ?_, rfl, rfl⟩
    rw [WebSocketConn.sendTextFrame_writeBuf, List.flatMap_singleton]

theorem of_closeConn (hstep : step acc handler s (.closeConn i) = some s') : Effect acc s s' [] := by
  simp only [step] at hstep
  rcases hc : s.conns[i]? with _ | c
  all_goals simp only [hc] at hstep
  · cases hstep
  unfold WebSocketConn.closeConn at hstep
  split_ifs at hstep with hclosed hfd
  all_goals cases hstep
  · exact .kept i c c hc rfl rfl rfl id
  · exact .closed i c hc hclosed
  · exact .kept i c _ hc rfl rfl rfl (fun h => nomatch h)

/-- A step is one of these. -/
theorem of_step (hr : Routes s h) (ho : s.Orderly a) (hstep : step acc handler s a = some s') :
    Effect acc s s' (s.events acc handler a) := by
  cases a with
  | accept fd =>
    cases hstep
    exact .accepted fd ho
  | read i edgeTriggered calls =>
    obtain ⟨c, hc, rfl⟩ := Option.map_eq_some_iff.mp hstep
    obtain ⟨buf, hbuf⟩ := WebSocketConn.read_fields c edgeTriggered calls
    dsimp only
    rw [hbuf]
    exact .kept i c _ hc rfl rfl rfl id
  | process i =>
    simp only [events]
    rcases hc : s.conns[i]? with _ | c
    · simp [step, hc] at hstep
    · exact of_process hc hstep
  | sendToSession sessionId msg => exact of_sendToSession hstep
  | write i results =>
    obtain ⟨c, hc, rfl⟩ := Option.map_eq_some_iff.mp hstep
    simp only [events, hc]
    exact .wrote i c results hc
  | init i fd =>
    obtain ⟨c, hc, rfl⟩ := Option.map_eq_some_iff.mp hstep
    obtain ⟨hopen, hfd⟩ := ho c hc
    have hsame : c.init fd = c := by
      unfold WebSocketConn.init
      rw [if_pos ⟨hr.opened i c hc hopen, hfd, hopen⟩]
    dsimp only
    rw [hsame]
    exact .kept i c c hc rfl rfl rfl id
  | erase fd =>
    cases hstep
    exact .forgotten fd
  | closeConn i => exact of_closeConn hstep

end Effect

/-! ## A push finds the claimant -/

theorem Routes.effect (hr : Routes s h) (he : Effect acc s s' es) : Routes s' (h ++ es) := by
  cases he with
  | none => rwa [List.append_nil]
  | accepted fd hfree =>
    rw [List.append_nil]
    exact hr.accept hfree
  | forgotten fd =>
    rw [List.append_nil]
    exact hr.erase fd
  | closed i c hc hclosed =>
    rw [List.append_nil]
    exact hr.close hc hclosed
  | kept i c c' hc hstatus hbuf hfd hclosed =>
    exact hr.setConn hc hfd hclosed hstatus.trans (by simp) (by simp)
  | greeted i c c' request hc hg =>
    exact hr.setConn hc hg.sockfd (by rw [hg.isClosed]; exact id) (fun _ => hg.status) (by simp [WsEvent.conn])
      (by simp [WsEvent.claimant])
  | claimed i c c' request sessionId hc hg =>
    exact hr.bindSession hc hg.waiting hg.sockfd hg.isClosed hg.status request sessionId
  | answered i c c' msgs hc hs hsent =>
    exact hr.setConn hc hsent.sockfd (by rw [hsent.isClosed]; exact id) hsent.status.trans (by simp [WsEvent.conn])
      (by simp [WsEvent.claimant])
  | pushed i c c' sessionId msg hc htarget hsent =>
    exact hr.setConn hc hsent.sockfd (by rw [hsent.isClosed]; exact id) hsent.status.trans (by simp [WsEvent.conn])
      (by simp [WsEvent.claimant])
  | wrote i c results hc =>
    obtain ⟨buf, hbuf⟩ := WebSocketConn.writeOver_fields c results
    rw [hbuf]
    exact hr.setConn hc rfl id id (by simp [WsEvent.conn]) (by simp [WsEvent.claimant])

/-- Events after which every push has still found the claimant. -/
theorem PushesToClaimant.append (hp : PushesToClaimant h)
    (hes : ∀ (n i : Nat) (sessionId msg : Str), es[n]? = some (.pushed i sessionId msg) →
      (h ++ es.take n).lastClaim sessionId = some i) : PushesToClaimant (h ++ es) := by
  intro n i sessionId msg hn
  rw [List.getElem?_append] at hn
  split_ifs at hn with hlt
  · rw [List.take_append_of_le_length (by omega)]
    exact hp n i sessionId msg hn
  · rw [List.take_append, List.take_of_length_le (by omega)]
    exact hes _ i sessionId msg hn

theorem PushesToClaimant.effect (hp : PushesToClaimant h) (hr : Routes s h) (he : Effect acc s s' es) :
    PushesToClaimant (h ++ es) := by
  have hnone : (∀ e ∈ es, ∀ i sessionId msg, e ≠ .pushed i sessionId msg) → PushesToClaimant (h ++ es) :=
    fun hes => hp.append fun _ i sessionId msg hn => absurd rfl (hes _ (List.mem_of_getElem? hn) i sessionId msg)
  cases he with
  | pushed i c c' sessionId msg hc htarget hsent =>
    refine hp.append ?_
    rintro (_ | n) j t msg' hn
    · cases hn
      rw [List.take_zero, List.append_nil]
      exact (hr.target htarget).1
    · cases hn
  | none => exact hnone (by simp)
  | accepted => exact hnone (by simp)
  | forgotten => exact hnone (by simp)
  | closed => exact hnone (by simp)
  | kept => exact hnone (by simp)
  | greeted => exact hnone (by simp)
  | claimed => exact hnone (by simp)
  | answered => exact hnone (by simp)
  | wrote => exact hnone (by simp)

/-- What holds of a server and its history after every orderly run. -/
structure Routed (p : WsServer × WsHistory) : Prop where
  routes : Routes p.1 p.2
  pushes : PushesToClaimant p.2

theorem routed_start : Routed (WsServer.start, []) where
  routes := .start
  pushes := fun n i t msg hn => by cases hn

theorem routed_step (hs : Routed (s, h)) (ho : s.Orderly a) (hstep : step acc handler s a = some s') :
    Routed (s', record acc handler h s a) := by
  have he := Effect.of_step hs.routes ho hstep
  exact ⟨hs.routes.effect he, hs.pushes.effect hs.routes he⟩

/-- **A push finds the claimant.** Over every run of the server, with any requests, answers of handlers, pushes,
    answers of the sockets and closings, in any order and on any thread, and with numbers given back and used
    again: what is sent to a session is put into the write buffer of the connection that has claimed the session
    last, and of no other. -/
theorem run_pushes_to_claimant {actions : List Action} {p : WsServer × WsHistory}
    (ho : Transition.Meets (step acc handler) Orderly WsServer.start actions)
    (hr : Transition.run (Transition.withHistory (step acc handler) (record acc handler)) (WsServer.start, []) actions =
      some p) : PushesToClaimant p.2 := by
  have hrouted : Routed p := by
    refine Transition.run_invariant_withHistory ?_ routed_start ho hr
    intro s h a s' hs ha hstep
    exact routed_step hs ha hstep
  exact hrouted.pushes

/-- Two connections that claim a session, a message from the first of them, a push to the session, and a third
    connection that claims it under the number that the second one has given back. -/
def claimedTwice : List Action :=
  let request := str "GET /?sessionId=sess_0_1 HTTP/1.1\r\nSec-WebSocket-Key: abc\r\n\r\n"
  [.accept 5, .read 0 false [.data request], .process 0, .write 0 [.accepts 4096],
    .accept 6, .read 1 false [.data request], .process 1,
    .read 0 false [.data (maskFrame [1, 2, 3, 4] (WebSocketConn.textFrame (str "hello")))],
    .process 0, .sendToSession (str "sess_0_1") (str "news"), .write 1 [.accepts 4096], .write 0 [.again],
    .closeConn 1, .erase 6, .closeConn 1, .accept 6, .read 2 false [.data request], .process 2,
    .sendToSession (str "sess_0_1") (str "more"), .write 2 [.accepts 4096]]

/-- The handlers answer with the message. -/
theorem claimedTwice_run :
    ∃ p, Transition.run (Transition.withHistory
          (step (WebSocketConn.computeAcceptKey id Base64.encode) fun d => [d.msg])
          (record (WebSocketConn.computeAcceptKey id Base64.encode) fun d => [d.msg])) (WsServer.start, []) claimedTwice =
        some p ∧ (p.2.messagesTo 0, p.2.messagesTo 1, p.2.messagesTo 2) = ([str "hello"], [str "news"], [str "more"]) ∧
      (p.1.conns[2]?).map (·.writeBuf) = some [] := by
  obtain ⟨p, hp, hend⟩ := Option.map_eq_some_iff.mp
    (show (Transition.run (Transition.withHistory
          (step (WebSocketConn.computeAcceptKey id Base64.encode) fun d => [d.msg])
          (record (WebSocketConn.computeAcceptKey id Base64.encode) fun d => [d.msg]))
          (WsServer.start, []) claimedTwice).map
        (fun p => ((p.2.messagesTo 0, p.2.messagesTo 1, p.2.messagesTo 2), (p.1.conns[2]?).map (·.writeBuf))) =
      some (([str "hello"], [str "news"], [str "more"]), some []) by decide +kernel)
  rw [Prod.mk.injEq] at hend
  exact ⟨p, hp, hend.1, hend.2⟩

theorem run_pushes_to_claimant_claimedTwice :
    ∃ p, Transition.run (Transition.withHistory
          (step (WebSocketConn.computeAcceptKey id Base64.encode) fun d => [d.msg])
          (record (WebSocketConn.computeAcceptKey id Base64.encode) fun d => [d.msg])) (WsServer.start, []) claimedTwice =
        some p ∧ (p.2.messagesTo 0, p.2.messagesTo 1, p.2.messagesTo 2) = ([str "hello"], [str "news"], [str "more"]) ∧
      PushesToClaimant p.2 := by
  obtain ⟨p, hp, hmessages, -⟩ := claimedTwice_run
  exact ⟨p, hp, hmessages, run_pushes_to_claimant (by decide +kernel) hp⟩

/-! ## Each client reads what is meant for it -/

/-- What holds of all connections. -/
def Carried (acc : Str → Str) (p : WsServer × WsHistory) : Prop :=
  ∀ (i : Nat) (c : WebSocketConn), p.1.conns[i]? = some c → Carries acc p.2 i c

/-- One object changes, with what happens on it. -/
theorem Carried.set (hs : Carried acc (s, h)) (hc : s.conns[i]? = some c) (hconns : s'.conns = s.conns.set i c')
    (hes : ∀ e ∈ es, e.conn = i) (hcarries : Carries acc (h ++ es) i c') : Carried acc (s', h ++ es) := by
  intro j d hd
  dsimp only at hd
  rw [hconns] at hd
  rcases Routes.getElem?_set_cases hc hd with ⟨rfl, rfl⟩ | ⟨hne, hd⟩
  · exact hcarries
  · have hother : ∀ e ∈ es, e.conn ≠ j := fun e he => by
      rw [hes e he]
      exact Ne.symm hne
    exact (hs j d hd).append (WsHistory.messagesTo_eq_nil hother) (WsHistory.takenFrom_eq_nil hother)

/-- One object changes, and nothing that is recorded happens. -/
theorem Carried.keep (hs : Carried acc (s, h)) (hc : s.conns[i]? = some c) (hconns : s'.conns = s.conns.set i c')
    (hstatus : c'.status = c.status) (hbuf : c'.writeBuf = c.writeBuf) : Carried acc (s', h ++ []) := by
  refine hs.set hc hconns (by simp) ?_
  rw [List.append_nil]
  exact (hs i c hc).of_eq hstatus hbuf

/-- A `write` that takes the buffer whole, or nothing of it. -/
theorem Carries.writeOver (hc : Carries acc h i c) (results : List SocketResult)
    (hwhole : (c.writeOver results).2.1.length = 0 ∨ (c.writeOver results).2.1.length = c.writeBuf.length) :
    Carries acc (h ++ [WsEvent.taken i ((c.writeOver results).2.1.map fun pos => c.writeBuf.getD pos 0)]) i
      (c.writeOver results).2.2 := by
  obtain ⟨k, hpositions, -, -, hok, hkeep, hall, hnone⟩ := c.writeOver_spec results
  obtain ⟨buf, hbuf⟩ := WebSocketConn.writeOver_fields c results
  have hstatus : (c.writeOver results).2.2.status = c.status := by rw [hbuf]
  rw [hpositions, List.length_range] at hwhole
  rw [hpositions]
  by_cases hk : k = 0
  · have hsame : (c.writeOver results).2.2.writeBuf = c.writeBuf := by
      by_cases hstatus : (c.writeOver results).1 = .ok
      · rw [hok hstatus, hnone hk hstatus]
      · exact hkeep hstatus
    rw [hk]
    exact (hc.append rfl (by simp [WsHistory.takenFrom, WsEvent.takenFrom])).of_eq hstatus hsame
  · have hlen : k = c.writeBuf.length := hwhole.resolve_left hk
    have hbytes : (List.range k).map (fun pos => c.writeBuf.getD pos 0) = c.writeBuf := by
      refine List.ext_getElem (by rw [List.length_map, List.length_range, hlen]) ?_
      intro pos _ hpos
      rw [List.getElem_map, List.getElem_range, List.getD_eq_getElem _ _ hpos]
    rw [hbytes]
    exact hc.write hstatus (hok (hall (by omega) hlen))

theorem Carried.effect (hs : Carried acc (s, h)) (hr : Routes s h) (he : Effect acc s s' es)
    (hwhole : ∀ e ∈ es, s.TakesWhole e) : Carried acc (s', h ++ es) := by
  cases he with
  | none => rwa [List.append_nil]
  | accepted fd hfree =>
    rw [List.append_nil]
    intro j d hd
    dsimp only at hd
    rw [List.getElem?_append] at hd
    split_ifs at hd with hj
    · exact hs j d hd
    · obtain ⟨hlt, hd⟩ := List.getElem?_eq_some_iff.mp hd
      rw [List.length_singleton] at hlt
      rw [List.getElem_singleton] at hd
      rw [← hd]
      refine Carries.fresh (fun e he => ?_) fd
      have := hr.known e he
      omega
  | forgotten fd =>
    rw [List.append_nil]
    exact hs
  | closed i c hc hclosed => exact hs.keep hc rfl rfl rfl
  | kept i c c' hc hstatus hbuf hfd hclosed => exact hs.keep hc rfl hstatus hbuf
  | greeted i c c' request hc hg =>
    exact hs.set hc rfl (by simp [WsEvent.conn])
      ((hs i c hc).greet hg.waiting hg.writeBuf hg.status (by simp) rfl rfl)
  | claimed i c c' request sessionId hc hg =>
    exact hs.set hc rfl (by simp [WsEvent.conn])
      ((hs i c hc).greet hg.waiting hg.writeBuf hg.status (by simp) rfl rfl)
  | answered i c c' msgs hc hconnected hsent =>
    have hmessages : WsHistory.messagesTo (msgs.map (.answered i)) i = msgs := by
      rw [WsHistory.messagesTo, List.filterMap_map]
      simp [Function.comp_def, WsEvent.messageTo]
    have htaken : WsHistory.takenFrom (msgs.map (.answered i)) i = [] := by
      rw [WsHistory.takenFrom, List.flatMap_map]
      simp [WsEvent.takenFrom]
    refine hs.set hc rfl (by simp [WsEvent.conn]) ?_
    refine (hs i c hc).send hconnected hsent.writeBuf (hsent.status.trans hconnected) hmessages htaken ?_
    exact fun msg hmsg => hwhole _ (List.mem_map_of_mem hmsg)
  | pushed i c c' sessionId msg hc htarget hsent =>
    obtain ⟨-, d, hd, hconnected⟩ := hr.target htarget
    obtain rfl : c = d := Option.some.inj (hc.symm.trans hd)
    have hmessages : WsHistory.messagesTo [.pushed i sessionId msg] i = [msg] := by
      simp [WsHistory.messagesTo, WsEvent.messageTo]
    refine hs.set hc rfl (by simp [WsEvent.conn]) ?_
    refine (hs i c hc).send hconnected hsent.writeBuf (hsent.status.trans hconnected) hmessages rfl ?_
    intro msg' hmsg
    rw [List.mem_singleton.mp hmsg]
    exact hwhole _ (List.mem_singleton_self _)
  | wrote i c results hc =>
    refine hs.set hc rfl (by simp [WsEvent.conn]) ((hs i c hc).writeOver results ?_)
    have htakes := hwhole _ (List.mem_singleton_self _) c hc
    rwa [List.map_eq_nil_iff, ← List.length_eq_zero_iff, List.length_map] at htakes

/-- The answer to a handshake, as a response. -/
def switching (acceptKey : Str) : Response where
  version := str "HTTP/1.1"
  code := str "101"
  reason := str "Switching Protocols"
  fields := [(str "Upgrade", str " websocket"), (str "Connection", str " Upgrade"),
    (str "Sec-WebSocket-Accept", 32 :: acceptKey)]
  body := []

/-- A key that survives being read as the value of a header field. -/
def IsValue (value : Str) : Prop := ∀ b ∈ value, b ≠ 13 ∧ isBlank b = false

/-- The answer to a handshake is read, and what follows it is left. -/
theorem read_switchingProtocols {acceptKey : Str} (hkey : IsValue acceptKey) (rest : Str) :
    ∃ answer, HttpReader.read switchesProtocols (WebSocketConn.switchingProtocols acceptKey ++ rest) =
        some (answer, rest) ∧ answer.code = str "101" ∧
      valuesOf (str "Sec-WebSocket-Accept") answer.fields = [acceptKey] := by
  have hwrite : WebSocketConn.switchingProtocols acceptKey = write (switching acceptKey) := by
    simp only [WebSocketConn.switchingProtocols, write, switching, fieldLine, crlf, List.map_cons, List.map_nil,
      List.flatten_cons, List.flatten_nil, List.append_assoc, List.append_nil]
    rfl
  have hfields : ∀ field ∈ (switching acceptKey).fields, IsField field := by
    intro field hfield
    simp only [switching, List.mem_cons, List.not_mem_nil, or_false] at hfield
    rcases hfield with rfl | rfl | rfl
    · exact ⟨by decide, by decide⟩
    · exact ⟨by decide, by decide⟩
    · refine ⟨(show ∀ b ∈ str "Sec-WebSocket-Accept", b ≠ 58 ∧ b ≠ 13 by decide), ?_⟩
      intro b hb
      rcases List.mem_cons.mp hb with rfl | hb
      · decide
      · exact (hkey b hb).1
  have hread := @read_head switchesProtocols (switching acceptKey)
    (show ∀ b ∈ str "HTTP/1.1", b ≠ 32 ∧ b ≠ 13 by decide) (show ∀ b ∈ str "101", b ≠ 32 ∧ b ≠ 13 by decide)
    (show ∀ b ∈ str "Switching Protocols", b ≠ 13 by decide) hfields rest
  rw [← hwrite] at hread
  refine ⟨_, hread, rfl, ?_⟩
  have hstrip : strip (32 :: acceptKey) = acceptKey := by
    rw [strip_blank, strip_of_noBlank fun b hb => (hkey b hb).2]
  have hupgrade : ¬ LetterCase.Same (str "Upgrade") (str "Sec-WebSocket-Accept") := by decide
  have hconnection : ¬ LetterCase.Same (str "Connection") (str "Sec-WebSocket-Accept") := by decide
  have haccept : LetterCase.Same (str "Sec-WebSocket-Accept") (str "Sec-WebSocket-Accept") := rfl
  simp only [switching, List.map_cons, List.map_nil, stripped, valuesOf_cons, if_neg hupgrade, if_neg hconnection,
    if_pos haccept, hstrip]
  rfl

theorem switchingProtocols_ne_nil (acceptKey : Str) : WebSocketConn.switchingProtocols acceptKey ≠ [] := by
  have hend : str "\r\n\r\n" ≠ [] := by decide
  unfold WebSocketConn.switchingProtocols
  exact List.append_ne_nil_of_right_ne_nil _ hend

/-- What a client reads of what has been taken of its connection. -/
theorem Carries.understands (hc : Carries acc h i c) (hacc : ∀ key, IsValue (acc key)) : Understands acc h i c := by
  rcases hs : c.status with _ | _
  · obtain ⟨-, htaken, hmessages⟩ := hc.waiting hs
    exact .inl ⟨htaken, fun _ => hmessages⟩
  · obtain ⟨request, items, later, hmem, hsplit, ⟨hnone, -, hwrite⟩ | ⟨htaken, hwrite⟩⟩ := hc.connected hs
    · refine .inl ⟨hnone, fun hempty => ?_⟩
      rw [hwrite] at hempty
      exact absurd (List.append_eq_nil_iff.mp hempty).1 (switchingProtocols_ne_nil _)
    · have hshort := hc.short
      rw [hsplit] at hshort
      obtain ⟨answer, hread, hcode, hkey⟩ :=
        read_switchingProtocols (hacc (WebSocketConn.clientKey request)) (items.flatMap WebSocketConn.textFrame)
      rw [← htaken] at hread
      refine .inr ⟨request, answer, _, items, hmem, hread, hcode, hkey, ?_, ?_, ?_⟩
      · exact Codec.readsAs_flatMap fun msg hmsg rest =>
          WebSocketConn.readTextFrame_textFrame (hshort msg (List.mem_append_left _ hmsg)) rest
      · rw [hsplit]
        exact List.prefix_append _ _
      · intro hempty
        rw [hwrite, List.flatMap_eq_nil_iff] at hempty
        have hlater : later = [] := by
          refine List.eq_nil_iff_forall_not_mem.mpr fun msg hmsg => ?_
          exact absurd (hempty msg hmsg) (by simp [WebSocketConn.textFrame])
        rw [hsplit, hlater, List.append_nil]

/-- What holds of a server and its history where the write buffers are taken whole. -/
structure Sound (acc : Str → Str) (p : WsServer × WsHistory) : Prop where
  routed : Routed p
  carried : Carried acc p

theorem sound_start : Sound acc (WsServer.start, []) where
  routed := routed_start
  carried := fun i c hc => by cases hc

theorem sound_step (hs : Sound acc (s, h)) (hwhole : DeliversWhole acc handler s a)
    (hstep : step acc handler s a = some s') : Sound acc (s', record acc handler h s a) where
  routed := routed_step hs.routed hwhole.1 hstep
  carried := hs.carried.effect hs.routed.routes (Effect.of_step hs.routed.routes hwhole.1 hstep) hwhole.2

/-- **A client reads what is meant for it.** Over every run of the server in which a socket takes a write buffer
    whole or nothing of it: what has been taken of a connection is nothing, or it is read as the answer to the
    handshake of this connection, with the key of its request, and then as text frames, which are the first messages
    that its handlers and the pushes have had for it, in order; and once its write buffer is empty, they are all. -/
theorem run_understands {sha1 base64Encode : Str → Str} (hbase64 : ∀ bytes, IsValue (base64Encode bytes))
    {actions : List Action} {p : WsServer × WsHistory}
    (hwhole : Transition.Meets (step (WebSocketConn.computeAcceptKey sha1 base64Encode) handler)
      (DeliversWhole (WebSocketConn.computeAcceptKey sha1 base64Encode) handler) WsServer.start actions)
    (hr : Transition.run (Transition.withHistory (step (WebSocketConn.computeAcceptKey sha1 base64Encode) handler)
      (record (WebSocketConn.computeAcceptKey sha1 base64Encode) handler)) (WsServer.start, []) actions = some p)
    (hc : p.1.conns[i]? = some c) :
    Understands (WebSocketConn.computeAcceptKey sha1 base64Encode) p.2 i c := by
  have hsound : Sound (WebSocketConn.computeAcceptKey sha1 base64Encode) p := by
    refine Transition.run_invariant_withHistory ?_ sound_start hwhole hr
    intro s h a s' hs ha hstep
    exact sound_step hs ha hstep
  exact (hsound.carried i c hc).understands fun key => hbase64 _

/-- Characters of Base64 are no blanks and no ends of lines. -/
theorem isValue_encode (bytes : Str) : IsValue (Base64.encode bytes) := by
  have hdigit : ∀ n < 64, Base64.digit n ≠ 13 ∧ isBlank (Base64.digit n) = false := by decide
  intro b hb
  rcases Base64.mem_encode hb with rfl | ⟨n, hn, rfl⟩
  · decide
  · exact hdigit n hn

theorem run_understands_claimedTwice :
    ∃ p c, Transition.run (Transition.withHistory
          (step (WebSocketConn.computeAcceptKey id Base64.encode) fun d => [d.msg])
          (record (WebSocketConn.computeAcceptKey id Base64.encode) fun d => [d.msg])) (WsServer.start, []) claimedTwice =
        some p ∧ p.1.conns[2]? = some c ∧ c.writeBuf = [] ∧ p.2.messagesTo 2 = [str "more"] ∧
      Understands (WebSocketConn.computeAcceptKey id Base64.encode) p.2 2 c := by
  obtain ⟨p, hp, hmessages, hbuf⟩ := claimedTwice_run
  rw [Prod.mk.injEq, Prod.mk.injEq] at hmessages
  obtain ⟨c, hc, hempty⟩ := Option.map_eq_some_iff.mp hbuf
  exact ⟨p, c, hp, hc, hempty, hmessages.2.2, run_understands isValue_encode (by decide +kernel) hp hc⟩

end WsServer

end ModularNetServer
