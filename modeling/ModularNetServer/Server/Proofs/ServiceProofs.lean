import ModularNetServer.Http.Proofs.BufferUseProofs
import ModularNetServer.Http.Proofs.CompletionProofs
import ModularNetServer.Http.Proofs.IdentityProofs
import ModularNetServer.Http.Proofs.IsolationProofs
import ModularNetServer.Server.Service

/-!
# Who gets past the interceptors

Every change that a request makes to the shared state is one of a few moves, each with the events that it leaves in
the history. Only a login that the database has confirmed stores a user's name with a token, so a request that
needs a login has one of those names.
-/

namespace ModularNetServer

open Cxx

/-! ## What parsing leaves alone -/

/-- Where a request comes from, and whose it is. -/
def HttpBase.identity (base : HttpBase) : Str × Str × Bool := (base.ip, base.username, base.authenticated)

namespace HttpRequest

variable {line : Str} {base base' : HttpBase}

theorem identity_parseRequestLine (h : parseRequestLine line base = some base') :
    base'.identity = base.identity := by
  simp only [parseRequestLine] at h
  split_ifs at h
  cases h
  rfl

theorem identity_parseHeaders {b : Bool} (h : parseHeaders line base = .ok (b, base')) :
    base'.identity = base.identity := by
  rcases parseHeaders_cases h with ⟨-, rfl⟩ | ⟨key, value, length, -, rfl⟩
  · rfl
  · rfl

theorem identity_parseBody {parseJson : Str → Option Json} {buf : Str} {n : Int}
    (h : parseBody parseJson buf n base = .ok base') : base'.identity = base.identity := by
  by_cases hn : n < 0
  · rw [parseBody, if_pos hn] at h
    cases h
  · obtain ⟨m, rfl⟩ := Int.eq_ofNat_of_zero_le (not_lt.mp hn)
    obtain ⟨base2, hbase, heq⟩ := parseBody_ok parseJson buf m base
    obtain rfl : base' = base2 := Except.ok.inj (h.symm.trans hbase)
    rw [heq]
    rfl

end HttpRequest

namespace ReadSide

variable {parseJson : Str → Option Json} {c d side : ReadSide} {b : Bool}

theorem identity_next (h : parseStep parseJson c = .ok (.next d)) :
    d.httpBase.identity = c.httpBase.identity := by
  rcases parseStep_next_cases h with ⟨-, pos, base, -, hline, rfl⟩ | ⟨-, pos, more, base, -, hline, rfl⟩ |
    ⟨-, -, base, hbody, rfl⟩
  · exact HttpRequest.identity_parseRequestLine hline
  · exact HttpRequest.identity_parseHeaders hline
  · exact HttpRequest.identity_parseBody hbody

theorem identity_parse (h : parseHttpRequest parseJson c = .ok (b, side)) :
    side.httpBase.identity = c.httpBase.identity := by
  obtain ⟨hreach, -⟩ := parseHttpRequest_ok h
  have hkept : ∀ s s' : ReadSide, s.httpBase.identity = c.httpBase.identity →
      parseStep parseJson s = .ok (.next s') → s'.httpBase.identity = c.httpBase.identity :=
    fun s s' hs hpass => (identity_next hpass).trans hs
  exact hreach.invariant hkept rfl

end ReadSide

/-! ## Moves -/

/-- The changes that a request from an address makes to the shared state, with the events that they leave. -/
inductive World.Move (env : Environment) (ip : Str) : World → List ServiceEvent → World → Prop
  | lookUp (w : World) (n : Nat) (tokens : TokenManager) (sessions : SessionManager)
      (h : tokens.tokenUsername = w.tokens.tokenUsername) :
      Move env ip w [] { w.tick n with tokens := tokens, sessions := sessions }
  | openFile (w : World) (path : Str) : Move env ip w [] (w.emit (.openFile path))
  | refused (w : World) (type key : Str) (h : (w.isLimit type key).1 = true) :
      Move env ip w [] (w.isLimit type key).2
  | admitted (w : World) (h : (w.isLimit (str "access_ip") ip).1 = false) :
      Move env ip w [.admitted ip w.now] (w.isLimit (str "access_ip") ip).2
  | dispatch (w : World) (method url username : Str) :
      Move env ip w [.dispatch method url username] (w.emit (.dispatch method url))
  | statement (w : World) (sql : Str) (params : List Str) :
      Move env ip w [.statement] (w.query sql params).2
  | checkPassword (w : World) (username password : Str) (h : (w.isLimit (str "login_ip") ip).1 = false) :
      Move env ip w [.checkPassword ⟨ip, w.now, username, password, w.queries⟩]
        ((w.isLimit (str "login_ip") ip).2.query UserDao.selectPassword [username]).2
  | login (w : World) (username password : Str) (h : (w.isLimit (str "login_ip") ip).1 = false)
      (hconfirmed : (⟨ip, w.now, username, password, w.queries⟩ : PasswordCheck).Confirmed w.database) :
      Move env ip w [.checkPassword ⟨ip, w.now, username, password, w.queries⟩]
        (((w.isLimit (str "login_ip") ip).2.query UserDao.selectPassword [username]).2.createSession.createToken
          env username 1800000).2

/-- One change after the other. -/
inductive World.Moves (env : Environment) (ip : Str) : World → List ServiceEvent → World → Prop
  | nil (w : World) : Moves env ip w [] w
  | cons {w w1 w2 : World} {events events' : List ServiceEvent} (h : World.Move env ip w events w1)
      (h' : Moves env ip w1 events' w2) : Moves env ip w (events ++ events') w2

namespace World

variable {env : Environment} {ip : Str} {w w1 w' : World} {events events' : List ServiceEvent}

theorem Move.moves (h : Move env ip w events w') : Moves env ip w events w' := by
  have hcons := Moves.cons h (.nil w')
  rwa [List.append_nil] at hcons

theorem Moves.trans (h : Moves env ip w events w1) (h' : Moves env ip w1 events' w') :
    Moves env ip w (events ++ events') w' := by
  induction h with
  | nil => exact h'
  | cons hmove _ ih =>
    rw [List.append_assoc]
    exact .cons hmove (ih h')

/-- What every change keeps is kept by all of them. -/
theorem Moves.invariant {inv : World → List ServiceEvent → Prop}
    (hmove : ∀ w history events w', inv w history → Move env ip w events w' → inv w' (history ++ events))
    (h : Moves env ip w events w') {history : List ServiceEvent} (hw : inv w history) :
    inv w' (history ++ events) := by
  induction h generalizing history with
  | nil =>
    rw [List.append_nil]
    exact hw
  | cons hfirst _ ih =>
    rw [← List.append_assoc]
    exact ih (hmove _ _ _ _ hw hfirst)

end World

namespace HttpConn

open World

variable {env : Environment} {ip : Str} {w w' : World} {base : HttpBase} {c c' : HttpConn}
  {r r' : HttpResponse} {b : Bool}

/-- Authentication reads the clock and looks credentials up. -/
theorem parseAuthContext_move (env : Environment) (ip : Str) (w : World) (base : HttpBase) :
    Move env ip w [] (parseAuthContext env w base).1 := by
  unfold parseAuthContext
  generalize HttpRequest.getRequestCookie base (str "session_id") = id
  generalize HttpRequest.getToken base = token
  have hexpired : ∀ now, (w.tokens.isTokenExpired now token).2.tokenUsername = w.tokens.tokenUsername :=
    fun now => TokenManager.tokenUsername_isTokenExpired w.tokens now token
  by_cases hsession : w.sessions.isSessionIdValid id = true
  · simp only [hsession, if_true]
    split_ifs
    · exact .lookUp w 2 _ _ (hexpired _)
    · exact .lookUp w 3 _ _ ((TokenManager.tokenUsername_getUsername _ _ _).trans (hexpired _))
    · exact .lookUp w 1 _ _ rfl
  · simp only [hsession, Bool.false_eq_true, if_false]
    split_ifs
    · exact .lookUp w 1 _ _ (hexpired _)
    · exact .lookUp w 2 _ _ ((TokenManager.tokenUsername_getUsername _ _ _).trans (hexpired _))
    · exact .lookUp w 0 _ _ rfl

theorem gate_move (env : Environment) (ip : Str) (w : World) (base : HttpBase) :
    Move env ip w [] (gate env w base).2.1 := by
  have hauth := parseAuthContext_move env ip w base
  simp only [gate]
  split_ifs
  · exact .lookUp w 0 _ _ rfl
  · exact hauth
  · exact hauth

/-- The database confirms a password that it is asked for. -/
theorem confirmed_of_checkUser {w2 : World} {username password : Str} (ip : Str) (now : Int)
    (h : UserDao.checkUser w username password = .ok (true, w2)) :
    (⟨ip, now, username, password, w.queries⟩ : PasswordCheck).Confirmed w.database := by
  unfold UserDao.checkUser at h
  generalize hquery : w.query UserDao.selectPassword [username] = result at h
  obtain ⟨answer, w1⟩ := result
  have hanswer : w.database w.queries ⟨UserDao.selectPassword, [username]⟩ = answer := congrArg Prod.fst hquery
  unfold PasswordCheck.Confirmed
  dsimp only at h ⊢
  rw [hanswer]
  split_ifs at h with hinit hprepare hexecute
  · cases h
  · cases h
  · cases hrows : answer.rows with
    | nil =>
      rw [hrows] at h
      cases h
    | cons row rows =>
      rw [hrows] at h
      obtain ⟨hpassword, -⟩ := Prod.mk.inj (Except.ok.inj h)
      simp only [Bool.not_eq_true, Bool.not_eq_false'] at hinit hprepare hexecute
      exact ⟨hinit, hprepare, hexecute, row, rfl, of_decide_eq_true hpassword⟩

theorem login_moves (hip : base.ip = ip) (h : UserController.login env base w r = .ok (w', r')) :
    Moves env ip w (handlerEvents ip base w .login) w' := by
  unfold handlerEvents
  rcases login_cases h with ⟨hlimited, rfl⟩ | ⟨hlimited, accepted, w2, hcheck, rfl⟩
  · rw [hlimited, if_pos rfl]
    exact (Move.refused w _ _ hlimited).moves
  · rw [hlimited, if_neg Bool.false_ne_true]
    have hw2 := UserDao.checkUser_world hcheck
    subst hip hw2
    cases accepted with
    | false => exact (Move.checkPassword w _ _ hlimited).moves
    | true =>
      have hconfirmed := confirmed_of_checkUser base.ip w.now hcheck
      exact (Move.login w _ _ hlimited hconfirmed).moves

/-- A handler changes the shared state by its events. -/
theorem run_moves {handler : Handler} (hip : base.ip = ip) (h : handler.run env base w r = .ok (w', r')) :
    Moves env ip w (handlerEvents ip base w handler) w' := by
  cases handler with
  | apiHello =>
    simp only [Handler.run, TestController.hello] at h
    rw [answer_world h]
    exact .nil w
  | apiTime =>
    rw [answer_world h]
    exact (Move.lookUp w 1 _ _ rfl).moves
  | apiEcho =>
    cases h
    exact .nil w
  | apiInfo =>
    rw [answer_world h]
    exact .nil w
  | login => exact login_moves hip h
  | registerUser =>
    cases h
    exact (Move.statement w (UserDao.insertText ((base.formData (str "username")).getD [])
      ((base.formData (str "password")).getD [])) []).moves
  | checkToken =>
    simp only [Handler.run, UserController.checkToken] at h
    have hw : w' = w := by split_ifs at h <;> exact answer_world h
    rw [hw]
    exact .nil w
  | txTest =>
    obtain ⟨sql, params, rfl⟩ := txTest_world h
    exact (Move.statement w sql params).moves

theorem dispatch_moves (hip : base.ip = ip) (h : Router.dispatch env base w r = .ok (w', r')) :
    Moves env ip w (routeEvents env ip base w) w' := by
  refine .cons (.dispatch w base.method base.url base.username) ?_
  simp only [Router.dispatch] at h
  cases hroute : Router.route env base.method base.url with
  | some handler =>
    rw [hroute] at h
    exact run_moves hip h
  | none =>
    simp only [hroute] at h
    have hw : w' = w.emit (.dispatch base.method base.url) := by
      split_ifs at h
      · cases h
        rfl
      · cases h
        rfl
    rw [hw]
    exact .nil _

theorem finish_moves (env : Environment) (ip : Str) (w : World) (c : HttpConn) : Moves env ip w [] (finish env w c).2.1 := by
  by_cases hbuilt : c.httpResponse.isBuilt = true
  · rw [finish_built env w hbuilt]
    exact .nil w
  · rw [finish_file env w (by simpa using hbuilt), generateResponse_world]
    exact (Move.openFile w _).moves

theorem ip_gate : (gate env w base).2.2.ip = base.ip := by
  rcases gate_base env w base with hg | ⟨username, hg⟩
  · rw [hg]
  · rw [hg]
    rfl

/-- `handleRequest` changes the shared state by its events. -/
theorem handleRequest_moves (hip : c.httpBase.ip = c.ip) (h : handleRequest env w c = .ok (b, w', c')) :
    Moves env c.ip w (requestEvents env w c) w' := by
  obtain ⟨w2, r, hrespond, hfinish⟩ := handleRequest_finish h
  have hlast : Moves env c.ip w2 [] w' := by
    have hmoves := finish_moves env c.ip w2 { c with httpBase := (gate env w c.httpBase).2.2, httpResponse := r }
    rwa [hfinish] at hmoves
  have hfirst := (gate_move env c.ip w c.httpBase).moves
  simp only [requestEvents]
  cases hverdict : (gate env w c.httpBase).1 with
  | forbidden =>
    rw [hverdict] at hrespond
    simp only [respond] at hrespond
    rw [answer_world hrespond] at hlast
    exact hfirst.trans hlast
  | unauthenticated =>
    rw [hverdict] at hrespond
    simp only [respond] at hrespond
    rw [answer_world hrespond] at hlast
    exact hfirst.trans hlast
  | dispatch =>
    rw [hverdict] at hrespond
    have hmiddle := dispatch_moves (ip_gate.trans hip) hrespond
    have hall := hfirst.trans (hmiddle.trans hlast)
    rwa [List.append_nil] at hall

theorem isLimit_moves (w : World) (ip : Str) :
    Moves env ip w (if (w.isLimit (str "access_ip") ip).1 then [] else [.admitted ip w.now])
      (w.isLimit (str "access_ip") ip).2 := by
  cases hlimited : (w.isLimit (str "access_ip") ip).1 with
  | true => exact (Move.refused w _ _ hlimited).moves
  | false => exact (Move.admitted w hlimited).moves

theorem refreshSession_moves (env : Environment) (ip : Str) (w : World) (c : HttpConn) (b : Bool) :
    Moves env ip w []
      (if b then w.refreshSession (HttpRequest.getRequestCookie c.httpBase (str "session_id")) else w) := by
  unfold World.refreshSession
  split_ifs
  · exact .nil w
  · exact (Move.lookUp w 2 _ _ rfl).moves
  · exact .nil w
  · exact .nil w

/-- **Moves of a request.** `process` changes the shared state by its events. -/
theorem process_moves (hip : c.httpBase.ip = c.ip) (h : process env w c = .ok (b, w', c')) :
    Moves env c.ip w (processEvents env w c) w' := by
  unfold processEvents
  rcases process_cases h with ⟨hnone, -, rfl, -⟩ | ⟨hnone, -, rfl, -⟩ | ⟨side, w2, hparse, hsome, hreq, rfl⟩
  · rw [hnone, List.append_nil]
    exact isLimit_moves w c.ip
  · rw [hnone, List.append_nil]
    exact isLimit_moves w c.ip
  · rw [hsome]
    have hside : side.httpBase.ip = c.ip := (congrArg Prod.fst (ReadSide.identity_parse hparse)).trans hip
    have hmoves := handleRequest_moves hside hreq
    have hall := (isLimit_moves w c.ip).trans (hmoves.trans (refreshSession_moves env c.ip w2 c' b))
    rwa [List.append_nil] at hall

end HttpConn

/-! ## Who is logged in -/

namespace Service

variable {env : Environment} {database : Nat → Query → QueryAnswer} {interceptorClose : Bool}
  {history before events : List ServiceEvent} {username : Str}

/-- Later events take no login back. -/
theorem LoggedIn.append (h : LoggedIn database history username) (events : List ServiceEvent) :
    LoggedIn database (history ++ events) username := by
  obtain ⟨check, hmem, hcheck⟩ := h
  exact ⟨check, List.mem_append_left _ hmem, hcheck⟩

/-- A name, or none in its place. -/
theorem LoggedIn.of_name (h : LoggedIn database history username) {name : Str}
    (hname : name = username ∨ name = []) : LoggedIn database history name := by
  obtain ⟨check, hmem, hconfirmed, husername⟩ := h
  refine ⟨check, hmem, hconfirmed, ?_⟩
  rcases hname with rfl | rfl
  · exact husername
  · exact .inr rfl

/-- The history has every statement and every request that the router gets, and a login for every name that is
    stored with a token. -/
structure Records (database : Nat → Query → QueryAnswer) (interceptorClose : Bool) (w : World)
    (history : List ServiceEvent) : Prop where
  answers : w.database = database
  interceptor : w.interceptor = Interceptor.initInterceptor interceptorClose
  stored : ∀ token username, w.tokens.tokenUsername token = some username → LoggedIn database history username
  queries : w.queries = history.countP ServiceEvent.isStatement
  effects : w.effects.filter Effect.isDispatch = history.filterMap ServiceEvent.toEffect

/-- Events that are no logins, and a change that stores no name. -/
theorem Records.of_stored {w w' : World} (h : Records database interceptorClose w history) (hdatabase : w'.database = w.database)
    (hinterceptor : w'.interceptor = w.interceptor) (htokens : w'.tokens.tokenUsername = w.tokens.tokenUsername)
    (hqueries : w'.queries = w.queries + events.countP ServiceEvent.isStatement)
    (heffects : w'.effects.filter Effect.isDispatch =
      w.effects.filter Effect.isDispatch ++ events.filterMap ServiceEvent.toEffect) :
    Records database interceptorClose w' (history ++ events) where
  answers := hdatabase.trans h.answers
  interceptor := hinterceptor.trans h.interceptor
  stored := by
    intro token username hname
    rw [htokens] at hname
    exact (h.stored token username hname).append events
  queries := by rw [hqueries, h.queries, List.countP_append]
  effects := by rw [heffects, h.effects, List.filterMap_append]

/-- The history keeps up with every change. -/
theorem Records.move {ip : Str} {w w' : World} (h : Records database interceptorClose w history)
    (hmove : World.Move env ip w events w') : Records database interceptorClose w' (history ++ events) := by
  have hrest : ∀ {w : World} {es : List Effect}, es.filter Effect.isDispatch = [] →
      (w.effects ++ es).filter Effect.isDispatch = w.effects.filter Effect.isDispatch ++ [] :=
    fun hes => by rw [List.filter_append, hes]
  cases hmove with
  | lookUp n tokens sessions htokens => exact h.of_stored rfl rfl htokens rfl (List.append_nil _).symm
  | openFile path => exact h.of_stored rfl rfl rfl rfl (hrest rfl)
  | refused type key _ => exact h.of_stored rfl rfl rfl rfl (List.append_nil _).symm
  | admitted _ => exact h.of_stored rfl rfl rfl rfl (List.append_nil _).symm
  | dispatch method url username => exact h.of_stored rfl rfl rfl rfl (List.filter_append _ _)
  | statement sql params => exact h.of_stored rfl rfl rfl rfl (List.append_nil _).symm
  | checkPassword username password _ => exact h.of_stored rfl rfl rfl rfl (List.append_nil _).symm
  | login username password hlimited hconfirmed =>
    rw [h.answers] at hconfirmed
    have hlogin : LoggedIn database (history ++ [.checkPassword ⟨ip, w.now, username, password, w.queries⟩])
        username := ⟨_, List.mem_append_right _ (List.mem_singleton_self _), hconfirmed, .inl rfl⟩
    have hbefore : Records database interceptorClose ((w.isLimit (str "login_ip") ip).2.query UserDao.selectPassword [username]).2
        (history ++ [.checkPassword ⟨ip, w.now, username, password, w.queries⟩]) :=
      h.of_stored rfl rfl rfl rfl (List.append_nil _).symm
    refine ⟨hbefore.answers, hbefore.interceptor, ?_, hbefore.queries, ?_⟩
    · intro token name hname
      simp only [World.createToken, TokenManager.createToken, World.emit, Table.insert_apply] at hname
      split_ifs at hname
      · cases hname
        exact hlogin
      · exact hbefore.stored token name hname
    · refine Eq.trans ?_ hbefore.effects
      exact (hrest rfl).trans (List.append_nil _)

end Service

/-! ## Who a request is from -/

namespace HttpConn

variable {env : Environment} {w w' : World} {base : HttpBase} {c c' : HttpConn} {b : Bool}

/-- The name of a request is the one it had, or one that is stored with a token, or none in its place. -/
theorem gate_username (env : Environment) (w : World) (base : HttpBase) :
    (gate env w base).2.2 = base ∨ ∃ token username, w.tokens.tokenUsername token = some username ∧
      ((gate env w base).2.2.username = username ∨ (gate env w base).2.2.username = []) := by
  have hauth : (parseAuthContext env w base).2 = base ∨
      ∃ token username, w.tokens.tokenUsername token = some username ∧
        ((parseAuthContext env w base).2.username = username ∨
          (parseAuthContext env w base).2.username = []) := by
    rw [parseAuthContext_base]
    split_ifs with hvalid
    · obtain ⟨username, hstored⟩ := TokenManager.exists_of_isTokenValid hvalid.1
      refine .inr ⟨_, username, hstored, ?_⟩
      have hagain := (TokenManager.isTokenValid_isTokenExpired w.tokens (expiryChecks w base).1
        (HttpRequest.getToken base)).trans hvalid.1
      rw [← TokenManager.tokenUsername_isTokenExpired w.tokens (expiryChecks w base).1
        (HttpRequest.getToken base)] at hstored
      simp only [HttpBase.setUsername, TokenManager.getUsername_of_valid hagain hstored]
      split_ifs
      · exact .inr rfl
      · exact .inl rfl
    · exact .inl rfl
  simp only [gate]
  split_ifs
  · exact .inl rfl
  · exact hauth
  · exact hauth

theorem interceptor_move {ip : Str} {events : List ServiceEvent} (h : World.Move env ip w events w') :
    w'.interceptor = w.interceptor := by
  cases h <;> rfl

/-- A request that gets through is authenticated, or its URL needs no login. -/
theorem authenticated_of_gate (hw : w.interceptor = Interceptor.initInterceptor false)
    (h : (gate env w base).1 = .dispatch) :
    (gate env w base).2.2.authenticated = true ∨ (gate env w base).2.2.url ∈ Interceptor.loginUnrequired := by
  have hauth := (interceptor_move (parseAuthContext_move env [] w base)).trans hw
  simp only [gate, hw, hauth, Interceptor.shouldIntercept_login] at h ⊢
  split_ifs at h ⊢ with hblack hlogin
  rw [Bool.and_eq_true, url_parseAuthContext, decide_eq_true_eq] at hlogin
  rw [url_parseAuthContext]
  by_cases hname : (parseAuthContext env w base).2.authenticated = true
  · exact .inl hname
  · refine .inr (not_not.mp fun hmem => hlogin ⟨?_, hmem⟩)
    rw [Bool.not_eq_true] at hname
    rw [hname]
    rfl

/-- The events of a call with which the router gets a request. -/
theorem dispatch_mem_processEvents {method url username : Str}
    (h : .dispatch method url username ∈ processEvents env w c) :
    ∃ side, ReadSide.parseHttpRequest env.parseJson c.toReadSide = .ok (true, side) ∧
      (gate env (w.isLimit (str "access_ip") c.ip).2 side.httpBase).1 = .dispatch ∧
      (gate env (w.isLimit (str "access_ip") c.ip).2 side.httpBase).2.2.url = url ∧
      (gate env (w.isLimit (str "access_ip") c.ip).2 side.httpBase).2.2.username = username := by
  have hhandler : ∀ (ip : Str) (base : HttpBase) (w : World) (handler : Handler),
      .dispatch method url username ∉ handlerEvents ip base w handler := by
    intro ip base w handler
    unfold handlerEvents
    grind
  rcases List.mem_append.mp h with h | h
  · split_ifs at h
    · cases h
    · cases List.mem_singleton.mp h
  · unfold admitted at h
    generalize w.isLimit (str "access_ip") c.ip = limit at h ⊢
    obtain ⟨limited, w1⟩ := limit
    cases limited with
    | true => cases h
    | false =>
      simp only [Bool.false_eq_true, if_false] at h
      cases hparse : ReadSide.parseHttpRequest env.parseJson c.toReadSide with
      | error e =>
        rw [hparse] at h
        cases h
      | ok result =>
        obtain ⟨done, side⟩ := result
        rw [hparse] at h
        cases done with
        | false => cases h
        | true =>
          simp only [requestEvents] at h
          split_ifs at h with hverdict
          · refine ⟨side, rfl, hverdict, ?_⟩
            rcases List.mem_cons.mp h with heq | h
            · cases heq
              exact ⟨rfl, rfl⟩
            · split at h
              · exact absurd h (hhandler _ _ _ _)
              · cases h
          · cases h

/-- After a call the request is as it was, but for what the parser has read, or the interceptors have looked up
    who it is from. -/
theorem process_identity (h : process env w c = .ok (b, w', c')) :
    c'.httpBase.identity = c.httpBase.identity ∨ ∃ side,
      ReadSide.parseHttpRequest env.parseJson c.toReadSide = .ok (true, side) ∧
        c'.httpBase = (gate env (w.isLimit (str "access_ip") c.ip).2 side.httpBase).2.2 := by
  rcases process_cases h with ⟨-, -, -, r, -, rfl⟩ | ⟨-, -, -, side, hparse, rfl⟩ |
    ⟨side, w2, hparse, -, hreq, -⟩
  · left
    unfold copyResponseData
    split_ifs <;> rfl
  · exact .inl (ReadSide.identity_parse hparse)
  · exact .inr ⟨side, hparse, httpBase_handleRequest hreq⟩

end HttpConn

/-! ## Runs -/

namespace Service

variable {env : Environment} {database : Nat → Query → QueryAnswer} {interceptorClose : Bool} {s s' : Service}
  {a : Action}

/-- A request that the router gets needs no login, or it is from someone who has logged in before. -/
def OnlyLoggedIn (database : Nat → Query → QueryAnswer) (history : List ServiceEvent) : Prop :=
  ∀ before method url username after, history = before ++ .dispatch method url username :: after →
    url ∉ Interceptor.loginUnrequired → LoggedIn database before username

/-- A connection keeps its address, and a request of it that counts as authenticated is from someone who has
    logged in. -/
structure Known (database : Nat → Query → QueryAnswer) (history : List ServiceEvent) (c : HttpConn) : Prop where
  address : c.httpBase.ip = c.ip
  loggedIn : c.httpBase.authenticated = true → LoggedIn database history c.httpBase.username

/-- The invariant of the server. -/
structure Inv (database : Nat → Query → QueryAnswer) (interceptorClose : Bool) (s : Service) : Prop where
  records : Records database interceptorClose s.world s.history
  known : ∀ i c, s.conns i = some c → Known database s.history c
  onlyLoggedIn : interceptorClose = false → OnlyLoggedIn database s.history

theorem Known.append {history : List ServiceEvent} {c : HttpConn} (h : Known database history c)
    (events : List ServiceEvent) : Known database (history ++ events) c :=
  ⟨h.address, fun hauth => (h.loggedIn hauth).append events⟩

/-- A connection takes the place of another one. -/
theorem known_insert {conns : Table Nat HttpConn} {history : List ServiceEvent}
    (h : ∀ i c, conns i = some c → Known database history c) {i : Nat} {c : HttpConn}
    (hc : Known database history c) : ∀ j d, conns.insert i c j = some d → Known database history d := by
  intro j d hd
  rw [Table.insert_apply] at hd
  split_ifs at hd
  · cases hd
    exact hc
  · exact h j d hd

/-- More events, of which each request of someone is of someone who has logged in before all of them. -/
theorem OnlyLoggedIn.append {history events : List ServiceEvent} (h : OnlyLoggedIn database history)
    (hevents : ∀ method url username, .dispatch method url username ∈ events →
      url ∉ Interceptor.loginUnrequired → LoggedIn database history username) :
    OnlyLoggedIn database (history ++ events) := by
  intro before method url username after heq hurl
  rcases List.append_eq_append_iff.mp heq with ⟨more, rfl, hmore⟩ | ⟨more, rfl, hmore⟩
  · have hmem : .dispatch method url username ∈ events := by
      rw [hmore]
      exact List.mem_append_right _ List.mem_cons_self
    exact (hevents method url username hmem hurl).append more
  · rcases more with _ | ⟨event, more⟩
    · rw [List.nil_append] at hmore
      have hmem : .dispatch method url username ∈ events := by
        rw [← hmore]
        exact List.mem_cons_self
      have hlogin := hevents method url username hmem hurl
      rwa [List.append_nil] at hlogin
    · rw [List.cons_append, List.cons.injEq] at hmore
      obtain ⟨rfl, -⟩ := hmore
      exact h before method url username more rfl hurl

/-- Something is done with one connection that leaves the identity of its request alone, or clears it. -/
theorem Inv.update {f : HttpConn → HttpConn} {i : Nat} (hs : s.Inv database interceptorClose) (h : s.update i f = some s')
    (hip : ∀ c : HttpConn, (f c).ip = c.ip)
    (hbase : ∀ c : HttpConn, (f c).httpBase = c.httpBase ∨ (f c).httpBase = HttpBase.init c.ip) :
    s'.Inv database interceptorClose := by
  obtain ⟨c, hc, rfl⟩ := Option.map_eq_some_iff.mp h
  have hknown := hs.known i c hc
  refine ⟨hs.records, known_insert hs.known ?_, hs.onlyLoggedIn⟩
  rcases hbase c with hsame | hinit
  · refine ⟨?_, ?_⟩
    · rw [hsame, hip]
      exact hknown.address
    · rw [hsame]
      exact hknown.loggedIn
  · refine ⟨?_, ?_⟩
    · rw [hinit, hip]
      rfl
    · rw [hinit]
      intro hauth
      cases hauth

/-- A call of `process`. -/
theorem Inv.process {i : Nat} {threadId : Str} {c c' : HttpConn} {w' : World} {b : Bool} (hs : s.Inv database interceptorClose)
    (hc : s.conns i = some c)
    (h : HttpConn.process env { s.world with threadId := threadId } c = .ok (b, w', c')) :
    Inv database interceptorClose ⟨s.conns.insert i c', w',
      s.history ++ HttpConn.processEvents env { s.world with threadId := threadId } c⟩ := by
  generalize hworld : { s.world with threadId := threadId } = w at h ⊢
  have hrecords : Records database interceptorClose w s.history := by
    rw [← hworld]
    exact ⟨hs.records.answers, hs.records.interceptor, hs.records.stored, hs.records.queries, hs.records.effects⟩
  have hknown := hs.known i c hc
  have hmoves := HttpConn.process_moves hknown.address h
  have hrecords' := hmoves.invariant (fun _ _ _ _ => Records.move) hrecords
  -- a request that the interceptors have looked at is from someone who has logged in
  have hgate : ∀ side, ReadSide.parseHttpRequest env.parseJson c.toReadSide = .ok (true, side) →
      Known database s.history
        { c with httpBase := (HttpConn.gate env (w.isLimit (str "access_ip") c.ip).2 side.httpBase).2.2 } := by
    intro side hparse
    have hidentity := ReadSide.identity_parse hparse
    simp only [HttpBase.identity, Prod.mk.injEq] at hidentity
    refine ⟨HttpConn.ip_gate.trans (hidentity.1.trans hknown.address), fun hauth => ?_⟩
    rcases HttpConn.gate_username env (w.isLimit (str "access_ip") c.ip).2 side.httpBase with
      hsame | ⟨token, username, hstored, hname⟩
    · simp only [hsame] at hauth ⊢
      rw [hidentity.2.1]
      rw [hidentity.2.2] at hauth
      exact hknown.loggedIn hauth
    · exact (hrecords.stored token username hstored).of_name hname
  refine ⟨hrecords', known_insert (fun j d hd => (hs.known j d hd).append _) ?_, fun hopen => ?_⟩
  · refine Known.append ?_ _
    rcases HttpConn.process_identity h with hsame | ⟨side, hparse, hbase⟩
    · simp only [HttpBase.identity, Prod.mk.injEq] at hsame
      refine ⟨?_, ?_⟩
      · rw [hsame.1, HttpConn.ip_process h]
        exact hknown.address
      · rw [hsame.2.1, hsame.2.2]
        exact hknown.loggedIn
    · refine ⟨?_, ?_⟩
      · rw [hbase, HttpConn.ip_process h]
        exact (hgate side hparse).address
      · rw [hbase]
        exact (hgate side hparse).loggedIn
  · subst hopen
    refine (hs.onlyLoggedIn rfl).append fun method url username hmem hurl => ?_
    obtain ⟨side, hparse, hverdict, rfl, rfl⟩ := HttpConn.dispatch_mem_processEvents hmem
    have hinterceptor : (w.isLimit (str "access_ip") c.ip).2.interceptor = Interceptor.initInterceptor false :=
      hrecords.interceptor
    rcases HttpConn.authenticated_of_gate hinterceptor hverdict with hauth | hpublic
    · exact (hgate side hparse).loggedIn hauth
    · exact absurd hpublic hurl

theorem Inv.step (hs : s.Inv database interceptorClose) (h : step env s a = some s') : s'.Inv database interceptorClose := by
  cases a with
  | accept i sockfd ip =>
    cases h
    exact ⟨hs.records, known_insert hs.known ⟨rfl, fun hauth => nomatch hauth⟩, hs.onlyLoggedIn⟩
  | read i mode results =>
    exact hs.update h (fun c => @HttpConn.ip_step env _ _ (.read mode results) rfl)
      (fun c => .inl (HttpConn.parseState_read mode c results).2)
  | process i threadId =>
    simp only [Service.step] at h
    split at h
    · cases h
    · rename_i c hc
      split at h
      · cases h
      · rename_i hprocess
        cases h
        exact hs.process hc hprocess
  | write i results => exact hs.update h (fun c => rfl) (fun c => .inl rfl)
  | init i => exact hs.update h (fun c => rfl) (fun c => .inr rfl)
  | closeConn i =>
    refine hs.update h (fun c => ?_) (fun c => .inl ?_)
    · unfold HttpConn.closeConn
      split_ifs <;> rfl
    · unfold HttpConn.closeConn
      split_ifs <;> rfl
  | filesChange files =>
    cases h
    exact ⟨⟨hs.records.answers, hs.records.interceptor, hs.records.stored, hs.records.queries, hs.records.effects⟩,
      hs.known, hs.onlyLoggedIn⟩

theorem inv_start (clock wallClock : Nat → Int) (threadId : Str) (database : Nat → Query → QueryAnswer)
    (files : FileSystem) (rateLimiterClose interceptorClose : Bool) :
    Inv database interceptorClose
      (start (World.start clock wallClock threadId database files rateLimiterClose interceptorClose)) where
  records := ⟨rfl, rfl, (fun _ _ h => nomatch h), rfl, rfl⟩
  known := fun _ _ h => nomatch h
  onlyLoggedIn := by
    intro _ before method url username after heq
    cases before <;> cases heq

/-- **Logins.** In every run of the server, with the interceptor open and its default rules, each request that
    the router gets needs no login, or it is from someone whose password the database has confirmed at a login
    before it. The history has every request that the router gets, and every statement. -/
theorem run_onlyLoggedIn {clock wallClock : Nat → Int} {threadId : Str} {database : Nat → Query → QueryAnswer}
    {files : FileSystem} {rateLimiterClose : Bool} {actions : List Action}
    (h : Transition.run (step env)
      (start (World.start clock wallClock threadId database files rateLimiterClose false)) actions = some s) :
    OnlyLoggedIn database s.history ∧
      s.world.effects.filter Effect.isDispatch = s.history.filterMap ServiceEvent.toEffect ∧
      s.world.queries = s.history.countP ServiceEvent.isStatement := by
  have hs := Transition.run_invariant_of_step (fun s a s' hs ha => Inv.step hs ha)
    (inv_start clock wallClock threadId database files rateLimiterClose false) h
  exact ⟨hs.onlyLoggedIn rfl, hs.records.effects, hs.records.queries⟩

/-- A database with one password for everyone. -/
def aliceDatabase (_ : Nat) (_ : Query) : QueryAnswer :=
  ⟨true, true, true, true, true, true, [Table.empty.insert (str "password") (str "pw")]⟩

def aliceWorld : World :=
  World.start (fun _ => 0) (fun _ => 0) (str "1") aliceDatabase ⟨fun _ => none, fun _ => false, 0⟩ false false

/-- A login, and on another connection a request with the token that it has given. -/
def aliceLogin : List Action :=
  [.accept 0 5 (str "10.0.0.1"),
    .read 0 .LT [.received 80 (str "OST /login HTTP/1.1\r\nContent-Type: application/x-www-form-urlencoded\r\n" ++
      str "Content-Length: 26\r\n\r\nusername=alice&password=pw")],
    .process 0 (str "1"), .accept 1 6 (str "10.0.0.2"),
    .read 1 .LT [.received 71 (str "ET /checktoken HTTP/1.1\r\nAuthorization: " ++ World.aliceToken ++
      str "\r\n\r\n")],
    .process 1 (str "2")]

/-- What happens then. -/
def aliceHistory : List ServiceEvent :=
  [.admitted (str "10.0.0.1") 0, .dispatch (str "POST") (str "/login") [],
    .checkPassword ⟨str "10.0.0.1", 0, str "alice", str "pw", 0⟩,
    .admitted (str "10.0.0.2") 0, .dispatch (str "GET") (str "/checktoken") (str "alice")]

theorem exists_run_aliceLogin :
    ∃ s, Transition.run (step World.aliceEnvironment) (start aliceWorld) aliceLogin = some s ∧
      s.history = aliceHistory := by
  have hhistory : (Transition.run (step World.aliceEnvironment) (start aliceWorld) aliceLogin).map history =
      some aliceHistory := by decide +kernel
  exact Option.map_eq_some_iff.mp hhistory

theorem run_onlyLoggedIn_aliceLogin :
    ∃ s, Transition.run (step World.aliceEnvironment) (start aliceWorld) aliceLogin = some s ∧
      s.history = aliceHistory ∧ OnlyLoggedIn aliceDatabase s.history := by
  obtain ⟨s, hrun, hhistory⟩ := exists_run_aliceLogin
  exact ⟨s, hrun, hhistory, (run_onlyLoggedIn hrun).1⟩

end Service

end ModularNetServer
