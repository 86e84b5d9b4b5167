import ModularNetServer.Token.Proofs.TokenManagerProofs
import ModularNetServer.Http.HttpConn

/-!
# Who is authenticated

In every run of token calls and requests the token manager keeps the ledger that the calls alone
describe. A request is authenticated exactly if its token is in force in that ledger, and the
interceptors let exactly these requests and the public ones through.
-/

namespace ModularNetServer

open Cxx

/-! ## Runs -/

/-- What happens to the shared state: a token call, or a request on some connection. -/
inductive Action
  | createToken (username : Str) (timeoutMs : Int)
  | refreshToken (token : Str) (timeoutMs : Int)
  | removeToken (token : Str)
  | request (c : HttpConn)

namespace World

/-- The shared state after an action of a thread. -/
def act (env : Environment) (w : World) (threadId : Str) (action : Action) : Except Escape World :=
  let w := { w with threadId := threadId }
  match action with
  | .createToken username timeoutMs => .ok (w.createToken env username timeoutMs).2
  | .refreshToken token timeoutMs => .ok (w.refreshToken env token timeoutMs)
  | .removeToken token => .ok (w.removeToken env token)
  | .request c =>
    match HttpConn.handleRequest env w c with
    | .error e => .error e
    | .ok (_, w, _) => .ok w

/-- The shared state after a run of actions, each with its thread. -/
def run (env : Environment) (w : World) : List (Str × Action) → Except Escape World
  | [] => .ok w
  | (threadId, action) :: actions =>
    match w.act env threadId action with
    | .error e => .error e
    | .ok w => run env w actions

end World

/-! ## The ledger that the calls describe -/

/-- What an effect does to the ledger. -/
def TokenLedger.record (ledger : TokenLedger) : Effect → TokenLedger
  | .createToken token deadline => ledger.insert token deadline
  | .refreshToken token now deadline => ledger.refresh now token deadline
  | .removeToken token => ledger.erase token
  | .dispatch _ _ => ledger
  | .openFile _ => ledger

/-- The ledger after a sequence of effects. -/
def TokenLedger.ofEffects (effects : List Effect) : TokenLedger :=
  effects.foldl TokenLedger.record Table.empty

/-- The number of tokens created. -/
def created (effects : List Effect) : Nat :=
  (effects.filter fun e => match e with
    | .createToken _ _ => true
    | _ => false).length

namespace World

/-- The ledger of the calls made so far. -/
def ledger (w : World) : TokenLedger := TokenLedger.ofEffects w.effects

/-- The token manager keeps the ledger, its seed counts the tokens created, and the default rules of
    the interceptor are in force. -/
structure Inv (env : Environment) (w : World) : Prop where
  keeps : w.tokens.Keeps env.crypto w.ledger
  seed : w.tokens.timerSeed = 1000000 + created w.effects
  interceptor : w.interceptor = Interceptor.initInterceptor false

theorem created_append (effects effects' : List Effect) :
    created (effects ++ effects') = created effects + created effects' := by
  simp [created]

/-- An effect that is no token call. -/
def IsOpenFile (e : Effect) : Prop := ∃ path, e = .openFile path

/-- Tokens and interceptor are left alone; at most a file is opened. -/
structure Quiet (w w' : World) : Prop where
  tokens : w'.tokens = w.tokens
  interceptor : w'.interceptor = w.interceptor
  effects : ∃ es, w'.effects = w.effects ++ es ∧ ∀ e ∈ es, IsOpenFile e

theorem Quiet.of_eq {w w' : World} (ht : w'.tokens = w.tokens) (hi : w'.interceptor = w.interceptor)
    (he : w'.effects = w.effects) : Quiet w w' :=
  ⟨ht, hi, [], by rw [he, List.append_nil], by simp⟩

theorem Quiet.trans {w w' w'' : World} (h : Quiet w w') (h' : Quiet w' w'') : Quiet w w'' := by
  obtain ⟨es, he, hes⟩ := h.effects
  obtain ⟨es', he', hes'⟩ := h'.effects
  refine ⟨h'.tokens.trans h.tokens, h'.interceptor.trans h.interceptor, es ++ es', ?_, ?_⟩
  · rw [he', he, List.append_assoc]
  · intro e hmem
    rcases List.mem_append.mp hmem with hmem | hmem
    · exact hes e hmem
    · exact hes' e hmem

/-- Opening files does not show in the ledger. -/
theorem ofEffects_openFiles (effects : List Effect) {es : List Effect} (h : ∀ e ∈ es, IsOpenFile e) :
    TokenLedger.ofEffects (effects ++ es) = TokenLedger.ofEffects effects ∧
      created (effects ++ es) = created effects := by
  induction es using List.reverseRecOn with
  | nil => simp
  | append_singleton es e ih =>
    obtain ⟨h1, h2⟩ := ih fun e' he' => h e' (List.mem_append_left _ he')
    obtain ⟨path, rfl⟩ := h e (by simp)
    rw [← List.append_assoc]
    constructor
    · rw [← h1]
      simp [TokenLedger.ofEffects, TokenLedger.record]
    · rw [created_append, h2]
      simp [created]

theorem Inv.of_quiet {env : Environment} {w w' : World} (h : w.Inv env) (hq : Quiet w w') :
    w'.Inv env := by
  obtain ⟨es, he, hes⟩ := hq.effects
  obtain ⟨hledger, hcreated⟩ := ofEffects_openFiles w.effects hes
  refine ⟨?_, ?_, hq.interceptor.trans h.interceptor⟩
  · rw [hq.tokens, ledger, he, hledger]
    exact h.keeps
  · rw [hq.tokens, he, hcreated]
    exact h.seed

theorem Inv.emit_dispatch {env : Environment} {w : World} (h : w.Inv env) (method path : Str) :
    (w.emit (.dispatch method path)).Inv env := by
  refine ⟨?_, ?_, h.interceptor⟩
  · have hledger : (w.emit (.dispatch method path)).ledger = w.ledger := by
      simp [ledger, emit, TokenLedger.ofEffects, TokenLedger.record]
    rw [hledger]
    exact h.keeps
  · rw [show (w.emit (.dispatch method path)).effects = w.effects ++ [.dispatch method path] from rfl,
      created_append]
    exact h.seed

/-! ## Token calls -/

theorem ledger_emit (w : World) (e : Effect) : (w.emit e).ledger = w.ledger.record e := by
  simp [ledger, emit, TokenLedger.ofEffects]

theorem Inv.createToken {env : Environment} {w : World} (h : w.Inv env)
    (hdot : ∀ s, ∀ b ∈ env.crypto.base64Encode s, b ≠ 46) (username : Str) (timeoutMs : Int)
    (hcount : created (w.createToken env username timeoutMs).2.effects < 2 ^ 31 - 1000000) :
    (w.createToken env username timeoutMs).2.Inv env := by
  have hseed := h.seed
  have hone : created (w.createToken env username timeoutMs).2.effects = created w.effects + 1 :=
    created_append _ _
  rw [hone] at hcount
  have hkeeps := h.keeps.createToken hdot (by omega) (by omega) (w.clock w.readings)
    (w.clock (w.readings + 1)) w.threadId username timeoutMs
  refine ⟨?_, ?_, h.interceptor⟩
  · have hledger : (w.createToken env username timeoutMs).2.ledger = w.ledger.insert
        (TokenManager.makeToken env.crypto (w.clock w.readings) w.threadId username)
        (TimerNode.after (w.clock (w.readings + 1)) timeoutMs) := ledger_emit _ _
    rw [hledger]
    exact hkeeps
  · rw [hone]
    have hnext : (w.createToken env username timeoutMs).2.tokens.timerSeed =
        toInt32 (w.tokens.timerSeed + 1) := rfl
    rw [hnext, toInt32_of_lt (by omega) (by omega), hseed]
    omega

theorem Inv.refreshToken {env : Environment} {w : World} (h : w.Inv env) (token : Str)
    (timeoutMs : Int) : (w.refreshToken env token timeoutMs).Inv env := by
  have hkeeps := h.keeps.refreshToken (w.clock w.readings) (w.clock (w.readings + 1)) token timeoutMs
  refine ⟨?_, ?_, h.interceptor⟩
  · have hledger : (w.refreshToken env token timeoutMs).ledger = w.ledger.refresh
        (w.clock w.readings) token (TimerNode.after (w.clock (w.readings + 1)) timeoutMs) :=
      ledger_emit _ _
    rw [hledger]
    exact hkeeps
  · have hsame : created (w.refreshToken env token timeoutMs).effects = created w.effects :=
      created_append _ _
    rw [hsame, ← h.seed]
    exact TokenManager.timerSeed_refreshToken _ _ _ _ _ _

theorem Inv.removeToken {env : Environment} {w : World} (h : w.Inv env) (token : Str) :
    (w.removeToken env token).Inv env := by
  refine ⟨?_, ?_, h.interceptor⟩
  · have hledger : (w.removeToken env token).ledger = w.ledger.erase token := ledger_emit _ _
    rw [hledger]
    exact h.keeps.removeToken token
  · have hsame : created (w.removeToken env token).effects = created w.effects :=
      created_append _ _
    rw [hsame, ← h.seed]
    exact TokenManager.timerSeed_removeToken _ _ _

end World

namespace HttpConn

open World

/-! ## Requests -/

/-- The clock reading of the first expiry check of a request's token: the session, if there is one,
    is checked before. -/
def tokenCheckTime (w : World) (base : HttpBase) : Int :=
  let sessionId := HttpRequest.getRequestCookie base (str "session_id")
  w.clock (if w.sessions.isSessionIdValid sessionId then w.readings + 1 else w.readings)

/-- The session check takes one clock reading if there is a session. -/
theorem sessionCheck_spec (w : World) (sessionId : Str) :
    ∃ w1 : World, (if w.sessions.isSessionIdValid sessionId then
        { w.tick 1 with sessions := (w.sessions.isSessionIdExpired w.now sessionId).2 } else w) = w1 ∧
      Quiet w w1 ∧
      w1.now = w.clock (if w.sessions.isSessionIdValid sessionId then w.readings + 1 else w.readings) := by
  refine ⟨_, rfl, ?_, ?_⟩
  · split_ifs
    · exact .of_eq rfl rfl rfl
    · exact .of_eq rfl rfl rfl
  · split_ifs <;> rfl

/-- A request is authenticated if its token is in force when it is checked. -/
theorem parseAuthContext_spec {env : Environment} {w : World} (h : w.Inv env) (base : HttpBase) :
    Quiet w (parseAuthContext env w base).1 ∧
      ((parseAuthContext env w base).2.authenticated = true ↔ base.authenticated = true ∨
        w.ledger.InForce (tokenCheckTime w base) (HttpRequest.getToken base)) := by
  obtain ⟨w1, hw1, hquiet, hnow⟩ :=
    sessionCheck_spec w (HttpRequest.getRequestCookie base (str "session_id"))
  have hkeeps : w1.tokens.Keeps env.crypto w.ledger := by
    rw [hquiet.tokens]
    exact h.keeps
  unfold parseAuthContext tokenCheckTime TokenLedger.InForce
  simp only [hw1, ← hnow, hkeeps.isTokenValid]
  cases hl : w.ledger (HttpRequest.getToken base) with
  | none => exact ⟨by simpa using hquiet, by simp⟩
  | some deadline =>
    simp only [Option.isSome_some, if_true, hkeeps.isTokenExpired hl]
    by_cases hdead : deadline ≤ w1.now
    · simp only [hdead, decide_true, if_true, Option.some.injEq, exists_eq_left']
      refine ⟨hquiet.trans (.of_eq rfl rfl rfl), ?_⟩
      simp only [iff_self_or]
      omega
    · simp only [hdead, decide_false, Bool.false_eq_true, if_false, hkeeps.getUsername hl,
        Option.some.injEq, exists_eq_left']
      refine ⟨hquiet.trans (.of_eq rfl rfl rfl), iff_of_true rfl (.inr (by omega))⟩

theorem answer_world {w w' : World} {x : Except Escape HttpResponse} {r : HttpResponse}
    (h : answer w x = .ok (w', r)) : w' = w := by
  unfold answer at h
  split at h <;> cases h
  rfl

/-- What a handler does to the shared state: it reads the clock, sends a statement, asks the rate limiter
    and then for a password, or accepts a login. -/
inductive HandlerEffect (env : Environment) (w : World) : World → Prop
  | none : HandlerEffect env w w
  | clock : HandlerEffect env w (w.tick 1)
  | statement (sql : Str) (params : List Str) : HandlerEffect env w (w.query sql params).2
  | limited (type key : Str) : HandlerEffect env w (w.isLimit type key).2
  | refused (type key sql : Str) (params : List Str) :
      HandlerEffect env w ((w.isLimit type key).2.query sql params).2
  | accepted (type key sql : Str) (params : List Str) (username : Str) :
      HandlerEffect env w
        ((((w.isLimit type key).2.query sql params).2.createSession).createToken env username 1800000).2

/-- `/api/tx_test` sends a statement, unless it throws before. -/
theorem txTest_world {base : HttpBase} {w w' : World} {r r' : HttpResponse}
    (h : TestTxController.handle base w r = .ok (w', r')) : ∃ sql params, w' = (w.query sql params).2 := by
  unfold TestTxController.handle at h
  cases hname : TestTxController.stringMember base.requestJson (str "username") with
  | error e => simp only [hname] at h; cases h
  | ok username =>
    cases hage : TestTxController.stringMember base.requestJson (str "age") with
    | error e => simp only [hname, hage] at h; cases h
    | ok age =>
      cases hn : stoi age with
      | error e => simp only [hname, hage, hn] at h; cases h
      | ok n =>
        cases hdb : TextTxDao.insertUser w username n with
        | error e => simp only [hname, hage, hn, hdb] at h; cases h
        | ok result =>
          obtain ⟨success, w1⟩ := result
          simp only [hname, hage, hn, hdb] at h
          have hw : w' = w1 := by cases success <;> exact answer_world h
          have hquery : w1 = (w.query TextTxDao.insertStatement [username, Cxx.toString n]).2 := by
            unfold TextTxDao.insertUser at hdb
            grind
          exact ⟨_, _, hw.trans hquery⟩

theorem effect_txTest {env : Environment} {base : HttpBase} {w w' : World} {r r' : HttpResponse}
    (h : TestTxController.handle base w r = .ok (w', r')) : HandlerEffect env w w' := by
  obtain ⟨sql, params, rfl⟩ := txTest_world h
  exact .statement _ _

/-- A login is refused by the rate limiter, or it checks the password, and creates a session and a token if it
    is accepted. -/
theorem login_cases {env : Environment} {base : HttpBase} {w w' : World} {r r' : HttpResponse}
    (h : UserController.login env base w r = .ok (w', r')) :
    ((w.isLimit (str "login_ip") base.ip).1 = true ∧ w' = (w.isLimit (str "login_ip") base.ip).2) ∨
      ((w.isLimit (str "login_ip") base.ip).1 = false ∧ ∃ accepted w2,
        UserDao.checkUser (w.isLimit (str "login_ip") base.ip).2 ((base.formData (str "username")).getD [])
          ((base.formData (str "password")).getD []) = .ok (accepted, w2) ∧
        w' = if accepted then
            (w2.createSession.createToken env ((base.formData (str "username")).getD []) 1800000).2
          else w2) := by
  unfold UserController.login at h
  generalize w.isLimit (str "login_ip") base.ip = limit at h ⊢
  obtain ⟨limited, w1⟩ := limit
  cases limited with
  | true =>
    simp only [if_true] at h
    exact .inl ⟨rfl, answer_world h⟩
  | false =>
    simp only [Bool.false_eq_true, if_false] at h
    refine .inr ⟨rfl, ?_⟩
    cases hcheck : UserDao.checkUser w1 ((base.formData (str "username")).getD [])
        ((base.formData (str "password")).getD []) with
    | error e => rw [hcheck] at h; cases h
    | ok result =>
      obtain ⟨accepted, w2⟩ := result
      rw [hcheck] at h
      refine ⟨accepted, w2, rfl, ?_⟩
      cases accepted with
      | false =>
        cases h
        rfl
      | true => exact answer_world h

/-- A login creates a session and a token if it is accepted. -/
theorem effect_login {env : Environment} {base : HttpBase} {w w' : World} {r r' : HttpResponse}
    (h : UserController.login env base w r = .ok (w', r')) : HandlerEffect env w w' := by
  rcases login_cases h with ⟨-, rfl⟩ | ⟨-, accepted, w2, hcheck, rfl⟩
  · exact .limited _ _
  · rw [UserDao.checkUser_world hcheck]
    cases accepted with
    | false => exact .refused _ _ _ _
    | true => exact .accepted _ _ _ _ _

theorem effect_run {env : Environment} {base : HttpBase} {w w' : World} {r r' : HttpResponse}
    {handler : Handler} (h : handler.run env base w r = .ok (w', r')) : HandlerEffect env w w' := by
  cases handler with
  | apiHello =>
    simp only [Handler.run, TestController.hello] at h
    rw [answer_world h]
    exact .none
  | apiTime =>
    rw [answer_world h]
    exact .clock
  | apiEcho =>
    cases h
    exact .none
  | apiInfo =>
    rw [answer_world h]
    exact .none
  | login => exact effect_login h
  | registerUser =>
    cases h
    exact .statement (UserDao.insertText ((base.formData (str "username")).getD [])
      ((base.formData (str "password")).getD [])) []
  | checkToken =>
    simp only [Handler.run, UserController.checkToken] at h
    split_ifs at h
    · rw [answer_world h]
      exact .none
    · rw [answer_world h]
      exact .none
  | txTest => exact effect_txTest h

/-- What the router and a handler do to the shared state, once the router has recorded the request. -/
theorem effect_dispatch {env : Environment} {base : HttpBase} {w w' : World} {r r' : HttpResponse}
    (h : Router.dispatch env base w r = .ok (w', r')) :
    HandlerEffect env (w.emit (.dispatch base.method base.url)) w' := by
  simp only [Router.dispatch] at h
  cases hr : Router.route env base.method base.url with
  | some handler =>
    rw [hr] at h
    exact effect_run h
  | none =>
    rw [hr] at h
    simp only at h
    split_ifs at h
    · cases h
      exact .none
    · cases h
      exact .none

theorem generateResponse_world (env : Environment) (w : World) (c : HttpConn) :
    (generateResponse env w c).2.1 =
      w.emit (.openFile (Scan.upTo 0 (resolveUrl env w.files c.responseUrl).2.1)) := by
  simp only [generateResponse]
  split_ifs <;> rfl

/-- Sending a file opens it and changes nothing else. -/
theorem quiet_finish (env : Environment) (w : World) (c : HttpConn) :
    Quiet w (finish env w c).2.1 := by
  have hopen : ∀ path, Quiet w (w.emit (.openFile path)) := fun path =>
    ⟨rfl, rfl, [.openFile path], rfl, fun e he => ⟨path, List.mem_singleton.mp he⟩⟩
  have hworld := generateResponse_world env w c
  unfold finish
  split_ifs
  · exact .of_eq rfl rfl rfl
  · generalize generateResponse env w c = result at hworld ⊢
    obtain ⟨built, w', c'⟩ := result
    simp only at hworld
    subst hworld
    cases built <;> exact hopen _

/-- The interceptors and the authentication between them leave the tokens alone. -/
theorem quiet_gate {env : Environment} {w : World} (h : w.Inv env) (base : HttpBase) :
    Quiet w (gate env w base).2.1 := by
  have hauth := (parseAuthContext_spec h base).1
  simp only [gate]
  split_ifs
  · exact .of_eq rfl rfl rfl
  · exact hauth
  · exact hauth

/-- After the router has recorded the request, at most one token is created. -/
theorem quiet_dispatch {env : Environment} {base : HttpBase} {w w' : World} {r r' : HttpResponse}
    (h : Router.dispatch env base w r = .ok (w', r')) :
    Quiet (w.emit (.dispatch base.method base.url)) w' ∨
      ∃ w1 username, Quiet (w.emit (.dispatch base.method base.url)) w1 ∧
        w' = (w1.createToken env username 1800000).2 := by
  have heffect := effect_dispatch h
  generalize w.emit (.dispatch base.method base.url) = w0 at heffect ⊢
  cases heffect with
  | none => exact .inl (.of_eq rfl rfl rfl)
  | clock => exact .inl (.of_eq rfl rfl rfl)
  | statement => exact .inl (.of_eq rfl rfl rfl)
  | limited => exact .inl (.of_eq rfl rfl rfl)
  | refused => exact .inl (.of_eq rfl rfl rfl)
  | accepted type key sql params username =>
    exact .inr ⟨((w0.isLimit type key).2.query sql params).2.createSession, username,
      .of_eq rfl rfl rfl, rfl⟩

/-- What a request does to the shared state: after the interceptors it either goes no further, or the
    router records it and at most one token is created; then at most a file is opened. -/
theorem handleRequest_cases {env : Environment} {w w' : World} {c c' : HttpConn} {b : Bool}
    (hreq : handleRequest env w c = .ok (b, w', c')) :
    ((gate env w c.httpBase).1 ≠ .dispatch ∧ Quiet (gate env w c.httpBase).2.1 w') ∨
      ((gate env w c.httpBase).1 = .dispatch ∧ ∃ w2,
        Quiet ((gate env w c.httpBase).2.1.emit (.dispatch (gate env w c.httpBase).2.2.method
          (gate env w c.httpBase).2.2.url)) w2 ∧
          (Quiet w2 w' ∨ ∃ username, Quiet (w2.createToken env username 1800000).2 w')) := by
  unfold handleRequest at hreq
  generalize gate env w c.httpBase = g at hreq ⊢
  obtain ⟨verdict, w1, base⟩ := g
  dsimp only at hreq ⊢
  cases hrespond : respond env verdict base w1 c.httpResponse with
  | error e => rw [hrespond] at hreq; cases hreq
  | ok result =>
    obtain ⟨w2, r⟩ := result
    rw [hrespond] at hreq
    have hfinish : Quiet w2 w' := by
      have hq := quiet_finish env w2 { c with httpBase := base, httpResponse := r }
      rwa [Except.ok.inj hreq] at hq
    cases verdict with
    | forbidden =>
      simp only [respond] at hrespond
      rw [answer_world hrespond] at hfinish
      exact .inl ⟨by decide, hfinish⟩
    | unauthenticated =>
      simp only [respond] at hrespond
      rw [answer_world hrespond] at hfinish
      exact .inl ⟨by decide, hfinish⟩
    | dispatch =>
      refine .inr ⟨rfl, ?_⟩
      rcases quiet_dispatch hrespond with hq | ⟨w3, username, hq, rfl⟩
      · exact ⟨w2, hq, .inl hfinish⟩
      · exact ⟨w3, hq, .inr ⟨username, hfinish⟩⟩

theorem effects_gate (env : Environment) (w : World) (base : HttpBase) :
    (gate env w base).2.1.effects = w.effects := by
  unfold gate parseAuthContext
  grind [World.tick]

/-- The effects of a request, among them the router's if the request gets through. -/
theorem handleRequest_effects {env : Environment} {w w' : World} {c c' : HttpConn} {b : Bool}
    (hreq : handleRequest env w c = .ok (b, w', c')) :
    ∃ es, w'.effects = w.effects ++ es ∧
      ((∃ method path, .dispatch method path ∈ es) ↔ (gate env w c.httpBase).1 = .dispatch) := by
  rcases handleRequest_cases hreq with ⟨hv, hq⟩ | ⟨hv, w2, hq, hrest⟩
  · obtain ⟨es, he, hes⟩ := hq.effects
    rw [effects_gate] at he
    refine ⟨es, he, iff_of_false ?_ hv⟩
    rintro ⟨method, path, hmem⟩
    obtain ⟨p, hp⟩ := hes _ hmem
    cases hp
  · obtain ⟨es2, he2, -⟩ := hq.effects
    have hend : ∃ es3, w'.effects = w2.effects ++ es3 := by
      rcases hrest with hq' | ⟨username, hq'⟩
      · obtain ⟨es, he, -⟩ := hq'.effects
        exact ⟨es, he⟩
      · obtain ⟨es, he, -⟩ := hq'.effects
        exact ⟨_, he.trans (List.append_assoc _ _ _)⟩
    obtain ⟨es3, he3⟩ := hend
    refine ⟨.dispatch (gate env w c.httpBase).2.2.method (gate env w c.httpBase).2.2.url :: (es2 ++ es3),
      ?_, iff_of_true ⟨_, _, List.mem_cons_self⟩ hv⟩
    rw [he3, he2, emit, effects_gate]
    simp

theorem handleRequest_inv {env : Environment} {w w' : World} {c c' : HttpConn} {b : Bool}
    (h : w.Inv env) (hdot : ∀ s, ∀ b ∈ env.crypto.base64Encode s, b ≠ 46)
    (hreq : handleRequest env w c = .ok (b, w', c'))
    (hcount : created w'.effects < 2 ^ 31 - 1000000) : w'.Inv env := by
  have hgate := h.of_quiet (quiet_gate h c.httpBase)
  rcases handleRequest_cases hreq with ⟨-, hq⟩ | ⟨-, w2, hq, hrest⟩
  · exact hgate.of_quiet hq
  · have hinv := (hgate.emit_dispatch _ _).of_quiet hq
    rcases hrest with hq' | ⟨username, hq'⟩
    · exact hinv.of_quiet hq'
    · obtain ⟨es, he, -⟩ := hq'.effects
      have hless : created (w2.createToken env username 1800000).2.effects < 2 ^ 31 - 1000000 := by
        rw [he, created_append] at hcount
        omega
      exact (hinv.createToken hdot username 1800000 hless).of_quiet hq'

theorem url_parseAuthContext (env : Environment) (w : World) (base : HttpBase) :
    (parseAuthContext env w base).2.url = base.url := by
  unfold parseAuthContext
  grind [HttpBase.setUsername]

/-- A request gets through if its URL is not refused, and it is authenticated or its URL needs no
    login. -/
theorem gate_dispatch_iff {env : Environment} {w : World} (h : w.Inv env) (base : HttpBase) :
    (gate env w base).1 = .dispatch ↔ base.url ∉ Interceptor.uriBlacklist ∧
      ((parseAuthContext env w base).2.authenticated = true ∨
        base.url ∈ Interceptor.loginUnrequired) := by
  have hinterceptor : (parseAuthContext env w base).1.interceptor = Interceptor.initInterceptor false :=
    (parseAuthContext_spec h base).1.interceptor.trans h.interceptor
  simp only [gate, h.interceptor, hinterceptor, Interceptor.shouldIntercept_blacklist,
    Interceptor.shouldIntercept_login, url_parseAuthContext]
  by_cases hblack : base.url ∈ Interceptor.uriBlacklist
  · simp [hblack]
  · cases hauth : (parseAuthContext env w base).2.authenticated with
    | true => simp [hblack]
    | false =>
      by_cases hwhite : base.url ∈ Interceptor.loginUnrequired
      · simp [hblack, hwhite]
      · simp [hblack, hwhite]

end HttpConn

/-! ## Whole runs -/

namespace World

theorem act_effects {env : Environment} {w w' : World} {threadId : Str} {action : Action}
    (h : w.act env threadId action = .ok w') : ∃ es, w'.effects = w.effects ++ es := by
  cases action with
  | createToken username timeoutMs =>
    cases h
    exact ⟨_, rfl⟩
  | refreshToken token timeoutMs =>
    cases h
    exact ⟨_, rfl⟩
  | removeToken token =>
    cases h
    exact ⟨_, rfl⟩
  | request c =>
    simp only [act] at h
    split at h
    · cases h
    · rename_i hreq
      cases h
      obtain ⟨es, he, -⟩ := HttpConn.handleRequest_effects hreq
      exact ⟨es, he⟩

theorem run_effects {env : Environment} {w w' : World} {actions : List (Str × Action)}
    (h : w.run env actions = .ok w') : ∃ es, w'.effects = w.effects ++ es := by
  induction actions generalizing w with
  | nil =>
    cases h
    exact ⟨[], (List.append_nil _).symm⟩
  | cons a actions ih =>
    simp only [run] at h
    split at h
    · cases h
    · rename_i hact
      obtain ⟨es, he⟩ := act_effects hact
      obtain ⟨es', he'⟩ := ih h
      exact ⟨es ++ es', by rw [he', he, List.append_assoc]⟩

theorem Inv.act {env : Environment} {w w' : World} (h : w.Inv env)
    (hdot : ∀ s, ∀ b ∈ env.crypto.base64Encode s, b ≠ 46) {threadId : Str} {action : Action}
    (hact : w.act env threadId action = .ok w')
    (hcount : created w'.effects < 2 ^ 31 - 1000000) : w'.Inv env := by
  have h' : Inv env { w with threadId := threadId } := ⟨h.keeps, h.seed, h.interceptor⟩
  cases action with
  | createToken username timeoutMs =>
    cases hact
    exact h'.createToken hdot username timeoutMs hcount
  | refreshToken token timeoutMs =>
    cases hact
    exact h'.refreshToken token timeoutMs
  | removeToken token =>
    cases hact
    exact h'.removeToken token
  | request c =>
    simp only [World.act] at hact
    split at hact
    · cases hact
    · rename_i hreq
      cases hact
      exact HttpConn.handleRequest_inv h' hdot hreq hcount

/-- The token manager keeps the ledger in every run. -/
theorem Inv.run {env : Environment} {w w' : World} (h : w.Inv env)
    (hdot : ∀ s, ∀ b ∈ env.crypto.base64Encode s, b ≠ 46) {actions : List (Str × Action)}
    (hrun : w.run env actions = .ok w') (hcount : created w'.effects < 2 ^ 31 - 1000000) :
    w'.Inv env := by
  induction actions generalizing w with
  | nil =>
    cases hrun
    exact h
  | cons a actions ih =>
    simp only [World.run] at hrun
    split at hrun
    · cases hrun
    · rename_i w1 hact
      obtain ⟨es, he⟩ := run_effects hrun
      have hless : created w1.effects < 2 ^ 31 - 1000000 := by
        rw [he, created_append] at hcount
        omega
      exact ih (h.act hdot hact hless) hrun

theorem inv_start (env : Environment) (clock wallClock : Nat → Int) (threadId : Str)
    (database : Nat → Query → QueryAnswer) (files : FileSystem) (rateLimiterClose : Bool) :
    (start clock wallClock threadId database files rateLimiterClose false).Inv env where
  keeps := TokenManager.keeps_empty
  seed := rfl
  interceptor := rfl

/-- **Authentication and gating.** After any run a request is authenticated exactly if its
    `Authorization` header is a token in force at its first expiry check, and it reaches the router
    exactly if its URL is not refused and it is authenticated or its URL needs no login. -/
theorem authenticated_iff_inForce {env : Environment}
    (hdot : ∀ s, ∀ b ∈ env.crypto.base64Encode s, b ≠ 46) (clock wallClock : Nat → Int)
    (threadId : Str) (database : Nat → Query → QueryAnswer) (files : FileSystem)
    (rateLimiterClose : Bool) (actions : List (Str × Action)) {w : World}
    (hrun : (start clock wallClock threadId database files rateLimiterClose false).run env actions =
      .ok w)
    (hcount : created w.effects < 2 ^ 31 - 1000000) {c : HttpConn}
    (hnew : c.httpBase.authenticated = false) :
    ((HttpConn.parseAuthContext env w c.httpBase).2.authenticated = true ↔
      w.ledger.InForce (HttpConn.tokenCheckTime w c.httpBase)
        (c.httpBase.getHeader (str "Authorization"))) ∧
    ((HttpConn.gate env w c.httpBase).1 = .dispatch ↔
      c.httpBase.url ∉ Interceptor.uriBlacklist ∧
        ((HttpConn.parseAuthContext env w c.httpBase).2.authenticated = true ∨
          c.httpBase.url ∈ Interceptor.loginUnrequired)) ∧
    (∀ b w' c', HttpConn.handleRequest env w c = .ok (b, w', c') →
      ∃ es, w'.effects = w.effects ++ es ∧
        ((∃ method path, .dispatch method path ∈ es) ↔
          c.httpBase.url ∉ Interceptor.uriBlacklist ∧
            ((HttpConn.parseAuthContext env w c.httpBase).2.authenticated = true ∨
              c.httpBase.url ∈ Interceptor.loginUnrequired))) := by
  have hinv := (inv_start env clock wallClock threadId database files rateLimiterClose).run hdot
    hrun hcount
  have hgate := HttpConn.gate_dispatch_iff hinv c.httpBase
  refine ⟨?_, hgate, ?_⟩
  · have hauth := (HttpConn.parseAuthContext_spec hinv c.httpBase).2
    rw [hnew] at hauth
    simpa [HttpRequest.getToken] using hauth
  · intro b w' c' hreq
    obtain ⟨es, he, hes⟩ := HttpConn.handleRequest_effects hreq
    exact ⟨es, he, hes.trans hgate⟩

/-- The token that is created below. -/
def aliceToken : Str :=
  str "dG9rZW5fMF8xX2FsaWNl.26850c77f757eb369fecf57bdf1546eb77916a49cab031586e6e7ccb1c1b3d1a"

/-- The two functions at that token's text. -/
def aliceCrypto : CryptoUtils where
  hmacSha256 data key :=
    if data = aliceToken.take 20 ∧ key = TokenManager.secretKey then aliceToken.drop 21 else []
  base64Encode s := if s = str "token_0_1_alice" then aliceToken.take 20 else []

def aliceEnvironment : Environment :=
  Router.environment aliceCrypto (fun _ => none) (fun _ => ⟨2025, 1, 1, 0, 0, 0⟩) (str "/srv/src/www")
    ⟨8080, 8, 0, 0⟩

/-- A token is created and refreshed. -/
def aliceActions : List (Str × Action) :=
  [(str "1", .createToken (str "alice") 1000), (str "2", .refreshToken aliceToken 2000)]

/-- A request with that token. -/
def aliceRequest : HttpConn :=
  { HttpConn.fresh 5 (str "10.0.0.1") with
    httpBase := { HttpBase.init (str "10.0.0.1") with
      method := str "GET"
      url := str "/checktoken"
      requestHeaders := Table.empty.insert (str "Authorization") aliceToken } }

theorem aliceCrypto_noDot : ∀ s, ∀ b ∈ aliceCrypto.base64Encode s, b ≠ 46 := by
  intro s b hb
  simp only [aliceCrypto] at hb
  split_ifs at hb
  · exact (by decide : ∀ b ∈ aliceToken.take 20, b ≠ 46) b hb
  · cases hb

theorem authenticated_alice :
    ∃ w, (start (fun n => n) (fun n => n) (str "1")
        (fun _ _ => ⟨true, true, true, true, true, true, []⟩) ⟨fun _ => none, fun _ => false, 0⟩ false
        false).run aliceEnvironment aliceActions = .ok w ∧
      ((HttpConn.parseAuthContext aliceEnvironment w aliceRequest.httpBase).2.authenticated = true ↔
        w.ledger.InForce (HttpConn.tokenCheckTime w aliceRequest.httpBase) aliceToken) :=
  ⟨_, rfl, (authenticated_iff_inForce aliceCrypto_noDot (fun n => n) (fun n => n) (str "1")
    (fun _ _ => ⟨true, true, true, true, true, true, []⟩) ⟨fun _ => none, fun _ => false, 0⟩ false
    aliceActions rfl (by decide) (c := aliceRequest) rfl).1⟩

end World

end ModularNetServer
