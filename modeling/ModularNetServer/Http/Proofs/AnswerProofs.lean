import ModularNetServer.Http.Proofs.EscapeProofs
import ModularNetServer.Http.Proofs.FileDescriptorProofs

/-!
# Which requests can be answered

Whether a request can be answered at all: what the shared state is like when it is complete is left open,
but for the rate limiter and the interceptor, which do not change. Of the handlers only two ask something
of the request itself.
-/

namespace ModularNetServer

open Cxx

/-! ## Shared states -/

/-- The rate limiter is closed, and the interceptor has the given rules. -/
structure World.Serves (i : Interceptor) (w : World) : Prop where
  limiter : w.limiter.rateLimiterClose = true
  interceptor : w.interceptor = i

/-- Nobody is logged in, every file can be opened, and the database prepares no statement. -/
structure World.Obliging (i : Interceptor) (w : World) : Prop extends w.Serves i where
  tokens : w.tokens = TokenManager.empty
  sessions : w.sessions = SessionManager.empty
  files : ∀ path, w.files.canOpen path = true
  database : ∀ n q, w.database n q = ⟨true, true, false, false, false, false, []⟩
  wallClock : ∀ n, w.wallClock n = 0

/-- A body that names a user. -/
def userText : Str := str "\x7b\"age\":\"1\",\"username\":\"a\"\x7d"

/-- Its value. -/
def userJson : Json := .object [(str "age", .string (str "1")), (str "username", .string (str "a"))]

/-- The numbers that are printed are `int`s, and a JSON text is parsed to its value. -/
structure Environment.Conforms (env : Environment) : Prop where
  localTime : ∀ now, (env.localTime now).year < 2 ^ 31 ∧ (env.localTime now).month < 2 ^ 31 ∧
    (env.localTime now).day < 2 ^ 31 ∧ (env.localTime now).hour < 2 ^ 31 ∧
    (env.localTime now).minute < 2 ^ 31 ∧ (env.localTime now).second < 2 ^ 31
  httpPort : env.info.httpPort.natAbs ≤ 2 ^ 31
  threadNum : env.info.threadNum.natAbs ≤ 2 ^ 31
  parseJson : env.parseJson userText = some userJson

/-! ## Requests -/

/-- The body names a user and an age. -/
def NamesUser (base : HttpBase) : Prop :=
  ∃ members username age n, base.requestJson = .object members ∧
    Json.lookup (str "username") members = some (.string username) ∧
    Json.lookup (str "age") members = some (.string age) ∧ stoi age = .ok n

/-- What a handler asks of a request: the echo has to fit the write buffer, and the transaction needs a
    user. -/
def Handler.Answers (base : HttpBase) : Handler → Prop
  | apiEcho => (HttpResponse.empty.sendJsonText base.keepAlive 200 base.requestBody).responseData.length < 4096
  | txTest => NamesUser base
  | _ => True

/-- A request that the interceptors refuse is answered; so is one that its handler can answer, and one that
    has none. -/
def Answerable (env : Environment) (i : Interceptor) (base : HttpBase) : Prop :=
  i.shouldIntercept (str "uri_blacklist") base.url = false →
    i.shouldIntercept (str "login_unrequired") base.url = false →
      ∀ handler, Router.route env base.method base.url = some handler → handler.Answers base

namespace HttpConn

open HttpResponse

variable {env : Environment} {i : Interceptor} {w w' : World} {base : HttpBase} {r r' : HttpResponse}

/-! ## Interceptors and handlers -/

/-- A closed limiter lets every request through. -/
theorem isLimit_serves (hw : w.Serves i) (type key : Str) : w.isLimit type key = (false, w.tick 1) := by
  unfold World.isLimit RateLimiter.isLimit
  rw [if_pos hw.limiter]
  rfl

theorem obliging_tick (hw : w.Obliging i) (n : Nat) : (w.tick n).Obliging i :=
  ⟨⟨hw.limiter, hw.interceptor⟩, hw.tokens, hw.sessions, hw.files, hw.database, hw.wallClock⟩

theorem obliging_emit (hw : w.Obliging i) (e : Effect) : (w.emit e).Obliging i :=
  ⟨⟨hw.limiter, hw.interceptor⟩, hw.tokens, hw.sessions, hw.files, hw.database, hw.wallClock⟩

/-- Where nobody is logged in the interceptors alone decide. -/
theorem gate_obliging (hw : w.Obliging i) (hbase : base.authenticated = false) :
    gate env w base =
      (if i.shouldIntercept (str "uri_blacklist") base.url then .forbidden
        else if i.shouldIntercept (str "login_unrequired") base.url then .unauthenticated else .dispatch,
        w, base) := by
  have hsession : ∀ id, w.sessions.isSessionIdValid id = false := by
    intro id
    rw [hw.sessions]
    rfl
  have htoken : ∀ token, w.tokens.isTokenValid env.crypto token = false := by
    intro token
    rw [hw.tokens]
    unfold TokenManager.isTokenValid
    split
    · rfl
    · dsimp only
      split_ifs <;> rfl
  have hauth : parseAuthContext env w base = (w, base) := by
    simp only [parseAuthContext, hsession, htoken, Bool.false_eq_true, if_false]
  simp only [gate, hauth, hw.interceptor, hbase, Bool.not_false, Bool.true_and]
  split_ifs <;> rfl

theorem safe_of_answers (hw : w.Obliging i) (hbase : base.authenticated = false) {handler : Handler}
    (h : handler.Answers base) : handler.Safe env w base := by
  cases handler with
  | login =>
    unfold Handler.Safe LoginSafe
    rw [isLimit_serves hw.toServes]
    intro _
    refine ⟨?_, ?_⟩
    · simp only [World.query, World.tick, hw.database]
    · intro w' hcheck
      simp only [UserDao.checkUser, World.query, World.tick, hw.database] at hcheck
      cases hcheck
  | checkToken =>
    intro hauth
    exact absurd (hbase.symm.trans hauth) (by decide)
  | txTest =>
    obtain ⟨members, username, age, n, hjson, husername, hage, hn⟩ := h
    refine ⟨members, username, age, n, hjson, husername, hage, hn, ?_⟩
    simp only [TransactionSafe, World.query, hw.database]
    exact ⟨trivial, trivial, by simp⟩
  | apiHello => trivial
  | apiTime => trivial
  | apiEcho => trivial
  | apiInfo => trivial
  | registerUser => trivial

/-! ## The lengths of the answers -/

theorem hello_length (hr : r.Plain) (h : TestController.hello base w r = .ok (w', r')) :
    r'.responseData.length < 4096 := by
  have hnames : (str "code").length = 4 ∧ (str "message").length = 7 ∧ (str "200").length = 3 ∧
      (str "Hello from API").length = 14 := by decide
  have hvalues : ∀ m ∈ [(str "code", Json.string (str "200")), (str "message", .string (str "Hello from API"))],
      ∀ value, Json.dump m.2 = .ok value → value.length ≤ 86 := by
    intro m hm value hvalue
    rcases List.mem_pair.mp hm with rfl | rfl
    all_goals
      have hstring := Json.dump_string_length hvalue
      omega
  have hlength := sendJson_length hr (fun text htext => Json.dump_object_length hvalues htext) (answer_length h)
  simp only [List.map_cons, List.map_nil, List.sum_cons, List.sum_nil] at hlength
  omega

/-- An answer with a status, a message and an object of data. -/
theorem sendData_length (hr : r.Plain) {keepAlive : Bool} {message : Str} (hmessage : message.length ≤ 10)
    {members : List (Str × Json)} {k : Nat} (hk : ∀ m ∈ members, ∀ value, Json.dump m.2 = .ok value → value.length ≤ k)
    (hsum : (members.map fun m => 6 * m.1.length + 4 + k).sum ≤ 1000)
    (h : r.sendJson keepAlive 200 (.object [(str "data", .object members), (str "message", .string message),
      (str "status", .string (str "200"))]) = .ok r') : r'.responseData.length < 4096 := by
  have hnames : (str "data").length = 4 ∧ (str "message").length = 7 ∧ (str "status").length = 6 ∧
      (str "200").length = 3 := by decide
  have hvalues : ∀ m ∈ [(str "data", Json.object members), (str "message", .string message),
      (str "status", .string (str "200"))], ∀ value, Json.dump m.2 = .ok value → value.length ≤ 1002 := by
    intro m hm value hvalue
    simp only [List.mem_cons, List.not_mem_nil, or_false] at hm
    rcases hm with rfl | rfl | rfl
    · have hobject := Json.dump_object_length hk hvalue
      omega
    · have hstring := Json.dump_string_length hvalue
      omega
    · have hstring := Json.dump_string_length hvalue
      omega
  have hlength := sendJson_length hr (fun text htext => Json.dump_object_length hvalues htext) h
  simp only [List.map_cons, List.map_nil, List.sum_cons, List.sum_nil] at hlength
  omega

theorem decimal_length {n : Nat} (h : n < 10 ^ 10) : (decimal n).length ≤ 10 := by
  unfold decimal
  rw [List.length_map]
  exact (Nat.length_toDigits_le_iff (by omega) (by omega)).mpr h

theorem datetime_length {t : LocalTime} (ht : t.year < 2 ^ 31 ∧ t.month < 2 ^ 31 ∧ t.day < 2 ^ 31 ∧
    t.hour < 2 ^ 31 ∧ t.minute < 2 ^ 31 ∧ t.second < 2 ^ 31) : (TestController.datetime t).length ≤ 65 := by
  have hpad : ∀ n, n < 2 ^ 31 → (TestController.pad2 n).length ≤ 10 := by
    intro n hn
    have hlength := @decimal_length n (by omega)
    have hzero : (str "0").length = 1 := by decide
    unfold TestController.pad2
    split_ifs with hdigit
    · have hone : (decimal n).length ≤ 1 := by
        unfold decimal
        rw [List.length_map]
        exact (Nat.length_toDigits_le_iff (by omega) (by omega)).mpr (by omega)
      rw [List.length_append]
      omega
    · exact hlength
  obtain ⟨hyear, hmonth, hday, hhour, hminute, hsecond⟩ := ht
  have h1 := @decimal_length t.year (by omega)
  have h2 := hpad _ hmonth
  have h3 := hpad _ hday
  have h4 := hpad _ hhour
  have h5 := hpad _ hminute
  have h6 := hpad _ hsecond
  have hlengths : (str "-").length = 1 ∧ (str " ").length = 1 ∧ (str ":").length = 1 := by decide
  simp only [TestController.datetime, List.length_append]
  omega

theorem time_length (henv : env.Conforms) (hw : w.Obliging i) (hr : r.Plain)
    (h : TestController.time env base w r = .ok (w', r')) : r'.responseData.length < 4096 := by
  have hnames : (str "datetime").length = 8 ∧ (str "timestamp").length = 9 := by decide
  have hnow : (Cxx.toString 0).length = 1 := by decide
  unfold TestController.time at h
  dsimp only at h
  rw [hw.wallClock] at h
  have hdatetime := datetime_length (henv.localTime 0)
  refine sendData_length (k := 392) hr (by decide) ?_ ?_ (answer_length h)
  · intro m hm value hvalue
    rcases List.mem_pair.mp hm with rfl | rfl
    · have hstring := Json.dump_string_length hvalue
      omega
    · have hnumber := Json.dump_number_length hvalue
      omega
  · simp only [List.map_cons, List.map_nil, List.sum_cons, List.sum_nil, hnames]
    decide

theorem apiInfo_length (henv : env.Conforms) (hr : r.Plain) (h : apiInfo env base w r = .ok (w', r')) :
    r'.responseData.length < 4096 := by
  have hnames : (str "actor_model").length = 11 ∧ (str "http_port").length = 9 ∧
      (str "thread_num").length = 10 ∧ (str "trig_mode").length = 9 := by decide
  have hmodel : (if env.info.actorModel = 1 then str "Reactor" else str "Proactor").length ≤ 8 := by
    split_ifs <;> decide
  have hmode : (if env.info.trigMode = 1 then str "ET" else str "LT").length ≤ 8 := by
    split_ifs <;> decide
  have hport := toString_length_le (k := 10) (by decide) (henv.httpPort.trans_lt (by decide))
  have hthreads := toString_length_le (k := 10) (by decide) (henv.threadNum.trans_lt (by decide))
  unfold apiInfo at h
  refine sendData_length (k := 50) hr (by decide) ?_ ?_ (answer_length h)
  · intro m hm value hvalue
    simp only [List.mem_cons, List.not_mem_nil, or_false] at hm
    rcases hm with rfl | rfl | rfl | rfl
    · have hstring := Json.dump_string_length hvalue
      omega
    · have hnumber := Json.dump_number_length hvalue
      omega
    · have hnumber := Json.dump_number_length hvalue
      omega
    · have hstring := Json.dump_string_length hvalue
      omega
  · simp only [List.map_cons, List.map_nil, List.sum_cons, List.sum_nil, hnames]
    decide

/-- A JSON answer depends on the response only through its headers and cookies. -/
theorem sendJsonText_data (hr : r.Plain) (keepAlive : Bool) (code : Int) (text : Str) :
    (r.sendJsonText keepAlive code text).responseData =
      (HttpResponse.empty.sendJsonText keepAlive code text).responseData := by
  simp only [HttpResponse.sendJsonText, HttpResponse.buildResponseHeader, hr.headers, hr.cookies,
    HttpResponse.empty]

theorem login_data (hw : w.Obliging i) (hnil : r.responseData = [])
    (h : UserController.login env base w r = .ok (w', r')) : r'.responseData = [] := by
  unfold UserController.login at h
  rw [isLimit_serves hw.toServes] at h
  simp only [Bool.false_eq_true, if_false, UserDao.checkUser, World.query, World.tick, hw.database,
    Bool.not_true, Bool.not_false, if_true] at h
  cases h
  exact hnil

theorem txTest_length (hr : r.Plain) (h : TestTxController.handle base w r = .ok (w', r')) :
    r'.responseData.length < 4096 := by
  unfold TestTxController.handle at h
  rcases husername : TestTxController.stringMember base.requestJson (str "username") with e | username
  all_goals simp only [husername] at h
  · cases h
  rcases hage : TestTxController.stringMember base.requestJson (str "age") with e | age
  all_goals simp only [hage] at h
  · cases h
  rcases hstoi : stoi age with e | n
  all_goals simp only [hstoi] at h
  · cases h
  rcases hinsert : TextTxDao.insertUser w username n with e | ⟨_ | _, w1⟩
  all_goals simp only [hinsert] at h
  · cases h
  · exact sendRESTfulJson_length hr (by decide) (by decide) (answer_length h)
  · exact sendRESTfulJson_length hr (by decide) (by decide) (answer_length h)

/-- What a handler builds fits the write buffer. -/
theorem run_length (henv : env.Conforms) (hw : w.Obliging i) (hbase : base.authenticated = false) (hr : r.Plain)
    (hnil : r.responseData = []) {handler : Handler} (hanswers : handler.Answers base)
    (h : handler.run env base w r = .ok (w', r')) : r'.responseData.length < 4096 := by
  cases handler with
  | apiHello => exact hello_length hr h
  | apiTime => exact time_length henv hw hr h
  | apiEcho =>
    cases h
    rw [sendJsonText_data hr]
    exact hanswers
  | apiInfo => exact apiInfo_length henv hr h
  | login =>
    rw [login_data hw hnil h]
    decide
  | registerUser =>
    cases h
    show r.responseData.length < 4096
    rw [hnil]
    decide
  | checkToken =>
    simp only [Handler.run, UserController.checkToken, hbase, Bool.not_false, if_true] at h
    exact sendRESTfulJson_length hr (by decide) (by decide) (answer_length h)
  | txTest => exact txTest_length hr h

/-! ## Requests that are answered -/

/-- **An answerable request** is answered where the shared state obliges. -/
theorem handleRequest_obliging {c : HttpConn} (henv : env.Conforms) (hw : w.Obliging i)
    (hauth : c.httpBase.authenticated = false) (hr : c.httpResponse.Plain)
    (hnil : c.httpResponse.responseData = []) (hoffset : c.fileOffset = 0)
    (hanswerable : Answerable env i c.httpBase) :
    ∃ w' c', handleRequest env w c = .ok (true, w', c') := by
  have hgate := @gate_obliging env i w c.httpBase hw hauth
  have hdispatch : (gate env w c.httpBase).1 = .dispatch → ∀ handler,
      Router.route env c.httpBase.method c.httpBase.url = some handler → handler.Answers c.httpBase := by
    rw [hgate]
    intro hverdict
    dsimp only at hverdict
    split_ifs at hverdict with hblack hlogin
    exact hanswerable (by simpa using hblack) (by simpa using hlogin)
  have hbase : (gate env w c.httpBase).2.2 = c.httpBase := by rw [hgate]
  have hworld : (gate env w c.httpBase).2.1 = w := by rw [hgate]
  have hok : (handleRequest env w c).isOk = true := by
    rw [handleRequest_isOk_iff]
    unfold RequestSafe
    rw [hgate]
    intro hverdict handler hroute
    exact safe_of_answers (obliging_emit hw _) hauth (hdispatch (by rw [hgate]; exact hverdict) handler hroute)
  rcases hreq : handleRequest env w c with e | ⟨b, w', c'⟩
  · rw [hreq] at hok
    cases hok
  refine ⟨w', c', ?_⟩
  obtain ⟨w2, r, hrespond, hfinish⟩ := handleRequest_finish hreq
  rw [hbase, hworld] at hrespond
  rw [hbase] at hfinish
  have hlength : r.responseData.length < 4096 := by
    by_cases hroute : (gate env w c.httpBase).1 = .dispatch →
        Router.route env c.httpBase.method c.httpBase.url = none
    · rcases respond_unhandled hr hrespond hroute with hsame | hshort
      · rw [hsame, hnil]
        decide
      · exact hshort
    · obtain ⟨hverdict, hroute⟩ := Classical.not_imp.mp hroute
      obtain ⟨handler, hhandler⟩ := Option.ne_none_iff_exists'.mp hroute
      simp only [hverdict, respond, Router.dispatch, hhandler] at hrespond
      exact run_length henv (obliging_emit hw _) hauth hr hnil (hdispatch hverdict handler hhandler) hrespond
  have hkeeps := keeps_respond hrespond
  by_cases hbuilt : r.isBuilt = true
  · rw [finish_built _ _ hbuilt] at hfinish
    unfold copyResponseData at hfinish
    rw [if_neg (by dsimp only; omega)] at hfinish
    cases hfinish
    rfl
  · rw [finish_file _ _ (by simpa using hbuilt)] at hfinish
    have hfits := @generateResponse_fits { c with httpResponse := r } env w2 (hkeeps.plain hr) hoffset
    have hfiles := (respond_effects hrespond).1
    rw [fileFd_generateResponse, hfiles, if_pos (hw.files _)] at hfits
    rw [hfits (by simp)] at hfinish
    cases hfinish
    rfl

end HttpConn

end ModularNetServer
