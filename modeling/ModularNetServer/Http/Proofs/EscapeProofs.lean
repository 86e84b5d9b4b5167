import ModularNetServer.Json.Proofs.DumpProofs
import ModularNetServer.Http.HttpConn
import ModularNetServer.Http.Proofs.ParseOutcomeProofs

/-!
# Which input ends the server

`ThreadPool::worker` catches nothing, so an exception in `process` ends the process. Exactly which
requests do that, in any run of a connection.
-/

namespace ModularNetServer

open Cxx

/-! ## Requests that are answered -/

/-- The database can check the password, and the token of an accepted login is UTF-8. -/
def LoginSafe (env : Environment) (w : World) (base : HttpBase) : Prop :=
  let username := (base.formData (str "username")).getD []
  let password := (base.formData (str "password")).getD []
  let (limited, w) := w.isLimit (str "login_ip") base.ip
  limited = false → (w.query UserDao.selectPassword [username]).1.stmtInit = true ∧
    ∀ w', UserDao.checkUser w username password = .ok (true, w') →
      Json.isUtf8 (w'.createSession.createToken env username 1800000).1 = true

/-- The token and the name shown to a user who is logged in are UTF-8. -/
def CheckTokenSafe (base : HttpBase) : Prop :=
  base.authenticated = true →
    Json.isUtf8 (HttpRequest.getToken base) = true ∧ Json.isUtf8 base.username = true

/-- The transaction starts, and commits unless it is rolled back. -/
def TransactionSafe (w : World) (username : Str) (age : Int) : Prop :=
  let (answer, _) := w.query TextTxDao.insertStatement [username, Cxx.toString age]
  answer.startTransaction = true ∧ answer.stmtInit = true ∧
    (answer.prepare = true → answer.execute = true → username ≠ str "rollback" →
      answer.commit = true)

/-- The body is a JSON object with two strings, of which one is a number. -/
def TxTestSafe (w : World) (base : HttpBase) : Prop :=
  ∃ members username age n, base.requestJson = .object members ∧
    Json.lookup (str "username") members = some (.string username) ∧
    Json.lookup (str "age") members = some (.string age) ∧ stoi age = .ok n ∧
    TransactionSafe w username n

/-- What a handler needs of a request. -/
def Handler.Safe (env : Environment) (w : World) (base : HttpBase) : Handler → Prop
  | login => LoginSafe env w base
  | checkToken => CheckTokenSafe base
  | txTest => TxTestSafe w base
  | _ => True

namespace HttpConn

/-- If the request reaches a handler, it is what the handler needs. -/
def RequestSafe (env : Environment) (w : World) (base : HttpBase) : Prop :=
  let (verdict, w, base) := gate env w base
  verdict = .dispatch → ∀ handler, Router.route env base.method base.url = some handler →
    handler.Safe env (w.emit (.dispatch base.method base.url)) base

/-- What is left of a request after the limiter has refused it, or else what has been received
    announces no length that cannot be read, and a request complete in it is answered. -/
def CallSafe (env : Environment) (w : World) (c : HttpConn) : Prop :=
  let (limited, w) := w.isLimit (str "access_ip") c.ip
  limited = false → c.toReadSide.searched.Safe ∧
    ∀ base, c.toReadSide.searched.completed env.parseJson = some base → RequestSafe env w base

/-- Every call of `process` in a run is safe. -/
def SafeRun (env : Environment) (c : HttpConn) : List Step → Prop
  | [] => True
  | s :: steps =>
    (∀ world, s = .process world → CallSafe env world c) ∧
      ∀ c', step env c s = .ok c' → SafeRun env c' steps

/-! ## Fixed answers -/

theorem answer_isOk (w : World) (r : Except Escape HttpResponse) : (answer w r).isOk = r.isOk := by
  cases r <;> rfl

theorem sendJson_isOk (r : HttpResponse) (keepAlive : Bool) (code : Int) (data : Json) :
    (r.sendJson keepAlive code data).isOk = data.dump.isOk := by
  unfold HttpResponse.sendJson
  cases data.dump <;> rfl

/-- An answer in the common form is built if its message and its data are UTF-8. -/
theorem sendRESTfulJson_isOk (r : HttpResponse) (keepAlive : Bool) (code : Int) {message : Str}
    (hm : Json.isUtf8 message = true) (data : Json) :
    (r.sendRESTfulJson keepAlive code message data).isOk = (data.isEmpty || data.dump.isOk) := by
  have hc : Json.isUtf8 (str "code") = true := by decide
  have hd : Json.isUtf8 (str "data") = true := by decide
  have hk : Json.isUtf8 (str "message") = true := by decide
  have hnull : (Json.dump .null).isOk = true := rfl
  have hnumber : (Json.dump (.number (Cxx.toString code))).isOk = true := rfl
  unfold HttpResponse.sendRESTfulJson HttpResponse.buildRESTfulJson
  rw [sendJson_isOk, Json.dump_object_isOk]
  simp only [List.all_cons, List.all_nil, hc, hd, hk, hm, hnumber, Json.dump_string_isOk,
    Bool.true_and, Bool.and_true]
  cases data.isEmpty
  · simp
  · simp [hnull]

/-! ## Handlers -/

theorem decimal_ascii (n : Nat) : ∀ b ∈ decimal n, b.toNat ≤ 0x7F := by
  intro b hb
  have hd := isDigit_of_mem_decimal hb
  simp only [isDigit, Bool.and_eq_true, decide_eq_true_eq, UInt8.le_iff_toNat_le] at hd
  have h57 : (57 : UInt8).toNat = 57 := rfl
  omega

theorem pad2_ascii (n : Nat) : ∀ b ∈ TestController.pad2 n, b.toNat ≤ 0x7F := by
  intro b hb
  unfold TestController.pad2 at hb
  split_ifs at hb
  · rcases List.mem_append.mp hb with h | h
    · exact (by decide : ∀ b ∈ str "0", b.toNat ≤ 0x7F) b h
    · exact decimal_ascii n b h
  · exact decimal_ascii n b hb

theorem datetime_ascii (t : LocalTime) : ∀ b ∈ TestController.datetime t, b.toNat ≤ 0x7F := by
  have hdash : ∀ b ∈ str "-", b.toNat ≤ 0x7F := by decide
  have hspace : ∀ b ∈ str " ", b.toNat ≤ 0x7F := by decide
  have hcolon : ∀ b ∈ str ":", b.toNat ≤ 0x7F := by decide
  intro b hb
  simp only [TestController.datetime, List.mem_append] at hb
  rcases hb with (((((((((h | h) | h) | h) | h) | h) | h) | h) | h) | h) | h
  · exact decimal_ascii _ b h
  · exact hdash b h
  · exact pad2_ascii _ b h
  · exact hdash b h
  · exact pad2_ascii _ b h
  · exact hspace b h
  · exact pad2_ascii _ b h
  · exact hcolon b h
  · exact pad2_ascii _ b h
  · exact hcolon b h
  · exact pad2_ascii _ b h

theorem time_isOk (env : Environment) (base : HttpBase) (w : World) (r : HttpResponse) :
    (TestController.time env base w r).isOk = true := by
  have htime := Json.isUtf8_of_ascii (datetime_ascii (env.localTime (w.wallClock w.readings)))
  have hfixed : Json.isUtf8 (str "data") = true ∧ Json.isUtf8 (str "message") = true ∧
      Json.isUtf8 (str "status") = true ∧ Json.isUtf8 (str "datetime") = true ∧
      Json.isUtf8 (str "timestamp") = true ∧ Json.isUtf8 (str "successs") = true ∧
      Json.isUtf8 (str "200") = true := by decide
  obtain ⟨h1, h2, h3, h4, h5, h6, h7⟩ := hfixed
  simp only [TestController.time, answer_isOk, sendJson_isOk, Json.dump_object_isOk, List.all_cons,
    List.all_nil, Json.dump_string_isOk, htime, h1, h2, h3, h4, h5, h6, h7]
  rfl

theorem apiInfo_isOk (env : Environment) (base : HttpBase) (w : World) (r : HttpResponse) :
    (apiInfo env base w r).isOk = true := by
  have hfixed : Json.isUtf8 (str "data") = true ∧ Json.isUtf8 (str "message") = true ∧
      Json.isUtf8 (str "status") = true ∧ Json.isUtf8 (str "actor_model") = true ∧
      Json.isUtf8 (str "http_port") = true ∧ Json.isUtf8 (str "thread_num") = true ∧
      Json.isUtf8 (str "trig_mode") = true ∧ Json.isUtf8 (str "success") = true ∧
      Json.isUtf8 (str "200") = true := by decide
  obtain ⟨h1, h2, h3, h4, h5, h6, h7, h8, h9⟩ := hfixed
  have hmodel : Json.isUtf8 (if env.info.actorModel = 1 then str "Reactor" else str "Proactor") =
      true := by split_ifs <;> decide
  have hmode : Json.isUtf8 (if env.info.trigMode = 1 then str "ET" else str "LT") = true := by
    split_ifs <;> decide
  simp only [apiInfo, answer_isOk, sendJson_isOk, Json.dump_object_isOk, List.all_cons,
    List.all_nil, Json.dump_string_isOk, hmodel, hmode, h1, h2, h3, h4, h5, h6, h7, h8, h9]
  rfl

theorem checkUser_isOk (w : World) (username password : Str) :
    (UserDao.checkUser w username password).isOk =
      (w.query UserDao.selectPassword [username]).1.stmtInit := by
  unfold UserDao.checkUser
  cases h : (w.query UserDao.selectPassword [username]).1.stmtInit with
  | false => simp [h, Except.isOk, Except.toBool]
  | true =>
    simp only [h, Bool.not_true, Bool.false_eq_true, if_false]
    split_ifs
    · rfl
    · rfl
    · split <;> rfl

theorem login_isOk_iff (env : Environment) (base : HttpBase) (w : World) (r : HttpResponse) :
    (UserController.login env base w r).isOk = true ↔ LoginSafe env w base := by
  have hbusy : Json.isUtf8 (str "请求过于频繁，请稍后再试！") = true := by decide
  have hok : Json.isUtf8 (str "OK") = true := by decide
  unfold UserController.login LoginSafe
  cases hlimit : (w.isLimit (str "login_ip") base.ip).1 with
  | true =>
    simp only [hlimit, if_true, answer_isOk, sendRESTfulJson_isOk _ _ _ hbusy]
    exact iff_of_true rfl (by simp)
  | false =>
    have huser := checkUser_isOk (w.isLimit (str "login_ip") base.ip).2
      ((base.formData (str "username")).getD []) ((base.formData (str "password")).getD [])
    simp only [hlimit, Bool.false_eq_true, if_false, forall_const]
    rw [← huser]
    cases UserDao.checkUser (w.isLimit (str "login_ip") base.ip).2
        ((base.formData (str "username")).getD []) ((base.formData (str "password")).getD []) with
    | error e => simp [Except.isOk, Except.toBool]
    | ok result =>
      obtain ⟨accepted, w'⟩ := result
      cases accepted with
      | false => simp [Except.isOk, Except.toBool]
      | true =>
        have hfixed : Json.isUtf8 (str "code") = true ∧ Json.isUtf8 (str "message") = true ∧
            Json.isUtf8 (str "登陆成功") = true ∧ Json.isUtf8 (str "token") = true := by decide
        obtain ⟨h1, h2, h3, h4⟩ := hfixed
        simp only [answer_isOk, sendRESTfulJson_isOk _ _ _ hok, UserController.loginData,
          Json.dump_object_isOk, List.all_cons, List.all_nil, Json.dump_string_isOk, h1, h2, h3, h4]
        simp [Json.isEmpty, Except.isOk, Except.toBool, Json.dump]

theorem checkToken_isOk_iff (base : HttpBase) (w : World) (r : HttpResponse) :
    (UserController.checkToken base w r).isOk = true ↔ CheckTokenSafe base := by
  have hno : Json.isUtf8 (str "未登录") = true := by decide
  have hyes : Json.isUtf8 (str "Token有效") = true := by decide
  have htoken : Json.isUtf8 (str "token") = true := by decide
  have hname : Json.isUtf8 (str "username") = true := by decide
  unfold UserController.checkToken CheckTokenSafe
  cases base.authenticated with
  | false =>
    simp only [Bool.not_false, if_true, answer_isOk, sendRESTfulJson_isOk _ _ _ hno]
    exact iff_of_true rfl (by simp)
  | true =>
    simp only [Bool.not_true, Bool.false_eq_true, if_false, answer_isOk,
      sendRESTfulJson_isOk _ _ _ hyes, Json.dump_object_isOk, List.all_cons, List.all_nil,
      Json.dump_string_isOk, htoken, hname]
    simp [Json.isEmpty]

theorem insertUser_isOk_iff (w : World) (username : Str) (age : Int) :
    (TextTxDao.insertUser w username age).isOk = true ↔ TransactionSafe w username age := by
  unfold TextTxDao.insertUser TransactionSafe
  generalize w.query TextTxDao.insertStatement [username, Cxx.toString age] = result
  obtain ⟨⟨start, init, prepare, execute, query, commit, rows⟩, w'⟩ := result
  cases start
  · simp [Except.isOk, Except.toBool]
  cases init
  · simp [Except.isOk, Except.toBool]
  cases prepare
  · simp [Except.isOk, Except.toBool]
  cases execute
  · simp [Except.isOk, Except.toBool]
  by_cases hname : username = str "rollback"
  · simp [hname, Except.isOk, Except.toBool]
  · cases commit <;> simp [hname, Except.isOk, Except.toBool]

/-- A member that is a string. -/
theorem stringMember_eq_ok_iff {json : Json} {key text : Str} :
    TestTxController.stringMember json key = .ok text ↔
      ∃ members, json = .object members ∧ Json.lookup key members = some (.string text) := by
  unfold TestTxController.stringMember
  cases json with
  | object members =>
    simp only [Json.member, Json.object.injEq, exists_eq_left']
    cases Json.lookup key members with
    | none => simp
    | some value => cases value <;> simp [Json.getString]
  | _ => simp [Json.member]

theorem txTest_isOk_iff (base : HttpBase) (w : World) (r : HttpResponse) :
    (TestTxController.handle base w r).isOk = true ↔ TxTestSafe w base := by
  have hyes : Json.isUtf8 (str "事务提交成功") = true := by decide
  have hno : Json.isUtf8 (str "事务失败，已回滚") = true := by decide
  have hsafe : TxTestSafe w base ↔ ∃ username age n,
      TestTxController.stringMember base.requestJson (str "username") = .ok username ∧
        TestTxController.stringMember base.requestJson (str "age") = .ok age ∧
        stoi age = .ok n ∧ TransactionSafe w username n := by
    unfold TxTestSafe
    simp only [stringMember_eq_ok_iff]
    constructor
    · rintro ⟨members, username, age, n, hjson, hname, hage, hn, ht⟩
      exact ⟨username, age, n, ⟨members, hjson, hname⟩, ⟨members, hjson, hage⟩, hn, ht⟩
    · rintro ⟨username, age, n, ⟨members, hjson, hname⟩, ⟨members', hjson', hage⟩, hn, ht⟩
      cases hjson.symm.trans hjson'
      exact ⟨members, username, age, n, hjson, hname, hage, hn, ht⟩
  rw [hsafe]
  unfold TestTxController.handle
  cases TestTxController.stringMember base.requestJson (str "username") with
  | error e => simp [Except.isOk, Except.toBool]
  | ok username =>
    cases TestTxController.stringMember base.requestJson (str "age") with
    | error e => simp [Except.isOk, Except.toBool]
    | ok age =>
      cases hn : stoi age with
      | error e => simp [hn, Except.isOk, Except.toBool]
      | ok n =>
        have hdb := insertUser_isOk_iff w username n
        simp only [hn, Except.ok.injEq, exists_and_left, exists_eq_left', ← hdb]
        cases TextTxDao.insertUser w username n with
        | error e => rfl
        | ok result =>
          obtain ⟨success, w'⟩ := result
          cases success with
          | true => simp only [answer_isOk, sendRESTfulJson_isOk _ _ _ hyes]; rfl
          | false => simp only [answer_isOk, sendRESTfulJson_isOk _ _ _ hno]; rfl

/-- A handler answers exactly the requests that are safe for it. -/
theorem run_isOk_iff (env : Environment) (base : HttpBase) (w : World) (r : HttpResponse)
    (handler : Handler) : (handler.run env base w r).isOk = true ↔ handler.Safe env w base := by
  cases handler with
  | apiHello =>
    have hfixed : (Json.dump (.object [(str "code", .string (str "200")),
        (str "message", .string (str "Hello from API"))])).isOk = true := by decide
    simp only [Handler.run, Handler.Safe, TestController.hello, answer_isOk, sendJson_isOk, hfixed]
  | apiTime => exact iff_of_true (time_isOk env base w r) trivial
  | apiEcho => exact iff_of_true rfl trivial
  | apiInfo => exact iff_of_true (apiInfo_isOk env base w r) trivial
  | login => exact login_isOk_iff env base w r
  | registerUser => exact iff_of_true rfl trivial
  | checkToken => exact checkToken_isOk_iff base w r
  | txTest => exact txTest_isOk_iff base w r

/-! ## Calls and runs -/

/-- A request is answered exactly if it is safe. -/
theorem handleRequest_isOk_iff (env : Environment) (w : World) (c : HttpConn) :
    (handleRequest env w c).isOk = true ↔ RequestSafe env w c.httpBase := by
  have hforbidden : Json.isUtf8 (str "禁止访问该资源！") = true := by decide
  have hlogin : Json.isUtf8 (str "未认证，请登录！") = true := by decide
  unfold handleRequest RequestSafe
  generalize gate env w c.httpBase = result
  obtain ⟨verdict, w', base⟩ := result
  have hrespond : (respond env verdict base w' c.httpResponse).isOk = true ↔
      (verdict = .dispatch → ∀ handler, Router.route env base.method base.url = some handler →
        handler.Safe env (w'.emit (.dispatch base.method base.url)) base) := by
    cases verdict with
    | forbidden =>
      simp only [respond, answer_isOk, sendRESTfulJson_isOk _ _ _ hforbidden]
      exact iff_of_true rfl (by simp)
    | unauthenticated =>
      simp only [respond, answer_isOk, sendRESTfulJson_isOk _ _ _ hlogin]
      exact iff_of_true rfl (by simp)
    | dispatch =>
      simp only [respond, Router.dispatch, forall_const]
      cases Router.route env base.method base.url with
      | none =>
        refine iff_of_true ?_ (by simp)
        simp only
        split_ifs <;> rfl
      | some handler => simp [run_isOk_iff]
  dsimp only
  rw [← hrespond]
  cases respond env verdict base w' c.httpResponse <;> rfl

/-- A call of `process` returns exactly if it is safe. -/
theorem process_isOk_iff (env : Environment) (w : World) (c : HttpConn) :
    (process env w c).isOk = true ↔ CallSafe env w c := by
  have hbusy : Json.isUtf8 (str "Too Many Requests") = true := by decide
  unfold process CallSafe
  generalize w.isLimit (str "access_ip") c.ip = result
  obtain ⟨limited, w'⟩ := result
  cases limited with
  | true =>
    have hsend := sendRESTfulJson_isOk c.httpResponse c.httpBase.keepAlive 429 hbusy .null
    simp only [if_true]
    cases h : c.httpResponse.sendRESTfulJson c.httpBase.keepAlive 429 (str "Too Many Requests")
        .null with
    | error e => rw [h] at hsend; cases hsend
    | ok r => exact iff_of_true rfl (by simp)
  | false =>
    simp only [Bool.false_eq_true, if_false, forall_const]
    have hparse := ReadSide.parseHttpRequest_outcome env.parseJson c.toReadSide
    by_cases hsafe : c.toReadSide.searched.Safe
    · obtain ⟨side, hok, hbase⟩ := hparse.1 hsafe
      rw [hok]
      simp only [hsafe, true_and]
      cases hcomplete : c.toReadSide.searched.completed env.parseJson with
      | none => simp [Except.isOk, Except.toBool]
      | some base =>
        have hhandle := handleRequest_isOk_iff env w' { c with toReadSide := side }
        simp only [Option.isSome_some, Option.some.injEq, forall_eq']
        rw [← hbase base hcomplete, ← hhandle]
        cases handleRequest env w' { c with toReadSide := side } with
        | error e => rfl
        | ok result =>
          obtain ⟨built, w'', c'⟩ := result
          cases built <;> rfl
    · obtain ⟨e, he⟩ := hparse.2 hsafe
      rw [he]
      simp [hsafe, Except.isOk, Except.toBool]

theorem step_isOk_iff (env : Environment) (c : HttpConn) (s : Step) :
    (step env c s).isOk = true ↔ ∀ world, s = .process world → CallSafe env world c := by
  cases s with
  | process world =>
    simp only [Step.process.injEq, forall_eq', step, ← process_isOk_iff]
    cases process env world c <;> rfl
  | read mode results => exact iff_of_true rfl (by simp)
  | write results => exact iff_of_true rfl (by simp)
  | reset => exact iff_of_true rfl (by simp)

/-- **No input ends the server** exactly if every call of `process` in the run is safe: lengths can
    be read and are not negative, and a complete request is one that its handler can answer. -/
theorem run_returns_iff (env : Environment) (sockfd : Int) (ip : Str) (steps : List Step) :
    (∃ c, run env (fresh sockfd ip) steps = .ok c) ↔ SafeRun env (fresh sockfd ip) steps := by
  generalize fresh sockfd ip = c
  induction steps generalizing c with
  | nil => exact iff_of_true ⟨c, rfl⟩ trivial
  | cons s steps ih =>
    have hstep := step_isOk_iff env c s
    rw [SafeRun, ← hstep, run]
    cases step env c s with
    | error e => simp [Except.isOk, Except.toBool]
    | ok c' => simp [Except.isOk, Except.toBool, ih c']

/-! ## A length that is not a number -/

def plainEnvironment : Environment :=
  Router.environment ⟨fun _ _ => [], id⟩ (fun _ => none) (fun _ => ⟨2025, 1, 1, 0, 0, 0⟩)
    (str "/srv/src/www") ⟨8080, 8, 0, 0⟩

/-- The server has started, with its limiter and its interceptor. -/
def plainWorld : World :=
  World.start (fun _ => 0) (fun _ => 0) (str "1") (fun _ _ => ⟨true, true, true, true, true, true, []⟩)
    ⟨fun _ => none, fun _ => false, 0⟩ false false

/-- A request is received and processed. -/
def badLength : List Step :=
  [.read .LT [.received 71 (str "ET / HTTP/1.1\r\nContent-Length: x\r\n\r\n")], .process plainWorld]

/-- A `Content-Length` that is not a number ends the server. -/
theorem badLength_throws :
    run plainEnvironment (fresh 5 (str "10.0.0.1")) badLength = .error (.std .invalidArgument) := by
  have h : (run plainEnvironment (fresh 5 (str "10.0.0.1")) badLength).map (fun _ => ()) =
      .error (.std .invalidArgument) := by decide +kernel
  cases hrun : run plainEnvironment (fresh 5 (str "10.0.0.1")) badLength with
  | error e =>
    rw [hrun] at h
    cases h
    rfl
  | ok c =>
    rw [hrun] at h
    cases h

end HttpConn

end ModularNetServer
