import ModularNetServer.Http.Proofs.AuthenticationProofs
import ModularNetServer.Http.Proofs.ConfinementProofs
import ModularNetServer.Http.Proofs.IsolationProofs

/-!
# What the black list refuses

The interceptor compares a URL with the black list as it stands. A URL on the list is refused, and
other spellings of the same path are not.
-/

namespace ModularNetServer

open Cxx LexPath

/-- The normal form of a URL: repeated slashes, `.` and `..` are resolved from the root of the site on.
    A URL without a leading slash is no path of the site. -/
def normalize (url : Str) : Str :=
  if url.head? = some 47 then 47 :: List.intercalate [47] (resolve 47 46 [] url) else url

namespace HttpConn

/-- The text of the refusal. -/
def forbiddenJson : Str :=
  str "\x7b\"code\":403,\"data\":null,\"message\":\"禁止访问该资源！\"\x7d"

theorem sendRESTfulJson_forbidden (r : HttpResponse) (keepAlive : Bool) :
    r.sendRESTfulJson keepAlive 403 (str "禁止访问该资源！") .null =
      .ok (r.sendJsonText keepAlive 200 forbiddenJson) := by
  have hdump : (HttpResponse.buildRESTfulJson 403 (str "禁止访问该资源！") .null).dump =
      .ok forbiddenJson := by decide +kernel
  unfold HttpResponse.sendRESTfulJson HttpResponse.sendJson
  rw [hdump]

/-- A request is answered 403, and nothing else is done with it. -/
def Refused (env : Environment) (w : World) (c : HttpConn) : Prop :=
  ∃ built c', handleRequest env w c = .ok (built, w, c') ∧
    c'.httpResponse = c.httpResponse.sendJsonText c.httpBase.keepAlive 200 forbiddenJson ∧
    c'.fileFd = c.fileFd ∧
    (c.httpResponse.responseHeaders = [] → c.httpResponse.responseCookies = [] →
      built = true ∧ c'.writeBuf = c'.httpResponse.responseData)

/-- The decision about an authenticated request. -/
theorem gate_of_authenticated {env : Environment} {w : World} {base : HttpBase}
    (hw : w.interceptor = Interceptor.initInterceptor false)
    (hauth : (parseAuthContext env w base).2.authenticated = true) :
    (gate env w base).1 = .dispatch ↔ base.url ∉ Interceptor.uriBlacklist := by
  unfold gate
  simp only [hw, Interceptor.shouldIntercept_blacklist, hauth]
  by_cases hblack : base.url ∈ Interceptor.uriBlacklist
  · simp [hblack]
  · simp [hblack]

/-- The refusal fits the write buffer. -/
theorem forbidden_length (r : HttpResponse) (keepAlive : Bool) (hheaders : r.responseHeaders = [])
    (hcookies : r.responseCookies = []) :
    (r.sendJsonText keepAlive 200 forbiddenJson).responseData.length < 4096 := by
  obtain ⟨url, headers, cookies, data⟩ := r
  subst hheaders hcookies
  cases keepAlive with
  | true => exact (by decide +kernel : (HttpResponse.sendJsonText ⟨[], [], [], []⟩ true 200
      forbiddenJson).responseData.length < 4096)
  | false => exact (by decide +kernel : (HttpResponse.sendJsonText ⟨[], [], [], []⟩ false 200
      forbiddenJson).responseData.length < 4096)

/-- A URL on the black list is refused. -/
theorem refused_of_mem (env : Environment) {w : World} {c : HttpConn}
    (hw : w.interceptor = Interceptor.initInterceptor false)
    (hurl : c.httpBase.url ∈ Interceptor.uriBlacklist) : Refused env w c := by
  have hgate : gate env w c.httpBase = (.forbidden, w, c.httpBase) := by
    unfold gate
    simp [hw, Interceptor.shouldIntercept_blacklist, hurl]
  have hbuilt : (c.httpResponse.sendJsonText c.httpBase.keepAlive 200 forbiddenJson).isBuilt = true := by
    unfold HttpResponse.isBuilt HttpResponse.sendJsonText
    simp [buildResponseHeader_data_ne_nil]
  have hhandle : handleRequest env w c = .ok
      ((copyResponseData { c with
          httpResponse := c.httpResponse.sendJsonText c.httpBase.keepAlive 200 forbiddenJson }).1, w,
        (copyResponseData { c with
          httpResponse := c.httpResponse.sendJsonText c.httpBase.keepAlive 200 forbiddenJson }).2) := by
    unfold handleRequest
    simp only [hgate, respond, sendRESTfulJson_forbidden, answer, finish, hbuilt, if_true]
  refine ⟨_, _, hhandle, ?_, ?_, ?_⟩
  · unfold copyResponseData
    split_ifs <;> rfl
  · unfold copyResponseData
    split_ifs <;> rfl
  · intro hheaders hcookies
    have hlen := forbidden_length c.httpResponse c.httpBase.keepAlive hheaders hcookies
    unfold copyResponseData
    rw [if_neg (by simp only; omega)]
    exact ⟨rfl, rfl⟩

/-- With the default rules an authenticated request is answered 403, and neither dispatched nor answered
    with a file, if and only if its URL is on the black list as it stands. -/
theorem refused_iff_mem (env : Environment) {w : World} {c : HttpConn}
    (hw : w.interceptor = Interceptor.initInterceptor false)
    (hauth : (parseAuthContext env w c.httpBase).2.authenticated = true) :
    Refused env w c ↔ c.httpBase.url ∈ Interceptor.uriBlacklist := by
  refine ⟨?_, refused_of_mem env hw⟩
  rintro ⟨built, c', hhandle, -⟩
  by_contra hblack
  obtain ⟨es, hes, hdispatch⟩ := handleRequest_effects hhandle
  obtain ⟨method, path, hmem⟩ := hdispatch.mpr ((gate_of_authenticated hw hauth).mpr hblack)
  rw [List.self_eq_append_right.mp hes] at hmem
  cases hmem

/-- The site has the page that the black list names, and somebody has logged in. -/
def hackWorld : World :=
  ((World.start (fun _ => 0) (fun _ => 0) (str "1")
    (fun _ _ => ⟨true, true, true, true, true, true, []⟩)
    ⟨fun path => if resolve 47 46 [] path = resolve 47 46 [] (str "/srv/src/www/hack.html") then some 9
        else none,
      fun path => resolve 47 46 [] path = resolve 47 46 [] (str "/srv/src/www/hack.html"), 0⟩
    false false).createToken srvEnvironment (str "alice") 1800000).2

/-- A request for a page with that token. -/
def pageRequest (url : Str) : HttpConn :=
  { HttpConn.fresh 5 (str "10.0.0.1") with
    httpBase := { HttpBase.init (str "10.0.0.1") with
      method := str "GET"
      url := url
      requestHeaders := Table.empty.insert (str "Authorization") (str "token_0_1_alice.") } }

/-- With a second slash the page is sent. -/
theorem doubled_slash_served :
    hackWorld.interceptor = Interceptor.initInterceptor false ∧
      (pageRequest (str "//hack.html")).httpBase.method = str "GET" ∧
      (parseAuthContext srvEnvironment hackWorld (pageRequest (str "//hack.html")).httpBase).2.authenticated =
        true ∧
      normalize (str "//hack.html") ∈ Interceptor.uriBlacklist ∧
      ¬ Refused srvEnvironment hackWorld (pageRequest (str "//hack.html")) ∧
      ∃ w c, handleRequest srvEnvironment hackWorld (pageRequest (str "//hack.html")) = .ok (true, w, c) ∧
        c.fileFd = some (str "/srv/src/www//hack.html") := by
  have hauth : (parseAuthContext srvEnvironment hackWorld
      (pageRequest (str "//hack.html")).httpBase).2.authenticated = true := by decide
  refine ⟨rfl, rfl, hauth, by decide, ?_, ?_⟩
  · rw [refused_iff_mem srvEnvironment rfl hauth]
    decide
  · have h : (handleRequest srvEnvironment hackWorld (pageRequest (str "//hack.html"))).toOption.map
        (fun r => (r.1, r.2.2.fileFd)) = some (true, some (str "/srv/src/www//hack.html")) := by
      decide +kernel
    rcases hp : handleRequest srvEnvironment hackWorld (pageRequest (str "//hack.html")) with e | r
    · simp [hp, Except.toOption] at h
    · obtain ⟨built, w, c⟩ := r
      simp only [hp, Except.toOption, Option.map_some, Option.some.injEq, Prod.mk.injEq] at h
      obtain ⟨rfl, hfd⟩ := h
      exact ⟨w, c, rfl, hfd⟩

/-- As the list has it, the page is refused. -/
theorem refused_iff_mem_listed :
    Refused srvEnvironment hackWorld (pageRequest (str "/hack.html")) ↔
      str "/hack.html" ∈ Interceptor.uriBlacklist :=
  refused_iff_mem srvEnvironment (c := pageRequest (str "/hack.html")) rfl (by decide)

end HttpConn

end ModularNetServer
