import ModularNetServer.Http.Proofs.AuthenticationProofs
import ModularNetServer.Session.ServedSessions

/-!
# What requests do with sessions

A request looks up the session that its cookie names, may create one, and refreshes the one that it
names.
-/

namespace ModularNetServer

open Cxx

/-- The calls on the sessions that a request with a session cookie makes. -/
inductive RequestCall (sessionId : Str) : SessionCall → Prop
  | parseAuthContext (now : Int) : RequestCall sessionId (.parseAuthContext now sessionId)
  | createSession (now1 now2 now3 : Int) (tid : Str) :
      RequestCall sessionId (.createSession now1 now2 now3 tid 1800000)
  | refreshSession (now1 now2 : Int) : RequestCall sessionId (.refreshSession now1 now2 sessionId)

/-- The sessions change by such calls. -/
def SessionsBy (sessionId : Str) (w w' : World) : Prop :=
  ∃ calls : List SessionCall, (∀ c ∈ calls, RequestCall sessionId c) ∧
    w'.sessions = calls.foldl SessionManager.call w.sessions

namespace SessionsBy

variable {sessionId : Str} {w w' w'' : World}

theorem of_eq (h : w'.sessions = w.sessions) : SessionsBy sessionId w w' :=
  ⟨[], by simp, h⟩

theorem one {c : SessionCall} (hc : RequestCall sessionId c) (h : w'.sessions = w.sessions.call c) :
    SessionsBy sessionId w w' :=
  ⟨[c], by simpa using hc, h⟩

theorem trans (h : SessionsBy sessionId w w') (h' : SessionsBy sessionId w' w'') :
    SessionsBy sessionId w w'' := by
  obtain ⟨calls, hcalls, heq⟩ := h
  obtain ⟨calls', hcalls', heq'⟩ := h'
  refine ⟨calls ++ calls', ?_, ?_⟩
  · intro c hc
    rcases List.mem_append.mp hc with hc | hc
    · exact hcalls c hc
    · exact hcalls' c hc
  · rw [heq', heq, List.foldl_append]

end SessionsBy

/-- A handler at most creates a session. -/
theorem HttpConn.HandlerEffect.sessionsBy {env : Environment} {w w' : World}
    (h : HttpConn.HandlerEffect env w w') (sessionId : Str) : SessionsBy sessionId w w' := by
  cases h with
  | none => exact .of_eq rfl
  | clock => exact .of_eq rfl
  | statement => exact .of_eq rfl
  | limited => exact .of_eq rfl
  | refused => exact .of_eq rfl
  | accepted => exact .one (.createSession _ _ _ _) rfl

namespace HttpConn

/-- The session that a request names. -/
def sessionId (base : HttpBase) : Str := HttpRequest.getRequestCookie base (str "session_id")

theorem sessionId_parseAuthContext (env : Environment) (w : World) (base : HttpBase) :
    sessionId (parseAuthContext env w base).2 = sessionId base := by
  unfold parseAuthContext
  grind [HttpBase.setUsername, sessionId, HttpRequest.getRequestCookie]

/-- `parseAuthContext` looks the session up. -/
theorem sessions_parseAuthContext (env : Environment) (w : World) (base : HttpBase) :
    (parseAuthContext env w base).1.sessions =
      w.sessions.call (.parseAuthContext w.now (sessionId base)) := by
  unfold parseAuthContext SessionManager.call sessionId
  grind [World.tick]

theorem sessionsBy_gate (env : Environment) (w : World) (base : HttpBase) :
    SessionsBy (sessionId base) w (gate env w base).2.1 := by
  have hauth : SessionsBy (sessionId base) w (parseAuthContext env w base).1 :=
    .one (.parseAuthContext _) (sessions_parseAuthContext env w base)
  simp only [gate]
  split_ifs
  · exact .of_eq rfl
  · exact hauth
  · exact hauth

theorem sessionId_gate (env : Environment) (w : World) (base : HttpBase) :
    sessionId (gate env w base).2.2 = sessionId base := by
  have hauth := sessionId_parseAuthContext env w base
  simp only [gate]
  split_ifs
  · rfl
  · exact hauth
  · exact hauth

theorem sessionsBy_respond {env : Environment} {verdict : Verdict} {base : HttpBase} {w w' : World}
    {r r' : HttpResponse} (h : respond env verdict base w r = .ok (w', r')) (id : Str) :
    SessionsBy id w w' := by
  cases verdict with
  | forbidden =>
    simp only [respond] at h
    exact .of_eq (congrArg World.sessions (answer_world h))
  | unauthenticated =>
    simp only [respond] at h
    exact .of_eq (congrArg World.sessions (answer_world h))
  | dispatch =>
    have hemit : SessionsBy id w (w.emit (.dispatch base.method base.url)) := .of_eq rfl
    exact hemit.trans ((effect_dispatch h).sessionsBy id)

theorem finish_sessions (env : Environment) (w : World) (c : HttpConn) :
    (finish env w c).2.1.sessions = w.sessions ∧ (finish env w c).2.2.httpBase = c.httpBase := by
  have hworld := generateResponse_world env w c
  have hbase : (generateResponse env w c).2.2.httpBase = c.httpBase := by
    unfold generateResponse copyResponseData
    grind
  unfold finish copyResponseData closeConn
  grind [World.emit]

theorem sessionsBy_handleRequest {env : Environment} {w w' : World} {c c' : HttpConn} {b : Bool}
    (h : handleRequest env w c = .ok (b, w', c')) :
    SessionsBy (sessionId c.httpBase) w w' ∧ sessionId c'.httpBase = sessionId c.httpBase := by
  have hgate := sessionsBy_gate env w c.httpBase
  have hid := sessionId_gate env w c.httpBase
  unfold handleRequest at h
  generalize gate env w c.httpBase = g at h hgate hid
  obtain ⟨verdict, w1, base⟩ := g
  dsimp only at h hgate hid
  rcases hrespond : respond env verdict base w1 c.httpResponse with e | ⟨w2, r⟩
  · rw [hrespond] at h
    cases h
  · rw [hrespond] at h
    obtain ⟨hsessions, hbase⟩ := finish_sessions env w2 { c with httpBase := base, httpResponse := r }
    rw [Except.ok.inj h] at hsessions hbase
    refine ⟨(hgate.trans (sessionsBy_respond hrespond _)).trans (.of_eq hsessions), ?_⟩
    rw [hbase]
    exact hid

/-- **A request and the sessions.** Whatever a request does, it changes the sessions by such calls. -/
theorem sessionsBy_process {env : Environment} {w w' : World} {c c' : HttpConn} {b : Bool}
    (h : process env w c = .ok (b, w', c')) : SessionsBy (sessionId c'.httpBase) w w' := by
  unfold process at h
  have hlimit : ∀ id, SessionsBy id w (w.isLimit (str "access_ip") c.ip).2 := fun _ => .of_eq rfl
  generalize w.isLimit (str "access_ip") c.ip = limit at h hlimit
  obtain ⟨limited, w1⟩ := limit
  dsimp only at h hlimit
  split_ifs at h
  · split at h
    · cases h
    · cases h
      exact hlimit _
  · rcases hparse : ReadSide.parseHttpRequest env.parseJson c.toReadSide with e | ⟨parsed, side⟩
    all_goals simp only [hparse] at h
    · cases h
    · cases parsed with
      | false =>
        cases h
        exact hlimit _
      | true =>
        rcases hreq : handleRequest env w1 { c with toReadSide := side } with e | ⟨built, w2, c2⟩
        · simp only [hreq] at h
          cases h
        · simp only [hreq] at h
          obtain ⟨hsessions, hid⟩ := sessionsBy_handleRequest hreq
          rw [← hid] at hsessions
          cases built with
          | false =>
            cases h
            exact (hlimit _).trans hsessions
          | true =>
            cases h
            refine ((hlimit _).trans hsessions).trans
              (.one (.refreshSession (w2.clock w2.readings) (w2.clock (w2.readings + 1))) ?_)
            unfold World.refreshSession SessionManager.call
            grind [sessionId, World.tick]

end HttpConn

end ModularNetServer
