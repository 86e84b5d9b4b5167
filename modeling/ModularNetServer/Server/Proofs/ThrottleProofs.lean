import ModularNetServer.Server.Proofs.ServiceProofs
import ModularNetServer.Util.Proofs.RateLimiterProofs

/-!
# How often an address gets through

Each call of the rate limiter that lets a request or a login pass leaves one event, and the record of an address is
the state of a fixed-window counter. So the events of an interval are bounded as the calls of a counter are.
-/

namespace ModularNetServer

open Cxx FixedWindow

/-- The rule for requests. -/
def accessRule : LimitRule := ⟨str "access_ip", 20, 10, by decide, by decide⟩

/-- The rule for logins. -/
def loginRule : LimitRule := ⟨str "login_ip", 5, 180, by decide, by decide⟩

theorem initRateLimiter_registered :
    RateLimiter.initRateLimiter false = RateLimiter.registered [accessRule, loginRule] := rfl

namespace World

variable {env : Environment} {ip : Str} {w w' : World} {events : List ServiceEvent}

/-- No change moves the clock back. -/
theorem Move.clock (h : Move env ip w events w') : w'.clock = w.clock ∧ w.readings ≤ w'.readings := by
  cases h with
  | lookUp n tokens sessions _ => exact ⟨rfl, Nat.le_add_right _ _⟩
  | openFile path => exact ⟨rfl, Nat.le_refl _⟩
  | refused type key _ => exact ⟨rfl, Nat.le_succ _⟩
  | admitted _ => exact ⟨rfl, Nat.le_succ _⟩
  | dispatch method url username => exact ⟨rfl, Nat.le_refl _⟩
  | statement sql params => exact ⟨rfl, Nat.le_refl _⟩
  | checkPassword username password _ => exact ⟨rfl, Nat.le_succ _⟩
  | login username password _ _ => exact ⟨rfl, Nat.le_add_right w.readings 6⟩

/-- A change leaves the limiter alone, and nothing in the history that it lets pass; or it is a call of the
    limiter, with one event if the limiter lets it pass. -/
theorem Move.limiter (h : Move env ip w events w') :
    (w'.limiter = w.limiter ∧ ∀ e ∈ events, e.charge = none) ∨
      ∃ type key, w'.limiter = (w.isLimit type key).2.limiter ∧
        (((w.isLimit type key).1 = true ∧ events = []) ∨
          ((w.isLimit type key).1 = false ∧ ∃ e, events = [e] ∧ e.charge = some (type, key, w.now))) := by
  cases h with
  | lookUp n tokens sessions _ => exact .inl ⟨rfl, fun e he => nomatch he⟩
  | openFile path => exact .inl ⟨rfl, fun e he => nomatch he⟩
  | refused type key hlimited => exact .inr ⟨type, key, rfl, .inl ⟨hlimited, rfl⟩⟩
  | admitted hlimited => exact .inr ⟨_, _, rfl, .inr ⟨hlimited, _, rfl, rfl⟩⟩
  | dispatch method url username =>
    refine .inl ⟨rfl, fun e he => ?_⟩
    rw [List.mem_singleton.mp he]
    rfl
  | statement sql params =>
    refine .inl ⟨rfl, fun e he => ?_⟩
    rw [List.mem_singleton.mp he]
    rfl
  | checkPassword username password hlimited => exact .inr ⟨_, _, rfl, .inr ⟨hlimited, _, rfl, rfl⟩⟩
  | login username password hlimited _ => exact .inr ⟨_, _, rfl, .inr ⟨hlimited, _, rfl, rfl⟩⟩

end World

/-- The events that a rule has let pass for an address in an interval of its width are counted, beside the window
    of the address. -/
structure Throttled (r : LimitRule) (ip : Str) (start : Int) (w : World) (history : List ServiceEvent) : Prop where
  monotone : ∀ m n, m ≤ n → w.clock m ≤ w.clock n
  counted : ∃ (window : Option (Window r.counter)) (last : Int), w.limiter.Tracks r ip window ∧ last ≤ w.now ∧
    Sliding start window last (history.countP (ServiceEvent.chargedIn r.type ip start (start + r.counter.width)))

namespace Throttled

variable {env : Environment} {r : LimitRule} {ip : Str} {start : Int} {w w' : World}
  {history events : List ServiceEvent}

theorem now_le (h : ∀ m n, m ≤ n → w.clock m ≤ w.clock n) (hclock : w'.clock = w.clock)
    (hle : w.readings ≤ w'.readings) : w.now ≤ w'.now := by
  unfold World.now
  rw [hclock]
  exact h _ _ hle

/-- Every change keeps the count. -/
theorem move {address : Str} (h : Throttled r ip start w history)
    (hmove : World.Move env address w events w') : Throttled r ip start w' (history ++ events) := by
  obtain ⟨hmono, window, last, htracks, hlast, hsliding⟩ := h
  obtain ⟨hclock, hle⟩ := hmove.clock
  have hnow := now_le hmono hclock hle
  refine ⟨hclock ▸ hmono, ?_⟩
  rw [List.countP_append]
  rcases hmove.limiter with ⟨hlimiter, hnone⟩ | ⟨type, key, hlimiter, hevents⟩
  · have hzero : events.countP (ServiceEvent.chargedIn r.type ip start (start + r.counter.width)) = 0 := by
      rw [List.countP_eq_zero]
      intro e he
      rw [ServiceEvent.chargedIn, hnone e he]
      exact Bool.false_ne_true
    refine ⟨window, last, ?_, hlast.trans hnow, ?_⟩
    · rw [hlimiter]
      exact htracks
    · rw [hzero]
      exact hsliding
  · by_cases hpair : type = r.type ∧ key = ip
    · obtain ⟨rfl, rfl⟩ := hpair
      obtain ⟨hdecision, htracks'⟩ := htracks.isLimit w.now
      refine ⟨(ask window w.now).2, w.now, ?_, hnow, ?_⟩
      · rw [hlimiter]
        exact htracks'
      · have hcount : events.countP (ServiceEvent.chargedIn r.type key start (start + r.counter.width)) =
            if (ask window w.now).1 = false ∧ start ≤ w.now ∧ w.now < start + r.counter.width then 1 else 0 := by
          rw [← hdecision]
          rcases hevents with ⟨hlimited, rfl⟩ | ⟨hpassed, e, rfl, hcharge⟩
          · rw [show (w.limiter.isLimit w.now r.type key).1 = true from hlimited]
            rfl
          · rw [show (w.limiter.isLimit w.now r.type key).1 = false from hpassed, List.countP_singleton,
              ServiceEvent.chargedIn, hcharge]
            simp
        rw [hcount]
        exact hsliding.ask hlast
    · refine ⟨window, last, ?_, hlast.trans hnow, ?_⟩
      · rw [hlimiter]
        exact htracks.isLimit_of_ne w.now hpair
      · have hzero : events.countP (ServiceEvent.chargedIn r.type ip start (start + r.counter.width)) = 0 := by
          rcases hevents with ⟨-, rfl⟩ | ⟨-, e, rfl, hcharge⟩
          · rfl
          · have hother : ¬ (type = r.type ∧ key = ip ∧ start ≤ w.now ∧ w.now < start + r.counter.width) :=
              fun hin => hpair ⟨hin.1, hin.2.1⟩
            rw [List.countP_singleton, ServiceEvent.chargedIn, hcharge]
            simp [hother]
        rw [hzero]
        exact hsliding

theorem start_registered {rules : List LimitRule} (hnodup : (rules.map LimitRule.type).Nodup) (hr : r ∈ rules)
    (hmono : ∀ m n, m ≤ n → w.clock m ≤ w.clock n) (hlimiter : w.limiter = RateLimiter.registered rules) :
    Throttled r ip start w [] :=
  ⟨hmono, none, w.now, hlimiter ▸ RateLimiter.tracks_registered hnodup hr ip, Int.le_refl _, sliding_none start w.now⟩

/-- Fewer than twice as many events as the rule lets pass in a window. -/
theorem count_lt (h : Throttled r ip start w history) :
    (history.countP (ServiceEvent.chargedIn r.type ip start (start + r.counter.width)) : Int) < 2 * r.maxCount := by
  obtain ⟨-, window, last, -, -, hsliding⟩ := h
  exact hsliding.past

end Throttled

namespace Service

variable {env : Environment} {s s' : Service} {a : Action} {r : LimitRule} {ip : Str} {since : Int}

/-- No step but a call of `process` is seen by the rate limiter. -/
theorem throttled_step {database : Nat → Query → QueryAnswer} {interceptorClose : Bool}
    (hs : s.Inv database interceptorClose) (h : Throttled r ip since s.world s.history)
    (hstep : step env s a = some s') : Throttled r ip since s'.world s'.history := by
  have hupdate : ∀ {i : Nat} {f : HttpConn → HttpConn}, s.update i f = some s' →
      Throttled r ip since s'.world s'.history := by
    intro i f hf
    obtain ⟨c, -, rfl⟩ := Option.map_eq_some_iff.mp hf
    exact h
  cases a with
  | accept i sockfd ip =>
    cases hstep
    exact h
  | read i mode results => exact hupdate hstep
  | process i threadId =>
    simp only [Service.step] at hstep
    split at hstep
    · cases hstep
    · rename_i c hc
      split at hstep
      · cases hstep
      · rename_i hprocess
        cases hstep
        have hthread : Throttled r ip since { s.world with threadId := threadId } s.history := ⟨h.monotone, h.counted⟩
        exact (HttpConn.process_moves (hs.known i c hc).address hprocess).invariant
          (fun _ _ _ _ => Throttled.move) hthread
  | write i results => exact hupdate hstep
  | init i => exact hupdate hstep
  | closeConn i => exact hupdate hstep
  | filesChange files =>
    cases hstep
    exact ⟨h.monotone, h.counted⟩

/-- **Throttling.** In every run of the server with the rate limiter open, and with a clock that never goes back: for
    each address fewer than forty calls of `process` pass in any ten seconds, and fewer than ten passwords are
    checked in any three minutes. -/
theorem run_throttles {clock wallClock : Nat → Int} (hclock : ∀ m n, m ≤ n → clock m ≤ clock n) {threadId : Str}
    {database : Nat → Query → QueryAnswer} {files : FileSystem} {interceptorClose : Bool} {actions : List Action}
    (h : Transition.run (step env)
      (start (World.start clock wallClock threadId database files false interceptorClose)) actions = some s)
    (ip : Str) (since : Int) :
    s.history.countP (ServiceEvent.chargedIn (str "access_ip") ip since (since + 10 * 1000000000)) < 40 ∧
      s.history.countP (ServiceEvent.chargedIn (str "login_ip") ip since (since + 180 * 1000000000)) < 10 := by
  have hnodup : ([accessRule, loginRule].map LimitRule.type).Nodup := by decide
  have hcount : ∀ r ∈ [accessRule, loginRule], Throttled r ip since s.world s.history := by
    intro r hr
    have hstep : ∀ (s : Service) (a : Action) (s' : Service),
        s.Inv database interceptorClose ∧ Throttled r ip since s.world s.history → step env s a = some s' →
        s'.Inv database interceptorClose ∧ Throttled r ip since s'.world s'.history :=
      fun s a s' hs ha => ⟨hs.1.step ha, throttled_step hs.1 hs.2 ha⟩
    exact (Transition.run_invariant_of_step hstep
      ⟨inv_start clock wallClock threadId database files false interceptorClose,
        Throttled.start_registered hnodup hr hclock initRateLimiter_registered⟩ h).2
  exact ⟨Int.ofNat_lt.mp (hcount accessRule (by simp)).count_lt,
    Int.ofNat_lt.mp (hcount loginRule (by simp)).count_lt⟩

/-- One request of each of two clients passes, and one password is checked. -/
theorem run_throttles_aliceLogin :
    ∃ s, Transition.run (step World.aliceEnvironment) (start aliceWorld) aliceLogin = some s ∧
      s.history = aliceHistory ∧
      s.history.countP (ServiceEvent.chargedIn (str "access_ip") (str "10.0.0.1") 0 (0 + 10 * 1000000000)) < 40 ∧
      s.history.countP (ServiceEvent.chargedIn (str "login_ip") (str "10.0.0.1") 0 (0 + 180 * 1000000000)) < 10 := by
  obtain ⟨s, hrun, hhistory⟩ := exists_run_aliceLogin
  exact ⟨s, hrun, hhistory, run_throttles (fun _ _ _ => Int.le_refl 0) hrun (str "10.0.0.1") 0⟩

end Service

end ModularNetServer
