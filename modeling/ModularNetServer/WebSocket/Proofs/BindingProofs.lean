import ModularNetServer.WebSocket.WebSocketConn

/-!
# Bindings of sessions

`bindSession` overwrites an entry of each map and leaves alone the entries that the old values had in
the other one. The maps stay inverse to each other exactly as long as only free sessions and free numbers
are bound.
-/

namespace ModularNetServer

open Cxx

namespace WebsocketConnManager

variable {m : WebsocketConnManager} {fd fd' : Int} {sessionId sessionId' : Str}

/-- The maps are inverse to each other. -/
def Bijective (m : WebsocketConnManager) : Prop :=
  ∀ sessionId fd, m.sessionToFd sessionId = some fd ↔ m.fdToSession fd = some sessionId

/-- A session and a number are bound to each other if they are bound at all. -/
def Free (m : WebsocketConnManager) (fd : Int) (sessionId : Str) : Prop :=
  (∀ fd', m.sessionToFd sessionId = some fd' → fd' = fd) ∧
    ∀ sessionId', m.fdToSession fd = some sessionId' → sessionId' = sessionId

/-! ## One call -/

theorem bijective_empty : Bijective empty := by
  intro sessionId fd
  simp [empty]

theorem Bijective.bindSession (h : m.Bijective) (hf : m.Free fd sessionId) :
    (m.bindSession fd sessionId).Bijective := by
  intro s' fd'
  show m.sessionToFd.insert sessionId fd s' = some fd' ↔
    m.fdToSession.insert fd sessionId fd' = some s'
  by_cases hs : s' = sessionId
  · by_cases hfd : fd' = fd
    · simp [hs, hfd]
    · subst hs
      rw [Table.insert_self, Table.insert_of_ne _ hfd]
      refine iff_of_false ?_ ?_
      · intro heq
        exact hfd (Option.some.inj heq).symm
      · intro hm
        exact hfd (hf.1 fd' ((h s' fd').mpr hm))
  · by_cases hfd : fd' = fd
    · subst hfd
      rw [Table.insert_self, Table.insert_of_ne _ hs]
      refine iff_of_false ?_ ?_
      · intro hm
        exact hs (hf.2 s' ((h s' fd').mp hm))
      · intro heq
        exact hs (Option.some.inj heq).symm
    · rw [Table.insert_of_ne _ hs, Table.insert_of_ne _ hfd]
      exact h s' fd'

/-- Binding what is not free leaves an entry that has no counterpart. -/
theorem free_of_bindSession (h : m.Bijective) (hb : (m.bindSession fd sessionId).Bijective) :
    m.Free fd sessionId := by
  constructor
  · intro fd' hm
    by_contra hfd
    have hback : (m.bindSession fd sessionId).fdToSession fd' = some sessionId :=
      (Table.insert_of_ne _ hfd _).trans ((h sessionId fd').mp hm)
    have hnew : (m.bindSession fd sessionId).sessionToFd sessionId = some fd := Table.insert_self _ _ _
    have hold := (hb sessionId fd').mpr hback
    rw [hnew] at hold
    exact hfd (Option.some.inj hold).symm
  · intro s' hm
    by_contra hs
    have hback : (m.bindSession fd sessionId).sessionToFd s' = some fd :=
      (Table.insert_of_ne _ hs _).trans ((h s' fd).mpr hm)
    have hnew : (m.bindSession fd sessionId).fdToSession fd = some sessionId := Table.insert_self _ _ _
    have hold := (hb s' fd).mp hback
    rw [hnew] at hold
    exact hs (Option.some.inj hold).symm

theorem Bijective.removeFd (h : m.Bijective) (fd : Int) : (m.removeFd fd).Bijective := by
  unfold WebsocketConnManager.removeFd
  split
  · exact h
  · rename_i sessionId hm
    have hs := (h sessionId fd).mpr hm
    intro s' fd'
    show m.sessionToFd.erase sessionId s' = some fd' ↔ m.fdToSession.erase fd fd' = some s'
    by_cases hss : s' = sessionId
    · subst hss
      rw [Table.erase_self]
      refine iff_of_false (by simp) ?_
      by_cases hfd : fd' = fd
      · simp [hfd]
      · rw [Table.erase_of_ne _ hfd]
        intro hm'
        rw [(h s' fd').mpr hm'] at hs
        exact hfd (Option.some.inj hs)
    · rw [Table.erase_of_ne _ hss]
      by_cases hfd : fd' = fd
      · subst hfd
        rw [Table.erase_self]
        refine iff_of_false ?_ (by simp)
        intro hm'
        rw [(h s' fd').mp hm'] at hm
        exact hss (Option.some.inj hm)
      · rw [Table.erase_of_ne _ hfd]
        exact h s' fd'

/-! ## Histories -/

/-- The number that a call binds a session to. -/
def Op.fdOf (sessionId : Str) : Op → Option Int
  | .bindSession fd s => if s = sessionId then some fd else none
  | .removeFd _ => none

/-- The session that a call binds a number to. -/
def Op.sessionOf (fd : Int) : Op → Option Str
  | .bindSession fd' s => if fd' = fd then some s else none
  | .removeFd _ => none

/-- The number that a session was bound to last. -/
def lastFd (sessionId : Str) (ops : List Op) : Option Int := (ops.filterMap (Op.fdOf sessionId)).getLast?

/-- The session that a number was bound to last. -/
def lastSession (fd : Int) (ops : List Op) : Option Str := (ops.filterMap (Op.sessionOf fd)).getLast?

theorem run_concat (ops : List Op) (op : Op) : run (ops ++ [op]) = (run ops).apply op := by
  simp [run]

theorem removeFd_sessionToFd (h : (m.removeFd fd).sessionToFd sessionId = some fd') :
    m.sessionToFd sessionId = some fd' := by
  unfold removeFd at h
  split at h
  · exact h
  · exact (Table.of_erase_eq_some h).2

theorem removeFd_fdToSession (h : (m.removeFd fd).fdToSession fd' = some sessionId) :
    m.fdToSession fd' = some sessionId := by
  unfold removeFd at h
  split at h
  · exact h
  · exact (Table.of_erase_eq_some h).2

/-- A session that is bound is bound as it was last. -/
theorem lastFd_of_sessionToFd {ops : List Op} (h : (run ops).sessionToFd sessionId = some fd) :
    lastFd sessionId ops = some fd := by
  induction ops using List.reverseRecOn with
  | nil => simp [run, empty] at h
  | append_singleton ops op ih =>
    rw [run_concat] at h
    unfold lastFd at ih ⊢
    rw [List.filterMap_append, List.getLast?_append]
    cases op with
    | bindSession fd' s =>
      change (run ops).sessionToFd.insert s fd' sessionId = some fd at h
      by_cases hs : sessionId = s
      · subst hs
        rw [Table.insert_self] at h
        simp [Op.fdOf, h]
      · rw [Table.insert_of_ne _ hs] at h
        simp [Op.fdOf, Ne.symm hs, ih h]
    | removeFd fd' => simp [Op.fdOf, ih (removeFd_sessionToFd h)]

/-- A number that is bound is bound as it was last. -/
theorem lastSession_of_fdToSession {ops : List Op} (h : (run ops).fdToSession fd = some sessionId) :
    lastSession fd ops = some sessionId := by
  induction ops using List.reverseRecOn with
  | nil => simp [run, empty] at h
  | append_singleton ops op ih =>
    rw [run_concat] at h
    unfold lastSession at ih ⊢
    rw [List.filterMap_append, List.getLast?_append]
    cases op with
    | bindSession fd' s =>
      change (run ops).fdToSession.insert fd' s fd = some sessionId at h
      by_cases hfd : fd = fd'
      · subst hfd
        rw [Table.insert_self] at h
        simp [Op.sessionOf, h]
      · rw [Table.insert_of_ne _ hfd] at h
        simp [Op.sessionOf, Ne.symm hfd, ih h]
    | removeFd fd' => simp [Op.sessionOf, ih (removeFd_fdToSession h)]

/-! ## Runs -/

/-- What the bindings after a sequence of calls should be: the maps are inverse to each other,
    `removeFd` unbinds only a session that was last bound to the number, and `sendToSession` selects
    only a number that the session was last bound to. -/
structure Consistent (ops : List Op) : Prop where
  bijective : (run ops).Bijective
  removes : ∀ fd sessionId, (run ops).sessionToFd sessionId ≠ none →
    ((run ops).removeFd fd).sessionToFd sessionId = none → lastFd sessionId ops = some fd
  selects : ∀ getConn sessionId msg fd c,
    (run ops).sendToSession getConn sessionId msg = some (fd, c) → lastSession fd ops = some sessionId

theorem consistent_of_bijective {ops : List Op} (h : (run ops).Bijective) : Consistent ops where
  bijective := h
  removes := by
    intro fd sessionId hbound hgone
    unfold removeFd at hgone
    split at hgone
    · exact absurd hgone hbound
    · rename_i s hs
      by_cases hss : sessionId = s
      · rw [hss]
        exact lastFd_of_sessionToFd ((h s fd).mpr hs)
      · exact absurd ((Table.erase_of_ne _ hss).symm.trans hgone) hbound
  selects := by
    intro getConn sessionId msg fd c hsend
    unfold sendToSession at hsend
    split at hsend
    · cases hsend
    · rename_i fd' hm
      obtain ⟨conn, -, heq⟩ := Option.map_eq_some_iff.mp hsend
      cases heq
      exact lastSession_of_fdToSession ((h sessionId fd).mp hm)

/-- Every call of `bindSession` finds the session and the number free. -/
def BindsFree (ops : List Op) : Prop :=
  ∀ pre fd sessionId, pre ++ [.bindSession fd sessionId] <+: ops → (run pre).Free fd sessionId

theorem bijective_of_bindsFree {ops : List Op} (h : BindsFree ops) : (run ops).Bijective := by
  induction ops using List.reverseRecOn with
  | nil => exact bijective_empty
  | append_singleton ops op ih =>
    have hprev : BindsFree ops :=
      fun pre fd s hpre => h pre fd s (hpre.trans (List.prefix_append _ _))
    rw [run_concat]
    cases op with
    | bindSession fd s => exact (ih hprev).bindSession (h ops fd s (List.prefix_refl _))
    | removeFd fd => exact (ih hprev).removeFd fd

/-- The exact condition under which the bindings are a partial bijection after every call of a sequence,
    with what follows from it for `removeFd` and `sendToSession`: `bindSession` is called only for a
    session and a number that are not bound to anything else. -/
theorem consistent_iff_bindsFree (ops : List Op) :
    (∀ pre, pre <+: ops → Consistent pre) ↔ BindsFree ops := by
  constructor
  · intro h pre fd sessionId hpre
    have hbefore := (h pre ((List.prefix_append _ _).trans hpre)).bijective
    have hafter := (h _ hpre).bijective
    rw [run_concat] at hafter
    exact free_of_bindSession hbefore hafter
  · intro h pre hpre
    apply consistent_of_bijective
    exact bijective_of_bindsFree (fun q fd s hq => h q fd s (hq.trans hpre))

/-- A session that connects again, and the end of its first connection. -/
def reconnect : List Op :=
  [.bindSession 5 (str "a"), .bindSession 6 (str "a"), .removeFd 5]

/-- The session is bound to 6 last, and is not bound any more. -/
theorem reconnect_unbinds :
    lastFd (str "a") reconnect = some 6 ∧ (run reconnect).sessionToFd (str "a") = none ∧
      (run reconnect).fdToSession 6 = some (str "a") ∧
      ¬ ∀ pre, pre <+: reconnect → Consistent pre := by
  refine ⟨by decide, by decide, by decide, ?_⟩
  intro h
  have hb := (h reconnect (List.prefix_refl _)).bijective (str "a") 6
  have hs : (run reconnect).sessionToFd (str "a") = none := by decide
  rw [hb.mpr (by decide)] at hs
  cases hs

end WebsocketConnManager

end ModularNetServer
