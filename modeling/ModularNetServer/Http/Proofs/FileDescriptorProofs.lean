import ModularNetServer.Http.Proofs.ServedConnProofs
import ModularNetServer.Http.Proofs.DeliveryProofs

/-!
# The descriptors of the files that are sent

A history numbers the descriptors that `open` returns and follows each one to `CloseFile`. Neither
`closeConn` nor the destructor calls that.
-/

namespace ModularNetServer

open Cxx

namespace WriteSide

/-- Something is left to be sent before the file is closed. -/
def Unfinished (s : WriteSide) : Prop :=
  if s.headerSent then s.fileBytesSent < s.fileResponseSize else s.writeBuf ≠ []

/-- The second half of `write` closes the file, or leaves everything as it was. -/
theorem sendFile_cases (s : WriteSide) (rs : List SocketResult) :
    ((sendFile s rs).1 = .ok ∧ (sendFile s rs).2.2.fileFd = none) ∨
      ((sendFile s rs).1 ≠ .ok ∧ (sendFile s rs).2.2 = s ∧ s.fileBytesSent < s.fileResponseSize) := by
  unfold sendFile
  rcases hfile : s.fileFd with _ | path
  · exact .inl ⟨rfl, hfile⟩
  · dsimp only
    split_ifs with hleft
    · rcases rs with _ | ⟨_ | _ | _, rs⟩
      · exact .inr ⟨nofun, rfl, hleft⟩
      · exact .inl ⟨rfl, rfl⟩
      · exact .inr ⟨nofun, rfl, hleft⟩
      · exact .inr ⟨nofun, rfl, hleft⟩
    · exact .inl ⟨rfl, rfl⟩

/-- `write` returns `OK` and has closed the file, or keeps it with something left to be sent. -/
theorem write_cases (s : WriteSide) (rs : List SocketResult) :
    ((write s rs).1 = .ok ∧ (write s rs).2.2.fileFd = none) ∨
      ((write s rs).1 ≠ .ok ∧ (write s rs).2.2.fileFd = s.fileFd ∧
        (s.Unfinished → (write s rs).2.2.Unfinished)) := by
  unfold write
  by_cases hsent : s.headerSent = true
  · rw [if_pos hsent]
    rcases sendFile_cases s rs with hok | ⟨hne, hsame, -⟩
    · exact .inl hok
    · rw [hsame]
      exact .inr ⟨hne, rfl, id⟩
  · rw [if_neg hsent]
    rcases hheader : sendHeader s.writeBuf.length 0 rs with ⟨status | rest, sent⟩
    · have hstatus : status ≠ .ok := by
        rintro rfl
        rcases hall : acceptsAll s.writeBuf.length rs with _ | rest
        · obtain ⟨status, k, hne, -, -, hstop⟩ := sendHeader_stops (Nat.zero_le _) hall
          rw [hheader] at hstop
          cases hstop
          exact hne rfl
        · have hsends := sendHeader_all (Nat.zero_le _) hall
          rw [hheader] at hsends
          cases hsends
      exact .inr ⟨hstatus, rfl, id⟩
    · dsimp only
      rcases sendFile_cases { s with headerSent := true } rest with hok | ⟨hne, hsame, hleft⟩
      · exact .inl hok
      · refine .inr ⟨hne, by rw [hsame], fun _ => ?_⟩
        rw [hsame]
        unfold Unfinished
        rw [if_pos rfl]
        exact hleft

/-- On a socket that fails an unfinished file stays open. -/
theorem write_fails {s : WriteSide} (hfile : s.fileFd.isSome = true) (h : s.Unfinished) :
    (write s [.fails]).1 ≠ .ok := by
  obtain ⟨path, hpath⟩ := Option.isSome_iff_exists.mp hfile
  unfold Unfinished at h
  unfold write
  by_cases hsent : s.headerSent = true
  · rw [if_pos hsent] at h ⊢
    simp [sendFile, hpath, h]
  · rw [if_neg hsent] at h ⊢
    have hpos : 0 < s.writeBuf.length := List.length_pos_iff.mpr h
    simp [sendHeader, hpos]

end WriteSide

/-- The descriptors that `open` has returned, by their order: how many there are, the one that `m_file_fd`
    names, those that `CloseFile` has closed, and those that `m_file_fd` named when it was set anew. -/
structure FileHistory where
  opened : Nat
  held : Option Nat
  closed : List Nat
  overwritten : List Nat
  deriving DecidableEq

namespace FileHistory

/-- Nothing has been opened. -/
def empty : FileHistory := ⟨0, none, [], []⟩

/-- `m_file_fd = open(..)`. -/
def openFile (h : FileHistory) (success : Bool) : FileHistory where
  opened := if success then h.opened + 1 else h.opened
  held := if success then some h.opened else none
  closed := h.closed
  overwritten := h.overwritten ++ h.held.toList

/-- `CloseFile`. -/
def closeFile (h : FileHistory) : FileHistory :=
  { h with held := none, closed := h.closed ++ h.held.toList }

/-- What an effect adds. -/
def effect (files : FileSystem) (h : FileHistory) : Effect → FileHistory
  | .openFile path => h.openFile (files.canOpen path)
  | _ => h

/-- What a `process` call adds. -/
def process (env : Environment) (h : FileHistory) (w : World) (c : HttpConn) : FileHistory :=
  match HttpConn.process env w c with
  | .error _ => h
  | .ok (_, w', _) => (w'.effects.drop w.effects.length).foldl (effect w.files) h

/-- What a `write` call adds, which may get to `CloseFile`. -/
def write (h : FileHistory) (c : HttpConn) (results : List SocketResult) : FileHistory :=
  if c.fileFd.isSome && (c.write results).2.fileFd.isNone then h.closeFile else h

/-- What a step adds; `init` calls `CloseFile`. -/
def record (env : Environment) (h : FileHistory) (s : ServedConn) : ServedConn.Action → FileHistory
  | .work (.process w) => h.process env w s.conn
  | .work (.write results) => h.write s.conn results
  | .work .none => if s.task = some .init then h.closeFile else h
  | _ => h

/-- Every descriptor has been closed exactly once. -/
def ClosedOnce (h : FileHistory) : Prop := ∀ d < h.opened, h.closed.count d = 1

/-- Effects that open no file add nothing. -/
theorem foldl_effect (files : FileSystem) (h : FileHistory) {es : List Effect}
    (hes : ∀ e ∈ es, ¬ World.IsOpenFile e) : es.foldl (effect files) h = h := by
  induction es with
  | nil => rfl
  | cons e es ih =>
    have he : effect files h e = h := by
      unfold effect
      split
      · exact absurd ⟨_, rfl⟩ (hes _ List.mem_cons_self)
      · rfl
    rw [List.foldl_cons, he]
    exact ih fun e' he' => hes e' (List.mem_cons_of_mem _ he')

/-- The descriptors have been closed in the order in which they were opened. -/
structure Ordered (h : FileHistory) : Prop where
  overwritten : h.overwritten = []
  order : h.closed ++ h.held.toList = List.range h.opened

theorem Ordered.openFile {h : FileHistory} (ho : h.Ordered) (hheld : h.held = none) (success : Bool) :
    (h.openFile success).Ordered := by
  obtain ⟨hover, horder⟩ := ho
  rw [hheld] at horder
  constructor
  · simp [FileHistory.openFile, hover, hheld]
  · cases success with
    | false => simpa [FileHistory.openFile] using horder
    | true =>
      simp only [Option.toList_none, List.append_nil] at horder
      simp [FileHistory.openFile, horder, List.range_succ]

theorem Ordered.closeFile {h : FileHistory} (ho : h.Ordered) : h.closeFile.Ordered := by
  refine ⟨ho.overwritten, ?_⟩
  simpa [FileHistory.closeFile] using ho.order

/-- All have been closed exactly if `m_file_fd` names none. -/
theorem Ordered.closedOnce_iff {h : FileHistory} (ho : h.Ordered) : h.ClosedOnce ↔ h.held = none := by
  have hall := ho.order
  unfold ClosedOnce
  rcases hheld : h.held with _ | d
  · rw [hheld, Option.toList_none, List.append_nil] at hall
    refine iff_of_true ?_ rfl
    intro d hd
    rw [hall]
    exact List.count_eq_one_of_mem List.nodup_range (List.mem_range.mpr hd)
  · rw [hheld, Option.toList_some] at hall
    refine iff_of_false ?_ nofun
    intro hclosed
    have hmem : d ∈ List.range h.opened := by
      rw [← hall]
      simp
    have hnodup : (h.closed ++ [d]).Nodup := by
      rw [hall]
      exact List.nodup_range
    have hnot : d ∉ h.closed := by
      intro hd
      exact (List.nodup_append.mp hnodup).2.2 d hd d (List.mem_singleton_self d) rfl
    have hcount := hclosed d (List.mem_range.mp hmem)
    rw [List.count_eq_zero.mpr hnot] at hcount
    cases hcount

end FileHistory

namespace HttpConn

variable {env : Environment} {w w' : World} {c c' : HttpConn} {b : Bool}

/-- A request that is handled is answered with a file. -/
def answersWithFile (env : Environment) (w : World) (c : HttpConn) : Bool :=
  let (verdict, w, base) := gate env w c.httpBase
  match respond env verdict base w c.httpResponse with
  | .error _ => false
  | .ok (w, r) =>
    let c := { c with httpBase := base, httpResponse := r }
    !r.isBuilt && w.files.canOpen (Scan.upTo 0 (resolveUrl env w.files c.responseUrl).2.1)

/-- A `process` call answers with a file. -/
def sendsFile (env : Environment) (w : World) (c : HttpConn) : Bool :=
  match admitted env w c with
  | none => false
  | some (w, c) => answersWithFile env w c

/-- Until a file is sent, no file is opened. -/
theorem respond_effects {verdict : Verdict} {base : HttpBase} {r r' : HttpResponse}
    (h : respond env verdict base w r = .ok (w', r')) :
    w'.files = w.files ∧ ∃ es, w'.effects = w.effects ++ es ∧ ∀ e ∈ es, ¬ World.IsOpenFile e := by
  have hsame : w' = w → w'.files = w.files ∧ ∃ es, w'.effects = w.effects ++ es ∧
      ∀ e ∈ es, ¬ World.IsOpenFile e := by
    rintro rfl
    exact ⟨rfl, [], by simp, by simp⟩
  have hnot : ¬ World.IsOpenFile (.dispatch base.method base.url) := by
    rintro ⟨_, he⟩
    cases he
  cases verdict with
  | forbidden =>
    simp only [respond] at h
    exact hsame (answer_world h)
  | unauthenticated =>
    simp only [respond] at h
    exact hsame (answer_world h)
  | dispatch =>
    have heffect := effect_dispatch h
    have hrecorded : ∃ es, (w.emit (.dispatch base.method base.url)).effects = w.effects ++ es ∧
        ∀ e ∈ es, ¬ World.IsOpenFile e :=
      ⟨[.dispatch base.method base.url], rfl, fun e he => by rw [List.mem_singleton.mp he]; exact hnot⟩
    generalize hw1 : w.emit (.dispatch base.method base.url) = w1 at heffect hrecorded
    have hfiles : w1.files = w.files := by rw [← hw1]; rfl
    cases heffect with
    | none => exact ⟨hfiles, hrecorded⟩
    | clock => exact ⟨hfiles, hrecorded⟩
    | statement => exact ⟨hfiles, hrecorded⟩
    | limited => exact ⟨hfiles, hrecorded⟩
    | refused => exact ⟨hfiles, hrecorded⟩
    | accepted type key sql params username =>
      obtain ⟨es, hes, hnone⟩ := hrecorded
      refine ⟨hfiles, es ++ [_], (congrArg (· ++ [_]) hes).trans (List.append_assoc _ _ _), ?_⟩
      intro e he
      rcases List.mem_append.mp he with he | he
      · exact hnone e he
      · rw [List.mem_singleton.mp he]
        rintro ⟨_, hopen⟩
        cases hopen

/-- The fields that a file response sets. -/
theorem generateResponse_writes (hopen : (generateResponse env w c).1 = true) :
    (generateResponse env w c).2.2.isClosed = c.isClosed ∧
      (generateResponse env w c).2.2.sockfd = c.sockfd ∧
      (generateResponse env w c).2.2.headerSent = c.headerSent ∧
      (generateResponse env w c).2.2.writeBuf ≠ [] := by
  have hne := fun (r : HttpResponse) => buildResponseHeader_data_ne_nil r c.httpBase.keepAlive
  unfold generateResponse copyResponseData at hopen ⊢
  grind

/-- A closed connection has no socket. -/
def NoSocket (c : HttpConn) : Prop := c.isClosed = true → c.sockfd = -1

theorem noSocket_closeConn (h : c.NoSocket) : c.closeConn.NoSocket := by
  unfold closeConn
  split_ifs
  · exact h
  · exact fun _ => rfl

theorem noSocket_finish (h : c.NoSocket) : (finish env w c).2.2.NoSocket := by
  unfold finish generateResponse copyResponseData closeConn NoSocket at *
  grind

theorem noSocket_handleRequest (h : c.NoSocket) (hreq : handleRequest env w c = .ok (b, w', c')) :
    c'.NoSocket := by
  obtain ⟨w2, r, -, hfinish⟩ := handleRequest_finish hreq
  have hnext := @noSocket_finish env w2
    { c with httpBase := (gate env w c.httpBase).2.2, httpResponse := r } h
  rwa [hfinish] at hnext

theorem noSocket_process (h : c.NoSocket) (hp : process env w c = .ok (b, w', c')) : c'.NoSocket := by
  rcases process_cases hp with ⟨-, -, -, r, -, rfl⟩ | ⟨-, -, -, side, -, rfl⟩ | ⟨side, w2, -, -, hreq, -⟩
  · unfold copyResponseData
    split_ifs
    · exact h
    · exact h
  · exact h
  · exact @noSocket_handleRequest _ _ _ { c with toReadSide := side } _ _ h hreq

theorem answersWithFile_eq {w2 : World} {r : HttpResponse}
    (h : respond env (gate env w c.httpBase).1 (gate env w c.httpBase).2.2 (gate env w c.httpBase).2.1
      c.httpResponse = .ok (w2, r)) :
    answersWithFile env w c = (!r.isBuilt && w2.files.canOpen (Scan.upTo 0 (resolveUrl env w2.files
      { c with httpBase := (gate env w c.httpBase).2.2, httpResponse := r }.responseUrl).2.1)) := by
  unfold answersWithFile
  generalize gate env w c.httpBase = g at h ⊢
  obtain ⟨verdict, w1, base⟩ := g
  dsimp only at h ⊢
  rw [h]

end HttpConn

namespace FileHistory

variable {env : Environment} {h : FileHistory} {w w' : World} {c c' : HttpConn} {b : Bool}

/-- A request that is handled opens the file with which it is answered, and no other. -/
theorem foldl_handleRequest (hheld : h.held = none) (hfile : c.fileFd = none) (hoffset : c.fileOffset = 0)
    (hsent : c.headerSent = false) (hplain : c.httpResponse.Plain)
    (hreq : HttpConn.handleRequest env w c = .ok (b, w', c')) :
    ∃ es, w'.effects = w.effects ++ es ∧
      ((HttpConn.answersWithFile env w c = false ∧ c'.fileFd = none ∧ es.foldl (effect w.files) h = h) ∨
        (HttpConn.answersWithFile env w c = true ∧ c'.fileFd.isSome = true ∧ c'.toWriteSide.Unfinished ∧
          c'.isClosed = c.isClosed ∧ es.foldl (effect w.files) h = h.openFile true)) := by
  obtain ⟨w2, r, hrespond, hfinish⟩ := HttpConn.handleRequest_finish hreq
  obtain ⟨hfiles, es, hes, hnone⟩ := HttpConn.respond_effects hrespond
  rw [HttpConn.effects_gate] at hes
  rw [HttpConn.files_gate] at hfiles
  have hnothing := foldl_effect w.files h hnone
  have hanswers := HttpConn.answersWithFile_eq hrespond
  by_cases hbuilt : r.isBuilt = true
  · rw [HttpConn.finish_built _ _ hbuilt] at hfinish
    cases hfinish
    refine ⟨es, hes, .inl ⟨by rw [hanswers, hbuilt]; rfl, ?_, hnothing⟩⟩
    unfold HttpConn.copyResponseData
    split_ifs
    · exact hfile
    · exact hfile
  · rw [Bool.not_eq_true] at hbuilt
    rw [HttpConn.finish_file _ _ hbuilt] at hfinish
    rw [hbuilt, Bool.not_false, Bool.true_and, hfiles] at hanswers
    have hplain' := (HttpConn.keeps_respond hrespond).plain hplain
    set c1 : HttpConn := { c with httpBase := (HttpConn.gate env w c.httpBase).2.2, httpResponse := r } with hc1
    have hworld := HttpConn.generateResponse_world env w2 c1
    have hfd := HttpConn.fileFd_generateResponse env w2 c1
    have hfits := HttpConn.generateResponse_fits env w2 (c := c1) hplain' hoffset
    have hwrites := @HttpConn.generateResponse_writes env w2 c1
    rw [hfiles] at hworld hfd
    generalize Scan.upTo 0 (HttpConn.resolveUrl env w.files c1.responseUrl).2.1 = path at hworld hfd hanswers
    generalize HttpConn.generateResponse env w2 c1 = result at hfinish hworld hfd hfits hwrites
    obtain ⟨success, w3, c3⟩ := result
    dsimp only at hfinish hworld hfd hfits hwrites
    have heffects : w3.effects = w.effects ++ (es ++ [.openFile path]) := by
      rw [hworld, ← List.append_assoc, ← hes]
      rfl
    have hfold : (es ++ [Effect.openFile path]).foldl (effect w.files) h = h.openFile (w.files.canOpen path) := by
      rw [List.foldl_append, hnothing]
      rfl
    cases hcan : w.files.canOpen path with
    | true =>
      rw [if_pos hcan] at hfd
      obtain rfl := hfits (by rw [hfd]; nofun)
      cases hfinish
      obtain ⟨hclosed, -, hheader, hbuf⟩ := hwrites rfl
      refine ⟨_, heffects, .inr ⟨hanswers.trans hcan, by rw [if_pos rfl, hfd]; rfl, ?_, hclosed, ?_⟩⟩
      · rw [if_pos rfl]
        unfold WriteSide.Unfinished
        rw [hheader, hc1, hsent]
        exact hbuf
      · rw [hfold, hcan]
    | false =>
      rw [if_neg (by simp [hcan])] at hfd
      cases hfinish
      refine ⟨_, heffects, .inl ⟨hanswers.trans hcan, ?_, ?_⟩⟩
      · split_ifs
        · exact hfd
        · unfold HttpConn.closeConn
          split_ifs
          · exact hfd
          · exact hfd
      · rw [hfold, hcan]
        obtain ⟨opened, held, closed, overwritten⟩ := h
        dsimp only at hheld
        subst hheld
        simp [openFile]

theorem process_eq {es : List Effect} (hp : HttpConn.process env w c = .ok (b, w', c'))
    (hes : w'.effects = w.effects ++ es) : h.process env w c = es.foldl (effect w.files) h := by
  unfold process
  rw [hp]
  dsimp only
  rw [hes, List.drop_left]

theorem effects_refreshSession (w : World) (id : Str) : (w.refreshSession id).effects = w.effects := by
  unfold World.refreshSession
  split_ifs <;> rfl

/-- **One call.** From a connection from which a request is still to come, a `process` call opens the file
    with which it answers, and no other. -/
theorem process_files (hc : c.Awaiting) (hheld : h.held = none)
    (hp : HttpConn.process env w c = .ok (b, w', c')) :
    (HttpConn.sendsFile env w c = false ∧ c'.fileFd = none ∧ h.process env w c = h) ∨
      (HttpConn.sendsFile env w c = true ∧ c'.fileFd.isSome = true ∧ c'.toWriteSide.Unfinished ∧
        c'.isClosed = c.isClosed ∧ h.process env w c = h.openFile true) := by
  have hlimit : (w.isLimit (str "access_ip") c.ip).2.effects = w.effects ++ [] := (List.append_nil _).symm
  rcases HttpConn.process_cases hp with ⟨ha, -, rfl, r, -, rfl⟩ | ⟨ha, -, rfl, side, -, rfl⟩ |
    ⟨side, w2, hparse, ha, hreq, rfl⟩
  · refine .inl ⟨by rw [HttpConn.sendsFile, ha], ?_, process_eq hp hlimit⟩
    unfold HttpConn.copyResponseData
    split_ifs
    · exact hc.fileFd
    · exact hc.fileFd
  · exact .inl ⟨by rw [HttpConn.sendsFile, ha], hc.fileFd, process_eq hp hlimit⟩
  · obtain ⟨es, hes, hcases⟩ := @foldl_handleRequest env h _ _ { c with toReadSide := side } _ _ hheld
      hc.fileFd hc.fileOffset hc.headerSent hc.plain hreq
    have hend : ∀ id, (if b then w2.refreshSession id else w2).effects = w.effects ++ es := by
      intro id
      cases b with
      | false => exact hes
      | true => exact (effects_refreshSession w2 id).trans hes
    rw [process_eq hp (hend _)]
    unfold HttpConn.sendsFile
    rw [ha]
    exact hcases

/-- The history fits a connection. -/
structure Tracks (h : FileHistory) (c : HttpConn) : Prop where
  ordered : h.Ordered
  held : h.held.isSome = c.fileFd.isSome
  noSocket : c.NoSocket
  unfinished : c.fileFd.isSome = true → c.toWriteSide.Unfinished

theorem Tracks.held_none (ht : h.Tracks c) (hfile : c.fileFd = none) : h.held = none := by
  have hheld := ht.held
  rw [hfile] at hheld
  exact Option.isNone_iff_eq_none.mp (by simpa using hheld)

theorem Tracks.of_eq (ht : h.Tracks c) (hside : c'.toWriteSide = c.toWriteSide) (hsocket : c'.NoSocket) :
    h.Tracks c' where
  ordered := ht.ordered
  held := by rw [hside]; exact ht.held
  noSocket := hsocket
  unfinished := by rw [hside]; exact ht.unfinished

theorem Tracks.closeConn (ht : h.Tracks c) : h.Tracks c.closeConn := by
  refine ht.of_eq ?_ (HttpConn.noSocket_closeConn ht.noSocket)
  unfold HttpConn.closeConn
  split_ifs <;> rfl

theorem Tracks.read (ht : h.Tracks c) (mode : HttpConn.TrigMode) (results : List HttpConn.RecvResult) :
    h.Tracks (c.read mode results).2 := by
  obtain ⟨buf, hbuf⟩ := HttpConn.read_eq mode c results
  rw [hbuf]
  exact ht.of_eq rfl ht.noSocket

theorem Tracks.init (ht : h.Tracks c) (sockfd : Int) : h.closeFile.Tracks (c.init sockfd) where
  ordered := ht.ordered.closeFile
  held := rfl
  noSocket := nofun
  unfinished := nofun

theorem Tracks.process (ht : h.Tracks c) (hc : c.Awaiting)
    (hp : HttpConn.process env w c = .ok (b, w', c')) : (h.process env w c).Tracks c' := by
  have hheld := ht.held_none hc.fileFd
  have hsocket := HttpConn.noSocket_process ht.noSocket hp
  rcases process_files hc hheld hp with ⟨-, hnone, heq⟩ | ⟨-, hsome, hleft, -, heq⟩
  · rw [heq]
    exact ⟨ht.ordered, by rw [hheld, hnone]; rfl, hsocket, by rw [hnone]; nofun⟩
  · rw [heq]
    exact ⟨ht.ordered.openFile hheld true, by rw [hsome]; rfl, hsocket, fun _ => hleft⟩

/-- A `write` call keeps the file open exactly if it does not return `OK`. -/
theorem write_fileFd (c : HttpConn) (results : List SocketResult) :
    ((c.write results).1 = .ok ∧ (c.write results).2.fileFd = none) ∨
      ((c.write results).1 ≠ .ok ∧ (c.write results).2.fileFd = c.fileFd ∧
        (c.toWriteSide.Unfinished → (c.write results).2.toWriteSide.Unfinished)) :=
  WriteSide.write_cases c.toWriteSide (if c.sockfd = -1 then [.fails] else results)

theorem Tracks.write (ht : h.Tracks c) (results : List SocketResult) :
    (h.write c results).Tracks (c.write results).2 := by
  have hsocket : (c.write results).2.NoSocket := ht.noSocket
  unfold FileHistory.write
  rcases write_fileFd c results with ⟨-, hnone⟩ | ⟨-, hsame, hleft⟩
  · rw [hnone]
    split_ifs with hopen
    · exact ⟨ht.ordered.closeFile, by rw [hnone]; rfl, hsocket, by rw [hnone]; nofun⟩
    · refine ⟨ht.ordered, ?_, hsocket, by rw [hnone]; nofun⟩
      rw [hnone, ht.held]
      simpa using hopen
  · rw [if_neg (by rw [hsame]; cases c.fileFd <;> simp)]
    exact ⟨ht.ordered, by rw [hsame]; exact ht.held, hsocket,
      fun hfile => hleft (ht.unfinished (by rw [← hsame]; exact hfile))⟩

/-- A closed connection does not finish a file. -/
theorem Tracks.write_closed (ht : h.Tracks c) (hclosed : c.isClosed = true) (hfile : c.fileFd.isSome = true)
    (results : List SocketResult) : (c.write results).1 ≠ .ok := by
  unfold HttpConn.write
  rw [if_pos (ht.noSocket hclosed)]
  exact WriteSide.write_fails hfile (ht.unfinished hfile)

end FileHistory

namespace ServedConn

variable {env : Environment} {mode : HttpConn.TrigMode} {s s' : ServedConn} {h : FileHistory} {a : Action}

/-- A step that calls `closeConn` on an open connection. -/
def closes (s : ServedConn) : Action → Bool
  | .event => false
  | .work _ => s.task = some .closeConnection && s.listed && !s.conn.isClosed
  | .expire => s.listed && !s.conn.isClosed
  | .shutdown => !s.conn.isClosed
  | .destroy => !s.conn.isClosed

/-- No file is cut off: the connection is not closed while a file is being sent, and no request is answered
    with a file once it is closed. -/
def NotCutOff (env : Environment) (s : ServedConn) : Action → Prop
  | .work (.process w) => s.conn.isClosed = true → HttpConn.sendsFile env w s.conn = false
  | a => s.closes a = true → s.conn.fileFd = none

/-- What holds of every connection with its history. -/
structure Tracked (p : ServedConn × FileHistory) : Prop where
  oneShot : p.1.OneShot
  awaiting : p.1.awaits = true → p.1.conn.Awaiting
  tracks : p.2.Tracks p.1.conn
  reset : p.1.task = some .init → p.1.conn.fileFd = none
  destroyed : p.1.destroyed = true → p.1.conn.isClosed = true

theorem tracked_start (fd : Int) (ip : Str) : Tracked (start fd ip, FileHistory.empty) where
  oneShot := nofun
  awaiting := fun _ => HttpConn.awaiting_fresh fd ip
  tracks := ⟨⟨rfl, rfl⟩, rfl, nofun, nofun⟩
  reset := nofun
  destroyed := nofun

/-- No open file is stuck in a closed connection. -/
def Sound (p : ServedConn × FileHistory) : Prop := p.1.conn.fileFd = none ∨ p.1.conn.isClosed = false

/-- The other stages without an answer add nothing. -/
theorem record_none (htask : s.task ≠ some .init) : h.record env s (.work .none) = h := if_neg htask

theorem tracks_closeConnection (ht : h.Tracks s.conn) : h.Tracks s.closeConnection.conn := by
  unfold closeConnection
  split_ifs
  · exact ht.closeConn
  · exact ht

theorem tracks_step (hs : Tracked (s, h)) (hstep : step env mode s a = some s') :
    (h.record env s a).Tracks s'.conn := by
  have ht : h.Tracks s.conn := hs.tracks
  cases steps_of_step hstep with
  | event => exact ht
  | read results => exact ht.read mode results
  | process w w' success c htask hprocess =>
    exact ht.process (hs.awaiting (by simp [awaits, htask])) hprocess
  | writeCallback htask =>
    rw [@record_none env s h (by simp [htask])]
    split_ifs <;> exact ht
  | write results => exact ht.write results
  | writeAgain results => exact ht.write results
  | init htask =>
    have hrecord : h.record env s (.work .none) = h.closeFile := if_pos htask
    rw [hrecord]
    exact ht.init s.fd
  | modFd interest htask =>
    rw [@record_none env s h (by simp [htask])]
    exact ht
  | closeConnection htask =>
    rw [@record_none env s h (by simp [htask])]
    exact tracks_closeConnection ht
  | expire => exact tracks_closeConnection ht
  | shutdown => exact ht.closeConn
  | destroy => exact ht.closeConn

theorem fileFd_closeConn (c : HttpConn) : c.closeConn.fileFd = c.fileFd := by
  unfold HttpConn.closeConn
  split_ifs <;> rfl

theorem fileFd_closeConnection (s : ServedConn) :
    s.closeConnection.conn.fileFd = s.conn.fileFd ∧ s.closeConnection.task = s.task ∧
      s.closeConnection.destroyed = s.destroyed := by
  unfold closeConnection
  split_ifs
  · exact ⟨fileFd_closeConn s.conn, rfl, rfl⟩
  · exact ⟨rfl, rfl, rfl⟩

/-- The connection is reset only after a response has been sent. -/
theorem reset_step (hreset : s.task = some .init → s.conn.fileFd = none) (hstep : step env mode s a = some s')
    (htask' : s'.task = some .init) : s'.conn.fileFd = none := by
  cases steps_of_step hstep with
  | event interest =>
    cases interest <;> simp [Interest.stage] at htask'
  | read results => grind
  | process => grind
  | writeCallback => cases htask'
  | write results =>
    rcases FileHistory.write_fileFd s.conn results with ⟨-, hnone⟩ | ⟨hne, -⟩
    · exact hnone
    · simp [hne] at htask'
  | writeAgain results => grind
  | init => cases htask'
  | modFd => cases htask'
  | closeConnection => cases htask'
  | expire =>
    obtain ⟨hfile, htask, -⟩ := fileFd_closeConnection s
    rw [hfile]
    exact hreset (htask.symm.trans htask')
  | shutdown => exact (fileFd_closeConn s.conn).trans (hreset htask')
  | destroy _ htask => cases htask.symm.trans htask'

/-- The destructor closes the connection. -/
theorem destroyed_step (hstep : step env mode s a = some s') (hdestroyed : s'.destroyed = true) :
    s'.conn.isClosed = true := by
  have hbefore : s.destroyed = false := by
    by_contra hbefore
    unfold step at hstep
    rw [if_pos (by simpa using hbefore)] at hstep
    cases hstep
  cases steps_of_step hstep with
  | destroy => exact HttpConn.isClosed_closeConn s.conn
  | writeCallback =>
    dsimp only at hdestroyed
    split_ifs at hdestroyed
    · exact absurd (hbefore.symm.trans hdestroyed) (by decide)
    · exact absurd (hbefore.symm.trans hdestroyed) (by decide)
  | closeConnection =>
    have hsame := (fileFd_closeConnection s).2.2
    exact absurd (hbefore.symm.trans (hsame.symm.trans hdestroyed)) (by decide)
  | expire =>
    have hsame := (fileFd_closeConnection s).2.2
    exact absurd (hbefore.symm.trans (hsame.symm.trans hdestroyed)) (by decide)
  | _ => exact absurd (hbefore.symm.trans hdestroyed) (by decide)

theorem tracked_step (hs : Tracked (s, h)) (hstep : step env mode s a = some s') :
    Tracked (s', h.record env s a) where
  oneShot := oneShot_step hs.oneShot hstep
  awaiting := awaiting_step hs.oneShot hs.awaiting hstep
  tracks := tracks_step hs hstep
  reset := reset_step hs.reset hstep
  destroyed := destroyed_step hstep

/-- Closing a connection, if it is open. -/
theorem sound_closeConn (c : HttpConn) :
    (c.closeConn.fileFd = none ∨ c.closeConn.isClosed = false) ↔
      (c.fileFd = none ∨ c.isClosed = false) ∧ ((!c.isClosed) = true → c.fileFd = none) := by
  rw [HttpConn.isClosed_closeConn, fileFd_closeConn]
  cases c.isClosed <;> simp

theorem sound_closeConnection (s : ServedConn) :
    (s.closeConnection.conn.fileFd = none ∨ s.closeConnection.conn.isClosed = false) ↔
      (s.conn.fileFd = none ∨ s.conn.isClosed = false) ∧
        ((s.listed && !s.conn.isClosed) = true → s.conn.fileFd = none) := by
  unfold closeConnection
  split_ifs with hclose
  · rw [Bool.and_eq_true] at hclose
    rw [hclose.1, Bool.true_and]
    exact sound_closeConn s.conn
  · simp [hclose]

/-- Only the last stage of a task closes the connection. -/
theorem closes_work (htask : s.task ≠ some .closeConnection) (answer : Answer) :
    s.closes (.work answer) = false := by
  simp [closes, htask]

/-- A `write` call closes no connection and finishes no file of a closed one. -/
theorem sound_write (ht : h.Tracks s.conn) (results : List SocketResult) :
    ((s.conn.write results).2.fileFd = none ∨ (s.conn.write results).2.isClosed = false) ↔
      (s.conn.fileFd = none ∨ s.conn.isClosed = false) := by
  have hclosed : (s.conn.write results).2.isClosed = s.conn.isClosed := rfl
  rw [hclosed]
  rcases FileHistory.write_fileFd s.conn results with ⟨hok, hnone⟩ | ⟨-, hsame, -⟩
  · refine iff_of_true (.inl hnone) ?_
    by_contra hcut
    rw [not_or, Bool.not_eq_false] at hcut
    exact ht.write_closed hcut.2 (Option.isSome_iff_ne_none.mpr hcut.1) results hok
  · rw [hsame]

theorem sound_process {w w' : World} {success : Bool} {c : HttpConn} (hs : Tracked (s, h))
    (hawaits : s.awaits = true) (hp : HttpConn.process env w s.conn = .ok (success, w', c)) :
    (c.fileFd = none ∨ c.isClosed = false) ↔
      (s.conn.isClosed = true → HttpConn.sendsFile env w s.conn = false) := by
  have hconn : s.conn.Awaiting := hs.awaiting hawaits
  rcases FileHistory.process_files hconn (hs.tracks.held_none hconn.fileFd) hp with
    ⟨hsends, hnone, -⟩ | ⟨hsends, hsome, -, hclosed, -⟩
  · exact iff_of_true (.inl hnone) fun _ => hsends
  · rw [hclosed, hsends, or_iff_right (Option.isSome_iff_ne_none.mp hsome)]
    simp

theorem sound_step (hs : Tracked (s, h)) (hstep : step env mode s a = some s') :
    Sound (s', h.record env s a) ↔ Sound (s, h) ∧ NotCutOff env s a := by
  have ht : h.Tracks s.conn := hs.tracks
  unfold Sound
  dsimp only
  cases steps_of_step hstep with
  | event => simp [NotCutOff, closes]
  | read results htask =>
    obtain ⟨buf, hbuf⟩ := HttpConn.read_eq mode s.conn results
    have hopen := @closes_work s (by simp [htask]) (.read results)
    dsimp only [setConn]
    rw [hbuf]
    simp [NotCutOff, hopen]
  | process w w' success c htask hprocess =>
    have hawaits : s.awaits = true := by simp [awaits, htask]
    exact (sound_process hs hawaits hprocess).trans
      (and_iff_right (.inl (hs.awaiting hawaits).fileFd)).symm
  | writeCallback htask =>
    have hopen := @closes_work s (by simp [htask]) .none
    split_ifs <;> simp [NotCutOff, hopen, modFd]
  | write results htask =>
    have hopen := @closes_work s (by simp [htask]) (.write results)
    exact (sound_write ht results).trans (by simp [NotCutOff, hopen])
  | writeAgain results htask =>
    have hopen := @closes_work s (by simp [htask]) (.write results)
    exact (sound_write ht results).trans (by simp [NotCutOff, hopen])
  | init htask =>
    have hopen := @closes_work s (by simp [htask]) .none
    exact iff_of_true (.inl rfl) ⟨.inl (hs.reset htask), by simp [NotCutOff, hopen]⟩
  | modFd interest htask =>
    have hopen := @closes_work s (by simp [htask]) .none
    simp [NotCutOff, hopen, modFd]
  | closeConnection htask =>
    refine (sound_closeConnection s).trans ?_
    simp [NotCutOff, closes, htask]
  | expire => exact sound_closeConnection s
  | shutdown => exact sound_closeConn s.conn
  | destroy => exact sound_closeConn s.conn

/-- **Every descriptor is closed.** Over every run of a connection, with any requests, any answers of the
    socket and any closing, `m_file_fd` is never set while it names an open descriptor; and once the
    connection is destroyed, every descriptor has been closed exactly once if and only if no file has been
    cut off. -/
theorem run_closedOnce_iff {fd : Int} {ip : Str} {actions : List Action} {p : ServedConn × FileHistory}
    (hr : Transition.run (Transition.withHistory (step env mode) (FileHistory.record env))
      (start fd ip, FileHistory.empty) actions = some p) :
    p.2.overwritten = [] ∧ (p.1.destroyed = true →
      (p.2.ClosedOnce ↔ Transition.Meets (step env mode) (NotCutOff env) (start fd ip) actions)) := by
  have hinv : ∀ s h a s', Tracked (s, h) → step env mode s a = some s' → Tracked (s', h.record env s a) :=
    fun _ _ _ _ => tracked_step
  have hgood : ∀ s h a s', Tracked (s, h) → step env mode s a = some s' →
      (Sound (s', h.record env s a) ↔ Sound (s, h) ∧ NotCutOff env s a) := fun _ _ _ _ => sound_step
  have hp : Tracked p := Transition.run_history_invariant hinv (tracked_start fd ip) hr
  refine ⟨hp.tracks.ordered.overwritten, fun hdestroyed => ?_⟩
  rw [← Transition.run_history_iff hinv hgood (tracked_start fd ip) (.inl rfl) hr,
    hp.tracks.ordered.closedOnce_iff]
  unfold Sound
  rw [hp.destroyed hdestroyed, or_iff_left (by decide)]
  have hheld := hp.tracks.held
  constructor
  · intro hnone
    rw [hnone] at hheld
    exact Option.isNone_iff_eq_none.mp (by simpa using hheld.symm)
  · exact hp.tracks.held_none

/-- A page is requested; then the write event, whose `write` calls get the given answers, and the end of
    the connection. -/
def pageActions (writes : List (List SocketResult)) : List Action :=
  [.event, .work (.read [.received 71 (str "ET /index.html HTTP/1.1\r\n\r\n")]),
    .work (.process HttpConn.loginWorld), .work .none, .event] ++
  writes.map (fun results => .work (.write results)) ++ [.work .none, .destroy]

theorem run_closedOnce_iff_sent :
    ∃ p, Transition.run (Transition.withHistory (step HttpConn.loginEnvironment .LT)
          (FileHistory.record HttpConn.loginEnvironment))
        (start 5 (str "10.0.0.1"), FileHistory.empty) (pageActions [[.accepts 4096, .accepts 5]]) = some p ∧
      p.2 = ⟨1, none, [0], []⟩ ∧
      Transition.Meets (step HttpConn.loginEnvironment .LT) (NotCutOff HttpConn.loginEnvironment)
        (start 5 (str "10.0.0.1")) (pageActions [[.accepts 4096, .accepts 5]]) := by
  obtain ⟨p, hp, hend⟩ := Option.map_eq_some_iff.mp
    (show (Transition.run (Transition.withHistory (step HttpConn.loginEnvironment .LT)
          (FileHistory.record HttpConn.loginEnvironment))
        (start 5 (str "10.0.0.1"), FileHistory.empty) (pageActions [[.accepts 4096, .accepts 5]])).map
          (fun p => (p.2, p.1.destroyed)) =
      some (⟨1, none, [0], []⟩, true) by decide +kernel)
  obtain ⟨hhistory, hdestroyed⟩ := Prod.mk.inj hend
  refine ⟨p, hp, hhistory, ((run_closedOnce_iff hp).2 hdestroyed).mp ?_⟩
  unfold FileHistory.ClosedOnce
  rw [hhistory]
  decide

/-- The client goes away before the file has been sent: its descriptor is never closed. -/
theorem aborted_page_leaks :
    ∃ p, Transition.run (Transition.withHistory (step HttpConn.loginEnvironment .LT)
          (FileHistory.record HttpConn.loginEnvironment))
        (start 5 (str "10.0.0.1"), FileHistory.empty)
        (pageActions [[.accepts 4096, .again], [.fails]]) = some p ∧
      p.1.destroyed = true ∧ p.2 = ⟨1, some 0, [], []⟩ ∧ ¬ p.2.ClosedOnce := by
  obtain ⟨p, hp, hend⟩ := Option.map_eq_some_iff.mp
    (show (Transition.run (Transition.withHistory (step HttpConn.loginEnvironment .LT)
          (FileHistory.record HttpConn.loginEnvironment))
        (start 5 (str "10.0.0.1"), FileHistory.empty)
        (pageActions [[.accepts 4096, .again], [.fails]])).map (fun p => (p.2, p.1.destroyed)) =
      some (⟨1, some 0, [], []⟩, true) by decide +kernel)
  obtain ⟨hhistory, hdestroyed⟩ := Prod.mk.inj hend
  refine ⟨p, hp, hdestroyed, hhistory, ?_⟩
  unfold FileHistory.ClosedOnce
  rw [hhistory]
  decide

end ServedConn

end ModularNetServer
