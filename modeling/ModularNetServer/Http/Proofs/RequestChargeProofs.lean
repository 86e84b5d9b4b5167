import ModularNetServer.Http.RequestCharge
import ModularNetServer.Http.Proofs.RoundTripProofs
import ModularNetServer.Http.Proofs.EscapeProofs
import ModularNetServer.Util.Proofs.RateLimiterProofs

/-!
# When a request is charged once

Every readable event asks the limiter, so a request that comes in several chunks is charged for each of
them, until the limiter refuses one.
-/

namespace ModularNetServer

open Cxx

/-! ## The limiter -/

namespace RateLimiter

/-- A call does not put the limiter out of force. -/
theorem inForce_isLimit (l : RateLimiter) (now : Int) (type key : Str) :
    (l.isLimit now type key).2.InForce type ↔ l.InForce type := by
  rcases isLimit_cases l now type key with heq | ⟨records, info, hrecords, heq⟩
  · rw [heq]
  · rw [heq]
    unfold InForce
    simp [hrecords]

theorem isLimit_of_not_inForce {l : RateLimiter} {type : Str} (h : ¬ l.InForce type) (now : Int) (key : Str) :
    l.isLimit now type key = (false, l) := by
  unfold isLimit
  cases hclose : l.rateLimiterClose with
  | true => rfl
  | false =>
    cases hrecords : l.typeLimitMap type with
    | none => rfl
    | some records => exact absurd ⟨hclose, by rw [hrecords]; rfl⟩ h

end RateLimiter

namespace World

variable {w : World} {ip : Str}

theorem inForce_asked : (w.asked ip).InForce ↔ w.InForce :=
  RateLimiter.inForce_isLimit w.limiter w.now (str "access_ip") ip

theorem admissions_of_inForce (h : w.InForce) (hr : w.refuses ip = false) : w.admissions ip = 1 :=
  if_pos ⟨h, hr⟩

theorem admissions_of_refuses (hr : w.refuses ip = true) : w.admissions ip = 0 := by
  refine if_neg ?_
  rintro ⟨-, hno⟩
  have hyes : (w.limiter.isLimit w.now (str "access_ip") ip).1 = true := hr
  rw [hyes] at hno
  cases hno

theorem admissions_of_not_inForce (h : ¬ w.InForce) : w.admissions ip = 0 := if_neg fun hn => h hn.1

theorem refuses_of_not_inForce (h : ¬ w.InForce) : w.refuses ip = false :=
  congrArg Prod.fst (RateLimiter.isLimit_of_not_inForce h w.now ip)

end World

namespace HttpConn

variable {env : Environment} {mode : TrigMode} {w : World} {c c1 : HttpConn} {side : ReadSide}
  {result : RecvResult} {results chunks chunks' : List RecvResult}

/-! ## One event -/

theorem read_ip (hread : c.read mode [result] = (true, c1)) : c1.ip = c.ip := by
  obtain ⟨buf, hbuf⟩ := read_eq mode c [result]
  rw [hread] at hbuf
  rw [show c1 = _ from hbuf]

/-- The limiter refuses, and the request is not looked at. -/
theorem serveChunks_refused (hread : c.read mode [result] = (true, c1)) (hr : w.refuses c.ip = true) :
    serveChunks env mode w c (result :: results) = (0, .refused) := by
  rw [← read_ip hread] at hr
  have hnone := World.admissions_of_refuses hr
  have hprocess : ∀ w' c', process env w c1 ≠ .ok (false, w', c') := by
    intro w' c' hp
    unfold process at hp
    unfold World.refuses at hr
    dsimp only at hp
    rw [if_pos hr] at hp
    split at hp <;> cases hp
  rw [serveChunks, hread]
  dsimp only
  split
  · rename_i w' c' hp
    exact absurd hp (hprocess w' c')
  · rw [hnone, if_pos hr]

/-- The request is complete, and a handler gets it, whatever comes of that. -/
theorem serveChunks_complete (hread : c.read mode [result] = (true, c1)) (hr : w.refuses c.ip = false)
    (hparse : ReadSide.parseHttpRequest env.parseJson c1.toReadSide = .ok (true, side)) :
    serveChunks env mode w c (result :: results) = (w.admissions c.ip, .handled) := by
  rw [← read_ip hread] at hr ⊢
  have hadmitted : (admitted env w c1).isSome = true := by
    unfold World.refuses at hr
    unfold admitted
    dsimp only
    rw [if_neg (by simp [hr]), hparse]
    rfl
  rw [serveChunks, hread]
  dsimp only
  split
  · rw [if_pos hadmitted]
  · rw [if_neg (by simp [hr]), if_pos hadmitted]

/-- The request is not complete: it has been charged, and the next event charges it again. -/
theorem serveChunks_incomplete (hread : c.read mode [result] = (true, c1)) (hr : w.refuses c.ip = false)
    (hparse : ReadSide.parseHttpRequest env.parseJson c1.toReadSide = .ok (false, side)) :
    serveChunks env mode w c (result :: results) =
      (w.admissions c.ip + (serveChunks env mode (w.asked c.ip) { c1 with toReadSide := side } results).1,
        (serveChunks env mode (w.asked c.ip) { c1 with toReadSide := side } results).2) := by
  rw [← read_ip hread] at hr ⊢
  have hlimited : ¬ (w.isLimit (str "access_ip") c1.ip).1 = true := by
    unfold World.refuses at hr
    simp [hr]
  have hadmitted : ¬ (admitted env w c1).isSome = true := by
    unfold admitted
    dsimp only
    rw [if_neg hlimited, hparse]
    simp
  have hprocess : process env w c1 = .ok (false, w.asked c1.ip, { c1 with toReadSide := side }) := by
    unfold process
    dsimp only
    rw [if_neg hlimited, hparse]
    rfl
  rw [serveChunks, hread]
  dsimp only
  rw [hprocess]
  dsimp only
  rw [if_neg hadmitted]

/-! ## All events of a request -/

/-- The first event, where the limiter refuses it. -/
theorem serveChunks_of_refuses (h : Completes env mode c chunks) (hr : w.refuses c.ip = true) :
    serveChunks env mode w c chunks = (0, .refused) := by
  cases chunks with
  | nil => exact h.elim
  | cons result results => exact serveChunks_refused (Prod.ext h.1 rfl) hr

/-- The first event, where the limiter lets it pass: it is the last one, or the others are served after it. -/
theorem serveChunks_of_passes (h : Completes env mode c chunks) (hr : w.refuses c.ip = false) :
    (chunks.length = 1 ∧ serveChunks env mode w c chunks = (w.admissions c.ip, .handled)) ∨
      2 ≤ chunks.length ∧ ∃ c2 rest, chunks.length = rest.length + 1 ∧ Completes env mode c2 rest ∧ c2.ip = c.ip ∧
        serveChunks env mode w c chunks =
          (w.admissions c.ip + (serveChunks env mode (w.asked c.ip) c2 rest).1,
            (serveChunks env mode (w.asked c.ip) c2 rest).2) := by
  cases chunks with
  | nil => exact h.elim
  | cons result results =>
    obtain ⟨hread, done, side, hparse, hdone, hrest⟩ := h
    have hpair : c.read mode [result] = (true, (c.read mode [result]).2) := Prod.ext hread rfl
    cases done with
    | true =>
      have hnil : results = [] := hdone.mp rfl
      exact .inl ⟨by rw [hnil]; rfl, serveChunks_complete hpair hr hparse⟩
    | false =>
      have hne : results ≠ [] := fun hnil => absurd (hdone.mpr hnil) (by decide)
      have hpos := List.length_pos_iff.mpr hne
      refine .inr ⟨by rw [List.length_cons]; omega, { (c.read mode [result]).2 with toReadSide := side },
        results, rfl, hrest hne, ?_, ?_⟩
      · exact (read_ip hpair : (c.read mode [result]).2.ip = c.ip)
      · exact serveChunks_incomplete hpair hr hparse

/-- Where the limiter is not in force a request is handled, and nothing is consumed. -/
theorem serveChunks_of_not_inForce (h : Completes env mode c chunks) (hforce : ¬ w.InForce) :
    serveChunks env mode w c chunks = (0, .handled) := by
  generalize hlen : chunks.length = n
  induction n generalizing w c chunks with
  | zero =>
    rw [List.length_eq_zero_iff.mp hlen] at h
    exact h.elim
  | succ n ih =>
    have hzero : w.admissions c.ip = 0 := World.admissions_of_not_inForce hforce
    rcases serveChunks_of_passes h (World.refuses_of_not_inForce hforce) with
      ⟨-, heq⟩ | ⟨-, c2, rest, hrest, hcompletes, -, heq⟩
    · rw [heq, hzero]
    · have hnext : ¬ (w.asked c.ip).InForce := fun hn => hforce (World.inForce_asked.mp hn)
      rw [heq, ih hcompletes hnext (by omega), hzero]
      rfl

/-- Where it is in force every event that it lets pass is charged. -/
theorem one_le_serveChunks (h : Completes env mode c chunks) (hforce : w.InForce)
    (hr : w.refuses c.ip = false) : 1 ≤ (serveChunks env mode w c chunks).1 := by
  have hone := World.admissions_of_inForce hforce hr
  rcases serveChunks_of_passes h hr with ⟨-, heq⟩ | ⟨-, c2, rest, -, -, -, heq⟩
  · rw [heq, hone]
  · rw [heq, hone]
    exact Nat.le_add_right _ _

/-- A request whose first event is let pass is charged for that event alone if and only if there is no other
    event, or the second one is refused. -/
theorem serveChunks_once_iff (h : Completes env mode c chunks) (hforce : w.InForce)
    (hr : w.refuses c.ip = false) :
    ((serveChunks env mode w c chunks).1 = 1 ↔ chunks.length = 1 ∨ refusesSecond w c.ip = true) ∧
      (refusesSecond w c.ip = true ∨ chunks.length = 1 → (serveChunks env mode w c chunks).2 =
        if chunks.length = 1 then .handled else .refused) := by
  have hone := World.admissions_of_inForce hforce hr
  rcases serveChunks_of_passes h hr with ⟨hlen, heq⟩ | ⟨hlen, c2, rest, -, hrest, hip, heq⟩
  · rw [heq, hone, if_pos hlen]
    simp [hlen]
  · have hnot : chunks.length ≠ 1 := by omega
    have hforce2 : (w.asked c.ip).InForce := World.inForce_asked.mpr hforce
    rw [heq, hone, if_neg hnot]
    cases hsecond : refusesSecond w c.ip with
    | true =>
      have hrefuses : (w.asked c.ip).refuses c2.ip = true := by rw [hip]; exact hsecond
      rw [serveChunks_of_refuses hrest hrefuses]
      simp
    | false =>
      have hpasses : (w.asked c.ip).refuses c2.ip = false := by rw [hip]; exact hsecond
      have hmore := one_le_serveChunks hrest hforce2 hpasses
      simp only [hnot, Bool.false_eq_true, or_self, iff_false, false_implies, and_true]
      omega

theorem length_pos_of_completes (h : Completes env mode c chunks) : 0 < chunks.length := by
  cases chunks with
  | nil => exact h.elim
  | cons result results => exact Nat.succ_pos _

/-- Cut in two ways, a request is charged once and comes to the same if and only if the limiter is not in
    force or refuses the first event, it comes in one chunk both times, or it comes in several chunks both
    times and the second event is refused. -/
theorem chargedOnce_iff {env : Environment} {mode : TrigMode} {c : HttpConn} {request : Str}
    {chunks chunks' : List RecvResult} (h : Cuts env mode c request chunks)
    (h' : Cuts env mode c request chunks') (w : World) :
    ChargedOnce env mode w c chunks chunks' ↔
      ¬ w.InForce ∨ w.refuses c.ip = true ∨ (chunks.length = 1 ∧ chunks'.length = 1) ∨
        (2 ≤ chunks.length ∧ 2 ≤ chunks'.length ∧ refusesSecond w c.ip = true) := by
  by_cases hforce : w.InForce
  · cases hr : w.refuses c.ip with
    | true =>
      refine iff_of_true ?_ (.inr (.inl rfl))
      have hzero := World.admissions_of_refuses hr
      constructor
      · rw [serveChunks_of_refuses h.completes hr, hzero]
      · rw [serveChunks_of_refuses h'.completes hr, hzero]
      · rw [serveChunks_of_refuses h.completes hr, serveChunks_of_refuses h'.completes hr]
    | false =>
      obtain ⟨honce, hfate⟩ := serveChunks_once_iff h.completes hforce hr
      obtain ⟨honce', hfate'⟩ := serveChunks_once_iff h'.completes hforce hr
      have hpos := length_pos_of_completes h.completes
      have hpos' := length_pos_of_completes h'.completes
      have hone := World.admissions_of_inForce hforce hr
      constructor
      · rintro ⟨hfirst, hsecond, hsame⟩
        have hcase := honce.mp (hfirst.trans hone)
        have hcase' := honce'.mp (hsecond.trans hone)
        rw [hfate hcase.symm, hfate' hcase'.symm] at hsame
        split_ifs at hsame with hlen hlen' hlen'
        · exact .inr (.inr (.inl ⟨hlen, hlen'⟩))
        · exact .inr (.inr (.inr ⟨by omega, by omega, hcase.resolve_left hlen⟩))
      · rintro (hno | hno | ⟨hlen, hlen'⟩ | ⟨hlen, hlen', hsecond⟩)
        · exact absurd hforce hno
        · cases hno
        · refine ⟨(honce.mpr (.inl hlen)).trans hone.symm, (honce'.mpr (.inl hlen')).trans hone.symm, ?_⟩
          rw [hfate (.inr hlen), hfate' (.inr hlen'), if_pos hlen, if_pos hlen']
        · refine ⟨(honce.mpr (.inr hsecond)).trans hone.symm, (honce'.mpr (.inr hsecond)).trans hone.symm, ?_⟩
          rw [hfate (.inl hsecond), hfate' (.inl hsecond), if_neg (by omega), if_neg (by omega)]
  · refine iff_of_true ?_ (.inl hforce)
    have hzero : w.admissions c.ip = 0 := World.admissions_of_not_inForce hforce
    constructor
    · rw [serveChunks_of_not_inForce h.completes hforce, hzero]
    · rw [serveChunks_of_not_inForce h'.completes hforce, hzero]
    · rw [serveChunks_of_not_inForce h.completes hforce, serveChunks_of_not_inForce h'.completes hforce]

/-! ## Cut messages -/

theorem read_received {first : UInt8} {rest : Str} (hfd : c.sockfd ≠ -1)
    (hroom : c.readBuf.idx < readBufferSize) :
    c.read mode [.received first rest] = (true, { c with readBuf := c.readBuf.receive (first :: rest) }) := by
  unfold HttpConn.read
  rw [if_neg (by simp [hfd]; omega)]
  cases mode with
  | LT => rfl
  | ET =>
    simp only [recvAll]
    split_ifs <;> rfl

theorem feed_cons {parseJson : Str → Option Json} {c side : ReadSide} {chunk : Str} {pre : List Str} {b : Bool}
    (hparse : ReadSide.parseHttpRequest parseJson (c.receive chunk) = .ok (b, side)) (hne : pre ≠ []) :
    ReadSide.feed parseJson c (chunk :: pre) = ReadSide.feed parseJson side pre := by
  obtain ⟨next, pre, rfl⟩ := List.exists_cons_of_ne_nil hne
  rw [ReadSide.feed, hparse]

/-- The chunks after the first one fit the connection that has parsed it. -/
theorem fits_tail {parseJson : Str → Option Json} {c side : ReadSide} {chunk : Str} {chunks : List Str} {b : Bool}
    (hparse : ReadSide.parseHttpRequest parseJson (c.receive chunk) = .ok (b, side))
    (hfits : ReadSide.Fits parseJson c (chunk :: chunks)) : ReadSide.Fits parseJson side chunks := by
  intro xs x ys hsplit b' c' hfeed
  have hsplit' : chunk :: chunks = (chunk :: xs) ++ x :: ys := by rw [hsplit, List.cons_append]
  by_cases hxs : xs = []
  · subst hxs
    cases hfeed
    exact hfits _ x ys hsplit' b side hparse
  · exact hfits _ x ys hsplit' b' c' ((feed_cons hparse hxs).trans hfeed)

/-- Chunks that the parser gets in turn are those of a request if it has it with the last one. -/
theorem completes_of_feed {chunks : List RecvResult} (hfd : c.sockfd ≠ -1) (hne : chunks ≠ [])
    (hall : ∀ r ∈ chunks, ∃ first rest, r = .received first rest)
    (hfits : ReadSide.Fits env.parseJson c.toReadSide (chunks.map RecvResult.data))
    (hfeed : ∀ pre, pre ≠ [] → pre <+: chunks.map RecvResult.data → ∃ side,
      ReadSide.feed env.parseJson c.toReadSide pre = .ok (decide (pre = chunks.map RecvResult.data), side)) :
    Completes env mode c chunks := by
  induction chunks generalizing c with
  | nil => exact absurd rfl hne
  | cons result results ih =>
    obtain ⟨first, rest, rfl⟩ := hall result (by simp)
    have hroom : c.readBuf.idx < readBufferSize := by
      have hfit : c.readBuf.idx + (first :: rest).length ≤ readBufferSize :=
        hfits [] (first :: rest) (results.map RecvResult.data) rfl false c.toReadSide rfl
      rw [List.length_cons] at hfit
      omega
    have hread := @read_received mode c first rest hfd hroom
    obtain ⟨side, hside⟩ := hfeed [first :: rest] (by simp) (by simp [RecvResult.data])
    have hparse : ReadSide.parseHttpRequest env.parseJson (c.read mode [.received first rest]).2.toReadSide =
        .ok (decide (results = []), side) := by
      have hlast : ([first :: rest] = (RecvResult.received first rest :: results).map RecvResult.data) =
          (results = []) := by
        simp [RecvResult.data, eq_comm]
      rw [hread]
      refine hside.trans ?_
      simp only [hlast]
    refine ⟨by rw [hread], _, side, hparse, by simp, ?_⟩
    intro hrest
    rw [hread] at hparse ⊢
    have hreceive : ReadSide.parseHttpRequest env.parseJson (c.toReadSide.receive (first :: rest)) =
        .ok (decide (results = []), side) := hparse
    refine @ih { c with toReadSide := side } hfd hrest
      (fun r hr => hall r (List.mem_cons_of_mem _ hr)) (fits_tail hreceive hfits) ?_
    intro pre hpre hprefix
    obtain ⟨side', hside'⟩ := hfeed ((first :: rest) :: pre) (by simp)
      (List.cons_prefix_cons.mpr ⟨rfl, hprefix⟩)
    refine ⟨side', ?_⟩
    rw [feed_cons hreceive hpre] at hside'
    rw [hside']
    simp [RecvResult.data]

/-- A message whose head comes with the first chunk is a request that is cut, however the rest comes. -/
theorem cuts_message {m : Message} (hm : m.WellFormed) (hside : c.toReadSide = ReadSide.init c.ip)
    (hfd : c.sockfd ≠ -1) {first : UInt8} {rest : Str} {results : List RecvResult}
    (hall : ∀ r ∈ results, ∃ first rest, r = .received first rest) (hhead : m.head <+: first :: rest)
    (hlen : (first :: rest).length ≤ readBufferSize)
    (hbytes : received (.received first rest :: results) = m.head ++ m.body) :
    Cuts env mode c (m.head ++ m.body) (.received first rest :: results) := by
  have hall' : ∀ r ∈ RecvResult.received first rest :: results, ∃ first rest, r = .received first rest := by
    intro r hr
    rcases List.mem_cons.mp hr with rfl | hr
    · exact ⟨first, rest, rfl⟩
    · exact hall r hr
  have hflat : ((first :: rest) :: results.map RecvResult.data).flatten = m.head ++ (m.body ++ []) := by
    rw [List.append_nil, ← hbytes]
    rfl
  have hroom : m.body.length + ([] : Str).length ≤ readBufferSize := hm.body_length
  refine ⟨hbytes, completes_of_feed hfd (by simp) hall' ?_ ?_⟩
  · rw [hside]
    exact (ReadSide.clean_and_fits hm c.ip hhead hlen hflat hroom List.prefix_rfl).2
  · intro pre hne hpre
    rw [hside]
    obtain ⟨hwait, hdone⟩ := ReadSide.feed_message env.parseJson c.ip m hm [] (first :: rest)
      (results.map RecvResult.data) hhead hlen hflat hroom pre hne hpre
    by_cases hwhole : pre = (first :: rest) :: results.map RecvResult.data
    · obtain ⟨side, hfeed, -⟩ := hdone (by rw [hwhole, hflat, List.append_nil])
      exact ⟨side, by rw [hfeed]; simp [hwhole, RecvResult.data]⟩
    · obtain ⟨post, hpost⟩ := hpre
      obtain ⟨next, post, rfl⟩ : ∃ next post', post = next :: post' := by
        refine List.exists_cons_of_ne_nil ?_
        rintro rfl
        exact hwhole (by rw [← List.append_nil pre]; exact hpost)
      have hnext : 0 < next.length := by
        have hmem : next ∈ (RecvResult.received first rest :: results).map RecvResult.data := by
          rw [← hpost]
          simp
        obtain ⟨r, hr, rfl⟩ := List.mem_map.mp hmem
        obtain ⟨b, bs, rfl⟩ := hall' r hr
        exact Nat.succ_pos _
      have hshort : pre.flatten.length < (m.head ++ m.body).length := by
        have htotal := congrArg (fun l => l.flatten.length) hpost
        simp only [List.flatten_append, List.flatten_cons, List.length_append] at htotal
        have hflat' := congrArg List.length hflat
        simp only [List.map_cons, RecvResult.data, List.flatten_cons, List.length_append,
          List.length_nil] at hflat' htotal ⊢
        omega
      obtain ⟨side, hfeed⟩ := hwait hshort
      refine ⟨side, ?_⟩
      rw [hfeed]
      simp only [Except.ok.injEq, Prod.mk.injEq, and_true]
      exact (decide_eq_false hwhole).symm

/-- `echoMessage` in one chunk. -/
def echoWhole : List RecvResult := [.received 80 (ReadSide.echoMessage.head ++ ReadSide.echoMessage.body).tail]

/-- `echoMessage` with its body cut. -/
def echoCut : List RecvResult :=
  [.received 80 (ReadSide.echoMessage.head ++ str "a:\r").tail, .received 10 (str "b")]

theorem cuts_echo (env : Environment) (mode : TrigMode) :
    Cuts env mode (fresh 5 (str "10.0.0.1")) (ReadSide.echoMessage.head ++ ReadSide.echoMessage.body) echoWhole ∧
      Cuts env mode (fresh 5 (str "10.0.0.1")) (ReadSide.echoMessage.head ++ ReadSide.echoMessage.body)
        echoCut := by
  constructor
  · exact cuts_message ReadSide.echoMessage_wellFormed rfl (by decide) (by simp)
      (show ReadSide.echoMessage.head <+: ReadSide.echoMessage.head ++ ReadSide.echoMessage.body from
        List.prefix_append _ _) (by decide) rfl
  · exact cuts_message ReadSide.echoMessage_wellFormed rfl (by decide) (by simp)
      (show ReadSide.echoMessage.head <+: ReadSide.echoMessage.head ++ str "a:\r" from
        List.prefix_append _ _) (by decide) rfl

/-- A server whose limiter is closed. -/
def unlimitedWorld : World :=
  World.start (fun _ => 0) (fun _ => 0) (str "1") (fun _ _ => ⟨true, true, true, true, true, true, []⟩)
    ⟨fun _ => none, fun _ => false, 0⟩ true false

theorem chargedOnce_echo_unlimited :
    ChargedOnce plainEnvironment .LT unlimitedWorld (fresh 5 (str "10.0.0.1")) echoWhole echoCut :=
  (chargedOnce_iff (cuts_echo plainEnvironment .LT).1 (cuts_echo plainEnvironment .LT).2 unlimitedWorld).mpr
    (.inl (by decide))

/-- A server that has had nineteen requests from an address. -/
def busyWorld : World := (fun w => w.asked (str "10.0.0.1"))^[19] plainWorld

/-- The twentieth request is answered if it comes in one chunk, and refused if it comes in two. -/
theorem not_chargedOnce_echo :
    ¬ ∀ (env : Environment) (mode : TrigMode) (w : World) (c : HttpConn) (request : Str)
      (chunks chunks' : List RecvResult), Cuts env mode c request chunks → Cuts env mode c request chunks' →
        ChargedOnce env mode w c chunks chunks' := by
  intro h
  obtain ⟨hwhole, hcut⟩ := cuts_echo plainEnvironment .LT
  have hforce : busyWorld.InForce := by decide
  have hpasses : busyWorld.refuses (str "10.0.0.1") = false := by decide
  have hsecond : refusesSecond busyWorld (str "10.0.0.1") = true := by decide
  have hfate := (h _ _ busyWorld _ _ _ _ hwhole hcut).fate
  rw [(serveChunks_once_iff hwhole.completes hforce hpasses).2 (.inl hsecond),
    (serveChunks_once_iff hcut.completes hforce hpasses).2 (.inl hsecond)] at hfate
  exact absurd hfate (by decide)

end HttpConn

end ModularNetServer
