import ModularNetServer.Http.Proofs.ChunkingProofs

/-!
# Parsing undoes serialisation

A `Message` has its headers as names and values. If its head arrives within the first `recv`, every
later call is in the body state, so no search can overrun the received bytes, and the parser gives
the message back once its last byte is there.
-/

namespace ModularNetServer

open Cxx

/-- A request with its headers as names and values. -/
structure Message where
  method : Str
  url : Str
  version : Str
  headers : List (Str × Str)
  body : Str

namespace Message

/-- A header line: `name: value`. -/
def headerLine (kv : Str × Str) : Str := kv.1 ++ 58 :: 32 :: kv.2

/-- The message with its header lines written out. -/
def raw (m : Message) : RawRequest := ⟨m.method, m.url, m.version, m.headers.map headerLine, m.body⟩

/-- Everything up to and including the empty line. -/
def head (m : Message) : Str := m.raw.head

/-- The value that a header name is given last. -/
def lastValue (headers : List (Str × Str)) (key : Str) : Option Str :=
  headers.foldl (fun old kv => if key = kv.1 then some kv.2 else old) none

/-- The values given for the length of the body. -/
def contentLengths (m : Message) : List Str :=
  (m.headers.filter (fun kv => kv.1 = str "Content-Length")).map Prod.snd

/-- `base` holds the message. -/
structure ParsedAs (m : Message) (base : HttpBase) : Prop where
  method : base.method = m.method
  url : base.url = m.url
  version : base.version = m.version
  headers : ∀ key, base.requestHeaders key = lastValue m.headers key
  keepAlive : base.keepAlive = decide (lastValue m.headers (str "connection") = some (str "keep-alive"))
  contentLength : base.contentLength = m.body.length
  body : base.requestBody = m.body

end Message

/-- A header name and value that survive being written as a line. -/
structure IsHeader (kv : Str × Str) : Prop where
  name : ∀ b ∈ kv.1, b ≠ 58 ∧ b ≠ 13 ∧ b ≠ 10 ∧ b ≠ 0
  value : ∀ b ∈ kv.2, b ≠ 13 ∧ b ≠ 10 ∧ b ≠ 0
  noBlank : ∀ b, kv.2.head? = some b → b ≠ 32 ∧ b ≠ 9

/-- The message can be sent: there is exactly one `Content-Length`, the length of the body, or none
    for an empty body. -/
structure Message.WellFormed (m : Message) : Prop where
  method : IsToken m.method
  url : IsToken m.url
  version : IsToken m.version
  headers : ∀ kv ∈ m.headers, IsHeader kv
  contentLength : m.contentLengths = [decimal m.body.length] ∨ m.contentLengths = [] ∧ m.body = []
  body_length : m.body.length ≤ 4096

namespace Message

/-! ## Lines of a message -/

theorem headerLine_isHeaderLine {kv : Str × Str} (h : IsHeader kv) : IsHeaderLine (headerLine kv) := by
  have hmem : ∀ b ∈ headerLine kv, b ≠ 13 ∧ b ≠ 0 := by
    intro b hb
    simp only [headerLine, List.mem_append, List.mem_cons] at hb
    rcases hb with hb | rfl | rfl | hb
    · exact ⟨(h.name b hb).2.1, (h.name b hb).2.2.2⟩
    · decide
    · decide
    · exact ⟨(h.value b hb).1, (h.value b hb).2.2⟩
  exact ⟨by simp [headerLine], Scan.find_eq_none_of_forall_ne fun b hb => (hmem b hb).1,
    fun b hb => (hmem b hb).2⟩

/-- A header line is split into its name and its value. -/
theorem splitHeader_headerLine {kv : Str × Str} (h : IsHeader kv) :
    HttpRequest.splitHeader (headerLine kv) = some kv := by
  refine HttpRequest.splitHeader_line (fun b hb => (h.name b hb).1) h.noBlank ?_
  intro hlast
  exact (h.value 13 (List.mem_of_getLast? hlast)).1 rfl

theorem mem_contentLengths {m : Message} {kv : Str × Str} (h : kv ∈ m.headers)
    (hk : kv.1 = str "Content-Length") : kv.2 ∈ m.contentLengths :=
  List.mem_map_of_mem (List.mem_filter.mpr ⟨h, by simpa using hk⟩)

/-- A message that can be sent is a request that can be sent. -/
theorem raw_wellFormed {m : Message} (h : m.WellFormed) : m.raw.WellFormed where
  method := h.method
  url := h.url
  version := h.version
  lines := by
    intro line hl
    obtain ⟨kv, hkv, rfl⟩ := List.mem_map.mp hl
    exact headerLine_isHeaderLine (h.headers kv hkv)
  announces := by
    intro line hl key value hs hk
    obtain ⟨kv, hkv, rfl⟩ := List.mem_map.mp hl
    rw [splitHeader_headerLine (h.headers kv hkv)] at hs
    cases hs
    have hmem := mem_contentLengths hkv hk
    have hlen := h.body_length
    rcases h.contentLength with hc | ⟨hc, -⟩
    · rw [hc] at hmem
      rw [show value = decimal m.body.length from List.mem_singleton.mp hmem]
      exact stoi_decimal (by omega)
    · rw [hc] at hmem
      cases hmem
  contentLength := by
    rcases h.contentLength with hc | ⟨-, hb⟩
    · have hmem : decimal m.body.length ∈ m.contentLengths := by rw [hc]; exact List.mem_singleton_self _
      obtain ⟨kv, hkv, -⟩ := List.mem_map.mp hmem
      obtain ⟨hin, hk⟩ := List.mem_filter.mp hkv
      refine .inr ⟨headerLine kv, List.mem_map_of_mem hin, kv.2, ?_⟩
      rw [splitHeader_headerLine (h.headers kv hin), ← show kv.1 = str "Content-Length" by simpa using hk]
    · exact .inl hb

/-! ## The fields after the head -/

/-- What a header line of a message changes. -/
theorem applyLine_headerLine {n : Nat} {kv : Str × Str} (h : IsHeader kv)
    (ha : Announces n (headerLine kv)) (base : HttpBase) :
    (HttpRequest.applyLine base (headerLine kv)).method = base.method ∧
    (HttpRequest.applyLine base (headerLine kv)).url = base.url ∧
    (HttpRequest.applyLine base (headerLine kv)).version = base.version ∧
    (HttpRequest.applyLine base (headerLine kv)).requestHeaders =
      base.requestHeaders.insert kv.1 kv.2 ∧
    (HttpRequest.applyLine base (headerLine kv)).keepAlive =
      if kv.1 = str "connection" then decide (kv.2 = str "keep-alive") else base.keepAlive := by
  rw [HttpRequest.applyLine_eq (headerLine_isHeaderLine h) ha (splitHeader_headerLine h)]
  exact ⟨rfl, rfl, rfl, rfl, rfl⟩

/-- What all header lines change. -/
theorem foldl_headerLine {n : Nat} {headers : List (Str × Str)} (h : ∀ kv ∈ headers, IsHeader kv)
    (ha : ∀ kv ∈ headers, Announces n (headerLine kv)) {base base' : HttpBase}
    (hb : (headers.map headerLine).foldl HttpRequest.applyLine base = base') :
    base'.method = base.method ∧ base'.url = base.url ∧ base'.version = base.version ∧
    (∀ key, base'.requestHeaders key =
      headers.foldl (fun old kv => if key = kv.1 then some kv.2 else old) (base.requestHeaders key)) ∧
    (base.keepAlive = decide (base.requestHeaders (str "connection") = some (str "keep-alive")) →
      base'.keepAlive = decide (base'.requestHeaders (str "connection") = some (str "keep-alive"))) := by
  induction headers generalizing base with
  | nil =>
    subst hb
    exact ⟨rfl, rfl, rfl, fun _ => rfl, id⟩
  | cons kv headers ih =>
    obtain ⟨h1, h2, h3, h4, h5⟩ := applyLine_headerLine (h kv (by simp)) (ha kv (by simp)) base
    obtain ⟨i1, i2, i3, i4, i5⟩ := ih (fun l hm => h l (List.mem_cons_of_mem _ hm))
      (fun l hm => ha l (List.mem_cons_of_mem _ hm)) (by rw [← hb]; rfl)
    refine ⟨i1.trans h1, i2.trans h2, i3.trans h3, ?_, fun hk => i5 ?_⟩
    · intro key
      rw [i4 key, h4, Table.insert_apply, List.foldl_cons]
    · rw [h5, h4, Table.insert_apply]
      by_cases hc : kv.1 = str "connection"
      · simp [hc]
      · rw [if_neg hc, if_neg (Ne.symm hc), hk]

/-- The head of a message fills the fields with it; the body is still to come. -/
theorem parsedAs_of_headBase {m : Message} (h : m.WellFormed) (ip : Str) {base : HttpBase}
    (hb : base = { m.raw.headBase (HttpBase.init ip) with
      requestBody := m.body, requestJson := base.requestJson, formData := base.formData }) :
    m.ParsedAs base := by
  have hw := raw_wellFormed h
  have ha : ∀ kv ∈ m.headers, Announces m.body.length (headerLine kv) :=
    fun kv hkv => hw.announces _ (List.mem_map_of_mem hkv)
  obtain ⟨h1, h2, h3, h4, h5⟩ := foldl_headerLine h.headers ha
    (show _ = m.raw.headBase (HttpBase.init ip) from rfl)
  have hlen := @RawRequest.headBase_contentLength _ hw (HttpBase.init ip) rfl
  have hkey : ∀ key, base.requestHeaders key = lastValue m.headers key := by
    intro key
    rw [hb]
    exact h4 key
  refine ⟨?_, ?_, ?_, hkey, ?_, ?_, ?_⟩
  · rw [hb]; exact h1
  · rw [hb]; exact h2
  · rw [hb]; exact h3
  · rw [← hkey, hb]
    exact h5 rfl
  · rw [hb]; exact hlen
  · rw [hb]

end Message

/-! ## Runs that have the head in the first chunk -/

namespace ReadSide

variable {parseJson : Str → Option Json}

/-- What the parser over the received bytes makes of the head of a message and some bytes after
    it. -/
theorem parse_message {m : Message} (h : m.WellFormed) (ip : Str) {tail : Str}
    (ht : tail <+: m.body ∨ m.body <+: tail) :
    (tail.length < m.body.length →
      LineParser.parse parseJson ((init ip).view.append (m.head ++ tail)) =
        .ok (false, ⟨tail, .body, m.raw.headBase (HttpBase.init ip)⟩)) ∧
    (m.body.length ≤ tail.length → ∃ base, m.ParsedAs base ∧
      LineParser.parse parseJson ((init ip).view.append (m.head ++ tail)) =
        .ok (true, ⟨tail.drop m.body.length, .done, base⟩)) := by
  have hw := Message.raw_wellFormed h
  have hlen : (m.raw.headBase (HttpBase.init ip)).contentLength = m.body.length :=
    RawRequest.headBase_contentLength hw rfl
  have hstart : (init ip).view.append (m.head ++ tail) =
      ⟨m.raw.head ++ tail, .requestLine, HttpBase.init ip⟩ := rfl
  rw [hstart, LineParser.parse_head hw]
  refine ⟨fun hlt => LineParser.parse_body_wait (by rw [hlen]; simpa using hlt), ?_⟩
  intro hle
  obtain ⟨base, hb, hp⟩ := @LineParser.parse_body parseJson _ _ _ hlen hle
  refine ⟨base, Message.parsedAs_of_headBase h ip ?_, hp⟩
  obtain ⟨base', hb', heq⟩ := HttpRequest.parseBody_ok parseJson tail m.body.length
    (m.raw.headBase (HttpBase.init ip))
  obtain rfl : base = base' := Except.ok.inj (hb.symm.trans hb')
  have htake : tail.take m.body.length = m.body := by
    rcases ht with ht | ht
    · have hlen' := ht.eq_of_length (le_antisymm ht.length_le hle)
      rw [hlen', List.take_length]
    · exact (List.prefix_iff_eq_take.mp ht).symm
  rw [htake] at heq
  exact heq

/-- What a run has received when its first chunk has the head of the message: the head and some
    bytes after it. -/
theorem exists_tail {m : Message} {x : Str} {xs pre : List Str} {trailing : Str}
    (hhead : m.head <+: x) (hflat : (x :: xs).flatten = m.head ++ (m.body ++ trailing))
    (hne : pre ≠ []) (hpre : pre <+: x :: xs) :
    ∃ tail, pre.flatten = m.head ++ tail ∧ tail <+: m.body ++ trailing := by
  obtain ⟨post, hpost⟩ := hpre
  obtain ⟨y, ys, rfl⟩ := List.exists_cons_of_ne_nil hne
  obtain ⟨rfl, -⟩ := List.cons.inj hpost
  obtain ⟨t, rfl⟩ := hhead
  refine ⟨t ++ ys.flatten, by simp, ?_⟩
  have hf : ((m.head ++ t) :: ys ++ post).flatten = m.head ++ (m.body ++ trailing) := by
    rw [hpost]; exact hflat
  simp only [List.cons_append, List.flatten_cons, List.flatten_append, List.append_assoc] at hf
  rw [← List.append_cancel_left hf, ← List.append_assoc]
  exact List.prefix_append _ _

theorem isPrefix_or_isPrefix {m : Message} {tail trailing : Str} (h : tail <+: m.body ++ trailing) :
    tail <+: m.body ∨ m.body <+: tail := by
  rcases Nat.le_total tail.length m.body.length with hle | hle
  · exact .inl (List.prefix_of_prefix_length_le h (List.prefix_append _ _) hle)
  · exact .inr (List.prefix_of_prefix_length_le (List.prefix_append _ _) h hle)

/-- After the first chunk the parser is past the header lines and has room for the rest. -/
theorem clean_and_fits {m : Message} (h : m.WellFormed) (ip : Str) {x : Str} {xs : List Str}
    {trailing : Str} (hhead : m.head <+: x) (hx : x.length ≤ readBufferSize)
    (hflat : (x :: xs).flatten = m.head ++ (m.body ++ trailing))
    (hroom : m.body.length + trailing.length ≤ readBufferSize) {pre : List Str}
    (hpre : pre <+: x :: xs) :
    Clean parseJson (init ip) pre ∧ Fits parseJson (init ip) pre := by
  suffices hcall : ∀ as a bs, pre = as ++ a :: bs → ∀ b c,
      feed parseJson (init ip) as = .ok (b, c) →
      (c.receive a).SeesOnlyReceived ∧ c.readBuf.idx + a.length ≤ readBufferSize from
    ⟨fun as a bs hs b c hc => (hcall as a bs hs b c hc).1,
      fun as a bs hs b c hc => (hcall as a bs hs b c hc).2⟩
  induction pre using List.reverseRecOn with
  | nil => intro as a bs hs; simp at hs
  | append_singleton pre y ih =>
    have hpre' : pre <+: x :: xs := (List.prefix_append pre [y]).trans hpre
    have ih := ih hpre'
    intro as a bs hs b c hc
    rcases List.eq_nil_or_concat bs with rfl | ⟨bs', z, rfl⟩
    · -- the last call: what was received before it is known
      obtain ⟨rfl, rfl⟩ : pre = as ∧ y = a := by
        have := List.append_inj' hs rfl
        exact ⟨this.1, by simpa using this.2⟩
      by_cases hnil : pre = []
      · subst hnil
        cases hc
        obtain ⟨post, hpost⟩ := hpre
        obtain ⟨rfl, -⟩ := List.cons.inj hpost
        refine ⟨((init_zeroTail ip).receive y).seesOnlyReceived, ?_⟩
        have : (init ip).readBuf.idx = 0 := rfl
        omega
      · have hclean : Clean parseJson (init ip) pre :=
          fun as a bs hs b c hc => (ih as a bs hs b c hc).1
        have hfits : Fits parseJson (init ip) pre :=
          fun as a bs hs b c hc => (ih as a bs hs b c hc).2
        have hv := feed_view hclean hfits
        obtain ⟨tail, htail, htp⟩ := exists_tail hhead hflat hnil hpre'
        obtain ⟨tail', htail', htp'⟩ := exists_tail hhead hflat (by simp) hpre
        have hroom' : tail.length + y.length ≤ readBufferSize := by
          have h1 := htp'.length_le
          rw [List.flatten_append, htail, flatten_singleton, List.append_assoc] at htail'
          rw [← List.append_cancel_left htail'] at h1
          simp only [List.length_append] at h1
          omega
        obtain ⟨hwait, hdone⟩ := @parse_message parseJson _ h ip _ (isPrefix_or_isPrefix htp)
        have hidx : c.view.pending.length = c.readBuf.idx := c.readBuf.pending_length
        rw [hc, htail] at hv
        rcases Nat.lt_or_ge tail.length m.body.length with hlt | hge
        · rw [hwait hlt] at hv
          rw [show c.view = _ from hv.2] at hidx
          have hstate : c.parseState = .body := congrArg LineParser.parseState hv.2
          refine ⟨?_, by simp only at hidx; omega⟩
          intro hs
          rcases hs with hs | hs <;> exact absurd (hstate.symm.trans hs) (by simp)
        · obtain ⟨base, -, hp⟩ := hdone hge
          rw [hp] at hv
          rw [show c.view = _ from hv.2] at hidx
          have hstate : c.parseState = .done := congrArg LineParser.parseState hv.2
          refine ⟨?_, by simp only [List.length_drop] at hidx; omega⟩
          intro hs
          rcases hs with hs | hs <;> exact absurd (hstate.symm.trans hs) (by simp)
    · -- an earlier call
      have hs' : pre = as ++ a :: bs' := by
        have : pre ++ [y] = (as ++ a :: bs') ++ [z] := by rw [hs]; simp
        exact (List.append_inj' this rfl).1
      exact ih as a bs' hs' b c hc

/-- Parsing undoes serialisation: if the head of a message comes with the first chunk, the parser
    answers `false` until the last byte of the body is there, and then has exactly the message and
    leaves exactly the bytes after it. -/
theorem feed_message (parseJson : Str → Option Json) (ip : Str) (m : Message) (h : m.WellFormed)
    (trailing x : Str) (xs : List Str) (hhead : m.head <+: x) (hx : x.length ≤ readBufferSize)
    (hflat : (x :: xs).flatten = m.head ++ (m.body ++ trailing))
    (hroom : m.body.length + trailing.length ≤ readBufferSize) :
    ∀ pre, pre ≠ [] → pre <+: x :: xs →
      (pre.flatten.length < (m.head ++ m.body).length →
        ∃ c, feed parseJson (init ip) pre = .ok (false, c)) ∧
      ((m.head ++ m.body).length ≤ pre.flatten.length →
        ∃ c, feed parseJson (init ip) pre = .ok (true, c) ∧ m.ParsedAs c.httpBase ∧
          c.readBuf.pending = pre.flatten.drop (m.head ++ m.body).length) := by
  intro pre hne hpre
  obtain ⟨hclean, hfits⟩ := @clean_and_fits parseJson _ h ip _ _ _ hhead hx hflat hroom _ hpre
  have hv := feed_view hclean hfits
  obtain ⟨tail, htail, htp⟩ := exists_tail hhead hflat hne hpre
  obtain ⟨hwait, hdone⟩ := @parse_message parseJson _ h ip _ (isPrefix_or_isPrefix htp)
  rw [htail] at hv ⊢
  simp only [List.length_append]
  constructor
  · intro hlt
    rw [hwait (by omega)] at hv
    cases hf : feed parseJson (init ip) pre with
    | error e => rw [hf] at hv; exact hv.elim
    | ok r =>
      rw [hf] at hv
      obtain ⟨b, c⟩ := r
      obtain ⟨rfl, -⟩ : b = false ∧ _ := hv
      exact ⟨c, rfl⟩
  · intro hle
    obtain ⟨base, hbase, hp⟩ := hdone (by omega)
    rw [hp] at hv
    cases hf : feed parseJson (init ip) pre with
    | error e => rw [hf] at hv; exact hv.elim
    | ok r =>
      rw [hf] at hv
      obtain ⟨b, c⟩ := r
      obtain ⟨rfl, hc⟩ : b = true ∧ c.view = _ := hv
      refine ⟨c, rfl, ?_, ?_⟩
      · rw [show c.httpBase = base from congrArg LineParser.httpBase hc]
        exact hbase
      · rw [show c.readBuf.pending = tail.drop m.body.length from congrArg LineParser.pending hc,
          ← List.drop_drop, List.drop_left]

/-- A request whose body has a line end and a colon, and which names a header twice. -/
def echoMessage : Message where
  method := str "POST"
  url := str "/api/echo"
  version := str "HTTP/1.1"
  headers := [(str "Host", str "a"), (str "Content-Length", str "5"), (str "connection", str "close"),
    (str "connection", str "keep-alive")]
  body := str "a:\r\nb"

theorem echoMessage_wellFormed : echoMessage.WellFormed where
  method := ⟨by decide, by decide, by decide⟩
  url := ⟨by decide, by decide, by decide⟩
  version := ⟨by decide, by decide, by decide⟩
  headers := by
    have h : ∀ kv ∈ echoMessage.headers, (∀ b ∈ kv.1, b ≠ 58 ∧ b ≠ 13 ∧ b ≠ 10 ∧ b ≠ 0) ∧
        (∀ b ∈ kv.2, b ≠ 13 ∧ b ≠ 10 ∧ b ≠ 0) ∧ kv.2.head? ≠ some 32 ∧ kv.2.head? ≠ some 9 := by
      decide
    intro kv hkv
    obtain ⟨hname, hvalue, hspace, htab⟩ := h kv hkv
    refine ⟨hname, hvalue, ?_⟩
    intro b hb
    constructor
    · rintro rfl
      exact hspace hb
    · rintro rfl
      exact htab hb
  contentLength := .inl (by decide)
  body_length := by decide

/-- `echoMessage` with the start of the next request behind it, its body cut inside the line end. -/
theorem feed_echoMessage :
    ∃ c, feed (fun _ => none) (init (str "10.0.0.1"))
        [echoMessage.head ++ str "a:\r", str "\nbGET"] = .ok (true, c) ∧
      echoMessage.ParsedAs c.httpBase ∧ c.readBuf.pending = str "GET" :=
  (feed_message (fun _ => none) (str "10.0.0.1") echoMessage echoMessage_wellFormed (str "GET")
    (echoMessage.head ++ str "a:\r") [str "\nbGET"] (List.prefix_append _ _) (by decide) (by decide)
    (by decide) [echoMessage.head ++ str "a:\r", str "\nbGET"] (by decide) List.prefix_rfl).2
    (by decide)

end ReadSide

end ModularNetServer
