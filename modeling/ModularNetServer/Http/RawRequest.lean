import ModularNetServer.Http.LineParser

/-!
# Requests as they are sent

`RawRequest` is a request before serialisation: the three words of the request line, the header
lines and the body. The parser over the received bytes reads the serialised request back line by
line (`LineParser.parse_head`) and then waits for the body (`LineParser.parse_body`).
-/

namespace ModularNetServer

open Cxx

/-- The parts of a request. -/
structure RawRequest where
  method : Str
  url : Str
  version : Str
  lines : List Str
  body : Str

namespace RawRequest

/-- The request line without its end. -/
def requestLine (r : RawRequest) : Str := r.method ++ 32 :: (r.url ++ 32 :: r.version)

/-- The header lines, each with its end. -/
def headerBytes (lines : List Str) : Str := (lines.map (· ++ ReadSide.crlf)).flatten

/-- Everything up to and including the empty line. -/
def head (r : RawRequest) : Str :=
  r.requestLine ++ ReadSide.crlf ++ (headerBytes r.lines ++ ReadSide.crlf)

/-- The bytes of the request. -/
def bytes (r : RawRequest) : Str := r.head ++ r.body

end RawRequest

/-- A word of the request line. -/
structure IsToken (s : Str) : Prop where
  ne_nil : s ≠ []
  noSpace : NoSpace s
  noNul : ∀ b ∈ s, b ≠ 0

/-- A line that is neither empty nor broken by a line end or a NUL. -/
structure IsHeaderLine (s : Str) : Prop where
  ne_nil : s ≠ []
  noCrlf : Scan.find ReadSide.crlf s = none
  noNul : ∀ b ∈ s, b ≠ 0

/-- The header line announces a body of `n` bytes if it is about the length of the body at all. -/
def Announces (n : Nat) (line : Str) : Prop :=
  ∀ key value, HttpRequest.splitHeader line = some (key, value) → key = str "Content-Length" →
    stoi value = .ok (n : Int)

/-- A `Content-Length` line. -/
def IsContentLength (line : Str) : Prop :=
  ∃ value, HttpRequest.splitHeader line = some (str "Content-Length", value)

/-- The request can be sent: its `Content-Length` lines agree with the body, and there is one
    unless the body is empty. -/
structure RawRequest.WellFormed (r : RawRequest) : Prop where
  method : IsToken r.method
  url : IsToken r.url
  version : IsToken r.version
  lines : ∀ line ∈ r.lines, IsHeaderLine line
  announces : ∀ line ∈ r.lines, Announces r.body.length line
  contentLength : r.body = [] ∨ ∃ line ∈ r.lines, IsContentLength line

/-! ## What `parseRange` changes -/

namespace ByteRange

/-- The range after `parseRange` has met the parts of a value. -/
def afterParts (range : ByteRange) (first last : Str) : ByteRange :=
  match HttpBase.parseBound first range.start with
  | .error _ => { range with isValid := false }
  | .ok start =>
    match HttpBase.parseBound last range.stop with
    | .error _ => ⟨start, range.stop, false⟩
    | .ok stop => ⟨start, stop, true⟩

/-- The range after `parseRange` has met a value. -/
def afterValue (range : ByteRange) (value : Str) : ByteRange :=
  if str "bytes=" <+: value then
    match Scan.find (str "-") (value.drop 6) with
    | none => { range with isValid := false }
    | some pos => range.afterParts ((value.drop 6).take pos) ((value.drop 6).drop (pos + 1))
  else range

end ByteRange

namespace HttpBase

/-- A header that has just been stored is found. -/
theorem getHeader_of_insert {base : HttpBase} {headers : Table Str Str} {key value : Str}
    (h : base.requestHeaders = headers.insert key value) : base.getHeader key = value := by
  rw [getHeader, h, Table.insert_self, Option.getD_some]

/-- `parseRange` changes nothing but the range, and that as the value has it. -/
theorem parseRange_eq (base : HttpBase) :
    base.parseRange = { base with range := base.range.afterValue (base.getHeader (str "Range")) } := by
  unfold parseRange ByteRange.afterValue ByteRange.afterParts
  dsimp only
  split_ifs
  · cases Scan.find (str "-") ((base.getHeader (str "Range")).drop 6) with
    | none => rfl
    | some pos =>
      dsimp only
      cases parseBound (((base.getHeader (str "Range")).drop 6).take pos) base.range.start with
      | error e => rfl
      | ok start =>
        dsimp only
        cases parseBound (((base.getHeader (str "Range")).drop 6).drop (pos + 1)) base.range.stop with
        | error e => rfl
        | ok stop => rfl
  · rfl

end HttpBase

/-! ## What the parsing functions do with well-formed lines -/

namespace HttpRequest

/-- The effect of a header line that does not throw. -/
def applyLine (base : HttpBase) (line : Str) : HttpBase :=
  match parseHeaders line base with
  | .ok (_, base) => base
  | .error _ => base

theorem parseRequestLine_tokens {m u v : Str} (hm : IsToken m) (hu : IsToken u) (hv : IsToken v)
    (base : HttpBase) :
    parseRequestLine (m ++ 32 :: (u ++ 32 :: v)) base =
      some { base with method := m, url := u, version := v } := by
  unfold parseRequestLine
  simp only [extract_word hm.noSpace hm.ne_nil, extract_space, extract_word hu.noSpace hu.ne_nil,
    extract_last hv.noSpace hv.ne_nil]
  rw [if_neg (by simp [hm.ne_nil, hu.ne_nil, hv.ne_nil])]

theorem trimValue_of_start {value : Str} (hstart : ∀ b, value.head? = some b → b ≠ 32 ∧ b ≠ 9)
    (hlast : value.getLast? ≠ some 13) : trimValue (32 :: value) = value := by
  have hdrop : (32 :: value).dropWhile (fun b => b == 32 || b == 9) = value := by
    cases value with
    | nil => rfl
    | cons b bs =>
      obtain ⟨h1, h2⟩ := hstart b rfl
      simp [h1, h2]
  unfold trimValue
  rw [hdrop]
  exact if_neg hlast

/-- A line is split at its first colon. -/
theorem splitHeader_text {key : Str} (hkey : ∀ b ∈ key, b ≠ 58) (text : Str) :
    splitHeader (key ++ 58 :: text) = some (key, trimValue text) := by
  have hfind : Scan.find (str ":") (key ++ 58 :: text) = some key.length := by
    have hfound := @Scan.find_append_of_forall_ne _ _ 58 [] key text hkey
    rw [← hfound, List.append_assoc]
    rfl
  have hdrop : (key ++ 58 :: text).drop (key.length + 1) = text := by
    rw [← List.drop_drop, List.drop_left]
    rfl
  unfold splitHeader
  rw [hfind]
  simp only [hdrop]
  rw [List.take_left]

/-- A line `key: value` is split into its key and its value. -/
theorem splitHeader_line {key value : Str} (hkey : ∀ b ∈ key, b ≠ 58)
    (hstart : ∀ b, value.head? = some b → b ≠ 32 ∧ b ≠ 9) (hlast : value.getLast? ≠ some 13) :
    splitHeader (key ++ 58 :: 32 :: value) = some (key, value) := by
  rw [splitHeader_text hkey, trimValue_of_start hstart hlast]

theorem parseHeaders_blank (base : HttpBase) : parseHeaders [] base = .ok (false, base) := by
  simp [parseHeaders]

/-- A line end is not a header line. -/
theorem not_crlf_of_isHeaderLine {line : Str} (h : IsHeaderLine line) : line ≠ str "\r\n" := by
  rintro rfl
  exact absurd h.noCrlf (by decide)

/-- The name and the value that a line adds to the headers; `none` for the empty line and for a line
    without a colon. -/
def headerField (line : Str) : Option (Str × Str) :=
  if line = str "\r\n" ∨ line = [] then none else splitHeader line

/-- The request with one more field; `length` is what a `Content-Length` announces. -/
def withField (base : HttpBase) (key value : Str) (length : Int) : HttpBase :=
  { base with
    requestHeaders := base.requestHeaders.insert key value
    contentLength := if key = str "Content-Length" then length else base.contentLength
    connection := if key = str "connection" then value else base.connection
    keepAlive := if key = str "connection" then decide (value = str "keep-alive") else base.keepAlive
    range := if key = str "Range" then base.range.afterValue value else base.range }

theorem headerField_of_isHeaderLine {line : Str} (h : IsHeaderLine line) : headerField line = splitHeader line :=
  if_neg (by simp [h.ne_nil, not_crlf_of_isHeaderLine h])

/-- What is done with a value once the header is stored and the length is read. -/
theorem applyRange_applyConnection (key value : Str) (length : Int) (base : HttpBase) :
    applyRange key (applyConnection key value { base with
      requestHeaders := base.requestHeaders.insert key value
      contentLength := if key = str "Content-Length" then length else base.contentLength }) =
        withField base key value length := by
  unfold applyConnection applyRange withField
  by_cases hrange : key = str "Range"
  · have hconn : key ≠ str "connection" := by
      rw [hrange]
      decide
    rw [if_neg hconn, if_pos hrange, HttpBase.parseRange_eq,
      @HttpBase.getHeader_of_insert _ base.requestHeaders (str "Range") value (by rw [hrange])]
    simp only [if_neg hconn, if_pos hrange]
  · rw [if_neg hrange, if_neg hrange]
    split_ifs <;> rfl

/-- A line with a field is accepted, unless it announces a length that cannot be read. -/
theorem parseHeaders_of_field {line key value : Str} {length : Int} (hfield : headerField line = some (key, value))
    (hlength : key = str "Content-Length" → stoi value = .ok length) (base : HttpBase) :
    parseHeaders line base = .ok (true, withField base key value length) := by
  unfold headerField at hfield
  split_ifs at hfield with hblank
  unfold parseHeaders
  rw [if_neg hblank, hfield]
  dsimp only
  rw [← applyRange_applyConnection]
  unfold applyContentLength
  by_cases hkey : key = str "Content-Length"
  · rw [if_pos hkey, hlength hkey, if_pos hkey]
  · rw [if_neg hkey, if_neg hkey]

/-- What a line that is accepted does: it has no field, or its field is added. -/
theorem parseHeaders_cases {line : Str} {base base' : HttpBase} {more : Bool}
    (h : parseHeaders line base = .ok (more, base')) :
    headerField line = none ∧ base' = base ∨
      ∃ key value length, headerField line = some (key, value) ∧ base' = withField base key value length := by
  cases hfield : headerField line with
  | none =>
    unfold headerField at hfield
    unfold parseHeaders at h
    split_ifs at h hfield
    · cases h
      exact .inl ⟨rfl, rfl⟩
    · rw [hfield] at h
      cases h
      exact .inl ⟨rfl, rfl⟩
  | some kv =>
    obtain ⟨key, value⟩ := kv
    have hread : ∃ length, key = str "Content-Length" → stoi value = .ok length := by
      by_contra hno
      have hkey : key = str "Content-Length" := by_contra fun hkey => hno ⟨0, fun heq => absurd heq hkey⟩
      unfold headerField at hfield
      split_ifs at hfield with hblank
      unfold parseHeaders applyContentLength at h
      rw [if_neg hblank, hfield] at h
      dsimp only at h
      rw [if_pos hkey] at h
      cases hvalue : stoi value with
      | error e =>
        rw [hvalue] at h
        cases h
      | ok length => exact hno ⟨length, fun _ => hvalue⟩
    obtain ⟨length, hlength⟩ := hread
    rw [parseHeaders_of_field hfield hlength] at h
    cases h
    exact .inr ⟨key, value, length, rfl, rfl⟩

/-- The field that a header line adds. -/
theorem applyLine_eq {n : Nat} {line key value : Str} (hl : IsHeaderLine line) (ha : Announces n line)
    (hsplit : splitHeader line = some (key, value)) (base : HttpBase) :
    applyLine base line = withField base key value n := by
  have hfield := (headerField_of_isHeaderLine hl).trans hsplit
  unfold applyLine
  rw [parseHeaders_of_field hfield (ha key value hsplit)]

/-- A header line that announces the right length is accepted. -/
theorem parseHeaders_line {n : Nat} {line : Str} (hl : IsHeaderLine line) (ha : Announces n line)
    (base : HttpBase) :
    parseHeaders line base = .ok (true, applyLine base line) := by
  cases hs : splitHeader line with
  | none =>
    unfold applyLine parseHeaders
    rw [if_neg (by simp [hl.ne_nil, not_crlf_of_isHeaderLine hl]), hs]
  | some kv =>
    obtain ⟨key, value⟩ := kv
    have hfield := (headerField_of_isHeaderLine hl).trans hs
    rw [parseHeaders_of_field hfield (ha key value hs), applyLine_eq hl ha hs]

/-- Taking a body sets the body and at most the two fields that are read from it. -/
theorem parseBody_ok (parseJson : Str → Option Json) (buf : Str) (n : Nat) (base : HttpBase) :
    ∃ base', parseBody parseJson buf n base = .ok base' ∧
      base' = { base with
        requestBody := buf.take n
        requestJson := base'.requestJson
        formData := base'.formData } := by
  unfold parseBody
  rw [if_neg (by omega)]
  simp only [Int.toNat_natCast]
  split_ifs
  · exact ⟨_, rfl, rfl⟩
  · refine ⟨_, rfl, ?_⟩
    unfold parseJsonBody
    split <;> rfl
  · exact ⟨_, rfl, rfl⟩

/-- What a header line does to the announced length. -/
theorem applyLine_contentLength {n : Nat} {line : Str} (hl : IsHeaderLine line)
    (ha : Announces n line) (base : HttpBase) :
    (IsContentLength line → (applyLine base line).contentLength = n) ∧
    (¬ IsContentLength line → (applyLine base line).contentLength = base.contentLength) := by
  cases hs : splitHeader line with
  | none =>
    have hnone : applyLine base line = base := by
      unfold applyLine parseHeaders
      rw [if_neg (by simp [hl.ne_nil, not_crlf_of_isHeaderLine hl]), hs]
    refine ⟨?_, fun _ => by rw [hnone]⟩
    intro hc
    obtain ⟨value, hv⟩ := hc
    rw [hs] at hv
    cases hv
  | some kv =>
    obtain ⟨key, value⟩ := kv
    rw [applyLine_eq hl ha hs]
    dsimp only [withField]
    constructor
    · rintro ⟨v, hv⟩
      rw [hs] at hv
      cases hv
      exact if_pos rfl
    · intro hn
      refine if_neg (fun hk => hn ⟨value, ?_⟩)
      rw [hs, hk]

/-- After all header lines the announced length is the length of the body. -/
theorem foldl_contentLength {n : Nat} {lines : List Str} (hl : ∀ line ∈ lines, IsHeaderLine line)
    (ha : ∀ line ∈ lines, Announces n line) (base : HttpBase)
    (h : base.contentLength = n ∨ ∃ line ∈ lines, IsContentLength line) :
    (lines.foldl applyLine base).contentLength = n := by
  induction lines generalizing base with
  | nil => simpa using h
  | cons line lines ih =>
    have h1 := applyLine_contentLength (hl line (by simp)) (ha line (by simp)) base
    refine ih (fun l hm => hl l (List.mem_cons_of_mem _ hm))
      (fun l hm => ha l (List.mem_cons_of_mem _ hm)) _ ?_
    by_cases hc : IsContentLength line
    · exact .inl (h1.1 hc)
    · rw [h1.2 hc]
      rcases h with h | ⟨l, hm, hlc⟩
      · exact .inl h
      · rcases List.mem_cons.mp hm with rfl | hm
        · exact absurd hlc hc
        · exact .inr ⟨l, hm, hlc⟩

end HttpRequest

/-! ## Reading the bytes back -/

namespace LineParser

variable {parseJson : Str → Option Json}

/-- A line with its end is found as the next line. -/
theorem lineEnd_line {line : Str} (hc : Scan.find ReadSide.crlf line = none)
    (h0 : ∀ b ∈ line, b ≠ 0) (rest : Str) (s : ParseState) (base : HttpBase) :
    lineEnd ⟨line ++ ReadSide.crlf ++ rest, s, base⟩ = some line.length := by
  have h0' : ∀ b ∈ line ++ ReadSide.crlf, b ≠ 0 := by
    intro b hb
    rcases List.mem_append.mp hb with hb | hb
    · exact h0 b hb
    · rintro rfl
      exact absurd hb (by decide)
  unfold lineEnd
  rw [Scan.upTo_append_of_forall_ne h0']
  exact Scan.find_pair_append (by decide) hc _

theorem take_line (line rest : Str) : (line ++ ReadSide.crlf ++ rest).take line.length = line := by
  rw [List.append_assoc, List.take_left]

theorem drop_line (line rest : Str) :
    (line ++ ReadSide.crlf ++ rest).drop (line.length + 2) = rest :=
  List.drop_left' (by simp [ReadSide.crlf])

/-- The request line is consumed and its words are stored. -/
theorem parse_requestLine {r : RawRequest} (h : r.WellFormed) (rest : Str) (base : HttpBase) :
    parse parseJson ⟨r.requestLine ++ ReadSide.crlf ++ rest, .requestLine, base⟩ =
      parse parseJson
        ⟨rest, .headers, { base with method := r.method, url := r.url, version := r.version }⟩ := by
  have hmem : ∀ b ∈ r.requestLine,
      b = 32 ∨ b ∈ r.method ∨ b ∈ r.url ∨ b ∈ r.version := by
    intro b hb
    simp only [RawRequest.requestLine, List.mem_append, List.mem_cons] at hb
    tauto
  have h0 : ∀ b ∈ r.requestLine, b ≠ 0 := by
    intro b hb
    rcases hmem b hb with rfl | hb | hb | hb
    · decide
    · exact h.method.noNul b hb
    · exact h.url.noNul b hb
    · exact h.version.noNul b hb
  have hcr : ∀ b ∈ r.requestLine, b ≠ 13 := by
    intro b hb hb13
    have hsp : isSpace b = true := by rw [hb13]; decide
    rcases hmem b hb with rfl | hb | hb | hb
    · exact absurd hb13 (by decide)
    · exact absurd (h.method.noSpace b hb) (by simp [hsp])
    · exact absurd (h.url.noSpace b hb) (by simp [hsp])
    · exact absurd (h.version.noSpace b hb) (by simp [hsp])
  have hend := lineEnd_line (Scan.find_eq_none_of_forall_ne hcr) h0 rest .requestLine base
  refine Loop.eval_next ?_
  simp only [step, hend, take_line, drop_line]
  rw [RawRequest.requestLine, HttpRequest.parseRequestLine_tokens h.method h.url h.version]

/-- A header line is consumed and its effect is kept. -/
theorem parse_line {n : Nat} {line : Str} (hl : IsHeaderLine line) (ha : Announces n line)
    (rest : Str) (base : HttpBase) :
    parse parseJson ⟨line ++ ReadSide.crlf ++ rest, .headers, base⟩ =
      parse parseJson ⟨rest, .headers, HttpRequest.applyLine base line⟩ := by
  refine Loop.eval_next ?_
  simp only [step, lineEnd_line hl.noCrlf hl.noNul, take_line, drop_line,
    HttpRequest.parseHeaders_line hl ha]

/-- The empty line ends the headers. -/
theorem parse_blank (rest : Str) (base : HttpBase) :
    parse parseJson ⟨ReadSide.crlf ++ rest, .headers, base⟩ = parse parseJson ⟨rest, .body, base⟩ := by
  have hend := @lineEnd_line [] (by decide) (by simp) rest .headers base
  have hdrop := drop_line [] rest
  simp only [List.nil_append, List.length_nil] at hend hdrop
  refine Loop.eval_next ?_
  simp only [step, hend, List.take_zero, hdrop, HttpRequest.parseHeaders_blank]

theorem parse_lines {n : Nat} {lines : List Str} (hl : ∀ line ∈ lines, IsHeaderLine line)
    (ha : ∀ line ∈ lines, Announces n line) (rest : Str) (base : HttpBase) :
    parse parseJson ⟨RawRequest.headerBytes lines ++ rest, .headers, base⟩ =
      parse parseJson ⟨rest, .headers, lines.foldl HttpRequest.applyLine base⟩ := by
  induction lines generalizing base with
  | nil => rfl
  | cons line lines ih =>
    have h1 := ih (fun l hm => hl l (List.mem_cons_of_mem _ hm))
      (fun l hm => ha l (List.mem_cons_of_mem _ hm)) (HttpRequest.applyLine base line)
    have h2 := @parse_line parseJson _ _ (hl line (by simp)) (ha line (by simp))
      (RawRequest.headerBytes lines ++ rest) base
    rw [List.foldl_cons, ← h1, ← h2]
    simp [RawRequest.headerBytes]

end LineParser

/-- The fields of the request once its head has been read. -/
def RawRequest.headBase (r : RawRequest) (base : HttpBase) : HttpBase :=
  r.lines.foldl HttpRequest.applyLine
    { base with method := r.method, url := r.url, version := r.version }

theorem RawRequest.headBase_contentLength {r : RawRequest} (h : r.WellFormed) {base : HttpBase}
    (h0 : base.contentLength = 0) : (r.headBase base).contentLength = r.body.length := by
  refine HttpRequest.foldl_contentLength h.lines h.announces _ ?_
  rcases h.contentLength with hb | hl
  · exact .inl (by rw [hb]; exact h0)
  · exact .inr hl

namespace LineParser

variable {parseJson : Str → Option Json}

/-- The head of a well-formed request is consumed, whatever follows it. -/
theorem parse_head {r : RawRequest} (h : r.WellFormed) (rest : Str) (base : HttpBase) :
    parse parseJson ⟨r.head ++ rest, .requestLine, base⟩ =
      parse parseJson ⟨rest, .body, r.headBase base⟩ := by
  have h1 := @parse_requestLine parseJson _ h
    (RawRequest.headerBytes r.lines ++ (ReadSide.crlf ++ rest)) base
  have h2 := @parse_lines parseJson _ _ h.lines h.announces (ReadSide.crlf ++ rest)
    { base with method := r.method, url := r.url, version := r.version }
  rw [h2, parse_blank] at h1
  rw [RawRequest.headBase, ← h1]
  simp [RawRequest.head]

/-- The body is awaited. -/
theorem parse_body_wait {pending : Str} {base : HttpBase}
    (h : (pending.length : Int) < base.contentLength) :
    parse parseJson ⟨pending, .body, base⟩ = .ok (false, ⟨pending, .body, base⟩) := by
  refine Loop.eval_exit ?_
  simp only [step, h, if_true]

theorem parse_done (pending : Str) (base : HttpBase) :
    parse parseJson ⟨pending, .done, base⟩ = .ok (true, ⟨pending, .done, base⟩) :=
  Loop.eval_exit rfl

/-- The body is taken once it is there. -/
theorem parse_body {pending : Str} {base : HttpBase} {n : Nat} (hn : base.contentLength = n)
    (h : n ≤ pending.length) :
    ∃ base', HttpRequest.parseBody parseJson pending n base = .ok base' ∧
      parse parseJson ⟨pending, .body, base⟩ = .ok (true, ⟨pending.drop n, .done, base'⟩) := by
  obtain ⟨base', hb, -⟩ := HttpRequest.parseBody_ok parseJson pending n base
  refine ⟨base', hb, ?_⟩
  have hstep : step parseJson ⟨pending, .body, base⟩ =
      .ok (.next ⟨pending.drop n, .done, base'⟩) := by
    have hlen : ¬ (pending.length : Int) < (n : Int) := by omega
    simp only [step, hn, hlen, if_false, hb, Int.toNat_natCast]
  rw [parse, Loop.eval_next hstep]
  exact parse_done _ _

end LineParser

end ModularNetServer
