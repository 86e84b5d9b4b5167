import ModularNetServer.Http.ResponseCalls
import ModularNetServer.Http.Proofs.ResponseProofs

/-!
# A response is read as it was sent

Every sending call writes the response anew, so the data are those of the last one. A reader finds the end of
the header at the first empty line, since no field has a line end, and takes the body by its length, whatever
is in it.
-/

namespace ModularNetServer

open Cxx HttpReader

namespace HttpResponse

/-! ## Headers and cookies -/

theorem keys_setEntry (key value : Str) (entries : List (Str × Str)) :
    (setEntry key value entries).map Prod.fst =
      if key ∈ entries.map Prod.fst then entries.map Prod.fst else entries.map Prod.fst ++ [key] := by
  induction entries with
  | nil => rfl
  | cons kv entries ih =>
    obtain ⟨k, v⟩ := kv
    unfold setEntry
    by_cases hk : k = key
    · simp [hk]
    · rw [if_neg hk, List.map_cons, ih, List.map_cons]
      split_ifs with h1 h2 h2
      · rfl
      · exact absurd (List.mem_cons_of_mem _ h1) h2
      · rcases List.mem_cons.mp h2 with h2 | h2
        · exact absurd h2.symm hk
        · exact absurd h2 h1
      · rfl

theorem mem_setEntry {key value : Str} {entries : List (Str × Str)} (hkeys : (entries.map Prod.fst).Nodup)
    {k v : Str} : (k, v) ∈ setEntry key value entries ↔
      k = key ∧ v = value ∨ k ≠ key ∧ (k, v) ∈ entries := by
  induction entries with
  | nil => simp [setEntry]
  | cons kv entries ih =>
    obtain ⟨k', v'⟩ := kv
    rw [List.map_cons, List.nodup_cons] at hkeys
    unfold setEntry
    by_cases hk : k' = key
    · have hno : ∀ v, (key, v) ∉ entries := by
        intro v hmem
        exact hkeys.1 (List.mem_map.mpr ⟨(key, v), hmem, hk.symm⟩)
      rw [if_pos hk, List.mem_cons, List.mem_cons, Prod.mk.injEq, Prod.mk.injEq, hk]
      by_cases hkey : k = key
      · simp [hkey, hno]
      · simp [hkey]
    · rw [if_neg hk, List.mem_cons, List.mem_cons, ih hkeys.2, Prod.mk.injEq]
      by_cases hkey : k = key
      · simp [hkey, Ne.symm hk]
      · simp [hkey]

/-- Setting an entry sets it in the map that the entries stand for. -/
theorem lists_setEntry {entries : List (Str × Str)} {t : Table Str Str} (h : Table.Lists entries t)
    (key value : Str) : Table.Lists (setEntry key value entries) (t.insert key value) where
  keys := by
    rw [keys_setEntry]
    split_ifs with hmem
    · exact h.keys
    · rw [List.nodup_append]
      refine ⟨h.keys, List.nodup_singleton key, ?_⟩
      intro a ha b hb
      rw [List.mem_singleton.mp hb]
      rintro rfl
      exact hmem ha
  mem_iff := by
    intro k v
    rw [mem_setEntry h.keys, Table.insert_apply, h.mem_iff]
    split_ifs with hk
    · simp [hk, eq_comm]
    · simp [hk]

/-! ## Runs -/

theorem Send.perform_keeps {keepAlive : Bool} {r r' : HttpResponse} {s : Send}
    (h : s.perform keepAlive r = .ok r') : Keeps r r' := by
  cases s with
  | text statusCode title message =>
    cases h
    exact keeps_sendText r keepAlive statusCode title message
  | jsonText statusCode jsonStr =>
    cases h
    exact keeps_sendJsonText r keepAlive statusCode jsonStr
  | json statusCode data => exact keeps_sendJson h
  | restful statusCode message data => exact keeps_sendJson h
  | restfulText statusCode message data => exact keeps_sendJson h

theorem sendJson_data {keepAlive : Bool} {r r' : HttpResponse} {statusCode : Int} {data : Json}
    (h : r.sendJson keepAlive statusCode data = .ok r') :
    ∃ body, data.dump = .ok body ∧ r'.responseData =
      (r.buildResponseHeader keepAlive statusCode (str "OK") (str "application/json")
        (toInt32 body.length)).responseData ++ body := by
  unfold sendJson at h
  cases hdump : data.dump with
  | error e =>
    rw [hdump] at h
    cases h
  | ok body =>
    rw [hdump] at h
    cases h
    exact ⟨body, rfl, rfl⟩

/-- The data are the header for the body, and the body. -/
theorem Send.perform_data {keepAlive : Bool} {r r' : HttpResponse} {s : Send}
    (h : s.perform keepAlive r = .ok r') :
    ∃ body, s.body = .ok body ∧ r'.responseData =
      (r.buildResponseHeader keepAlive s.statusCode s.statusText s.contentType
        (toInt32 body.length)).responseData ++ body := by
  cases s with
  | text statusCode title message =>
    cases h
    exact ⟨_, rfl, rfl⟩
  | jsonText statusCode jsonStr =>
    cases h
    exact ⟨_, rfl, rfl⟩
  | json statusCode data => exact sendJson_data h
  | restful statusCode message data => exact sendJson_data h
  | restfulText statusCode message data => exact sendJson_data h

theorem run_cons {keepAlive : Bool} {r r₃ : HttpResponse} {call : Call} {calls : List Call}
    (h : Run keepAlive r (call :: calls) r₃) :
    ∃ r₁ r₂, Reordered r r₁ ∧ call.perform keepAlive r₁ = .ok r₂ ∧ Run keepAlive r₂ calls r₃ := by
  cases h with
  | cons horder hcall hrun => exact ⟨_, _, horder, hcall, hrun⟩

theorem run_append {keepAlive : Bool} {r r' : HttpResponse} {before after : List Call}
    (h : Run keepAlive r (before ++ after) r') :
    ∃ mid, Run keepAlive r before mid ∧ Run keepAlive mid after r' := by
  induction before generalizing r with
  | nil => exact ⟨r, .nil r, h⟩
  | cons call before ih =>
    obtain ⟨r₁, r₂, horder, hcall, hrun⟩ := run_cons h
    obtain ⟨mid, hbefore, hafter⟩ := ih hrun
    exact ⟨mid, .cons horder hcall hbefore, hafter⟩

/-- The maps of the response hold what has been set. -/
theorem run_lists {keepAlive : Bool} {r r' : HttpResponse} {calls : List Call} {headers cookies : Table Str Str}
    (h : Run keepAlive r calls r') (hheaders : Table.Lists r.responseHeaders headers)
    (hcookies : Table.Lists r.responseCookies cookies) :
    Table.Lists r'.responseHeaders ((headersSet calls).foldl (fun t kv => t.insert kv.1 kv.2) headers) ∧
      Table.Lists r'.responseCookies
        ((cookiesSet calls).foldl (fun t kv => t.insert kv.1 kv.2) cookies) := by
  induction h generalizing headers cookies with
  | nil r => exact ⟨hheaders, hcookies⟩
  | @cons r r₁ r₂ r₃ call calls horder hcall _ ih =>
    have hheaders := hheaders.perm horder.responseHeaders
    have hcookies := hcookies.perm horder.responseCookies
    cases call with
    | setHeader key value =>
      cases hcall
      exact ih (lists_setEntry hheaders key value) hcookies
    | setCookie key value =>
      cases hcall
      exact ih hheaders (lists_setEntry hcookies key value)
    | send s =>
      have hkeeps := Send.perform_keeps hcall
      exact ih (hkeeps.headers ▸ hheaders) (hkeeps.cookies ▸ hcookies)

/-- Calls that do not send leave the data alone. -/
theorem run_data {keepAlive : Bool} {r r' : HttpResponse} {calls : List Call} (h : Run keepAlive r calls r')
    (hno : ∀ s, Call.send s ∉ calls) : r'.responseData = r.responseData := by
  induction h with
  | nil r => rfl
  | @cons r r₁ r₂ r₃ call calls horder hcall _ ih =>
    rw [ih fun s hs => hno s (List.mem_cons_of_mem _ hs), ← horder.responseData]
    cases call with
    | setHeader key value =>
      cases hcall
      rfl
    | setCookie key value =>
      cases hcall
      rfl
    | send s => exact absurd (List.mem_cons_self ..) (hno s)

/-! ## The text of the response -/

/-- The response that `buildResponseHeader` begins, with the blanks that it puts before the values. -/
def framed (r : HttpResponse) (keepAlive : Bool) (statusCode : Int) (statusText contentType body : Str) :
    HttpReader.Response where
  version := str "HTTP/1.1"
  code := Cxx.toString statusCode
  reason := statusText
  fields := [(str "Content-Type", 32 :: contentType), (str "Content-Length", 32 :: decimal body.length)] ++
    r.responseCookies.map (fun kv => (str "Set-Cookie", 32 :: cookieValue kv)) ++
    (str "Connection", 32 :: connectionValue keepAlive) ::
      (if keepAlive then [(str "Keep-Alive", str " timeout=5")] else []) ++
    r.responseHeaders.map fun kv => (kv.1, 32 :: kv.2)
  body := body

/-- The response that a sending call writes, with the blanks that it puts before the values. -/
def written (r : HttpResponse) (keepAlive : Bool) (s : Send) (body : Str) : HttpReader.Response where
  version := str "HTTP/1.1"
  code := Cxx.toString s.statusCode
  reason := s.statusText
  fields := [(str "Content-Type", 32 :: s.contentType), (str "Content-Length", 32 :: decimal body.length)] ++
    r.responseCookies.map (fun kv => (str "Set-Cookie", 32 :: cookieValue kv)) ++
    (str "Connection", 32 :: connectionValue keepAlive) ::
      (if keepAlive then [(str "Keep-Alive", str " timeout=5")] else []) ++
    r.responseHeaders.map fun kv => (kv.1, 32 :: kv.2)
  body := body

theorem toString_length {n : Nat} (h : n < 2 ^ 31) : Cxx.toString (toInt32 n) = decimal n := by
  rw [toInt32_of_lt (by omega) (by omega)]
  unfold Cxx.toString
  rw [if_neg (by omega), Int.natAbs_natCast]

theorem cookieLine_eq (kv : Str × Str) :
    cookieLine kv = fieldLine (str "Set-Cookie", 32 :: cookieValue kv) ++ crlf := by
  have hname : str "Set-Cookie: " = str "Set-Cookie" ++ [58, 32] := by decide
  have hend : str "; Path=/; Max-Age=1800\r\n" = str "; Path=/; Max-Age=1800" ++ crlf := by decide
  unfold cookieLine fieldLine cookieValue
  rw [hname, hend]
  simp only [List.append_assoc, List.cons_append, List.nil_append]

theorem headerLine_eq (kv : Str × Str) : headerLine kv = fieldLine (kv.1, 32 :: kv.2) ++ crlf := by
  have hcolon : str ": " = [58, 32] := by decide
  have hend : str "\r\n" = crlf := by decide
  unfold headerLine fieldLine
  rw [hcolon, hend]
  simp only [List.append_assoc, List.cons_append, List.nil_append]

/-- The lines about the connection. -/
theorem connectionLines_eq (keepAlive : Bool) :
    (if keepAlive then str "Connection: keep-alive\r\nKeep-Alive: timeout=5\r\n" else str "Connection: close\r\n") =
      (((str "Connection", 32 :: connectionValue keepAlive) ::
        (if keepAlive then [(str "Keep-Alive", str " timeout=5")] else [])).map
          fun field => fieldLine field ++ crlf).flatten := by
  cases keepAlive <;> decide

/-- A header with the body that it announces is a response as a reader has it. -/
theorem write_framed (r : HttpResponse) (keepAlive : Bool) (statusCode : Int) (statusText contentType : Str)
    {body : Str} (hbody : body.length < 2 ^ 31) :
    (r.buildResponseHeader keepAlive statusCode statusText contentType (toInt32 body.length)).responseData ++
      body = write (framed r keepAlive statusCode statusText contentType body) := by
  have hversion : str "HTTP/1.1 " = str "HTTP/1.1" ++ [32] := by decide
  have hspace : str " " = [32] := by decide
  have hend : str "\r\n" = crlf := by decide
  have htype : str "Content-Type: " = str "Content-Type" ++ [58, 32] := by decide
  have hlength : str "Content-Length: " = str "Content-Length" ++ [58, 32] := by decide
  have hcookies : (r.responseCookies.map cookieLine).flatten =
      ((r.responseCookies.map fun kv => (str "Set-Cookie", 32 :: cookieValue kv)).map
        fun field => fieldLine field ++ crlf).flatten := by
    rw [List.map_map, List.map_congr_left fun kv _ => cookieLine_eq kv]
    rfl
  have hheaders : (r.responseHeaders.map headerLine).flatten =
      ((r.responseHeaders.map fun kv => (kv.1, 32 :: kv.2)).map
        fun field => fieldLine field ++ crlf).flatten := by
    rw [List.map_map, List.map_congr_left fun kv _ => headerLine_eq kv]
    rfl
  unfold buildResponseHeader write framed
  dsimp only
  rw [hcookies, hheaders, connectionLines_eq, toString_length hbody, hversion, hspace, hend, htype, hlength]
  simp only [List.map_append, List.flatten_append, List.map_cons, List.flatten_cons, fieldLine,
    List.append_assoc, List.cons_append, List.nil_append]

/-- What is sent is a response as a reader has it. -/
theorem write_written (r : HttpResponse) (keepAlive : Bool) (s : Send) {body : Str}
    (hbody : body.length < 2 ^ 31) :
    (r.buildResponseHeader keepAlive s.statusCode s.statusText s.contentType
      (toInt32 body.length)).responseData ++ body = write (written r keepAlive s body) :=
  write_framed r keepAlive s.statusCode s.statusText s.contentType hbody

/-! ## The response can be read -/

theorem toString_bytes (i : Int) : ∀ b ∈ Cxx.toString i, b ≠ 32 ∧ b ≠ 13 := by
  have hdecimal : ∀ b ∈ decimal i.natAbs, b ≠ 32 ∧ b ≠ 13 := by
    intro b hb
    have hdigit := isDigit_of_mem_decimal hb
    constructor
    · rintro rfl
      exact absurd hdigit (by decide)
    · rintro rfl
      exact absurd hdigit (by decide)
  intro b hb
  unfold Cxx.toString at hb
  split_ifs at hb
  · rcases List.mem_cons.mp hb with rfl | hb
    · decide
    · exact hdecimal b hb
  · exact hdecimal b hb

theorem decimal_noBlank (n : Nat) : ∀ b ∈ decimal n, isBlank b = false := by
  intro b hb
  have hspace := isSpace_of_isDigit (isDigit_of_mem_decimal hb)
  simp only [isSpace, Bool.or_eq_false_iff, Bool.and_eq_false_iff, decide_eq_false_iff_not] at hspace
  unfold isBlank
  rw [hspace.1, Bool.false_or, beq_eq_false_iff_ne]
  rintro rfl
  exact absurd hspace.2 (by decide)

/-- The fields as they are read. -/
theorem stripped_framed (r : HttpResponse) (keepAlive : Bool) (statusCode : Int) (statusText : Str)
    {contentType : Str} (htype : strip contentType = contentType) (body : Str) :
    (framed r keepAlive statusCode statusText contentType body).fields.map stripped =
      answerFields keepAlive contentType body.length r.responseCookies r.responseHeaders := by
  have hlength : strip (decimal body.length) = decimal body.length := strip_of_noBlank (decimal_noBlank _)
  have hconnection : ((str "Connection", 32 :: connectionValue keepAlive) ::
      (if keepAlive then [(str "Keep-Alive", str " timeout=5")] else [])).map stripped =
        (str "Connection", connectionValue keepAlive) ::
          (if keepAlive then [(str "Keep-Alive", str "timeout=5")] else []) := by
    cases keepAlive <;> decide
  unfold framed answerFields
  dsimp only
  rw [List.map_append, List.map_append, List.map_append, hconnection, List.map_map, List.map_map]
  simp only [List.map_cons, List.map_nil, stripped, strip_blank, htype, hlength]
  rfl

theorem strip_contentType (s : Send) : strip s.contentType = s.contentType := by
  have htext : strip (str "text/html") = str "text/html" := by decide
  have hjson : strip (str "application/json") = str "application/json" := by decide
  cases s with
  | text => exact htext
  | jsonText | json | restful | restfulText => exact hjson

theorem stripped_written (r : HttpResponse) (keepAlive : Bool) (s : Send) (body : Str) :
    (written r keepAlive s body).fields.map stripped =
      answerFields keepAlive s.contentType body.length r.responseCookies r.responseHeaders :=
  stripped_framed r keepAlive s.statusCode s.statusText (strip_contentType s) body

theorem same_setCookie {name : String} (hcookie : ¬ LetterCase.Same (str "Set-Cookie") (str name))
    (cookies : List (Str × Str)) :
    valuesOf (str name) (cookies.map fun kv => (str "Set-Cookie", strip (cookieValue kv))) = [] := by
  refine valuesOf_eq_nil ?_
  intro field hfield
  obtain ⟨kv, -, rfl⟩ := List.mem_map.mp hfield
  exact hcookie

theorem valuesOf_headers {name : Str} {headers : List (Str × Str)}
    (h : ∀ kv ∈ headers, ¬ LetterCase.Same kv.1 name) :
    valuesOf name (headers.map fun kv => (kv.1, strip kv.2)) = [] := by
  refine valuesOf_eq_nil ?_
  intro field hfield
  obtain ⟨kv, hkv, rfl⟩ := List.mem_map.mp hfield
  exact h kv hkv

/-- The length is announced once. -/
theorem valuesOf_contentLength {keepAlive : Bool} {contentType : Str} {length : Nat}
    {cookies headers : List (Str × Str)}
    (h : ∀ kv ∈ headers, ¬ LetterCase.Same kv.1 (str "Content-Length")) :
    valuesOf (str "Content-Length") (answerFields keepAlive contentType length cookies headers) =
      [decimal length] := by
  have hfirst : valuesOf (str "Content-Length")
      [(str "Content-Type", contentType), (str "Content-Length", decimal length)] = [decimal length] := by
    rw [valuesOf_cons, valuesOf_cons,
      if_neg (by decide : ¬ LetterCase.Same (str "Content-Type") (str "Content-Length")),
      if_pos (LetterCase.Same.refl _)]
    rfl
  have hconnection : valuesOf (str "Content-Length") ((str "Connection", connectionValue keepAlive) ::
      (if keepAlive then [(str "Keep-Alive", str "timeout=5")] else [])) = [] := by
    cases keepAlive <;> decide
  unfold answerFields
  rw [valuesOf_append, valuesOf_append, valuesOf_append, hfirst, hconnection, valuesOf_headers h,
    same_setCookie (by decide)]
  rfl

/-- There is one header about the connection. -/
theorem valuesOf_connection {keepAlive : Bool} {contentType : Str} {length : Nat}
    {cookies headers : List (Str × Str)} (h : ∀ kv ∈ headers, ¬ LetterCase.Same kv.1 (str "Connection")) :
    valuesOf (str "Connection") (answerFields keepAlive contentType length cookies headers) =
      [connectionValue keepAlive] := by
  have hfirst : valuesOf (str "Connection")
      [(str "Content-Type", contentType), (str "Content-Length", decimal length)] = [] := by
    rw [valuesOf_cons, valuesOf_cons,
      if_neg (by decide : ¬ LetterCase.Same (str "Content-Type") (str "Connection")),
      if_neg (by decide : ¬ LetterCase.Same (str "Content-Length") (str "Connection"))]
    rfl
  have hconnection : valuesOf (str "Connection") ((str "Connection", connectionValue keepAlive) ::
      (if keepAlive then [(str "Keep-Alive", str "timeout=5")] else [])) = [connectionValue keepAlive] := by
    cases keepAlive <;> decide
  unfold answerFields
  rw [valuesOf_append, valuesOf_append, valuesOf_append, hfirst, hconnection, valuesOf_headers h,
    same_setCookie (by decide)]
  rfl

theorem isField_blank {name value : Str} (hname : ∀ b ∈ name, b ≠ 58 ∧ b ≠ 13)
    (hvalue : ∀ b ∈ value, b ≠ 13) : IsField (name, 32 :: value) where
  name := hname
  value := by
    intro b hb
    rcases List.mem_cons.mp hb with rfl | hb
    · decide
    · exact hvalue b hb

theorem isField_connection {keepAlive : Bool} {field : Str × Str}
    (h : field ∈ (str "Connection", 32 :: connectionValue keepAlive) ::
      (if keepAlive then [(str "Keep-Alive", str " timeout=5")] else [])) : IsField field := by
  cases keepAlive with
  | true =>
    simp only [if_true, List.mem_cons, List.not_mem_nil, or_false] at h
    rcases h with rfl | rfl
    · exact ⟨by decide, by decide⟩
    · exact ⟨by decide, by decide⟩
  | false =>
    obtain rfl := List.mem_singleton.mp h
    exact ⟨by decide, by decide⟩

theorem isField_cookie {kv : Str × Str} (h : NoLineEnd kv.1 ∧ NoLineEnd kv.2) :
    IsField (str "Set-Cookie", 32 :: cookieValue kv) := by
  refine isField_blank (by decide) ?_
  have hliterals : (∀ b ∈ str "=", b ≠ 13) ∧ ∀ b ∈ str "; Path=/; Max-Age=1800", b ≠ 13 := by decide
  intro b hb
  simp only [cookieValue, List.mem_append] at hb
  rcases hb with ((hb | hb) | hb) | hb
  · exact (h.1 b hb).1
  · exact hliterals.1 b hb
  · exact (h.2 b hb).1
  · exact hliterals.2 b hb

theorem noLineEnd_contentType (s : Send) : NoLineEnd s.contentType := by
  have hliterals : NoLineEnd (str "text/html") ∧ NoLineEnd (str "application/json") := by decide
  cases s with
  | text => exact hliterals.1
  | jsonText | json | restful | restfulText => exact hliterals.2

/-- The response survives being written. -/
theorem isWritable_framed {r : HttpResponse} {keepAlive : Bool} {statusCode : Int}
    {statusText contentType body : Str} {hasBody : BodyRule}
    (hheaders : ∀ kv ∈ r.responseHeaders, NoLineEnd kv.1 ∧ NoLineEnd kv.2 ∧ 58 ∉ kv.1)
    (hcookies : ∀ kv ∈ r.responseCookies, NoLineEnd kv.1 ∧ NoLineEnd kv.2)
    (hlength : ∀ kv ∈ r.responseHeaders, ¬ LetterCase.Same kv.1 (str "Content-Length"))
    (htext : NoLineEnd statusText) (htype : NoLineEnd contentType) (hstrip : strip contentType = contentType)
    (hrule : hasBody (Cxx.toString statusCode)
      (answerFields keepAlive contentType body.length r.responseCookies r.responseHeaders) = true) :
    IsWritable hasBody (framed r keepAlive statusCode statusText contentType body) where
  version := (by decide : ∀ b ∈ str "HTTP/1.1", b ≠ 32 ∧ b ≠ 13)
  code := toString_bytes statusCode
  reason := fun b hb => (htext b hb).1
  fields := by
    intro field hfield
    rcases List.mem_append.mp hfield with hfield | hfield
    · rcases List.mem_append.mp hfield with hfield | hfield
      · rcases List.mem_append.mp hfield with hfield | hfield
        · simp only [List.mem_cons, List.not_mem_nil, or_false] at hfield
          rcases hfield with rfl | rfl
          · exact isField_blank (by decide) fun b hb => (htype b hb).1
          · refine isField_blank (by decide) ?_
            intro b hb
            rintro rfl
            exact absurd (isDigit_of_mem_decimal hb) (by decide)
        · obtain ⟨kv, hkv, rfl⟩ := List.mem_map.mp hfield
          exact isField_cookie (hcookies kv hkv)
      · exact isField_connection hfield
    · obtain ⟨kv, hkv, rfl⟩ := List.mem_map.mp hfield
      obtain ⟨hname, hvalue, hcolon⟩ := hheaders kv hkv
      refine isField_blank ?_ fun b hb => (hvalue b hb).1
      intro b hb
      refine ⟨?_, (hname b hb).1⟩
      rintro rfl
      exact hcolon hb
  contentLength := by
    rw [stripped_framed _ _ _ _ hstrip]
    unfold contentLength
    rw [valuesOf_contentLength hlength]
    exact readNumber_decimal body.length
  hasBody := by
    rw [stripped_framed _ _ _ _ hstrip]
    exact hrule

theorem isWritable_written {r : HttpResponse} {keepAlive : Bool} {s : Send} {body : Str} {hasBody : BodyRule}
    (hheaders : ∀ kv ∈ r.responseHeaders, NoLineEnd kv.1 ∧ NoLineEnd kv.2 ∧ 58 ∉ kv.1)
    (hcookies : ∀ kv ∈ r.responseCookies, NoLineEnd kv.1 ∧ NoLineEnd kv.2)
    (hlength : ∀ kv ∈ r.responseHeaders, ¬ LetterCase.Same kv.1 (str "Content-Length"))
    (htext : NoLineEnd s.statusText)
    (hrule : hasBody (Cxx.toString s.statusCode)
      (answerFields keepAlive s.contentType body.length r.responseCookies r.responseHeaders) = true) :
    IsWritable hasBody (written r keepAlive s body) :=
  isWritable_framed hheaders hcookies hlength htext (noLineEnd_contentType s) (strip_contentType s) hrule

/-- Whatever has been sent and set before, what is to be sent is the response to the last sending call: a
    reader finds its status line, its header fields, the length of its body and the body, and nothing else. -/
theorem run_reads {keepAlive : Bool} {r r' : HttpResponse} {before after : List Call} {s : Send}
    (h : Run keepAlive r.init (before ++ .send s :: after) r') (hafter : ∀ s, Call.send s ∉ after)
    (hset : Settable before) (htext : NoLineEnd s.statusText)
    (hshort : ∀ body, s.body = .ok body → body.length < 2 ^ 31) :
    ∃ answer, IsAnswer keepAlive before s answer ∧ read always r'.responseData = some (answer, []) ∧
      ∀ hasBody : BodyRule, hasBody answer.code answer.fields = true →
        read hasBody r'.responseData = some (answer, []) := by
  obtain ⟨mid, hbefore, hrun⟩ := run_append h
  obtain ⟨hheaders, hcookies⟩ := run_lists hbefore Table.lists_empty Table.lists_empty
  obtain ⟨r₁, r₂, horder, hcall, hrest⟩ := run_cons hrun
  have hheaders₁ := hheaders.perm horder.responseHeaders
  have hcookies₁ := hcookies.perm horder.responseCookies
  obtain ⟨body, hbody, hdata⟩ := Send.perform_data hcall
  have hwritten := write_written r₁ keepAlive s (hshort body hbody)
  have hset_headers : ∀ kv ∈ r₁.responseHeaders, kv ∈ headersSet before :=
    fun kv hkv => Table.mem_of_ofList ((hheaders₁.mem_iff kv.1 kv.2).mp hkv)
  have hset_cookies : ∀ kv ∈ r₁.responseCookies, kv ∈ cookiesSet before :=
    fun kv hkv => Table.mem_of_ofList ((hcookies₁.mem_iff kv.1 kv.2).mp hkv)
  have hlength : ∀ kv ∈ r₁.responseHeaders, ¬ LetterCase.Same kv.1 (str "Content-Length") :=
    fun kv hkv => hset.contentLength kv (hset_headers kv hkv)
  have hread : ∀ hasBody : BodyRule, hasBody (Cxx.toString s.statusCode)
      (answerFields keepAlive s.contentType body.length r₁.responseCookies r₁.responseHeaders) = true →
        read hasBody r'.responseData = some (⟨str "HTTP/1.1", Cxx.toString s.statusCode, s.statusText,
          answerFields keepAlive s.contentType body.length r₁.responseCookies r₁.responseHeaders, body⟩, []) := by
    intro hasBody hrule
    have hwritable := isWritable_written (fun kv hkv => hset.headers kv (hset_headers kv hkv))
      (fun kv hkv => hset.cookies kv (hset_cookies kv hkv)) hlength htext hrule
    have hback := read_write hwritable []
    rw [List.append_nil, stripped_written, ← hwritten, ← hdata, ← run_data hrest hafter] at hback
    exact hback
  refine ⟨_, ?_, hread always rfl, hread⟩
  exact {
    version := rfl
    code := rfl
    reason := rfl
    body := hbody
    fields := ⟨_, _, hcookies₁, hheaders₁, rfl⟩
    contentLength := valuesOf_contentLength hlength
    connection := fun hno => valuesOf_connection fun kv hkv => hno kv (hset_headers kv hkv) }

theorem reordered_refl (r : HttpResponse) : Reordered r r := ⟨rfl, .refl _, .refl _, rfl⟩

/-- A page that is not found, between a header and a cookie. -/
def notFoundCalls : List Call :=
  [.setHeader (str "Vary") (str "*"), .send (.text 404 (str "Not Found") (str "none")),
    .setCookie (str "sid") (str "1")]

/-- A text that looks like the end of a header. -/
def headerLike : Send := .jsonText (-1) (str "\r\n\r\nContent-Length: 0\r\n\r\n")

/-- Two responses, of which the second is the one that is sent. -/
theorem run_reads_twice :
    ∃ r', Run false empty.init (notFoundCalls ++ .send headerLike :: [.setHeader (str "Late") (str "1")]) r' ∧
      ∃ answer, IsAnswer false notFoundCalls headerLike answer ∧
        read always r'.responseData = some (answer, []) := by
  obtain ⟨r', hrun⟩ : ∃ r', Run false empty.init
      (notFoundCalls ++ .send headerLike :: [.setHeader (str "Late") (str "1")]) r' :=
    ⟨_, .cons (reordered_refl _) rfl (.cons (reordered_refl _) rfl (.cons (reordered_refl _) rfl
      (.cons (reordered_refl _) rfl (.cons (reordered_refl _) rfl (.nil _)))))⟩
  have hset : Settable notFoundCalls := ⟨by decide, by decide, by decide⟩
  have hshort : ∀ body, headerLike.body = .ok body → body.length < 2 ^ 31 := by
    intro body hbody
    cases hbody
    decide
  obtain ⟨answer, hanswer, hread, -⟩ := run_reads hrun (by simp) hset (by decide) hshort
  exact ⟨r', hrun, answer, hanswer, hread⟩

end HttpResponse

end ModularNetServer
