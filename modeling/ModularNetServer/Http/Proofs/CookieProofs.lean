import ModularNetServer.Http.Cookies

/-!
# Looking a cookie up

`getRequestCookie` cuts the header at the semicolons and each item at its first equals sign, so it finds
the first cookie with the name, whatever the values contain besides semicolons and line ends.
-/

namespace ModularNetServer

open Cxx

namespace HttpRequest

/-! ## The items of the header -/

/-- After the first item every item comes with the blank of its separator. -/
theorem cookieHeader_pieces (cookie : Str × Str) (cookies : List (Str × Str)) :
    cookieHeader (cookie :: cookies) =
      [59].intercalate (cookieItem cookie :: cookies.map (32 :: cookieItem ·)) := by
  have hsep : str "; " = [59, 32] := by decide
  unfold cookieHeader
  rw [hsep]
  induction cookies generalizing cookie with
  | nil => simp
  | cons next cookies ih =>
    have hnext := ih next
    rw [List.map_cons, List.map_cons, List.intercalate_cons_cons, ← List.map_cons, hnext, List.map_cons,
      List.intercalate_cons_cons]
    cases cookies with
    | nil => simp
    | cons c cs => simp

theorem cookieItem_pieces {cookie : Str × Str} (h : IsCookie cookie) :
    59 ∉ cookieItem cookie ∧ cookieItem cookie ≠ [] := by
  constructor
  · intro hmem
    rcases List.mem_append.mp hmem with hmem | hmem
    · exact (h.name 59 hmem).2.1 rfl
    · rcases List.mem_cons.mp hmem with heq | hmem
      · cases heq
      · exact (h.value 59 hmem).1 rfl
  · simp [cookieItem]

/-- `std::getline` finds the items again. -/
theorem getlines_cookieHeader {cookie : Str × Str} {cookies : List (Str × Str)}
    (h : ∀ c ∈ cookie :: cookies, IsCookie c) :
    getlines 59 (cookieHeader (cookie :: cookies)) =
      cookieItem cookie :: cookies.map (32 :: cookieItem ·) := by
  rw [cookieHeader_pieces]
  refine getlines_intercalate ?_
  intro piece hpiece
  rcases List.mem_cons.mp hpiece with rfl | hpiece
  · exact cookieItem_pieces (h cookie (by simp))
  · obtain ⟨c, hc, rfl⟩ := List.mem_map.mp hpiece
    have hitem := (cookieItem_pieces (h c (by simp [hc]))).1
    refine ⟨?_, by simp⟩
    rw [List.mem_cons, not_or]
    exact ⟨by decide, hitem⟩

/-! ## The search -/

/-- The search stops at an item with the name, whatever blanks stand before it. -/
theorem go_item {key blanks : Str} {cookie : Str × Str} (h : IsCookie cookie)
    (hblanks : ∀ b ∈ blanks, b = 32) (rest : List Str) :
    getRequestCookie.go key ((blanks ++ cookieItem cookie) :: rest) =
      if cookie.1 = key then cookie.2 else getRequestCookie.go key rest := by
  obtain ⟨name, value⟩ := cookie
  have hcut : blanks ++ cookieItem (name, value) = (blanks ++ name) ++ 61 :: value := by
    simp [cookieItem]
  have hfind : Scan.find (str "=") ((blanks ++ name) ++ 61 :: value) = some (blanks ++ name).length := by
    refine Scan.find_singleton_iff.mpr ⟨blanks ++ name, value, rfl, ?_, rfl⟩
    intro hmem
    rcases List.mem_append.mp hmem with hmem | hmem
    · exact absurd (hblanks 61 hmem) (by decide)
    · exact (h.name 61 hmem).1 rfl
  have hname : (blanks ++ name).dropWhile (· == 32) = name := by
    rw [List.dropWhile_append_of_pos (by simpa using hblanks)]
    cases name with
    | nil => rfl
    | cons b name =>
      have hb : b ≠ 32 := fun heq => h.noSpace (by rw [heq]; rfl)
      simp [hb]
  have hvalue : ((blanks ++ name) ++ 61 :: value).drop ((blanks ++ name).length + 1) = value := by
    rw [← List.drop_drop, List.drop_left]
    rfl
  rw [hcut, getRequestCookie.go, hfind]
  dsimp only
  rw [List.take_left, hname, hvalue]

/-- The first cookie with a name, or one of the others. -/
theorem lookup_cons_getD (cookie : Str × Str) (cookies : List (Str × Str)) (key : Str) :
    ((cookie :: cookies).lookup key).getD [] =
      if cookie.1 = key then cookie.2 else (cookies.lookup key).getD [] := by
  obtain ⟨name, value⟩ := cookie
  by_cases hkey : name = key
  · rw [if_pos hkey, hkey, List.lookup_cons_self, Option.getD_some]
  · have hne : (key == name) = false := beq_eq_false_iff_ne.mpr (Ne.symm hkey)
    rw [if_neg hkey, List.lookup_cons, hne]

theorem go_items {key : Str} {cookies : List (Str × Str)} (h : ∀ c ∈ cookies, IsCookie c) :
    getRequestCookie.go key (cookies.map (32 :: cookieItem ·)) = (cookies.lookup key).getD [] := by
  induction cookies with
  | nil => rfl
  | cons cookie cookies ih =>
    have hrest := ih fun c hc => h c (List.mem_cons_of_mem _ hc)
    have hstep := @go_item key [32] cookie (h cookie (by simp)) (by simp)
      (cookies.map (32 :: cookieItem ·))
    rw [List.singleton_append] at hstep
    rw [List.map_cons, hstep, hrest, lookup_cons_getD]

/-- In the header of some cookies the first one with the name is found. -/
theorem getRequestCookie_header {base : HttpBase} {cookies : List (Str × Str)}
    (h : ∀ c ∈ cookies, IsCookie c)
    (hheader : base.requestHeaders (str "Cookie") = some (cookieHeader cookies)) (name : Str) :
    getRequestCookie base name = (cookies.lookup name).getD [] := by
  unfold getRequestCookie
  rw [hheader]
  dsimp only
  cases cookies with
  | nil => rfl
  | cons cookie cookies =>
    have hrest := @go_items name cookies fun c hc => h c (List.mem_cons_of_mem _ hc)
    have hfirst := @go_item name [] cookie (h cookie (by simp)) (by simp)
      (cookies.map (32 :: cookieItem ·))
    rw [List.nil_append] at hfirst
    rw [getlines_cookieHeader h, hfirst, hrest, lookup_cons_getD]

/-! ## The header line -/

theorem cookieItem_head {cookie : Str × Str} (h : IsCookie cookie) {b : UInt8}
    (hb : (cookieItem cookie).head? = some b) : b ≠ 32 ∧ b ≠ 9 := by
  obtain ⟨name, value⟩ := cookie
  cases name with
  | nil =>
    obtain rfl : 61 = b := Option.some.inj hb
    decide
  | cons c name =>
    obtain rfl : c = b := Option.some.inj hb
    exact ⟨fun heq => h.noSpace (congrArg some heq), (h.name c (by simp)).2.2.1⟩

theorem cookieHeader_head {cookies : List (Str × Str)} (h : ∀ c ∈ cookies, IsCookie c) {b : UInt8}
    (hb : (cookieHeader cookies).head? = some b) : b ≠ 32 ∧ b ≠ 9 := by
  cases cookies with
  | nil => cases hb
  | cons cookie cookies =>
    have hcookie := h cookie (by simp)
    refine cookieItem_head hcookie ?_
    rw [← hb]
    unfold cookieHeader
    cases cookies with
    | nil => rw [List.map_singleton, List.intercalate_singleton]
    | cons c cs =>
      rw [List.map_cons, List.map_cons, List.intercalate_cons_cons, List.append_assoc,
        List.head?_append_of_ne_nil _ (cookieItem_pieces hcookie).2]

theorem cookieHeader_noCr {cookies : List (Str × Str)} (h : ∀ c ∈ cookies, IsCookie c) :
    13 ∉ cookieHeader cookies := by
  intro hmem
  rcases mem_intercalate hmem with hmem | ⟨piece, hpiece, hmem⟩
  · exact absurd hmem (by decide)
  · obtain ⟨c, hc, rfl⟩ := List.mem_map.mp hpiece
    rcases List.mem_append.mp hmem with hmem | hmem
    · exact ((h c hc).name 13 hmem).2.2.2.1 rfl
    · rcases List.mem_cons.mp hmem with heq | hmem
      · cases heq
      · exact ((h c hc).value 13 hmem).2.1 rfl

/-- The header line of some cookies is read as the header. -/
theorem headerField_cookieLine {cookies : List (Str × Str)} (h : ∀ c ∈ cookies, IsCookie c) :
    headerField (cookieLine cookies) = some (str "Cookie", cookieHeader cookies) := by
  have hsplit : splitHeader (cookieLine cookies) = some (str "Cookie", cookieHeader cookies) :=
    splitHeader_line (by decide) (fun b hb => cookieHeader_head h hb)
      fun hlast => cookieHeader_noCr h (List.mem_of_getLast? hlast)
  unfold headerField
  rw [if_neg ?_, hsplit]
  rintro (hline | hline)
  · have hnone : splitHeader (str "\r\n") = none := by decide
    rw [hline, hnone] at hsplit
    cases hsplit
  · rw [hline] at hsplit
    cases hsplit

/-- A cookie is looked up in the last `Cookie` line, where the first one with the name is found; without
    such a line none is found. -/
theorem getRequestCookie_cookies {lines : List Str} {base base' : HttpBase}
    (hbase : base.requestHeaders (str "Cookie") = none) (h : parseHeaderLines base lines = .ok base')
    (name : Str) :
    (∀ before cookies after, lines = before ++ cookieLine cookies :: after →
      (∀ c ∈ cookies, IsCookie c) → (∀ line ∈ after, ¬ IsField (str "Cookie") line) →
        getRequestCookie base' name = (cookies.lookup name).getD []) ∧
    ((∀ line ∈ lines, ¬ IsField (str "Cookie") line) → getRequestCookie base' name = []) := by
  constructor
  · rintro before cookies after rfl hcookies hafter
    exact getRequestCookie_header hcookies (requestHeaders_last h (headerField_cookieLine hcookies) hafter) name
  · intro hno
    have hnone := (requestHeaders_kept h hno).trans hbase
    unfold getRequestCookie
    rw [hnone]

/-- Of two cookies with one name the first is found, with the equals sign in its value; a name that ends in
    the one asked for is another name. -/
theorem getRequestCookie_sid :
    ∃ base', parseHeaderLines (HttpBase.init (str "10.0.0.1"))
        [str "Host: a", cookieLine [(str "xid", str "0"), (str "id", str "a=b"), (str "id", [])],
          str "Accept: *"] = .ok base' ∧
      getRequestCookie base' (str "id") = str "a=b" := by
  have hcookies : ∀ c ∈ [(str "xid", str "0"), (str "id", str "a=b"), (str "id", [])], IsCookie c := by
    intro c hc
    simp only [List.mem_cons, List.not_mem_nil, or_false] at hc
    rcases hc with rfl | rfl | rfl <;> exact ⟨by decide, by decide, by decide⟩
  refine ⟨_, rfl, ?_⟩
  refine ((getRequestCookie_cookies rfl rfl (str "id")).1 [str "Host: a"] _ [str "Accept: *"] rfl hcookies
    ?_).trans (by decide)
  intro line hline
  rw [List.mem_singleton.mp hline]
  rintro ⟨value, hvalue⟩
  have hname : (headerField (str "Accept: *")).map Prod.fst = some (str "Cookie") := by
    rw [hvalue]
    rfl
  exact absurd hname (by decide)

end HttpRequest

end ModularNetServer
