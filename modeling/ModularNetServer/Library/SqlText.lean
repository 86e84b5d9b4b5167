import Mathlib.Data.List.Basic
import ModularNetServer.Library.CxxText

/-!
# The tokens of an SQL text

How MySQL splits the text of a statement: words, symbols, literals in quotes, and comments, which are
skipped. In a literal a doubled quote and a backslash with the byte after it stand for one byte, except that
`\%` and `\_` stand for themselves.
-/

namespace SqlText

open Cxx

inductive Token
  | word (w : Str)
  | symbol (b : UInt8)
  | text (value : Str)
  deriving DecidableEq

/-- What a backslash and the byte after it stand for. -/
def escaped (b : UInt8) : Str :=
  if b = 48 then [0]
  else if b = 98 then [8]
  else if b = 110 then [10]
  else if b = 114 then [13]
  else if b = 116 then [9]
  else if b = 90 then [26]
  else if b = 37 ∨ b = 95 then [92, b]
  else [b]

/-- The value of a literal, read from behind its opening quote, and what follows the literal. -/
def literal (quote : UInt8) : Str → Option (Str × Str)
  | [] => none
  | [b] => if b = quote then some ([], []) else none
  | b :: c :: rest =>
    if b = 92 then (literal quote rest).map fun r => (escaped c ++ r.1, r.2)
    else if b = quote then
      if c = quote then (literal quote rest).map fun r => (quote :: r.1, r.2) else some ([], c :: rest)
    else (literal quote (c :: rest)).map fun r => (b :: r.1, r.2)

/-- The bytes of words. -/
def isWord (b : UInt8) : Bool :=
  (48 ≤ b && b ≤ 57) || (65 ≤ b && b ≤ 90) || (97 ≤ b && b ≤ 122) || b == 95 || b == 36 || 128 ≤ b

/-- Does what follows one `-` start a comment with it? -/
def dashComment : Str → Bool
  | [45] => true
  | 45 :: b :: _ => b ≤ 32
  | _ => false

/-- One token, or something that is skipped, and the text after it. -/
def next (b : UInt8) (rest : Str) : Option (Option Token × Str) :=
  if isSpace b then some (none, rest)
  else if b = 35 ∨ (b = 45 ∧ dashComment rest = true) then some (none, rest.dropWhile (· ≠ 10))
  else if b = 47 ∧ rest.head? = some 42 then
    (Scan.find (str "*/") rest.tail).map fun n => (none, rest.tail.drop (n + 2))
  else if b = 39 ∨ b = 34 then (literal b rest).map fun r => (some (.text r.1), r.2)
  else if isWord b then some (some (.word (b :: rest.takeWhile isWord)), rest.dropWhile isWord)
  else some (some (.symbol b), rest)

/-- The tokens of a text; every one takes at least a byte. -/
def lexFrom : Nat → Str → Option (List Token)
  | 0, _ => none
  | _ + 1, [] => some []
  | n + 1, b :: rest =>
    match next b rest with
    | none => none
    | some (token, rest) => (lexFrom n rest).map fun tokens => token.toList ++ tokens

/-- The tokens of a text, if no literal and no comment is left open. -/
def lex (s : Str) : Option (List Token) := lexFrom (s.length + 1) s

/-- The least number of bytes that a token is written with. -/
def Token.weight : Token → Nat
  | word w => w.length
  | symbol _ => 1
  | text value => value.length + 2

/-- Between quotes the text stands for itself: it has no such quote, and every backslash is followed by `%`
    or `_`. -/
def Verbatim (quote : UInt8) : Str → Prop
  | [] => True
  | [b] => b ≠ quote ∧ b ≠ 92
  | b :: c :: rest =>
    if b = 92 then (c = 37 ∨ c = 95) ∧ Verbatim quote rest else b ≠ quote ∧ Verbatim quote (c :: rest)

/-! ## Literals -/

theorem escaped_length_le (b : UInt8) : (escaped b).length ≤ 2 := by
  unfold escaped
  split_ifs <;> simp

/-- An escape stands for two bytes only if it stands for itself. -/
theorem escaped_length_eq {b : UInt8} (h : (escaped b).length = 2) : (b = 37 ∨ b = 95) ∧ escaped b = [92, b] := by
  unfold escaped at h ⊢
  split_ifs at h ⊢ with h1 h2 h3 h4 h5 h6 h7
  all_goals first | exact ⟨h7, rfl⟩ | simp at h

theorem Verbatim.cons {quote b : UInt8} (hq : b ≠ quote) (hb : b ≠ 92) {s : Str} (h : Verbatim quote s) :
    Verbatim quote (b :: s) := by
  cases s with
  | nil => exact ⟨hq, hb⟩
  | cons c rest =>
    rw [Verbatim, if_neg hb]
    exact ⟨hq, h⟩

/-- What is read as a literal ends with the quote. The value is not longer than what stands for it, and is the
    same text if it is as long. -/
theorem literal_spec {quote : UInt8} {s value rest : Str} (h : literal quote s = some (value, rest)) :
    ∃ body, s = body ++ quote :: rest ∧ value.length ≤ body.length ∧
      (value.length = body.length → body = value ∧ Verbatim quote value) := by
  fun_induction literal quote s generalizing value with
  | case1 => cases h
  | case2 =>
    cases h
    exact ⟨[], rfl, le_rfl, fun _ => ⟨rfl, trivial⟩⟩
  | case3 => cases h
  | case4 c rest' ih =>
    -- a backslash and the byte after it
    obtain ⟨⟨value', r⟩, hlit, heq⟩ := Option.map_eq_some_iff.mp h
    obtain ⟨rfl, rfl⟩ := Prod.mk.inj heq
    obtain ⟨body, rfl, hle, hsame⟩ := ih hlit
    have hc := escaped_length_le c
    refine ⟨92 :: c :: body, rfl, ?_, ?_⟩
    · simp only [List.length_append, List.length_cons]
      omega
    · intro hlen
      simp only [List.length_append, List.length_cons] at hlen
      obtain ⟨hself, hescaped⟩ := @escaped_length_eq c (by omega)
      obtain ⟨rfl, hverb⟩ := hsame (by omega)
      rw [hescaped]
      exact ⟨rfl, by simpa [Verbatim] using ⟨hself, hverb⟩⟩
  | case5 rest' hb ih =>
    -- a doubled quote
    obtain ⟨⟨value', r⟩, hlit, heq⟩ := Option.map_eq_some_iff.mp h
    obtain ⟨rfl, rfl⟩ := Prod.mk.inj heq
    obtain ⟨body, rfl, hle, -⟩ := ih hlit
    refine ⟨quote :: quote :: body, rfl, ?_, ?_⟩
    · simp only [List.length_cons]
      omega
    · intro hlen
      simp only [List.length_cons] at hlen
      omega
  | case6 c rest' hb hc =>
    cases h
    exact ⟨[], rfl, le_rfl, fun _ => ⟨rfl, trivial⟩⟩
  | case7 b c rest' hb hq ih =>
    obtain ⟨⟨value', r⟩, hlit, heq⟩ := Option.map_eq_some_iff.mp h
    obtain ⟨rfl, rfl⟩ := Prod.mk.inj heq
    obtain ⟨body, hbody, hle, hsame⟩ := ih hlit
    refine ⟨b :: body, by rw [hbody]; rfl, ?_, ?_⟩
    · simpa using hle
    · intro hlen
      obtain ⟨rfl, hverb⟩ := hsame (by simpa using hlen)
      exact ⟨rfl, hverb.cons hq hb⟩

theorem literal_close {quote : UInt8} (hquote : quote ≠ 92) {rest : Str} (hrest : rest.head? ≠ some quote) :
    literal quote (quote :: rest) = some ([], rest) := by
  cases rest with
  | nil => simp [literal]
  | cons c rest =>
    have hc : c ≠ quote := fun hc => hrest (by rw [hc]; rfl)
    simp [literal, hquote, hc]

/-- A text that stands for itself is read back. -/
theorem literal_append {quote : UInt8} (hquote : quote ≠ 92) {s rest : Str} (h : Verbatim quote s)
    (hrest : rest.head? ≠ some quote) : literal quote (s ++ quote :: rest) = some (s, rest) := by
  fun_induction Verbatim quote s with
  | case1 => exact literal_close hquote hrest
  | case2 b =>
    obtain ⟨hq, hb⟩ := h
    rw [List.cons_append, List.nil_append, literal, if_neg hb, if_neg hq, literal_close hquote hrest]
    rfl
  | case3 c rest' ih =>
    obtain ⟨hc, hrest'⟩ := h
    have hescaped : escaped c = [92, c] := by rcases hc with rfl | rfl <;> rfl
    rw [List.cons_append, List.cons_append, literal, if_pos rfl, ih hrest', hescaped]
    rfl
  | case4 b c rest' hb ih =>
    obtain ⟨hq, hrest'⟩ := h
    rw [List.cons_append, List.cons_append, literal, if_neg hb, if_neg hq, ← List.cons_append, ih hrest']
    rfl

/-- A backslash is followed by `%` or `_`. -/
def EscapesKept (s : Str) : Prop :=
  ∀ i : Nat, s[i]? = some 92 → s[i + 1]? = some 37 ∨ s[i + 1]? = some 95

theorem escapesKept_nil : EscapesKept [] := fun i h => by simp at h

theorem escapesKept_cons (b : UInt8) (s : Str) :
    EscapesKept (b :: s) ↔ (b = 92 → s.head? = some 37 ∨ s.head? = some 95) ∧ EscapesKept s := by
  unfold EscapesKept
  rw [← Nat.and_forall_add_one]
  simp [List.head?_eq_getElem?]

/-- What standing for itself means, byte by byte. -/
theorem verbatim_iff {quote : UInt8} (h37 : quote ≠ 37) (h95 : quote ≠ 95) (h92 : quote ≠ 92) (s : Str) :
    Verbatim quote s ↔ (∀ b ∈ s, b ≠ quote) ∧ EscapesKept s := by
  fun_induction Verbatim quote s with
  | case1 => simp [escapesKept_nil]
  | case2 b => simp [escapesKept_cons b, escapesKept_nil]
  | case3 c rest ih =>
    simp only [List.forall_mem_cons, escapesKept_cons, List.head?_cons, Option.some.injEq, forall_true_left, ih]
    constructor
    · rintro ⟨rfl | rfl, hne, hkept⟩
      · exact ⟨⟨h92.symm, h37.symm, hne⟩, .inl rfl, fun h => by simp at h, hkept⟩
      · exact ⟨⟨h92.symm, h95.symm, hne⟩, .inr rfl, fun h => by simp at h, hkept⟩
    · rintro ⟨⟨-, -, hne⟩, hc, -, hkept⟩
      exact ⟨hc, hne, hkept⟩
  | case4 b c rest hb ih =>
    rw [ih, List.forall_mem_cons, escapesKept_cons b]
    simp [hb, and_assoc]

/-! ## Tokens -/

theorem lex_nil : lex [] = some [] := rfl

/-- What a token takes of the text. -/
theorem next_length {b : UInt8} {rest r : Str} {token : Option Token} (h : next b rest = some (token, r)) :
    r.length ≤ rest.length ∧ (token.elim 0 Token.weight) + r.length ≤ rest.length + 1 := by
  unfold next at h
  split_ifs at h with h1 h2 h3 h4 h5
  · cases h
    simp
  · cases h
    have := (List.dropWhile_sublist (fun x : UInt8 => x ≠ 10) (l := rest)).length_le
    simp only [Option.elim_none]
    omega
  · obtain ⟨n, hn, heq⟩ := Option.map_eq_some_iff.mp h
    cases heq
    simp only [Option.elim_none, List.length_drop, List.length_tail]
    omega
  · obtain ⟨⟨value, r'⟩, hlit, heq⟩ := Option.map_eq_some_iff.mp h
    cases heq
    obtain ⟨body, rfl, hle, -⟩ := literal_spec hlit
    simp only [Option.elim_some, Token.weight, List.length_append, List.length_cons]
    omega
  · cases h
    have := congrArg List.length (List.takeWhile_append_dropWhile (p := isWord) (l := rest))
    rw [List.length_append] at this
    simp only [Option.elim_some, Token.weight, List.length_cons]
    omega
  · cases h
    simp only [Option.elim_some, Token.weight]
    omega

/-- Enough passes are as good as any more. -/
theorem lexFrom_eq {n m : Nat} {s : Str} (hn : s.length < n) (hm : s.length < m) : lexFrom n s = lexFrom m s := by
  induction n generalizing m s with
  | zero => omega
  | succ n ih =>
    obtain ⟨m, rfl⟩ : ∃ k, m = k + 1 := ⟨m - 1, by omega⟩
    cases s with
    | nil => rfl
    | cons b rest =>
      simp only [List.length_cons] at hn hm
      simp only [lexFrom]
      cases hnext : next b rest with
      | none => rfl
      | some r =>
        obtain ⟨token, r⟩ := r
        have hle := (next_length hnext).1
        simp only [@ih m r (by omega) (by omega)]

theorem lex_cons (b : UInt8) (rest : Str) :
    lex (b :: rest) =
      match next b rest with
      | none => none
      | some (token, rest) => (lex rest).map fun tokens => token.toList ++ tokens := by
  rw [lex, lexFrom]
  cases hnext : next b rest with
  | none => rfl
  | some r =>
    obtain ⟨token, r⟩ := r
    have hle := (next_length hnext).1
    simp only [lex, @lexFrom_eq (b :: rest).length (r.length + 1) r (by simp only [List.length_cons]; omega)
      (by omega)]

theorem lex_space {b : UInt8} (h : isSpace b = true) (rest : Str) : lex (b :: rest) = lex rest := by
  rw [lex_cons, next, if_pos h]
  simp

/-- A byte that is neither in words nor starts anything longer. -/
def IsSymbol (b : UInt8) : Prop :=
  isSpace b = false ∧ isWord b = false ∧ b ≠ 35 ∧ b ≠ 45 ∧ b ≠ 47 ∧ b ≠ 39 ∧ b ≠ 34

instance (b : UInt8) : Decidable (IsSymbol b) := inferInstanceAs (Decidable (_ ∧ _))

theorem lex_symbol {b : UInt8} (h : IsSymbol b) (rest : Str) :
    lex (b :: rest) = (lex rest).map (Token.symbol b :: ·) := by
  obtain ⟨hspace, hword, h35, h45, h47, h39, h34⟩ := h
  rw [lex_cons]
  simp [next, hspace, hword, h35, h45, h47, h39, h34]

/-- A byte that starts a word. -/
def StartsWord (b : UInt8) : Prop :=
  isWord b = true ∧ isSpace b = false ∧ b ≠ 35 ∧ b ≠ 45 ∧ b ≠ 47 ∧ b ≠ 39 ∧ b ≠ 34

instance (b : UInt8) : Decidable (StartsWord b) := inferInstanceAs (Decidable (_ ∧ _))

/-- A word goes on to a byte that is not in words. -/
theorem lex_word {w : Str} (hstart : (w.head?.any fun b => decide (StartsWord b)) = true)
    (hw : ∀ c ∈ w, isWord c = true) {c : UInt8} (hc : isWord c = false) (rest : Str) :
    lex (w ++ c :: rest) = (lex (c :: rest)).map (Token.word w :: ·) := by
  cases w with
  | nil => simp at hstart
  | cons b w =>
    obtain ⟨hword, hspace, h35, h45, h47, h39, h34⟩ : StartsWord b := by simpa using hstart
    have hw' : ∀ c ∈ w, isWord c = true := fun c hc => hw c (List.mem_cons_of_mem _ hc)
    have htake : (w ++ c :: rest).takeWhile isWord = w := by
      rw [List.takeWhile_append_of_pos hw', List.takeWhile_cons_of_neg (by simp [hc]), List.append_nil]
    have hdrop : (w ++ c :: rest).dropWhile isWord = c :: rest := by
      rw [List.dropWhile_append_of_pos hw', List.dropWhile_cons_of_neg (by simp [hc])]
    rw [List.cons_append, lex_cons]
    simp [next, hword, hspace, h35, h45, h47, h39, h34, htake, hdrop]

theorem lex_text {quote : UInt8} (h : quote = 39 ∨ quote = 34) (rest : Str) :
    lex (quote :: rest) =
      match literal quote rest with
      | none => none
      | some (value, rest) => (lex rest).map (Token.text value :: ·) := by
  have hnext : next quote rest = (literal quote rest).map fun r => (some (.text r.1), r.2) := by
    rcases h with rfl | rfl <;> simp [next, isSpace]
  rw [lex_cons, hnext]
  cases literal quote rest <;> rfl

/-- A text is at least as long as its tokens. -/
theorem lex_weight {s : Str} {tokens : List Token} (h : lex s = some tokens) :
    (tokens.map Token.weight).sum ≤ s.length := by
  induction hlen : s.length using Nat.strong_induction_on generalizing s tokens with
  | _ n ih =>
    cases s with
    | nil =>
      cases h
      exact Nat.zero_le _
    | cons b rest =>
      rw [lex_cons] at h
      cases hnext : next b rest with
      | none => simp [hnext] at h
      | some r =>
        obtain ⟨token, r⟩ := r
        obtain ⟨hle, hweight⟩ := next_length hnext
        rw [hnext] at h
        obtain ⟨tokens', htokens', rfl⟩ := Option.map_eq_some_iff.mp h
        simp only [List.length_cons] at hlen
        have hrest := ih r.length (by omega) htokens' rfl
        cases token with
        | none =>
          simp only [Option.toList_none, List.nil_append]
          omega
        | some t =>
          simp only [Option.toList_some, List.cons_append, List.nil_append, List.map_cons, List.sum_cons,
            Option.elim_some] at hweight ⊢
          omega

end SqlText
