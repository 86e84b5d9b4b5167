import ModularNetServer.Library.SqlText
import ModularNetServer.Mvc.Controllers

/-!
# Which users are registered as they are

`insertUser` puts the user name and the password between quotes as they are, and hands the text on as a C
string. MySQL reads the two values back if and only if no byte of them means anything else to it there.
-/

namespace ModularNetServer

open Cxx SqlText

namespace UserDao

/-- The statement that registers a user, up to the values. -/
def insertHead : List Token :=
  [.word (str "INSERT"), .word (str "INTO"), .word (str "user"), .symbol 40, .word (str "username"), .symbol 44,
    .word (str "password"), .symbol 41, .word (str "VALUES"), .symbol 40]

/-- The statement that registers a user. -/
def insertTokens (username password : Str) : List Token :=
  insertHead ++ [.text username, .symbol 44, .text password, .symbol 41]

/-- A text that means itself between single quotes: no NUL, no single quote, and no backslash other than
    before `%` and `_`. -/
def Plain (s : Str) : Prop := (∀ b ∈ s, b ≠ 0) ∧ (∀ b ∈ s, b ≠ 39) ∧ EscapesKept s

theorem plain_iff {s : Str} : Plain s ↔ (∀ b ∈ s, b ≠ 0) ∧ Verbatim 39 s := by
  rw [Plain, verbatim_iff (by decide) (by decide) (by decide)]

/-- The text from the first literal on. -/
def valuesText (username password : Str) : Str :=
  39 :: (username ++ 39 :: 44 :: 32 :: 39 :: (password ++ [39, 41]))

theorem insertText_eq (username password : Str) :
    insertText username password =
      str "INSERT INTO user(username, password) VALUES(" ++ Scan.upTo 0 (valuesText username password) := by
  have hsplit : str "INSERT INTO user(username, password) VALUES('" =
      str "INSERT INTO user(username, password) VALUES(" ++ [39] := by decide
  have htext : str "INSERT INTO user(username, password) VALUES('" ++ username ++ str "', '" ++ password ++
      str "')" = str "INSERT INTO user(username, password) VALUES(" ++ valuesText username password := by
    rw [hsplit, show str "', '" = [39, 44, 32, 39] by decide, show str "')" = [39, 41] by decide]
    simp [valuesText]
  unfold insertText
  rw [htext, Scan.upTo, Scan.upTo, List.takeWhile_append_of_pos (by decide)]

/-- The beginning of the statement is read whatever follows. -/
theorem lex_insertWords (rest : Str) :
    lex (str "INSERT INTO user(username, password) VALUES(" ++ rest) =
      (lex rest).map fun tokens => insertHead ++ tokens := by
  have hparts : str "INSERT INTO user(username, password) VALUES(" =
      str "INSERT" ++ 32 :: (str "INTO" ++ 32 :: (str "user" ++ 40 :: (str "username" ++ 44 :: 32 ::
        (str "password" ++ 41 :: 32 :: (str "VALUES" ++ [40]))))) := by decide
  rw [hparts]
  simp only [List.append_assoc, List.cons_append, List.nil_append]
  rw [lex_word (by decide) (by decide) (by decide), lex_space (by decide),
    lex_word (by decide) (by decide) (by decide), lex_space (by decide),
    lex_word (by decide) (by decide) (by decide), lex_symbol (by decide),
    lex_word (by decide) (by decide) (by decide), lex_symbol (by decide), lex_space (by decide),
    lex_word (by decide) (by decide) (by decide), lex_symbol (by decide), lex_space (by decide),
    lex_word (by decide) (by decide) (by decide), lex_symbol (by decide)]
  simp only [Option.map_map]
  rfl

/-- The literals are cut short by a NUL in one of them. -/
theorem upTo_valuesText_of_plain {username password : Str} (hu : ∀ b ∈ username, b ≠ 0)
    (hp : ∀ b ∈ password, b ≠ 0) : Scan.upTo 0 (valuesText username password) = valuesText username password := by
  unfold Scan.upTo
  rw [List.takeWhile_eq_self_iff]
  intro b hb
  simp only [valuesText, List.mem_cons, List.mem_append, List.not_mem_nil, or_false] at hb
  simp only [ne_eq, decide_eq_true_eq]
  rcases hb with rfl | hb | rfl | rfl | rfl | rfl | hb | rfl | rfl
  · decide
  · exact hu b hb
  · decide
  · decide
  · decide
  · decide
  · exact hp b hb
  · decide
  · decide

/-- Plain values are read back. -/
theorem lex_valuesText {username password : Str} (hu : Verbatim 39 username) (hp : Verbatim 39 password) :
    lex (valuesText username password) = some [.text username, .symbol 44, .text password, .symbol 41] := by
  rw [valuesText, lex_text (.inl rfl), literal_append (by decide) hu (by simp)]
  dsimp only
  rw [lex_symbol (by decide), lex_space (by decide), lex_text (.inl rfl), literal_append (by decide) hp (by simp)]
  dsimp only
  rw [lex_symbol (by decide), lex_nil]
  rfl

/-- A text with a NUL is cut before its end. -/
theorem upTo_length_lt {s : Str} (h : ∃ b ∈ s, b = 0) (rest : Str) : (Scan.upTo 0 (s ++ rest)).length < s.length := by
  obtain ⟨b, hb, rfl⟩ := h
  obtain ⟨s1, s2, rfl⟩ := List.append_of_mem hb
  rw [List.append_assoc, List.cons_append, Scan.upTo_append_terminator, List.length_append, List.length_cons]
  have := Scan.upTo_length_le 0 s1
  omega

/-- If the literals are read back, they have no NUL: the text has only one byte more than they need. -/
theorem no_nul_of_lex {username password : Str}
    (h : lex (Scan.upTo 0 (valuesText username password)) =
      some [.text username, .symbol 44, .text password, .symbol 41]) :
    (∀ b ∈ username, b ≠ 0) ∧ ∀ b ∈ password, b ≠ 0 := by
  have hweight := lex_weight h
  have hsplit : valuesText username password =
      (39 :: (username ++ 39 :: 44 :: 32 :: 39 :: password)) ++ [39, 41] := by simp [valuesText]
  have hno : ¬ ∃ b ∈ (39 :: (username ++ 39 :: 44 :: 32 :: 39 :: password) : Str), b = 0 := by
    intro hnul
    have hlt := upTo_length_lt hnul [39, 41]
    rw [← hsplit] at hlt
    simp only [List.map_cons, List.map_nil, List.sum_cons, List.sum_nil, Token.weight] at hweight
    simp only [List.length_cons, List.length_append] at hlt
    omega
  exact ⟨fun b hb h0 => hno ⟨b, by simp [hb], h0⟩, fun b hb h0 => hno ⟨b, by simp [hb], h0⟩⟩

/-- If the literals are read back, no byte of them is escaped: the text has only one byte more than they need,
    and that is the blank between them. -/
theorem verbatim_of_lex {username password : Str}
    (h : lex (valuesText username password) = some [.text username, .symbol 44, .text password, .symbol 41]) :
    Verbatim 39 username ∧ Verbatim 39 password := by
  rw [valuesText, lex_text (.inl rfl)] at h
  cases hlit : literal 39 (username ++ 39 :: 44 :: 32 :: 39 :: (password ++ [39, 41])) with
  | none => simp [hlit] at h
  | some r =>
    obtain ⟨value, rest⟩ := r
    simp only [hlit] at h
    obtain ⟨tokens, htokens, heq⟩ := Option.map_eq_some_iff.mp h
    obtain ⟨hvalue, rfl⟩ := List.cons.inj heq
    obtain rfl : value = username := Token.text.inj hvalue
    obtain ⟨body, hbody, hle, hsame⟩ := literal_spec hlit
    have hweight := lex_weight htokens
    have hlen := congrArg List.length hbody
    simp only [List.map_cons, List.map_nil, List.sum_cons, List.sum_nil, Token.weight] at hweight
    simp only [List.length_append, List.length_cons, List.length_nil] at hlen
    have hnot : body.length ≠ value.length + 1 := by
      -- the byte after a literal that is one byte longer is the comma
      intro hlonger
      have hcomma : (value ++ 39 :: 44 :: 32 :: 39 :: (password ++ [39, 41]))[value.length + 1]? = some 44 := by
        simp
      rw [hbody, ← hlonger] at hcomma
      simp at hcomma
    obtain ⟨rfl, hu⟩ := hsame (by omega)
    have hrest := (List.cons.inj (List.append_cancel_left hbody)).2
    refine ⟨hu, ?_⟩
    rw [← hrest, lex_symbol (by decide), lex_space (by decide), lex_text (.inl rfl)] at htokens
    cases hlit' : literal 39 (password ++ [39, 41]) with
    | none => simp [hlit'] at htokens
    | some r =>
      obtain ⟨value', rest'⟩ := r
      simp only [hlit'] at htokens
      obtain ⟨tokens', htokens', heq'⟩ := Option.map_eq_some_iff.mp htokens
      obtain ⟨tokens'', htokens'', rfl⟩ := Option.map_eq_some_iff.mp htokens'
      obtain ⟨hvalue', rfl⟩ := List.cons.inj (List.cons.inj heq').2
      obtain rfl : value' = password := Token.text.inj hvalue'
      obtain ⟨body', hbody', hle', hsame'⟩ := literal_spec hlit'
      have hweight' := lex_weight htokens''
      have hlen' := congrArg List.length hbody'
      simp only [List.map_cons, List.map_nil, List.sum_cons, List.sum_nil, Token.weight] at hweight'
      simp only [List.length_append, List.length_cons, List.length_nil] at hlen'
      exact (hsame' (by omega)).2

theorem lex_upTo_valuesText_iff (username password : Str) :
    lex (Scan.upTo 0 (valuesText username password)) =
        some [.text username, .symbol 44, .text password, .symbol 41] ↔
      Plain username ∧ Plain password := by
  rw [plain_iff, plain_iff]
  constructor
  · intro h
    obtain ⟨hu, hp⟩ := no_nul_of_lex h
    rw [upTo_valuesText_of_plain hu hp] at h
    obtain ⟨hu', hp'⟩ := verbatim_of_lex h
    exact ⟨⟨hu, hu'⟩, hp, hp'⟩
  · rintro ⟨⟨hu, hu'⟩, hp, hp'⟩
    rw [upTo_valuesText_of_plain hu hp]
    exact lex_valuesText hu' hp'

/-- `insertUser` sends the statement that registers the user if and only if the user name and the password are
    plain. -/
theorem lex_insertText_iff (username password : Str) :
    lex (insertText username password) = some (insertTokens username password) ↔
      Plain username ∧ Plain password := by
  rw [← lex_upTo_valuesText_iff, insertText_eq, lex_insertWords, Option.map_eq_some_iff]
  constructor
  · rintro ⟨tokens, htokens, heq⟩
    rw [htokens, List.append_cancel_left heq]
  · intro h
    exact ⟨_, h, rfl⟩

/-- A user name with an apostrophe leaves a literal open. -/
theorem insertText_apostrophe :
    lex (insertText (str "o'brien") (str "secret")) ≠ some (insertTokens (str "o'brien") (str "secret")) := by
  decide +kernel

end UserDao

end ModularNetServer
