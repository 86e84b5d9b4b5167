import ModularNetServer.Json.Json

/-!
# When `dump` throws, and how long its text is

`dump` throws exactly when a string in the value, or a member's name, is not UTF-8. ASCII text is. A byte
of a string becomes at most six.
-/

namespace ModularNetServer

open Cxx

namespace Json

/-- The decoder accepts a text, from one of its states. -/
def acceptsFrom (state codep : Nat) : Str → Bool
  | [] => state == utf8Accept
  | byte :: rest =>
    let next := decode state codep byte
    next.1 != utf8Reject && acceptsFrom next.1 next.2 rest

/-- The text is UTF-8. -/
def isUtf8 (s : Str) : Bool := acceptsFrom utf8Accept 0 s

theorem dumpEscapedFrom_isOk (state codep : Nat) (s : Str) :
    (dumpEscapedFrom state codep s).isOk = acceptsFrom state codep s := by
  induction s generalizing state codep with
  | nil =>
    unfold dumpEscapedFrom acceptsFrom
    by_cases h : state = utf8Accept
    · rw [if_pos h, beq_iff_eq.mpr h]
      rfl
    · rw [if_neg h, beq_eq_false_iff_ne.mpr h]
      rfl
  | cons byte rest ih =>
    have hrest := ih (decode state codep byte).1 (decode state codep byte).2
    simp only [dumpEscapedFrom, acceptsFrom]
    by_cases h : (decode state codep byte).1 = utf8Reject
    · simp [h, Except.isOk, Except.toBool]
    · rw [if_neg h, ← hrest, bne_iff_ne.mpr h, Bool.true_and]
      cases dumpEscapedFrom (decode state codep byte).1 (decode state codep byte).2 rest <;> rfl

theorem dumpString_isOk (s : Str) : (dumpString s).isOk = isUtf8 s := by
  have h := dumpEscapedFrom_isOk utf8Accept 0 s
  unfold dumpString dumpEscaped
  rw [isUtf8, ← h]
  cases dumpEscapedFrom utf8Accept 0 s <;> rfl

theorem dump_string_isOk (s : Str) : (dump (.string s)).isOk = isUtf8 s := by
  rw [dump, dumpString_isOk]

theorem dump_object_isOk (members : List (Str × Json)) :
    (dump (.object members)).isOk = members.all fun m => isUtf8 m.1 && (dump m.2).isOk := by
  have h : (dumpMembers members).isOk = members.all fun m => isUtf8 m.1 && (dump m.2).isOk := by
    induction members with
    | nil => rfl
    | cons m members ih =>
      obtain ⟨key, value⟩ := m
      have hkey := dumpString_isOk key
      cases members with
      | nil =>
        simp only [List.all_cons, List.all_nil, Bool.and_true, ← hkey, dumpMembers]
        cases dumpString key with
        | error e => rfl
        | ok name => cases dump value <;> rfl
      | cons m' members =>
        rw [List.all_cons, ← ih]
        simp only [← hkey, dumpMembers]
        cases dumpString key with
        | error e => rfl
        | ok name =>
          cases dump value with
          | error e => rfl
          | ok text => cases dumpMembers (m' :: members) <;> rfl
  rw [← h, dump]
  cases dumpMembers members <;> rfl

/-! ## ASCII text -/

theorem decode_ascii {byte : UInt8} (h : byte.toNat ≤ 0x7F) (codep : Nat) :
    (decode utf8Accept codep byte).1 = utf8Accept := by
  simp [decode, byteType, h, utf8Accept, utf8Transitions]

theorem isUtf8_of_ascii {s : Str} (h : ∀ b ∈ s, b.toNat ≤ 0x7F) : isUtf8 s = true := by
  unfold isUtf8
  generalize 0 = codep
  induction s generalizing codep with
  | nil => rfl
  | cons byte rest ih =>
    have hbyte := decode_ascii (h byte (List.mem_cons_self ..)) codep
    simp only [acceptsFrom, hbyte]
    rw [ih (fun b hb => h b (List.mem_cons_of_mem _ hb))]
    rfl

/-! ## The length of the text -/

theorem escapeCodepoint_length (codep : Nat) (byte : UInt8) : (escapeCodepoint codep byte).length ≤ 6 := by
  have hlengths : (str "\\b").length = 2 ∧ (str "\\t").length = 2 ∧ (str "\\n").length = 2 ∧
      (str "\\f").length = 2 ∧ (str "\\r").length = 2 ∧ (str "\\\"").length = 2 ∧
      (str "\\\\").length = 2 ∧ (str "\\u").length = 2 := by decide
  unfold escapeCodepoint
  split
  any_goals omega
  split_ifs
  · simp only [List.length_append, hex4, List.length_cons, List.length_nil]
    omega
  · simp

theorem dumpEscapedFrom_length {state codep : Nat} {s text : Str} (h : dumpEscapedFrom state codep s = .ok text) :
    text.length ≤ 6 * s.length := by
  induction s generalizing state codep text with
  | nil =>
    unfold dumpEscapedFrom at h
    split_ifs at h
    cases h
    exact Nat.zero_le _
  | cons byte rest ih =>
    simp only [dumpEscapedFrom] at h
    split_ifs at h with hreject haccept
    · rcases hrest : dumpEscapedFrom (decode state codep byte).1 (decode state codep byte).2 rest with e | text'
      all_goals rw [hrest] at h
      · cases h
      · cases h
        have hbyte := escapeCodepoint_length (decode state codep byte).2 byte
        have htext := ih hrest
        rw [List.length_append, List.length_cons]
        omega
    · rcases hrest : dumpEscapedFrom (decode state codep byte).1 (decode state codep byte).2 rest with e | text'
      all_goals rw [hrest] at h
      · cases h
      · cases h
        have htext := ih hrest
        simp only [List.length_append, List.length_cons, List.length_nil]
        omega

theorem dumpString_length {s text : Str} (h : dumpString s = .ok text) : text.length ≤ 6 * s.length + 2 := by
  have hquote : (str "\"").length = 1 := by decide
  unfold dumpString dumpEscaped at h
  rcases htext : dumpEscapedFrom utf8Accept 0 s with e | text'
  all_goals rw [htext] at h
  · cases h
  · cases h
    have hlength := dumpEscapedFrom_length htext
    simp only [List.length_append]
    omega

theorem dump_string_length {s text : Str} (h : dump (.string s) = .ok text) : text.length ≤ 6 * s.length + 2 := by
  rw [dump] at h
  exact dumpString_length h

theorem dump_number_length {n text : Str} (h : dump (.number n) = .ok text) : text.length = n.length := by
  rw [dump] at h
  cases h
  rfl

/-- The text of an object whose members have texts of at most `k` bytes. -/
theorem dump_object_length {members : List (Str × Json)} {k : Nat} {text : Str}
    (hk : ∀ m ∈ members, ∀ value, dump m.2 = .ok value → value.length ≤ k)
    (h : dump (.object members) = .ok text) :
    text.length ≤ (members.map fun m => 6 * m.1.length + 4 + k).sum + 2 := by
  have hlengths : (str ":").length = 1 ∧ (str ",").length = 1 ∧ (str "\x7b").length = 1 ∧
      (str "\x7d").length = 1 := by decide
  have hmembers : ∀ text, dumpMembers members = .ok text →
      text.length ≤ (members.map fun m => 6 * m.1.length + 4 + k).sum := by
    clear h
    induction members with
    | nil =>
      intro text h
      cases h
      exact Nat.zero_le _
    | cons m members ih =>
      obtain ⟨key, value⟩ := m
      intro text h
      rw [List.map_cons, List.sum_cons]
      rcases members with _ | ⟨m', members⟩
      all_goals
        simp only [dumpMembers] at h
        rcases hkey : dumpString key with e | name
        all_goals simp only [hkey] at h
        · cases h
        rcases hvalue : dump value with e | text'
        all_goals simp only [hvalue] at h
        · cases h
        have hname := dumpString_length hkey
        have htext := hk _ List.mem_cons_self text' hvalue
      · cases h
        simp only [List.length_append, List.map_nil, List.sum_nil]
        omega
      · rcases hrest : dumpMembers (m' :: members) with e | rest
        all_goals simp only [hrest] at h
        · cases h
        cases h
        have hlength := ih (fun m hm => hk m (List.mem_cons_of_mem _ hm)) rest hrest
        simp only [List.length_append]
        omega
  rw [dump] at h
  rcases htext : dumpMembers members with e | text'
  all_goals rw [htext] at h
  · cases h
  · cases h
    have hlength := hmembers text' htext
    simp only [List.length_append]
    omega

end Json

end ModularNetServer
