import ModularNetServer.Library.Scan
import Mathlib.Data.UInt

/-!
# Text functions of the C++ standard library

`std::string` is a list of bytes. Modelled here are `isspace` in the "C" locale, word extraction
with `operator>>`, splitting with `std::getline`, `std::to_string` and `std::stoi`, which throws on
text that does not start with a number and on numbers that do not fit an `int`.
-/

namespace Cxx

/-- `std::string`. -/
abbrev Str := List UInt8

/-- The bytes of a literal (UTF-8 source encoding). -/
def str (s : String) : Str := s.toUTF8.data.toList

/-- A property of every byte of a string is decided by going through the string. -/
instance {p : UInt8 → Prop} [DecidablePred p] (s : Str) : Decidable (∀ b ∈ s, p b) :=
  List.decidableBAll p s

/-- The exceptions of the standard library that the modelled functions can raise. -/
inductive Exception
  | invalidArgument
  | outOfRange
  | lengthError
  | runtimeError (what : Str)
  deriving DecidableEq

/-- `isspace` in the "C" locale. -/
def isSpace (b : UInt8) : Bool := b == 32 || (9 ≤ b && b ≤ 13)

/-- `isdigit`. -/
def isDigit (b : UInt8) : Bool := 48 ≤ b && b ≤ 57

/-- `is >> word`: the next word and what is left of the stream. -/
def extract (s : Str) : Str × Str :=
  ((s.dropWhile isSpace).takeWhile (!isSpace ·), (s.dropWhile isSpace).dropWhile (!isSpace ·))

/-- The pieces that `while (std::getline(ss, piece, delim))` reads; `acc` is the piece under way. A
    delimiter at the very end does not start another piece. -/
def getlinesFrom (delim : UInt8) (acc : Str) : Str → List Str
  | [] => if acc = [] then [] else [acc]
  | c :: cs => if c = delim then acc :: getlinesFrom delim [] cs else getlinesFrom delim (acc ++ [c]) cs

/-- The pieces that `while (std::getline(ss, piece, delim))` reads. -/
def getlines (delim : UInt8) (s : Str) : List Str := getlinesFrom delim [] s

/-- The number a list of decimal digits stands for. -/
def digitsValue (ds : Str) : Nat := ds.foldl (fun n d => 10 * n + (d.toNat - 48)) 0

/-- `std::to_string` of a number that is not negative. -/
def decimal (n : Nat) : Str := (Nat.toDigits 10 n).map (fun c => UInt8.ofNat c.toNat)

/-- `std::to_string(int)`. -/
def toString (i : Int) : Str := if i < 0 then 45 :: decimal i.natAbs else decimal i.natAbs

/-- The sign of a number and the text after it, as `strtol` reads it. -/
def splitSign : Str → Bool × Str
  | 45 :: s => (true, s)
  | 43 :: s => (false, s)
  | s => (false, s)

/-- `std::stoi`: leading white space, an optional sign, the longest run of digits. -/
def stoi (s : Str) : Except Exception Int :=
  let (neg, t) := splitSign (s.dropWhile isSpace)
  let ds := t.takeWhile isDigit
  if ds = [] then .error .invalidArgument
  else
    let v : Int := if neg then -(digitsValue ds : Int) else digitsValue ds
    if v < -2 ^ 31 ∨ 2 ^ 31 ≤ v then .error .outOfRange else .ok v

/-- The value a 32-bit `int` holds after a conversion from a wider integer. -/
def toInt32 (i : Int) : Int := Int.bmod i (2 ^ 32)

theorem toInt32_of_lt {i : Int} (h0 : -2 ^ 31 ≤ i) (h1 : i < 2 ^ 31) : toInt32 i = i := by
  unfold toInt32
  rw [Int.bmod_eq_iff (by decide)]
  omega

/-! ## Words -/

/-- A text without white space. -/
def NoSpace (s : Str) : Prop := ∀ b ∈ s, isSpace b = false

instance (s : Str) : Decidable (NoSpace s) := inferInstanceAs (Decidable (∀ b ∈ s, isSpace b = false))

theorem extract_word {w : Str} (hw : NoSpace w) (hne : w ≠ []) (rest : Str) :
    extract (w ++ 32 :: rest) = (w, 32 :: rest) := by
  obtain ⟨b, w, rfl⟩ := List.exists_cons_of_ne_nil hne
  have hb : isSpace b = false := hw b (by simp)
  have hdrop : ((b :: w) ++ 32 :: rest).dropWhile isSpace = (b :: w) ++ 32 :: rest := by
    simp [hb]
  have hall : ∀ c ∈ b :: w, (!isSpace c) = true := fun c hc => by simp [hw c hc]
  unfold extract
  rw [hdrop, List.takeWhile_append_of_pos hall, List.dropWhile_append_of_pos hall]
  simp [isSpace]

theorem extract_last {w : Str} (hw : NoSpace w) (hne : w ≠ []) : extract w = (w, []) := by
  obtain ⟨b, w, rfl⟩ := List.exists_cons_of_ne_nil hne
  have hb : isSpace b = false := hw b (by simp)
  have hdrop : (b :: w).dropWhile isSpace = b :: w := by simp [hb]
  have hall : ∀ c ∈ b :: w, (!isSpace c) = true := fun c hc => by simp [hw c hc]
  unfold extract
  rw [hdrop, List.takeWhile_eq_self_iff.mpr hall, List.dropWhile_eq_nil_iff.mpr hall]

theorem extract_space (rest : Str) : extract (32 :: rest) = extract rest := by
  simp [extract, isSpace]

/-! ## Pieces -/

theorem getlinesFrom_append {delim : UInt8} {piece : Str} (h : delim ∉ piece) (acc rest : Str) :
    getlinesFrom delim acc (piece ++ rest) = getlinesFrom delim (acc ++ piece) rest := by
  induction piece generalizing acc with
  | nil => rw [List.nil_append, List.append_nil]
  | cons b piece ih =>
    rw [List.mem_cons, not_or] at h
    rw [List.cons_append, getlinesFrom, if_neg (Ne.symm h.1), ih h.2, List.append_assoc]
    rfl

/-- Pieces that are not empty and do not contain the delimiter are read back from the joined text. -/
theorem getlines_intercalate {delim : UInt8} {pieces : List Str}
    (h : ∀ piece ∈ pieces, delim ∉ piece ∧ piece ≠ []) :
    getlines delim ([delim].intercalate pieces) = pieces := by
  induction pieces with
  | nil => rfl
  | cons piece pieces ih =>
    obtain ⟨hdelim, hne⟩ := h piece (by simp)
    have hrest := ih fun p hp => h p (List.mem_cons_of_mem _ hp)
    unfold getlines at hrest ⊢
    cases pieces with
    | nil =>
      have hread := getlinesFrom_append hdelim [] []
      rw [List.append_nil, List.nil_append] at hread
      rw [List.intercalate_singleton, hread, getlinesFrom, if_neg hne]
    | cons piece' pieces =>
      rw [List.intercalate_cons_cons, List.append_assoc, getlinesFrom_append hdelim, List.nil_append,
        List.singleton_append, getlinesFrom, if_pos rfl, hrest]

theorem mem_intercalate {sep : Str} {pieces : List Str} {b : UInt8} (h : b ∈ sep.intercalate pieces) :
    b ∈ sep ∨ ∃ piece ∈ pieces, b ∈ piece := by
  induction pieces with
  | nil => cases h
  | cons piece pieces ih =>
    cases pieces with
    | nil =>
      rw [List.intercalate_singleton] at h
      exact .inr ⟨piece, by simp, h⟩
    | cons piece' pieces =>
      rw [List.intercalate_cons_cons] at h
      rcases List.mem_append.mp h with h | h
      · rcases List.mem_append.mp h with h | h
        · exact .inr ⟨piece, by simp, h⟩
        · exact .inl h
      · exact (ih h).imp_right fun ⟨p, hp, hb⟩ => ⟨p, List.mem_cons_of_mem _ hp, hb⟩

/-! ## Decimal numbers -/

theorem digitChar_toNat {c : Char} (h : c.isDigit = true) :
    48 ≤ c.toNat ∧ c.toNat ≤ 57 := Char.isDigit_iff_toNat.mp h

theorem isSpace_of_isDigit {b : UInt8} (h : isDigit b = true) : isSpace b = false := by
  simp only [isDigit, Bool.and_eq_true, decide_eq_true_eq, UInt8.le_iff_toNat_le] at h
  simp only [isSpace, Bool.or_eq_false_iff, beq_eq_false_iff_ne, Bool.and_eq_false_iff,
    decide_eq_false_iff_not, UInt8.le_iff_toNat_le, ne_eq, ← UInt8.toNat_inj]
  simp at h ⊢
  omega

theorem isDigit_of_mem_decimal {n : Nat} {b : UInt8} (h : b ∈ decimal n) : isDigit b = true := by
  obtain ⟨c, hc, rfl⟩ := List.mem_map.mp h
  obtain ⟨h1, h2⟩ := digitChar_toNat (Nat.isDigit_of_mem_toDigits (by omega) (by omega) hc)
  simp only [isDigit, Bool.and_eq_true, decide_eq_true_eq, UInt8.le_iff_toNat_le]
  rw [UInt8.toNat_ofNat_of_lt' (by simp [UInt8.size]; omega)]
  exact ⟨by simpa using h1, by simpa using h2⟩

theorem decimal_ne_nil (n : Nat) : decimal n ≠ [] := by
  simp [decimal, Nat.toDigits_ne_nil]

/-- The length of a printed number. -/
theorem toString_length_le {i : Int} {k : Nat} (hk : 0 < k) (h : i.natAbs < 10 ^ k) :
    (toString i).length ≤ k + 1 := by
  have hdecimal : (decimal i.natAbs).length ≤ k := by
    unfold decimal
    rw [List.length_map]
    exact (Nat.length_toDigits_le_iff (by omega) hk).mpr h
  unfold toString
  split_ifs
  · exact Nat.succ_le_succ hdecimal
  · exact hdecimal.trans (Nat.le_succ k)

theorem toInt32_natAbs_lt (i : Int) : (toInt32 i).natAbs < 10 ^ 10 := by
  have hlow := @Int.le_bmod i (2 ^ 32) (by decide)
  have hhigh := @Int.bmod_lt i (2 ^ 32) (by decide)
  unfold toInt32
  omega

theorem foldl_digits (cs : List Char) (hcs : ∀ c ∈ cs, c.isDigit = true) (init : Nat) :
    (cs.map (fun c => UInt8.ofNat c.toNat)).foldl (fun n d => 10 * n + (d.toNat - 48)) init =
      Nat.ofDigitChars 10 cs init := by
  induction cs generalizing init with
  | nil => simp
  | cons c cs ih =>
    obtain ⟨h1, h2⟩ := digitChar_toNat (hcs c (by simp))
    have hc : (UInt8.ofNat c.toNat).toNat = c.toNat :=
      UInt8.toNat_ofNat_of_lt' (by simp [UInt8.size]; omega)
    rw [List.map_cons, List.foldl_cons, Nat.ofDigitChars_cons, hc,
      ih (fun d hd => hcs d (List.mem_cons_of_mem _ hd))]
    rfl

theorem digitsValue_decimal (n : Nat) : digitsValue (decimal n) = n := by
  unfold digitsValue decimal
  rw [foldl_digits _ (fun c hc => Nat.isDigit_of_mem_toDigits (by omega) (by omega) hc)]
  exact Nat.ofDigitChars_ten_toDigits

theorem decimal_injective : Function.Injective decimal := by
  intro m n h
  rw [← digitsValue_decimal m, h, digitsValue_decimal]

/-- A printed number consists of digits and at most a hyphen. -/
theorem mem_toString {i : Int} {b : UInt8} (h : b ∈ toString i) : b = 45 ∨ isDigit b = true := by
  unfold toString at h
  split_ifs at h
  · rcases List.mem_cons.mp h with h | h
    · exact .inl h
    · exact .inr (isDigit_of_mem_decimal h)
  · exact .inr (isDigit_of_mem_decimal h)

/-- No number is printed with a hyphen and without. -/
theorem cons_ne_decimal (s : Str) (n : Nat) : 45 :: s ≠ decimal n := by
  intro h
  have hdigit : isDigit 45 = true := isDigit_of_mem_decimal (h ▸ List.mem_cons_self)
  exact absurd hdigit (by decide)

theorem toString_injective : Function.Injective toString := by
  intro i j h
  unfold toString at h
  split_ifs at h with hi hj hj
  · have := decimal_injective (List.cons.inj h).2
    omega
  · exact absurd h (cons_ne_decimal _ _)
  · exact absurd h.symm (cons_ne_decimal _ _)
  · have := decimal_injective h
    omega

theorem splitSign_of_isDigit {b : UInt8} (s : Str) (h : isDigit b = true) :
    splitSign (b :: s) = (false, b :: s) := by
  unfold splitSign
  split
  · simp_all [isDigit]
  · simp_all [isDigit]
  · rfl

/-- `std::stoi` reads digits as the number they stand for. -/
theorem stoi_digits {ds : Str} (hne : ds ≠ []) (hdig : ∀ d ∈ ds, isDigit d = true)
    (hlt : digitsValue ds < 2 ^ 31) : stoi ds = .ok (digitsValue ds : Int) := by
  obtain ⟨b, rest, rfl⟩ := List.exists_cons_of_ne_nil hne
  have hb : isDigit b = true := hdig b (by simp)
  have hsp : isSpace b = false := isSpace_of_isDigit hb
  have hdrop : (b :: rest).dropWhile isSpace = b :: rest := by simp [hsp]
  have htake : (b :: rest).takeWhile isDigit = b :: rest := List.takeWhile_eq_self_iff.mpr hdig
  unfold stoi
  rw [hdrop, splitSign_of_isDigit rest hb]
  simp only [htake, hne, if_false, Bool.false_eq_true]
  rw [if_neg (by omega)]

/-- `std::stoi` reads back what `std::to_string` wrote. -/
theorem stoi_decimal {n : Nat} (h : n < 2 ^ 31) : stoi (decimal n) = .ok (n : Int) := by
  have hvalue := digitsValue_decimal n
  have hread := stoi_digits (decimal_ne_nil n) (fun d hd => isDigit_of_mem_decimal hd) (by omega)
  rwa [hvalue] at hread

/-- What `std::stoi` returns fits an `int`. -/
theorem stoi_bounds {s : Str} {n : Int} (h : stoi s = .ok n) : -2 ^ 31 ≤ n ∧ n < 2 ^ 31 := by
  unfold stoi at h
  dsimp only at h
  split_ifs at h with hds hsign hfits hfits
  all_goals
    cases h
    omega

/-- A text without a hyphen is not read as a negative number. -/
theorem stoi_nonneg {s : Str} {n : Int} (hs : 45 ∉ s) (h : stoi s = .ok n) : 0 ≤ n := by
  have hsign : (splitSign (s.dropWhile isSpace)).1 = false := by
    have hmem : 45 ∉ s.dropWhile isSpace := fun hmem => hs ((List.dropWhile_sublist _).subset hmem)
    unfold splitSign
    split
    · rename_i heq
      rw [heq] at hmem
      exact absurd (List.mem_cons_self ..) hmem
    · rfl
    · rfl
  unfold stoi at h
  dsimp only at h
  rw [hsign] at h
  simp only [Bool.false_eq_true, if_false] at h
  split_ifs at h
  cases h
  omega

end Cxx
