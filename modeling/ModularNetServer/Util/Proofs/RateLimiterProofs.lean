import ModularNetServer.Library.FixedWindow
import ModularNetServer.Util.RateLimiter

/-!
# What the rate limiter admits

For each type and key the limiter is a fixed-window counter that sees only the calls for that pair.
-/

namespace ModularNetServer

open Cxx FixedWindow

/-- What `registerLimitRule` is given. -/
structure LimitRule where
  type : Str
  maxCount : Int
  windowSec : Int
  maxCount_pos : 1 ≤ maxCount
  windowSec_nonneg : 0 ≤ windowSec

/-- The rule of a counter, with times in nanoseconds. -/
def LimitRule.counter (r : LimitRule) : FixedWindow.Rule where
  maxCount := r.maxCount
  width := r.windowSec * 1000000000
  maxCount_pos := r.maxCount_pos
  width_nonneg := by
    have := r.windowSec_nonneg
    omega

/-- The call that a counter for a type and a key sees. -/
def LimiterCall.forPair (type key : Str) : LimiterCall → Option FixedWindow.Call
  | .isLimit now t k => if t = type ∧ k = key then some (.ask now) else none
  | .clear t k => if t = type ∧ k = key then some .clear else none

/-- The calls that a counter for a type and a key sees. -/
def pairCalls (type key : Str) (calls : List LimiterCall) : List FixedWindow.Call :=
  calls.filterMap (LimiterCall.forPair type key)

/-- The clock reading that a call takes. -/
def LimiterCall.reading : LimiterCall → Option Int
  | .isLimit now _ _ => some now
  | .clear _ _ => none

namespace RateLimiter

/-- A rule is registered. -/
def register (l : RateLimiter) (r : LimitRule) : RateLimiter :=
  l.registerLimitRule r.type r.maxCount r.windowSec

/-- An open limiter with rules registered. -/
def registered (rules : List LimitRule) : RateLimiter := rules.foldl register (init false)

/-- The decisions for a type and a key. -/
def decisionsFor (l : RateLimiter) (type key : Str) (calls : List LimiterCall) : List (Int × Bool) :=
  ((l.decisions calls).filter (fun d => d.type = type ∧ d.key = key)).map (fun d => (d.now, d.limited))

/-- The record of a window. -/
def record {rule : FixedWindow.Rule} (w : Window rule) : RequestInfo := ⟨w.admitted, w.opened⟩

/-- The limiter has the state of a counter as its record for a key. -/
structure Tracks (l : RateLimiter) (r : LimitRule) (key : Str) (w : Option (Window r.counter)) : Prop where
  isOpen : l.rateLimiterClose = false
  maxCount : l.typeMaxCountMap r.type = some r.maxCount
  windowSec : l.typeTimeWindowMap r.type = some r.windowSec
  records : ∃ records, l.typeLimitMap r.type = some records ∧ records key = w.map record

/-! ## Registration -/

/-- A registered rule, with no records yet. -/
structure Registered (l : RateLimiter) (r : LimitRule) : Prop where
  isOpen : l.rateLimiterClose = false
  maxCount : l.typeMaxCountMap r.type = some r.maxCount
  windowSec : l.typeTimeWindowMap r.type = some r.windowSec
  records : l.typeLimitMap r.type = some Table.empty

theorem register_eq {l : RateLimiter} (h : l.rateLimiterClose = false) (r : LimitRule) :
    l.register r =
      { l with
        typeLimitMap :=
          if (l.typeLimitMap r.type).isSome then l.typeLimitMap
          else l.typeLimitMap.insert r.type Table.empty
        typeMaxCountMap := l.typeMaxCountMap.insert r.type r.maxCount
        typeTimeWindowMap := l.typeTimeWindowMap.insert r.type r.windowSec } := by
  unfold register registerLimitRule
  rw [h, if_neg (by simp)]

theorem typeLimitMap_register_of_ne {l : RateLimiter} (h : l.rateLimiterClose = false) {r : LimitRule}
    {type : Str} (hne : type ≠ r.type) : (l.register r).typeLimitMap type = l.typeLimitMap type := by
  rw [register_eq h]
  simp only
  split_ifs
  · rfl
  · exact Table.insert_of_ne _ hne _

theorem registered_register {l : RateLimiter} (h : l.rateLimiterClose = false) {r : LimitRule}
    (hnew : l.typeLimitMap r.type = none) : Registered (l.register r) r := by
  rw [register_eq h]
  refine ⟨h, Table.insert_self _ _ _, Table.insert_self _ _ _, ?_⟩
  simp [hnew]

/-- A rule for another type changes nothing for a registered one. -/
theorem Registered.register {l : RateLimiter} {r r' : LimitRule} (h : Registered l r)
    (hne : r.type ≠ r'.type) : Registered (l.register r') r := by
  have hmap := typeLimitMap_register_of_ne h.isOpen hne
  rw [register_eq h.isOpen] at hmap ⊢
  refine ⟨h.isOpen, ?_, ?_, hmap.trans h.records⟩
  · exact (Table.insert_of_ne _ hne _).trans h.maxCount
  · exact (Table.insert_of_ne _ hne _).trans h.windowSec

theorem Registered.foldl {l : RateLimiter} {r : LimitRule} (h : Registered l r) {rules : List LimitRule}
    (hne : r.type ∉ rules.map LimitRule.type) : Registered (rules.foldl RateLimiter.register l) r := by
  induction rules generalizing l with
  | nil => exact h
  | cons r' rules ih =>
    rw [List.map_cons, List.mem_cons, not_or] at hne
    exact ih (h.register hne.1) hne.2

/-- Rules of different types are all registered. -/
theorem registered_foldl {l : RateLimiter} (h : l.rateLimiterClose = false) {rules : List LimitRule}
    (hnew : ∀ r ∈ rules, l.typeLimitMap r.type = none) (hnodup : (rules.map LimitRule.type).Nodup)
    {r : LimitRule} (hr : r ∈ rules) : Registered (rules.foldl register l) r := by
  induction rules generalizing l with
  | nil => simp at hr
  | cons r' rules ih =>
    rw [List.map_cons, List.nodup_cons] at hnodup
    rcases List.mem_cons.mp hr with rfl | hr
    · exact (registered_register h (hnew r (by simp))).foldl hnodup.1
    · refine ih ?_ ?_ hnodup.2 hr
      · rw [register_eq h]
        exact h
      · intro r'' hr''
        have hne : r''.type ≠ r'.type := fun heq => hnodup.1 (heq ▸ List.mem_map_of_mem hr'')
        rw [typeLimitMap_register_of_ne h hne]
        exact hnew r'' (by simp [hr''])

/-- A registered rule has no window yet. -/
theorem tracks_registered {rules : List LimitRule} (hnodup : (rules.map LimitRule.type).Nodup)
    {r : LimitRule} (hr : r ∈ rules) (key : Str) : Tracks (registered rules) r key none := by
  obtain ⟨hopen, hcount, hwindow, hrecords⟩ : Registered (registered rules) r :=
    registered_foldl rfl (fun _ _ => rfl) hnodup hr
  exact ⟨hopen, hcount, hwindow, Table.empty, hrecords, rfl⟩

/-! ## One call -/

/-- A record is written. -/
theorem Tracks.store {l : RateLimiter} {r : LimitRule} {key : Str} {w : Option (Window r.counter)}
    (h : Tracks l r key w) (records : Table Str RequestInfo) (w' : Window r.counter) :
    Tracks { l with typeLimitMap := l.typeLimitMap.insert r.type (records.insert key (record w')) }
      r key (some w') :=
  ⟨h.isOpen, h.maxCount, h.windowSec, _, Table.insert_self _ _ _, Table.insert_self _ _ _⟩

/-- A call for the pair is answered as the counter answers it. -/
theorem Tracks.isLimit {l : RateLimiter} {r : LimitRule} {key : Str} {w : Option (Window r.counter)}
    (h : Tracks l r key w) (now : Int) :
    (l.isLimit now r.type key).1 = (ask w now).1 ∧
      Tracks (l.isLimit now r.type key).2 r key (ask w now).2 := by
  obtain ⟨records, hrecords, hkey⟩ := h.records
  have hopen : ¬ l.rateLimiterClose = true := by simp [h.isOpen]
  unfold RateLimiter.isLimit ask
  rw [if_neg hopen]
  simp only [hrecords, hkey, h.maxCount, h.windowSec, Option.getD_some]
  rcases w with _ | w
  · exact ⟨rfl, h.store records (.opening r.counter now)⟩
  · have hwidth : now - (record w).lastResetTime < r.windowSec * 1000000000 ↔
        ¬ w.opened + r.counter.width ≤ now := by
      show now - w.opened < _ ↔ ¬ w.opened + r.windowSec * 1000000000 ≤ now
      omega
    simp only [Option.map_some]
    by_cases hend : w.opened + r.counter.width ≤ now
    · rw [if_neg (fun hin => hwidth.mp hin hend), if_pos hend]
      exact ⟨rfl, h.store records (.opening r.counter now)⟩
    · rw [if_pos (hwidth.mpr hend), if_neg hend]
      by_cases hroom : w.admitted < r.counter.maxCount
      · rw [if_neg (show ¬ r.maxCount ≤ (record w).count from Int.not_le.mpr hroom), dif_pos hroom]
        exact ⟨rfl, h.store records ⟨w.opened, w.admitted + 1, _, hroom⟩⟩
      · rw [if_pos (show r.maxCount ≤ (record w).count from Int.not_lt.mp hroom), dif_neg hroom]
        exact ⟨rfl, h⟩

/-- The records of a type are replaced by ones that agree on the key, or those of another type by
    any. -/
theorem Tracks.of_insert {l : RateLimiter} {r : LimitRule} {key : Str} {w : Option (Window r.counter)}
    (h : Tracks l r key w) {type : Str} {records : Table Str RequestInfo}
    (hsame : type = r.type → records key = w.map record) :
    Tracks { l with typeLimitMap := l.typeLimitMap.insert type records } r key w := by
  refine ⟨h.isOpen, h.maxCount, h.windowSec, ?_⟩
  by_cases htype : r.type = type
  · exact ⟨records, by simp [htype], hsame htype.symm⟩
  · simp only [Table.insert_of_ne _ htype]
    exact h.records

/-- What `isLimit` may do to the records: one record of the type is written. -/
theorem isLimit_cases (l : RateLimiter) (now : Int) (type key : Str) :
    (l.isLimit now type key).2 = l ∨
      ∃ records info, l.typeLimitMap type = some records ∧ (l.isLimit now type key).2 =
        { l with typeLimitMap := l.typeLimitMap.insert type (records.insert key info) } := by
  unfold RateLimiter.isLimit
  split_ifs
  · exact .inl rfl
  · split
    · exact .inl rfl
    · rename_i records hrecords
      simp only
      split
      · exact .inr ⟨records, _, hrecords, rfl⟩
      · split_ifs
        · exact .inl rfl
        · exact .inr ⟨records, _, hrecords, rfl⟩
        · exact .inr ⟨records, _, hrecords, rfl⟩

/-- A call for another pair leaves the state of the counter. -/
theorem Tracks.isLimit_of_ne {l : RateLimiter} {r : LimitRule} {key : Str} {w : Option (Window r.counter)}
    (h : Tracks l r key w) (now : Int) {type key' : Str} (hne : ¬ (type = r.type ∧ key' = key)) :
    Tracks (l.isLimit now type key').2 r key w := by
  rcases isLimit_cases l now type key' with heq | ⟨records, info, hrecords, heq⟩
  · rw [heq]
    exact h
  · rw [heq]
    refine h.of_insert (fun htype => ?_)
    obtain ⟨records', hrecords', hkey⟩ := h.records
    rw [htype, hrecords'] at hrecords
    cases hrecords
    rw [Table.insert_of_ne _ (fun heq => hne ⟨htype, heq.symm⟩)]
    exact hkey

theorem clear_eq {l : RateLimiter} (h : l.rateLimiterClose = false) (type key : Str) :
    l.clear type key = l ∧ l.typeLimitMap type = none ∨
      ∃ records, l.typeLimitMap type = some records ∧ l.clear type key =
        { l with typeLimitMap := l.typeLimitMap.insert type (records.erase key) } := by
  unfold clear
  rw [if_neg (by simp [h])]
  split
  · rename_i hrecords
    exact .inl ⟨rfl, hrecords⟩
  · rename_i records hrecords
    exact .inr ⟨records, hrecords, rfl⟩

/-- `clear` for the pair clears the counter. -/
theorem Tracks.clear {l : RateLimiter} {r : LimitRule} {key : Str} {w : Option (Window r.counter)}
    (h : Tracks l r key w) : Tracks (l.clear r.type key) r key none := by
  obtain ⟨records', hrecords', -⟩ := h.records
  rcases clear_eq h.isOpen r.type key with ⟨-, hnone⟩ | ⟨records, hrecords, heq⟩
  · rw [hrecords'] at hnone
    cases hnone
  · rw [heq]
    exact ⟨h.isOpen, h.maxCount, h.windowSec, _, Table.insert_self _ _ _, Table.erase_self _ _⟩

/-- `clear` for another pair leaves the state of the counter. -/
theorem Tracks.clear_of_ne {l : RateLimiter} {r : LimitRule} {key : Str} {w : Option (Window r.counter)}
    (h : Tracks l r key w) {type key' : Str} (hne : ¬ (type = r.type ∧ key' = key)) :
    Tracks (l.clear type key') r key w := by
  rcases clear_eq h.isOpen type key' with ⟨heq, -⟩ | ⟨records, hrecords, heq⟩
  · rw [heq]
    exact h
  · rw [heq]
    refine h.of_insert (fun htype => ?_)
    obtain ⟨records', hrecords', hkey⟩ := h.records
    rw [htype, hrecords'] at hrecords
    cases hrecords
    rw [Table.erase_of_ne _ (fun heq => hne ⟨htype, heq.symm⟩)]
    exact hkey

/-- A call does to the counter what the counter sees of it. -/
theorem Tracks.call {l : RateLimiter} {r : LimitRule} {key : Str} {w : Option (Window r.counter)}
    (h : Tracks l r key w) (c : LimiterCall) :
    Tracks (l.call c) r key (window w (c.forPair r.type key).toList) := by
  rcases c with ⟨now, type, key'⟩ | ⟨type, key'⟩
  · by_cases hpair : type = r.type ∧ key' = key
    · simp only [LimiterCall.forPair, if_pos hpair]
      obtain ⟨rfl, rfl⟩ := hpair
      exact (h.isLimit now).2
    · simp only [LimiterCall.forPair, if_neg hpair]
      exact h.isLimit_of_ne now hpair
  · by_cases hpair : type = r.type ∧ key' = key
    · simp only [LimiterCall.forPair, if_pos hpair]
      obtain ⟨rfl, rfl⟩ := hpair
      exact h.clear
    · simp only [LimiterCall.forPair, if_neg hpair]
      exact h.clear_of_ne hpair

/-! ## Runs -/

theorem pairCalls_cons (type key : Str) (c : LimiterCall) (calls : List LimiterCall) :
    pairCalls type key (c :: calls) = (c.forPair type key).toList ++ pairCalls type key calls := by
  unfold pairCalls
  rcases hc : c.forPair type key with _ | c'
  · rw [List.filterMap_cons_none hc]
    rfl
  · rw [List.filterMap_cons_some hc]
    rfl

/-- After any calls the record for the pair is the state of the counter. -/
theorem Tracks.after {l : RateLimiter} {r : LimitRule} {key : Str} {w : Option (Window r.counter)}
    (h : Tracks l r key w) (calls : List LimiterCall) :
    Tracks (l.after calls) r key (window w (pairCalls r.type key calls)) := by
  induction calls generalizing l w with
  | nil => exact h
  | cons c calls ih =>
    rw [pairCalls_cons, window, List.foldl_append]
    exact ih (h.call c)

/-- In every interleaving the decisions for the pair are those of the counter. -/
theorem Tracks.decisionsFor {l : RateLimiter} {r : LimitRule} {key : Str} {w : Option (Window r.counter)}
    (h : Tracks l r key w) (calls : List LimiterCall) :
    l.decisionsFor r.type key calls = FixedWindow.decisions w (pairCalls r.type key calls) := by
  induction calls generalizing l w with
  | nil => rfl
  | cons c calls ih =>
    have hrest := ih (h.call c)
    rw [pairCalls_cons]
    unfold RateLimiter.decisionsFor at hrest ⊢
    rcases c with ⟨now, type, key'⟩ | ⟨type, key'⟩
    · by_cases hpair : type = r.type ∧ key' = key
      · simp only [LimiterCall.forPair, if_pos hpair] at hrest ⊢
        obtain ⟨rfl, rfl⟩ := hpair
        rw [RateLimiter.decisions, List.filter_cons_of_pos (by simp), (h.isLimit now).1, List.map_cons]
        exact congrArg _ hrest
      · simp only [LimiterCall.forPair, if_neg hpair] at hrest ⊢
        rw [RateLimiter.decisions, List.filter_cons_of_neg (by simpa using hpair)]
        exact hrest
    · by_cases hpair : type = r.type ∧ key' = key
      · simp only [LimiterCall.forPair, if_pos hpair] at hrest ⊢
        exact hrest
      · simp only [LimiterCall.forPair, if_neg hpair] at hrest ⊢
        exact hrest

/-! ## The bounds -/

/-- Calls of which none clears the pair are only asked. -/
theorem pairCalls_of_not_clear {type key : Str} {calls : List LimiterCall}
    (h : LimiterCall.clear type key ∉ calls) :
    ∃ times : List Int, times.Sublist (calls.filterMap LimiterCall.reading) ∧
      pairCalls type key calls = times.map .ask := by
  induction calls with
  | nil => exact ⟨[], .slnil, rfl⟩
  | cons c calls ih =>
    rw [List.mem_cons, not_or] at h
    obtain ⟨times, hsub, hcalls⟩ := ih h.2
    rw [pairCalls_cons, hcalls]
    rcases c with ⟨now, type', key'⟩ | ⟨type', key'⟩
    · show ∃ t, List.Sublist t (now :: calls.filterMap LimiterCall.reading) ∧ _
      by_cases hpair : type' = type ∧ key' = key
      · simp only [LimiterCall.forPair, if_pos hpair]
        exact ⟨now :: times, hsub.cons_cons now, rfl⟩
      · simp only [LimiterCall.forPair, if_neg hpair]
        exact ⟨times, hsub.cons now, rfl⟩
    · show ∃ t, List.Sublist t (calls.filterMap LimiterCall.reading) ∧ _
      have hpair : ¬ (type' = type ∧ key' = key) := by
        rintro ⟨rfl, rfl⟩
        exact h.1 rfl
      simp only [LimiterCall.forPair, if_neg hpair]
      exact ⟨times, hsub, rfl⟩

/-- With each type registered once, in every interleaving of calls: the decisions for a type and a key
    are those of a counter that sees only their calls; from a call on that opens a window, exactly the
    first `maxCount` calls for the pair in the window are admitted; and where the pair is not cleared, at
    most twice as many are admitted in any interval of the width of a window. -/
theorem isLimit_exact {rules : List LimitRule} (hnodup : (rules.map LimitRule.type).Nodup)
    {calls : List LimiterCall} (hsorted : (calls.filterMap LimiterCall.reading).Pairwise (· ≤ ·))
    {r : LimitRule} (hr : r ∈ rules) (key : Str) :
    (registered rules).decisionsFor r.type key calls =
        FixedWindow.decisions (none : Option (Window r.counter)) (pairCalls r.type key calls) ∧
      (∀ before now during, ∀ times : List Int,
        Opens (window (none : Option (Window r.counter)) (pairCalls r.type key before)) now →
        pairCalls r.type key during = times.map .ask →
        (∀ t ∈ times, t < now + r.windowSec * 1000000000) →
        (((((registered rules).after before).decisionsFor r.type key
          (.isLimit now r.type key :: during)).countP (fun d => d.2 = false) : Nat) : Int) =
            min ((times.length : Int) + 1) r.maxCount) ∧
      (.clear r.type key ∉ calls → ∀ start,
        (admittedIn start (start + r.windowSec * 1000000000)
          ((registered rules).decisionsFor r.type key calls) : Int) ≤ 2 * r.maxCount) := by
  have hstart := tracks_registered hnodup hr key
  refine ⟨hstart.decisionsFor calls, ?_, ?_⟩
  · intro before now during times hopens hduring htimes
    rw [(hstart.after before).decisionsFor, pairCalls_cons, hduring]
    simp only [LimiterCall.forPair, and_self, if_true]
    exact admitted_of_opens hopens times htimes
  · intro hclear start
    obtain ⟨times, hsub, hcalls⟩ := pairCalls_of_not_clear hclear
    rw [hstart.decisionsFor, hcalls]
    exact @admittedIn_le r.counter times (hsorted.sublist hsub) start

theorem access_maxCount : (1 : Int) ≤ 2 := by decide

theorem access_window : (0 : Int) ≤ 10 := by decide

theorem login_maxCount : (1 : Int) ≤ 1 := le_rfl

theorem login_window : (0 : Int) ≤ 1 := by decide

/-- Two calls in a window of ten seconds, and one in a window of a second. -/
def twoRules : List LimitRule :=
  [⟨str "access_ip", 2, 10, access_maxCount, access_window⟩, ⟨str "login_ip", 1, 1, login_maxCount, login_window⟩]

/-- Calls of both types, with a key of another client and an erased one between them. -/
def interleavedCalls : List LimiterCall :=
  [.isLimit 0 (str "access_ip") (str "k"), .isLimit 1 (str "login_ip") (str "k"),
    .isLimit 2 (str "access_ip") (str "j"), .clear (str "login_ip") (str "k"),
    .isLimit 3 (str "access_ip") (str "k"), .isLimit 9000000000 (str "access_ip") (str "k"),
    .isLimit 10000000000 (str "access_ip") (str "k")]

/-- The third call in the window is refused, and the window ends after ten seconds. -/
theorem isLimit_exact_interleavedCalls :
    (registered twoRules).decisionsFor (str "access_ip") (str "k") interleavedCalls =
        [(0, false), (3, false), (9000000000, true), (10000000000, false)] ∧
      (admittedIn 3 (3 + 10 * 1000000000)
        ((registered twoRules).decisionsFor (str "access_ip") (str "k") interleavedCalls) : Int) ≤
          2 * 2 := by
  have hexact := @isLimit_exact twoRules (by decide) interleavedCalls (by decide)
    ⟨str "access_ip", 2, 10, by decide, by decide⟩ (List.mem_cons_self ..) (str "k")
  exact ⟨hexact.1.trans (by decide), hexact.2.2 (by decide) 3⟩

end RateLimiter

end ModularNetServer
