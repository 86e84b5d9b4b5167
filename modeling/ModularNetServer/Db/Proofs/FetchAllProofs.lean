import ModularNetServer.Db.FetchAll

/-!
# Which result sets are fetched exactly

A value that fits its buffer is read back from it, also where a longer one was stored before. One that does
not fit is read beyond the buffer.
-/

namespace ModularNetServer

open Cxx

namespace ColumnBind

theorem text_store (b : ColumnBind) {value : Str} (h : value.length ≤ bufferLength) :
    (b.store (some value)).text = value := by
  unfold text store
  refine List.ext_getElem (by simp) ?_
  intro j hj hj'
  have hlt : j < bufferLength := by omega
  simp [hlt, hj']

/-- How far the buffers of a row are read. -/
theorem reads_store (b : ColumnBind) (value : Option Str) :
    (b.store value).reads = (value.map List.length).getD 0 := by
  cases value <;> rfl

end ColumnBind

namespace SqlExecutor

/-- The buffers are kept within their bounds if and only if the row fits them. -/
theorem reads_le_iff {binds : List ColumnBind} {row : FetchedRow} (hlen : binds.length = row.length) :
    (∀ n ∈ (List.zipWith ColumnBind.store binds row).map ColumnBind.reads, n ≤ bufferLength) ↔ RowFits row := by
  have hreads : (List.zipWith ColumnBind.store binds row).map ColumnBind.reads =
      row.map fun value => (value.map List.length).getD 0 := by
    refine List.ext_getElem (by simp [hlen]) ?_
    intro j hj hj'
    simp [ColumnBind.reads_store]
  rw [hreads]
  unfold RowFits
  constructor
  · intro h value hvalue
    exact h value.length (List.mem_map.mpr ⟨some value, hvalue, rfl⟩)
  · intro h n hn
    obtain ⟨value, hvalue, rfl⟩ := List.mem_map.mp hn
    cases value with
    | none => exact Nat.zero_le _
    | some value => exact h value hvalue

/-- The row that is made of buffers that have a row which fits. -/
theorem rowExact_of_fits {columnNames : List Str} (hnames : columnNames.Nodup) {binds : List ColumnBind}
    {row : FetchedRow} (hbinds : binds.length = columnNames.length) (hrow : row.length = columnNames.length)
    (hfits : RowFits row) :
    RowExact columnNames row
      (Table.ofList (List.zipWith ColumnBind.entry columnNames (List.zipWith ColumnBind.store binds row))) := by
  have hkeys : (List.zipWith ColumnBind.entry columnNames
      (List.zipWith ColumnBind.store binds row)).map Prod.fst = columnNames := by
    refine List.ext_getElem (by simp [hbinds, hrow]) ?_
    intro j hj hj'
    simp [ColumnBind.entry]
  constructor
  · intro name value hmem
    obtain ⟨j, hj, hget⟩ := List.mem_iff_getElem.mp hmem
    rw [List.length_zip] at hj
    have hjn : j < columnNames.length := by omega
    have hjr : j < row.length := by omega
    have hjb : j < binds.length := by omega
    rw [List.getElem_zip] at hget
    obtain ⟨rfl, hvalue⟩ := Prod.mk.inj hget
    have hentry : (columnNames[j], value) ∈
        List.zipWith ColumnBind.entry columnNames (List.zipWith ColumnBind.store binds row) := by
      refine List.mem_iff_getElem.mpr ⟨j, by simp [hjn, hjb, hjr], ?_⟩
      have htext := ColumnBind.text_store binds[j] (hfits value (hvalue ▸ List.getElem_mem hjr))
      simp only [List.getElem_zipWith, ColumnBind.entry, hvalue]
      rw [htext]
      rfl
    exact Table.ofList_of_mem (by rw [hkeys]; exact hnames) hentry
  · intro name hname
    rwa [Table.ofList_isSome, hkeys] at hname

/-- A row is fetched, however long its values are, unless the fetch fails. -/
theorem fetchLoop_cons (o : FetchOutcomes) (columnNames : List Str) (n : Nat) (row : FetchedRow)
    (rows : List FetchedRow) (binds : List ColumnBind) :
    fetchLoop o columnNames n (row :: rows) binds =
      if o.fetch n = true then
        (Table.ofList (List.zipWith ColumnBind.entry columnNames (List.zipWith ColumnBind.store binds row)) ::
            (fetchLoop o columnNames (n + 1) rows (List.zipWith ColumnBind.store binds row)).1,
          (List.zipWith ColumnBind.store binds row).map ColumnBind.reads ++
            (fetchLoop o columnNames (n + 1) rows (List.zipWith ColumnBind.store binds row)).2)
      else ([], []) := by
  rw [fetchLoop]
  unfold stmtFetch
  cases o.fetch n with
  | false => rfl
  | true =>
    simp only [Bool.true_eq_false, if_false, if_true]
    split_ifs <;> rfl

/-- The loop fetches exactly if and only if no fetch of a row fails and every row fits. -/
theorem fetchLoop_iff {o : FetchOutcomes} {columnNames : List Str} (hnames : columnNames.Nodup) (n : Nat)
    {rows : List FetchedRow} (hrows : ∀ row ∈ rows, row.length = columnNames.length) {binds : List ColumnBind}
    (hbinds : binds.length = columnNames.length) :
    ((∀ k ∈ (fetchLoop o columnNames n rows binds).2, k ≤ bufferLength) ∧
        List.Forall₂ (RowExact columnNames) rows (fetchLoop o columnNames n rows binds).1) ↔
      (∀ i < rows.length, o.fetch (n + i) = true) ∧ ∀ row ∈ rows, RowFits row := by
  induction rows generalizing n binds with
  | nil => simp [fetchLoop]
  | cons row rows ih =>
    have hrow : row.length = columnNames.length := hrows row (by simp)
    have hstored : (List.zipWith ColumnBind.store binds row).length = columnNames.length := by
      simp [hbinds, hrow]
    have hrest := ih (n + 1) (fun r hr => hrows r (List.mem_cons_of_mem _ hr)) hstored
    have hreads := @reads_le_iff binds row (hbinds.trans hrow.symm)
    rw [fetchLoop_cons]
    cases hfetch : o.fetch n with
    | false =>
      refine iff_of_false (fun h => by cases h.2) ?_
      rintro ⟨h, -⟩
      have hn := h 0 (by simp)
      rw [Nat.add_zero, hfetch] at hn
      cases hn
    | true =>
      simp only [if_true, List.mem_append, List.forall₂_cons]
      have hfetches : (∀ i < (row :: rows).length, o.fetch (n + i) = true) ↔
          ∀ i < rows.length, o.fetch (n + 1 + i) = true := by
        constructor
        · intro h i hi
          have hi' := h (i + 1) (by simpa using hi)
          rw [Nat.add_right_comm]
          exact hi'
        · intro h i hi
          cases i with
          | zero => exact hfetch
          | succ i =>
            have hi' := h i (by simpa using hi)
            rw [Nat.add_right_comm] at hi'
            exact hi'
      rw [hfetches, List.forall_mem_cons]
      constructor
      · rintro ⟨hle, -, hexact⟩
        obtain ⟨hok, hfits⟩ := hrest.mp ⟨fun k hk => hle k (.inr hk), hexact⟩
        exact ⟨hok, hreads.mp fun k hk => hle k (.inl hk), hfits⟩
      · rintro ⟨hok, hfits, hfits'⟩
        obtain ⟨hle, hexact⟩ := hrest.mpr ⟨hok, hfits'⟩
        refine ⟨?_, rowExact_of_fits hnames hbinds hrow hfits, hexact⟩
        rintro k (hk | hk)
        · exact hreads.mpr hfits k hk
        · exact hle k hk

theorem fetchesExactly_nil {set : ResultSet} : FetchesExactly set ([], []) ↔ set.rows = [] := by
  unfold FetchesExactly
  rw [List.forall₂_nil_right_iff]
  simp

/-- `fetchAll` reads inside the buffers and returns the stored rows if and only if there are none, or no
    call of MySQL fails and no value is longer than a buffer. -/
theorem fetchAll_iff (o : FetchOutcomes) (heap : Nat → Nat → UInt8) (set : ResultSet) :
    FetchesExactly set (fetchAll o heap set) ↔
      set.rows = [] ∨ o.Succeed set.rows.length ∧ ∀ row ∈ set.rows, RowFits row := by
  unfold fetchAll
  dsimp only
  split_ifs with hstore hmeta hbind
  · have hno : ¬ o.Succeed set.rows.length := fun h => absurd h.storeResult (by simp [hstore])
    simp [fetchesExactly_nil, hno]
  · have hno : ¬ o.Succeed set.rows.length := fun h => absurd h.resultMetadata (by simp [hmeta])
    simp [fetchesExactly_nil, hno]
  · have hno : ¬ o.Succeed set.rows.length := fun h => absurd h.bindResult (by simp [hbind])
    simp [fetchesExactly_nil, hno]
  · have hloop := @fetchLoop_iff o set.columnNames set.nodup 0 set.rows set.width
      ((List.range set.columnNames.length).map fun i => ⟨heap i, false, 0⟩) (by simp)
    unfold FetchesExactly
    rw [hloop]
    constructor
    · rintro ⟨hfetch, hfits⟩
      refine .inr ⟨⟨by simpa using hstore, by simpa using hmeta, by simpa using hbind, ?_⟩, hfits⟩
      intro n hn
      have hn' := hfetch n hn
      rwa [Nat.zero_add] at hn'
    · rintro (hnil | ⟨hok, hfits⟩)
      · simp [hnil]
      · refine ⟨?_, hfits⟩
        intro n hn
        rw [Nat.zero_add]
        exact hok.fetch n hn

/-- A result set with one value. -/
def oneValue (value : Str) : ResultSet where
  columnNames := [str "bio"]
  rows := [[some value]]
  nodup := by decide
  width := by
    intro row hrow
    rw [List.mem_singleton.mp hrow]
    rfl

/-- A server on which every call of MySQL succeeds. -/
def fetchSucceeds : FetchOutcomes := ⟨true, true, true, fun _ => true⟩

theorem oneValue_fits {heap : Nat → Nat → UInt8} {value : Str}
    (h : FetchesExactly (oneValue value) (fetchAll fetchSucceeds heap (oneValue value))) :
    value.length ≤ bufferLength := by
  have hrow := ((fetchLoop_iff (oneValue value).nodup 0 (oneValue value).width rfl).mp h).2 [some value]
    (List.mem_singleton_self _)
  exact hrow value (List.mem_singleton_self _)

/-- A value of 1025 bytes is fetched beyond its buffer. -/
theorem fetchAll_longValue :
    ¬ ∀ (o : FetchOutcomes) (heap : Nat → Nat → UInt8) (set : ResultSet),
      o.Succeed set.rows.length → FetchesExactly set (fetchAll o heap set) := by
  intro h
  have hlen := oneValue_fits (h fetchSucceeds (fun _ _ => 0) (oneValue (List.replicate 1025 97))
    ⟨rfl, rfl, rfl, fun _ _ => rfl⟩)
  rw [List.length_replicate] at hlen
  exact absurd hlen (by decide)

end SqlExecutor

end ModularNetServer
