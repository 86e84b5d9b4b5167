import ModularNetServer.Config.Proofs.BadConfigProofs

/-!
# What the configuration holds after any history

The reference is the list of the contents that were parsed: the first that is not empty fixes the keys that
are not reloadable, and of the reloadable ones the last value counts.
-/

namespace ModularNetServer

open Cxx Transition

namespace ConfigManager

variable {C : Type*} {p : JsonParser} {m : ConfigManager C}

/-! ## The history -/

/-- The members of an object with the texts of their values. -/
def texts (members : List (Str × Json)) : List (Str × Str) :=
  members.map fun m => (m.1, m.2.dump.toOption.getD [])

/-- The members of the object that a content holds. -/
def objectOf (p : JsonParser) (content : Str) : Option (List (Str × Str)) :=
  match p.parse content with
  | some (.object members) => some (texts members)
  | _ => none

/-- What a call loads, if that is an object. -/
def loaded (p : JsonParser) : ConfigCall C → Option (Str × List (Str × Str))
  | .load (some content) => (objectOf p content).map fun members => (content, members)
  | _ => none

/-- The contents that were parsed to objects. -/
def parsed (p : JsonParser) (history : List (ConfigCall C)) : List (Str × List (Str × Str)) :=
  history.filterMap (loaded p)

/-- The value of a key in the first object that is not empty. -/
def firstValue (key : Str) (objects : List (Str × List (Str × Str))) : Option Str :=
  (objects.find? fun o => decide (o.2 ≠ [])).bind fun o => o.2.lookup key

/-- The value of a key in the last object that has it. -/
def latestValue (key : Str) (objects : List (Str × List (Str × Str))) : Option Str :=
  objects.reverse.findSome? fun o => o.2.lookup key

/-- The content that was parsed last. -/
def lastContent (objects : List (Str × List (Str × Str))) : Str := (objects.getLast?.map Prod.fst).getD []

/-- The callback that a call registers for a key. -/
def registers (key : Str) : ConfigCall C → Option C
  | .registerCallback k cb => if k = key then some cb else none
  | .load _ => none

/-- The callback that was registered first for a key. -/
def firstRegistered (history : List (ConfigCall C)) (key : Str) : Option C := history.findSome? (registers key)

/-- The content is a JSON object, or no JSON at all. -/
def Configures (p : JsonParser) (content : Str) : Prop :=
  p.parse content = none ∨ ∃ members, p.parse content = some (.object members)

/-- What the manager holds after a history. -/
structure Reflects (p : JsonParser) (history : List (ConfigCall C)) (m : ConfigManager C) : Prop where
  fixed : ∀ key, key ∉ hotReloadableKeys → m.config.lookup key = firstValue key (parsed p history)
  hot : ∀ key ∈ hotReloadableKeys, m.config.lookup key = latestValue key (parsed p history)
  last : m.lastLoadedContent = lastContent (parsed p history)
  callbacks : m.keyCallbacks = firstRegistered history

/-- What a load of a content does after a history. -/
structure Reloads (p : JsonParser) (history : List (ConfigCall C)) (m : ConfigManager C) (content : Str)
    (m' : ConfigManager C) (ran : List C) : Prop where
  runs : ∃ changed : List Str, changed.Nodup ∧
    (∀ key, key ∈ changed ↔
      (∃ o ∈ parsed p history, o.2 ≠ []) ∧ key ∈ hotReloadableKeys ∧
        m'.config.lookup key ≠ m.config.lookup key) ∧
    ran = changed.filterMap (firstRegistered history)
  ignored : p.parse content = none ∨ content = lastContent (parsed p history) → m' = m ∧ ran = []

theorem firstValue_append (key : Str) (objects : List (Str × List (Str × Str))) (o : Str × List (Str × Str)) :
    firstValue key (objects ++ [o]) =
      if ∃ o' ∈ objects, o'.2 ≠ [] then firstValue key objects else o.2.lookup key := by
  unfold firstValue
  rw [List.find?_append]
  split_ifs with h
  · obtain ⟨first, hfirst⟩ : ∃ first, (objects.find? fun o => decide (o.2 ≠ [])) = some first := by
      rw [← Option.isSome_iff_exists, List.find?_isSome]
      simpa using h
    rw [hfirst, Option.some_or]
  · have hnone : (objects.find? fun o => decide (o.2 ≠ [])) = none := by
      rw [List.find?_eq_none]
      intro o' ho'
      simpa using not_exists.mp h o' ∘ And.intro ho'
    rw [hnone, Option.none_or]
    by_cases ho : o.2 = [] <;> simp [ho]

theorem latestValue_append (key : Str) (objects : List (Str × List (Str × Str))) (o : Str × List (Str × Str)) :
    latestValue key (objects ++ [o]) = (o.2.lookup key).or (latestValue key objects) := by
  unfold latestValue
  rw [List.reverse_append, List.reverse_singleton, List.singleton_append, List.findSome?_cons]
  cases o.2.lookup key <;> rfl

theorem lastContent_append (objects : List (Str × List (Str × Str))) (o : Str × List (Str × Str)) :
    lastContent (objects ++ [o]) = o.1 := by
  simp [lastContent]

theorem parsed_append (history : List (ConfigCall C)) (call : ConfigCall C) :
    parsed p (history ++ [call]) = parsed p history ++ (loaded p call).toList := by
  unfold parsed
  rw [List.filterMap_append]
  cases hcall : loaded p call <;> simp [hcall]

/-- What is parsed is what the content holds. -/
theorem objectOf_of_mem_parsed {history : List (ConfigCall C)} {o : Str × List (Str × Str)}
    (h : o ∈ parsed p history) : objectOf p o.1 = some o.2 := by
  obtain ⟨call, -, hcall⟩ := List.mem_filterMap.mp h
  cases call with
  | registerCallback key cb => cases hcall
  | load file =>
    cases file with
    | none => cases hcall
    | some content =>
      obtain ⟨members, hmembers, rfl⟩ := Option.map_eq_some_iff.mp hcall
      exact hmembers

theorem firstRegistered_append (history : List (ConfigCall C)) (call : ConfigCall C) (key : Str) :
    firstRegistered (history ++ [call]) key = (firstRegistered history key).or (registers key call) := by
  unfold firstRegistered
  rw [List.findSome?_append, List.findSome?_singleton]

theorem isEmpty_iff_lookup (s : AList fun _ : Str => Str) :
    s.entries.isEmpty = true ↔ ∀ key, s.lookup key = none := by
  constructor
  · intro h key
    rw [AList.lookup_eq_none, AList.mem_keys, AList.keys, List.isEmpty_iff.mp h]
    exact List.not_mem_nil
  · intro h
    rw [List.isEmpty_iff, List.eq_nil_iff_forall_not_mem]
    intro entry hentry
    exact AList.lookup_eq_none.mp (h entry.1) (AList.mem_keys.mpr (List.mem_keys_of_mem hentry))

/-- A key of the first object that is not empty has a value. -/
theorem Reflects.lookup_first {history : List (ConfigCall C)} (h : Reflects p history m)
    {first : Str × List (Str × Str)} (hfirst : (parsed p history).find? (fun o => decide (o.2 ≠ [])) = some first)
    {key value : Str} (hlookup : first.2.lookup key = some value) : m.config.lookup key ≠ none := by
  by_cases hhot : key ∈ hotReloadableKeys
  · rw [h.hot key hhot, latestValue, ← Option.isSome_iff_ne_none, List.findSome?_isSome_iff]
    exact ⟨first, List.mem_reverse.mpr (List.mem_of_find?_eq_some hfirst), by simp [hlookup]⟩
  · rw [h.fixed key hhot, firstValue, hfirst, Option.bind_some, hlookup]
    simp

/-- The configuration is empty as long as no object with members has been parsed. -/
theorem Reflects.isEmpty_iff {history : List (ConfigCall C)} (h : Reflects p history m) :
    m.config.entries.isEmpty = true ↔ ¬ ∃ o ∈ parsed p history, o.2 ≠ [] := by
  rw [isEmpty_iff_lookup]
  constructor
  · intro hnone hex
    obtain ⟨first, hfirst⟩ : ∃ first, (parsed p history).find? (fun o => decide (o.2 ≠ [])) = some first := by
      rw [← Option.isSome_iff_exists, List.find?_isSome]
      simpa using hex
    have hne : first.2 ≠ [] := by simpa using List.find?_some hfirst
    obtain ⟨⟨key, value⟩, rest, hmembers⟩ := List.exists_cons_of_ne_nil hne
    exact h.lookup_first hfirst (by rw [hmembers, List.lookup_cons_self]) (hnone key)
  · intro hempty key
    have hnil : ∀ o ∈ parsed p history, o.2 = [] := fun o ho => by_contra fun hne => hempty ⟨o, ho, hne⟩
    by_cases hhot : key ∈ hotReloadableKeys
    · rw [h.hot key hhot, latestValue, List.findSome?_eq_none_iff]
      intro o ho
      rw [hnil o (List.mem_reverse.mp ho)]
      rfl
    · have hfind : (parsed p history).find? (fun o => decide (o.2 ≠ [])) = none := by
        rw [List.find?_eq_none]
        intro o ho
        simp [hnil o ho]
      rw [h.fixed key hhot, firstValue, hfind]
      rfl

/-! ## One load -/

/-- The loop over an object is a fold over the texts of its members. -/
theorem loadMembers_eq (firstLoad : Bool) {members : List (Str × Json)}
    (h : ∀ m ∈ members, ∃ text, m.2.dump = .ok text) (s : (AList fun _ : Str => Str) × List Str) :
    loadMembers firstLoad (Json.object members).iterate s =
      .ok ((texts members).foldl (fun s m => loadMember firstLoad s m.1 m.2) s) := by
  simp only [Json.iterate, texts]
  induction members generalizing s with
  | nil => rfl
  | cons member members ih =>
    obtain ⟨text, htext⟩ := h member List.mem_cons_self
    simp only [List.map_cons, loadMembers, htext, List.foldl_cons]
    exact ih (fun m hm => h m (List.mem_cons_of_mem _ hm)) _

theorem texts_keys (members : List (Str × Json)) : (texts members).map Prod.fst = members.map Prod.fst := by
  simp [texts]

theorem loadMember_cond (firstLoad : Bool) (k : Str) :
    (firstLoad || hotReloadableKeys.contains k) = decide (firstLoad = true ∨ k ∈ hotReloadableKeys) := by
  cases firstLoad <;> simp

/-- The value of a key after one member. -/
theorem loadMember_lookup (firstLoad : Bool) (s : (AList fun _ : Str => Str) × List Str) (k value key : Str) :
    (loadMember firstLoad s k value).1.lookup key =
      if key = k ∧ (firstLoad = true ∨ k ∈ hotReloadableKeys) then some value else s.1.lookup key := by
  simp only [loadMember, loadMember_cond]
  by_cases hload : firstLoad = true ∨ k ∈ hotReloadableKeys
  · simp only [hload, decide_true, if_true, and_true]
    by_cases hsame : s.1.lookup k = some value
    · simp only [hsame, ne_eq, not_true_eq_false, decide_false, Bool.false_eq_true, if_false]
      split_ifs with hk
      · rw [hk, hsame]
      · rfl
    · simp only [hsame, ne_eq, not_false_eq_true, decide_true, if_true]
      split_ifs with hk
      · rw [hk, AList.lookup_insert]
      · rw [AList.lookup_insert_ne hk]
  · simp [hload]

/-- The changed keys after one member. -/
theorem loadMember_changed (firstLoad : Bool) (s : (AList fun _ : Str => Str) × List Str) (k value : Str) :
    (loadMember firstLoad s k value).2 =
      s.2 ++ if firstLoad = false ∧ k ∈ hotReloadableKeys ∧ s.1.lookup k ≠ some value then [k] else [] := by
  unfold loadMember
  cases firstLoad with
  | true => by_cases hsame : s.1.lookup k = some value <;> simp [hsame]
  | false =>
    by_cases hhot : k ∈ hotReloadableKeys
    · by_cases hsame : s.1.lookup k = some value <;> simp [hhot, hsame]
    · simp [hhot]

theorem lookup_eq_none_of_not_mem {members : List (Str × Str)} {key : Str} (h : key ∉ members.map Prod.fst) :
    members.lookup key = none := by
  rw [List.lookup_eq_none_iff]
  intro m hm
  rw [bne_iff_ne]
  rintro rfl
  exact h (List.mem_map_of_mem hm)

/-- Under different keys a member is what its key is looked up to. -/
theorem lookup_eq_some_iff_mem {members : List (Str × Str)} (hkeys : (members.map Prod.fst).Nodup)
    {key value : Str} : members.lookup key = some value ↔ (key, value) ∈ members := by
  rw [List.lookup_eq_some_iff]
  constructor
  · rintro ⟨before, after, rfl, -⟩
    simp
  · intro hmem
    obtain ⟨before, after, rfl⟩ := List.append_of_mem hmem
    refine ⟨before, after, rfl, fun o ho => ?_⟩
    rw [List.map_append, List.map_cons, List.nodup_append] at hkeys
    rw [bne_iff_ne]
    rintro rfl
    exact hkeys.2.2 o.1 (List.mem_map_of_mem ho) o.1 List.mem_cons_self rfl

/-- The value of a key after the loop. -/
theorem foldl_lookup (firstLoad : Bool) {members : List (Str × Str)} (hkeys : (members.map Prod.fst).Nodup)
    (s : (AList fun _ : Str => Str) × List Str) (key : Str) :
    (members.foldl (fun s m => loadMember firstLoad s m.1 m.2) s).1.lookup key =
      if firstLoad = true ∨ key ∈ hotReloadableKeys then (members.lookup key).or (s.1.lookup key)
      else s.1.lookup key := by
  induction members generalizing s with
  | nil => simp
  | cons member members ih =>
    obtain ⟨k, value⟩ := member
    obtain ⟨hk, hkeys⟩ := List.nodup_cons.mp hkeys
    rw [List.foldl_cons, ih hkeys, loadMember_lookup]
    by_cases hkey : key = k
    · subst hkey
      rw [lookup_eq_none_of_not_mem hk, List.lookup_cons_self]
      by_cases hload : firstLoad = true ∨ key ∈ hotReloadableKeys <;> simp [hload]
    · have hne : (key == k) = false := by simpa using hkey
      simp only [List.lookup_cons, hne, hkey, false_and, if_false]

/-- The keys that the loop finds changed. -/
theorem foldl_changed (firstLoad : Bool) {members : List (Str × Str)} (hkeys : (members.map Prod.fst).Nodup)
    (s : (AList fun _ : Str => Str) × List Str) :
    (members.foldl (fun s m => loadMember firstLoad s m.1 m.2) s).2 =
      s.2 ++ (members.filter fun m =>
        decide (firstLoad = false ∧ m.1 ∈ hotReloadableKeys ∧ s.1.lookup m.1 ≠ some m.2)).map Prod.fst := by
  induction members generalizing s with
  | nil => simp
  | cons member members ih =>
    obtain ⟨k, value⟩ := member
    obtain ⟨hk, hkeys⟩ := List.nodup_cons.mp hkeys
    rw [List.foldl_cons, ih hkeys, loadMember_changed, List.append_assoc, List.filter_cons]
    have hrest : (members.filter fun m => decide (firstLoad = false ∧ m.1 ∈ hotReloadableKeys ∧
        (loadMember firstLoad s k value).1.lookup m.1 ≠ some m.2)) =
        members.filter fun m => decide (firstLoad = false ∧ m.1 ∈ hotReloadableKeys ∧ s.1.lookup m.1 ≠ some m.2) := by
      refine List.filter_congr fun m hm => ?_
      have hne : m.1 ≠ k := fun h => hk (List.mem_map.mpr ⟨m, hm, h⟩)
      rw [loadMember_lookup, if_neg (fun h => hne h.1)]
    rw [hrest]
    split_ifs <;> simp_all

/-- The keys that a load of an object finds changed. -/
def changedKeys (m : ConfigManager C) (members : List (Str × Str)) : List Str :=
  (members.filter fun member =>
    !m.config.entries.isEmpty && hotReloadableKeys.contains member.1 &&
      decide (m.config.lookup member.1 ≠ some member.2)).map Prod.fst

theorem changedKeys_eq (m : ConfigManager C) (members : List (Str × Str)) :
    m.changedKeys members = (members.filter fun member =>
      decide (m.config.entries.isEmpty = false ∧ member.1 ∈ hotReloadableKeys ∧
        m.config.lookup member.1 ≠ some member.2)).map Prod.fst := by
  unfold changedKeys
  congr 2
  funext member
  rw [Bool.eq_iff_iff]
  simp [and_assoc]

/-- The load of an object. -/
theorem loadFromFile_object {content : Str} {members : List (Str × Json)} (hne : content ≠ m.lastLoadedContent)
    (hparse : p.parse content = some (.object members)) :
    ∃ config : AList fun _ : Str => Str,
      m.loadFromFile p.parse (some content) =
        .ok (true, { m with config := config, lastLoadedContent := content },
          if m.config.entries.isEmpty then [] else (m.changedKeys (texts members)).filterMap m.keyCallbacks) ∧
      ∀ key, config.lookup key =
        if m.config.entries.isEmpty = true ∨ key ∈ hotReloadableKeys then
          ((texts members).lookup key).or (m.config.lookup key)
        else m.config.lookup key := by
  have hkeys : ((texts members).map Prod.fst).Nodup := by
    rw [texts_keys]
    exact p.distinct content members hparse
  refine ⟨_, ?_, foldl_lookup m.config.entries.isEmpty hkeys (m.config, [])⟩
  have hchanged := foldl_changed m.config.entries.isEmpty hkeys (m.config, [])
  rw [List.nil_append] at hchanged
  simp only [loadFromFile, if_neg hne, hparse, loadMembers_eq _ (p.dumps content members hparse),
    changedKeys_eq, ← hchanged]

theorem objectOf_eq {content : Str} {members : List (Str × Json)}
    (hparse : p.parse content = some (.object members)) : objectOf p content = some (texts members) := by
  simp [objectOf, hparse]

/-- A call that loads nothing leaves the reference as it is. -/
theorem Reflects.skip {history : List (ConfigCall C)} (h : Reflects p history m) {call : ConfigCall C}
    (hcall : loaded p call = none) (hreg : ∀ key, registers key call = none) :
    Reflects p (history ++ [call]) m := by
  have hparsed : parsed p (history ++ [call]) = parsed p history := by rw [parsed_append, hcall]; simp
  refine ⟨?_, ?_, ?_, ?_⟩
  · rw [hparsed]
    exact h.fixed
  · rw [hparsed]
    exact h.hot
  · rw [hparsed]
    exact h.last
  · funext key
    rw [firstRegistered_append, hreg, Option.or_none, h.callbacks]

/-- The content that was loaded last, loaded again, changes nothing in the reference. -/
theorem Reflects.repeat {history : List (ConfigCall C)} (h : Reflects p history m) {content : Str}
    {members : List (Str × Str)} (hobj : objectOf p content = some members) (hlast : content = m.lastLoadedContent) :
    Reflects p (history ++ [.load (some content)]) m := by
  have hparsed : parsed p (history ++ [(.load (some content) : ConfigCall C)]) =
      parsed p history ++ [(content, members)] := by
    rw [parsed_append]
    simp [loaded, hobj]
  rw [h.last] at hlast
  rcases List.eq_nil_or_concat (parsed p history) with hnil | ⟨before, o, hbefore⟩
  · -- the content would be empty, and that is no JSON
    rw [hnil] at hlast
    simp [lastContent] at hlast
    subst hlast
    simp [objectOf, p.parse_nil] at hobj
  rw [List.concat_eq_append] at hbefore
  have ho : o = (content, members) := by
    have hmem : o ∈ parsed p history := by simp [hbefore]
    have hobj' := objectOf_of_mem_parsed hmem
    rw [hbefore, lastContent_append] at hlast
    rw [← hlast, hobj] at hobj'
    exact Prod.ext hlast.symm (Option.some.inj hobj').symm
  refine ⟨?_, ?_, ?_, ?_⟩
  · intro key hkey
    rw [h.fixed key hkey, hparsed, firstValue_append]
    split_ifs with hex
    · rfl
    · rw [hbefore, firstValue_append, ← ho]
      refine if_neg fun hex' => hex ?_
      obtain ⟨o', ho', hne⟩ := hex'
      exact ⟨o', by simp [hbefore, ho'], hne⟩
  · intro key hkey
    rw [h.hot key hkey, hparsed, latestValue_append, hbefore, latestValue_append, ho]
    cases members.lookup key <;> rfl
  · rw [h.last, hparsed, lastContent_append, ← hlast]
  · funext key
    rw [firstRegistered_append, h.callbacks]
    exact (Option.or_none).symm

/-- A new object joins the reference. -/
theorem Reflects.join {history : List (ConfigCall C)} (h : Reflects p history m) {content : Str}
    {members : List (Str × Str)} (hobj : objectOf p content = some members) {config : AList fun _ : Str => Str}
    (hconfig : ∀ key, config.lookup key =
      if m.config.entries.isEmpty = true ∨ key ∈ hotReloadableKeys then (members.lookup key).or (m.config.lookup key)
      else m.config.lookup key) :
    Reflects p (history ++ [.load (some content)]) { m with config := config, lastLoadedContent := content } := by
  have hparsed : parsed p (history ++ [(.load (some content) : ConfigCall C)]) =
      parsed p history ++ [(content, members)] := by
    rw [parsed_append]
    simp [loaded, hobj]
  refine ⟨?_, ?_, ?_, ?_⟩
  · intro key hkey
    rw [hparsed, firstValue_append]
    simp only [hconfig, hkey, or_false]
    by_cases hex : ∃ o ∈ parsed p history, o.2 ≠ []
    · rw [if_neg (fun hempty => h.isEmpty_iff.mp hempty hex), if_pos hex]
      exact h.fixed key hkey
    · have hempty := h.isEmpty_iff.mpr hex
      rw [if_pos hempty, if_neg hex, (isEmpty_iff_lookup _).mp hempty key, Option.or_none]
  · intro key hkey
    rw [hparsed, latestValue_append]
    simp only [hconfig, hkey, or_true, if_true, h.hot key hkey]
  · rw [hparsed, lastContent_append]
  · funext key
    rw [firstRegistered_append]
    simp only [h.callbacks]
    exact (Option.or_none).symm

/-- The keys that are found changed are the reloadable ones whose value changes, each once. -/
theorem changedKeys_spec {members : List (Str × Str)} (hkeys : (members.map Prod.fst).Nodup)
    {config : AList fun _ : Str => Str}
    (hconfig : ∀ key, config.lookup key =
      if m.config.entries.isEmpty = true ∨ key ∈ hotReloadableKeys then (members.lookup key).or (m.config.lookup key)
      else m.config.lookup key) :
    (m.changedKeys members).Nodup ∧
      ∀ key, key ∈ m.changedKeys members ↔
        m.config.entries.isEmpty = false ∧ key ∈ hotReloadableKeys ∧ config.lookup key ≠ m.config.lookup key := by
  rw [changedKeys_eq]
  refine ⟨(List.filter_sublist.map Prod.fst).nodup hkeys, fun key => ?_⟩
  simp only [List.mem_map, List.mem_filter, decide_eq_true_eq]
  constructor
  · rintro ⟨⟨key, value⟩, ⟨hmem, hfirst, hhot, hne⟩, rfl⟩
    refine ⟨hfirst, hhot, ?_⟩
    rw [hconfig, if_pos (.inr hhot), (lookup_eq_some_iff_mem hkeys).mpr hmem]
    exact fun heq => hne heq.symm
  · rintro ⟨hfirst, hhot, hne⟩
    rw [hconfig, if_pos (.inr hhot)] at hne
    cases hlookup : members.lookup key with
    | none => simp [hlookup] at hne
    | some value =>
      rw [hlookup, Option.some_or] at hne
      exact ⟨(key, value), ⟨(lookup_eq_some_iff_mem hkeys).mp hlookup, hfirst, hhot, fun heq => hne heq.symm⟩, rfl⟩

/-- A load that is refused changes nothing. -/
theorem reloads_refused (history : List (ConfigCall C)) (content : Str) : Reloads p history m content m [] where
  runs := ⟨[], List.nodup_nil, by simp, rfl⟩
  ignored := fun _ => ⟨rfl, rfl⟩

/-- One load after a history. -/
theorem Reflects.load {history : List (ConfigCall C)} (h : Reflects p history m) {content : Str}
    (hcontent : Configures p content) :
    ∃ ok m' ran, m.loadFromFile p.parse (some content) = .ok (ok, m', ran) ∧ Reloads p history m content m' ran ∧
      Reflects p (history ++ [.load (some content)]) m' := by
  by_cases hlast : content = m.lastLoadedContent
  · refine ⟨false, m, [], by simp [loadFromFile, hlast], reloads_refused history content, ?_⟩
    rcases hcontent with hnone | ⟨members, hobject⟩
    · exact h.skip (by simp [loaded, objectOf, hnone]) (fun _ => rfl)
    · exact h.repeat (objectOf_eq hobject) hlast
  rcases hcontent with hnone | ⟨members, hobject⟩
  · exact ⟨false, m, [], by simp [loadFromFile, hlast, hnone], reloads_refused history content,
      h.skip (by simp [loaded, objectOf, hnone]) (fun _ => rfl)⟩
  obtain ⟨config, hload, hconfig⟩ := loadFromFile_object hlast hobject
  refine ⟨_, _, _, hload, ⟨?_, ?_⟩, h.join (objectOf_eq hobject) hconfig⟩
  · have hkeys : ((texts members).map Prod.fst).Nodup := by
      rw [texts_keys]
      exact p.distinct content members hobject
    obtain ⟨hnodup, hmem⟩ := changedKeys_spec hkeys hconfig
    refine ⟨m.changedKeys (texts members), hnodup, ?_, ?_⟩
    · intro key
      rw [hmem, ← Bool.not_eq_true, h.isEmpty_iff, not_not]
    · cases hempty : m.config.entries.isEmpty with
      | true => simp [changedKeys, hempty]
      | false => simp [h.callbacks]
  · rintro (hno | hsame)
    · rw [hobject] at hno
      cases hno
    · exact absurd (hsame.trans h.last.symm) hlast

/-! ## Runs -/

theorem reflects_start : Reflects p [] (start : ConfigManager C) where
  fixed := fun _ _ => rfl
  hot := fun _ _ => rfl
  last := rfl
  callbacks := rfl

theorem Reflects.register {history : List (ConfigCall C)} (h : Reflects p history m) (key : Str) (cb : C) :
    Reflects p (history ++ [.registerCallback key cb]) (m.registerCallback key cb) := by
  have hparsed : parsed p (history ++ [.registerCallback key cb]) = parsed p history := by
    rw [parsed_append]
    simp [loaded]
  have hkeep : ∀ key', (m.registerCallback key cb).keyCallbacks key' =
      firstRegistered (history ++ [.registerCallback key cb]) key' := by
    intro key'
    rw [firstRegistered_append, registerCallback, ← h.callbacks]
    cases hkey : m.keyCallbacks key with
    | some first =>
      by_cases hk : key = key'
      · simp [← hk, hkey]
      · simp [registers, hk]
    | none =>
      by_cases hk : key = key'
      · simp [registers, ← hk, hkey]
      · simp [registers, hk, Table.insert_of_ne _ (Ne.symm hk)]
  have hconfig : (m.registerCallback key cb).config = m.config ∧
      (m.registerCallback key cb).lastLoadedContent = m.lastLoadedContent := by
    unfold registerCallback
    split_ifs <;> exact ⟨rfl, rfl⟩
  refine ⟨?_, ?_, ?_, funext hkeep⟩
  · rw [hparsed, hconfig.1]
    exact h.fixed
  · rw [hparsed, hconfig.1]
    exact h.hot
  · rw [hparsed, hconfig.2]
    exact h.last

/-- Every content that is loaded is a JSON object, or no JSON at all. -/
def AllConfigure (p : JsonParser) (history : List (ConfigCall C)) : Prop :=
  ∀ content, .load (some content) ∈ history → Configures p content

theorem Reflects.run {history : List (ConfigCall C)} (h : Reflects p history m) {rest : List (ConfigCall C)}
    (hrest : AllConfigure p rest) : ∃ m', run (step p) m rest = some m' ∧ Reflects p (history ++ rest) m' := by
  induction rest generalizing history m with
  | nil => exact ⟨m, rfl, by rwa [List.append_nil]⟩
  | cons call rest ih =>
    have hcalls : AllConfigure p rest := fun content hmem => hrest content (List.mem_cons_of_mem _ hmem)
    have hstep : ∃ m', step p m call = some m' ∧ Reflects p (history ++ [call]) m' := by
      cases call with
      | registerCallback key cb => exact ⟨_, rfl, h.register key cb⟩
      | load file =>
        cases file with
        | none => exact ⟨m, rfl, h.skip rfl (fun _ => rfl)⟩
        | some content =>
          obtain ⟨ok, m', ran, hload, -, hreflects⟩ := h.load (hrest content List.mem_cons_self)
          exact ⟨m', by simp [step, hload], hreflects⟩
    obtain ⟨m1, hm1, hreflects⟩ := hstep
    obtain ⟨m', hrun, hreflects'⟩ := ih hreflects hcalls
    exact ⟨m', by rw [Transition.run, hm1]; exact hrun, by rwa [List.append_assoc] at hreflects'⟩

/-- After any history of loads and registrations the configuration is that of the reference, and a load after it
    runs what it is to run. -/
theorem hot_reload (p : JsonParser) (history : List (ConfigCall C)) (hhistory : AllConfigure p history) :
    ∃ m, run (step p) start history = some m ∧ Reflects p history m ∧
      ∀ content, Configures p content →
        ∃ ok m' ran, m.loadFromFile p.parse (some content) = .ok (ok, m', ran) ∧
          Reloads p history m content m' ran := by
  obtain ⟨m, hrun, hreflects⟩ := (reflects_start : Reflects p [] (start : ConfigManager C)).run hhistory
  refine ⟨m, hrun, hreflects, fun content hcontent => ?_⟩
  obtain ⟨ok, m', ran, hload, hreloads, -⟩ := hreflects.load hcontent
  exact ⟨ok, m', ran, hload, hreloads⟩

/-- A parser of a configuration and an edited version of it. -/
def twoVersions : JsonParser where
  parse content :=
    if content = str "\x7b\"log_level\":1,\"port\":80\x7d" then
      some (.object [(str "log_level", .number (str "1")), (str "port", .number (str "80"))])
    else if content = str "\x7b\"log_level\":2,\"port\":81\x7d" then
      some (.object [(str "log_level", .number (str "2")), (str "port", .number (str "81"))])
    else none
  parse_nil := by decide
  distinct := by
    intro content members h
    split_ifs at h
    · cases h
      decide
    · cases h
      decide
  dumps := by
    intro content members h m hm
    split_ifs at h
    · cases h
      rcases List.mem_cons.mp hm with rfl | hm
      · exact ⟨_, rfl⟩
      · rw [List.mem_singleton.mp hm]
        exact ⟨_, rfl⟩
    · cases h
      rcases List.mem_cons.mp hm with rfl | hm
      · exact ⟨_, rfl⟩
      · rw [List.mem_singleton.mp hm]
        exact ⟨_, rfl⟩

/-- A configuration is loaded, edited and loaded again. -/
def editedOnce : List (ConfigCall Str) :=
  [.registerCallback (str "log_level") (str "level"), .load (some (str "\x7b\"log_level\":1,\"port\":80\x7d")),
    .load (some (str "\x7b\"log_level\":2,\"port\":81\x7d"))]

theorem hot_reload_editedOnce :
    ∃ m, run (step twoVersions) start editedOnce = some m ∧ Reflects twoVersions editedOnce m ∧
      ∀ content, Configures twoVersions content →
        ∃ ok m' ran, m.loadFromFile twoVersions.parse (some content) = .ok (ok, m', ran) ∧
          Reloads twoVersions editedOnce m content m' ran := by
  refine hot_reload twoVersions editedOnce ?_
  intro content hmem
  simp only [editedOnce, List.mem_cons, List.not_mem_nil, or_false, reduceCtorEq, false_or,
    ConfigCall.load.injEq, Option.some.injEq] at hmem
  rcases hmem with rfl | rfl
  · exact .inr ⟨_, rfl⟩
  · exact .inr ⟨_, rfl⟩

end ConfigManager

end ModularNetServer
