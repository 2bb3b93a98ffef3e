import FormDerivation.KeyMap

/-!
# Entries of maps

Lookups in lists of entries and in the maps that are built from them.  Where no key is listed twice
the order of the entries does not matter: `get?_insertAll` and `get?_ofList` say what is found.
-/

namespace FormDerivation.KeyMap

variable {α β : Type}

/-! ## Lists of entries -/

theorem mem_of_lookupEntry {key : String} {value : α} {entries : List (String × α)}
    (h : lookupEntry key entries = some value) : (key, value) ∈ entries := by
  induction entries with
  | nil => simp at h
  | cons entry rest ih =>
      simp only [lookupEntry] at h
      split at h
      · next hkey =>
        cases h
        rw [hkey]
        exact List.mem_cons_self
      · exact List.mem_cons_of_mem _ (ih h)

theorem lookupEntry_eq_none {key : String} {entries : List (String × α)}
    (h : key ∉ entries.map Prod.fst) : lookupEntry key entries = none := by
  cases hlookup : lookupEntry key entries with
  | none => rfl
  | some value => exact absurd (List.mem_map_of_mem (mem_of_lookupEntry hlookup)) h

@[simp] theorem lookupEntry_append (key : String) (first second : List (String × α)) :
    lookupEntry key (first ++ second) = (lookupEntry key first).or (lookupEntry key second) := by
  induction first with
  | nil => simp
  | cons entry rest ih =>
      simp only [List.cons_append, lookupEntry, ih]
      split <;> simp

@[simp] theorem lookupEntry_map (f : α → β) (key : String) (entries : List (String × α)) :
    lookupEntry key (entries.map fun entry => (entry.1, f entry.2)) =
      (lookupEntry key entries).map f := by
  induction entries with
  | nil => rfl
  | cons entry rest ih =>
      simp only [List.map_cons, lookupEntry, ih]
      split <;> simp

theorem lookupEntry_eq_some_iff {entries : List (String × α)} (h : (entries.map Prod.fst).Nodup)
    (key : String) (value : α) :
    lookupEntry key entries = some value ↔ (key, value) ∈ entries := by
  refine ⟨mem_of_lookupEntry, fun hmem => ?_⟩
  induction entries with
  | nil => cases hmem
  | cons entry rest ih =>
      rw [List.map_cons, List.nodup_cons] at h
      rw [lookupEntry]
      rcases List.mem_cons.mp hmem with rfl | hmem
      · rw [if_pos rfl]
      · have hne : key ≠ entry.1 := by
          rintro rfl
          exact h.1 (List.mem_map.mpr ⟨_, hmem, rfl⟩)
        rw [if_neg hne, ih h.2 hmem]

theorem lookupEntry_perm {entries entries' : List (String × α)} (h : entries'.Perm entries)
    (hnodup : (entries.map Prod.fst).Nodup) (key : String) :
    lookupEntry key entries' = lookupEntry key entries := by
  have hnodup' : (entries'.map Prod.fst).Nodup := (h.map Prod.fst).nodup_iff.mpr hnodup
  apply Option.ext
  intro value
  rw [lookupEntry_eq_some_iff hnodup', lookupEntry_eq_some_iff hnodup, h.mem_iff]

/-! ## Maps -/

theorem keys_nodup (m : KeyMap α) : (m.toList.map Prod.fst).Nodup := by
  rw [List.nodup_iff_pairwise_ne, List.pairwise_map]
  refine m.sorted.imp fun hlt heq => ?_
  rw [heq] at hlt
  exact String.lt_irrefl _ hlt

theorem lookupEntry_eq_none_of_lt {key : String} {entries : List (String × α)}
    (h : ∀ entry ∈ entries, key < entry.1) : lookupEntry key entries = none := by
  apply lookupEntry_eq_none
  intro hmem
  obtain ⟨entry, hentry, rfl⟩ := List.mem_map.mp hmem
  exact String.lt_irrefl _ (h entry hentry)

theorem not_first_lt_first {a b : String × α} {as bs : List (String × α)}
    (hsorted : (b :: bs).Pairwise fun a b => a.1 < b.1)
    (h : lookupEntry a.1 (a :: as) = lookupEntry a.1 (b :: bs)) : ¬ a.1 < b.1 := by
  intro hlt
  have hbehind : ∀ entry ∈ b :: bs, a.1 < entry.1 := by
    intro entry hentry
    rcases List.mem_cons.mp hentry with rfl | hentry
    · exact hlt
    · exact String.lt_trans hlt ((List.pairwise_cons.mp hsorted).1 entry hentry)
  rw [lookupEntry_eq_none_of_lt hbehind] at h
  simp at h

theorem eq_of_lookupEntry_eq {entries entries' : List (String × α)}
    (hsorted : entries.Pairwise fun a b => a.1 < b.1)
    (hsorted' : entries'.Pairwise fun a b => a.1 < b.1)
    (h : ∀ key, lookupEntry key entries = lookupEntry key entries') : entries = entries' := by
  induction entries generalizing entries' with
  | nil =>
      cases entries' with
      | nil => rfl
      | cons b bs => simpa using h b.1
  | cons a as ih =>
      cases entries' with
      | nil => simpa using h a.1
      | cons b bs =>
          have hle := String.not_lt.mp (not_first_lt_first hsorted' (h a.1))
          have hge := String.not_lt.mp (not_first_lt_first hsorted (h b.1).symm)
          have hkey : a.1 = b.1 := String.le_antisymm hge hle
          have hvalue : a.2 = b.2 := by simpa [hkey] using h a.1
          obtain ⟨has, hrest⟩ := List.pairwise_cons.mp hsorted
          obtain ⟨hbs, hrest'⟩ := List.pairwise_cons.mp hsorted'
          have htail : ∀ key, lookupEntry key as = lookupEntry key bs := by
            intro key
            by_cases hown : key = b.1
            · subst hown
              rw [lookupEntry_eq_none_of_lt hbs, ← hkey, lookupEntry_eq_none_of_lt has]
            · simpa [hkey, hown] using h key
          rw [ih hrest hrest' htail, Prod.ext hkey hvalue]

theorem ext_get? {m m' : KeyMap α} (h : ∀ key, m.get? key = m'.get? key) : m = m' := by
  have hentries := eq_of_lookupEntry_eq m.sorted m'.sorted h
  cases m
  cases m'
  cases hentries
  rfl

theorem insert_eq_self {m : KeyMap α} {key : String} {value : α} (h : m.get? key = some value) :
    m.insert key value = m := by
  apply ext_get?
  intro other
  by_cases hown : other = key <;> simp [hown, h]

@[simp] theorem mem_toList_iff (m : KeyMap α) (key : String) (value : α) :
    (key, value) ∈ m.toList ↔ m.get? key = some value :=
  (lookupEntry_eq_some_iff m.keys_nodup key value).symm

@[simp] theorem get?_filter (p : String → α → Bool) (m : KeyMap α) (key : String) :
    (m.filter p).get? key = (m.get? key).filter (p key) := by
  apply Option.ext
  intro value
  rw [← mem_toList_iff, Option.filter_eq_some_iff, ← mem_toList_iff]
  exact List.mem_filter

@[simp] theorem mem_keys_iff (m : KeyMap α) (key : String) :
    key ∈ m.keys ↔ m.contains key = true := by
  rw [keys, List.mem_map, contains, Option.isSome_iff_exists]
  constructor
  · rintro ⟨⟨_, value⟩, hentry, rfl⟩
    exact ⟨value, (m.mem_toList_iff _ value).mp hentry⟩
  · rintro ⟨value, hvalue⟩
    exact ⟨(key, value), (m.mem_toList_iff key value).mpr hvalue, rfl⟩

@[simp] theorem mem_values_iff (m : KeyMap α) (value : α) :
    value ∈ m.values ↔ ∃ key, m.get? key = some value := by
  rw [values, List.mem_map]
  constructor
  · rintro ⟨⟨key, _⟩, hentry, rfl⟩
    exact ⟨key, (m.mem_toList_iff key _).mp hentry⟩
  · rintro ⟨key, hvalue⟩
    exact ⟨(key, value), (m.mem_toList_iff key value).mpr hvalue, rfl⟩

theorem not_isEmpty_of_contains {m : KeyMap α} {key : String} (h : m.contains key = true) :
    m.isEmpty = false := by
  rw [isEmpty, List.isEmpty_eq_false_iff_exists_mem]
  obtain ⟨value, hvalue⟩ := Option.isSome_iff_exists.mp h
  exact ⟨(key, value), (m.mem_toList_iff key value).mpr hvalue⟩

theorem get?_insertAll {entries : List (String × α)} (h : (entries.map Prod.fst).Nodup)
    (m : KeyMap α) (key : String) :
    (m.insertAll entries).get? key = (lookupEntry key entries).or (m.get? key) := by
  induction entries generalizing m with
  | nil => simp [insertAll]
  | cons entry rest ih =>
      rw [List.map_cons, List.nodup_cons] at h
      have hrest := ih h.2 (m.insert entry.1 entry.2)
      simp only [insertAll, List.foldl_cons] at hrest ⊢
      rw [hrest, get?_insert, lookupEntry]
      by_cases hkey : key = entry.1
      · rw [hkey, lookupEntry_eq_none h.1]
        simp
      · simp [hkey]

theorem get?_ofList {entries : List (String × α)} (h : (entries.map Prod.fst).Nodup)
    (key : String) : (ofList entries).get? key = lookupEntry key entries := by
  rw [ofList, get?_insertAll h, get?_empty, Option.or_none]

@[simp] theorem get?_mapValues (f : α → β) (m : KeyMap α) (key : String) :
    (m.mapValues fun _ => f).get? key = (m.get? key).map f :=
  lookupEntry_map f key m.toList

@[simp] theorem mapValues_id (m : KeyMap α) : (m.mapValues fun _ value => value) = m := by
  apply ext_get?
  intro key
  rw [get?_mapValues (fun value => value), Option.map_id']

theorem mapValues_insert (f : α → β) (m : KeyMap α) (key : String) (value : α) :
    ((m.insert key value).mapValues fun _ => f) = (m.mapValues fun _ => f).insert key (f value) := by
  apply ext_get?
  intro other
  rw [get?_mapValues, get?_insert, get?_insert, get?_mapValues]
  split <;> simp

theorem ofList_perm_map {m : KeyMap α} {entries : List (String × α)} (h : entries.Perm m.toList)
    (f : α → β) :
    ofList (entries.map fun entry => (entry.1, f entry.2)) = m.mapValues fun _ => f := by
  have hkeys : (entries.map fun entry => (entry.1, f entry.2)).map Prod.fst =
      entries.map Prod.fst := by
    rw [List.map_map]
    rfl
  have hnodup : (entries.map Prod.fst).Nodup := (h.map Prod.fst).nodup_iff.mpr m.keys_nodup
  apply ext_get?
  intro key
  rw [get?_ofList (hkeys ▸ hnodup), lookupEntry_map, lookupEntry_perm h m.keys_nodup, get?_mapValues]
  rfl

theorem mem_of_get?_insertAll {entries : List (String × α)} {m : KeyMap α} {key : String}
    {value : α} (h : (m.insertAll entries).get? key = some value) :
    (key, value) ∈ entries ∨ m.get? key = some value := by
  induction entries generalizing m with
  | nil => exact .inr h
  | cons entry rest ih =>
      rcases ih h with hrest | hinserted
      · exact .inl (List.mem_cons_of_mem _ hrest)
      · rw [get?_insert] at hinserted
        split at hinserted
        · next hkey =>
          cases hinserted
          rw [hkey]
          exact .inl List.mem_cons_self
        · exact .inr hinserted

theorem mem_of_get?_ofList {entries : List (String × α)} {key : String} {value : α}
    (h : (ofList entries).get? key = some value) : (key, value) ∈ entries := by
  rcases mem_of_get?_insertAll h with hmem | hempty
  · exact hmem
  · cases hempty

@[simp] theorem contains_insertAll (m : KeyMap α) (entries : List (String × α)) (key : String) :
    (m.insertAll entries).contains key = true ↔
      key ∈ entries.map Prod.fst ∨ m.contains key = true := by
  induction entries generalizing m with
  | nil => simp [insertAll]
  | cons entry rest ih =>
      have hrest := ih (m.insert entry.1 entry.2)
      simp only [insertAll, List.foldl_cons] at hrest ⊢
      rw [hrest, contains, get?_insert]
      by_cases hkey : key = entry.1 <;> simp [hkey, contains]

@[simp] theorem contains_ofList (entries : List (String × α)) (key : String) :
    (ofList entries).contains key = true ↔ key ∈ entries.map Prod.fst := by
  rw [ofList, contains_insertAll]
  simp

theorem ofList_concat (entries : List (String × α)) (key : String) (value : α) :
    ofList (entries ++ [(key, value)]) = (ofList entries).insert key value := by
  simp [ofList, insertAll]

@[simp] theorem get?_insertIfNew (m : KeyMap α) (key other : String) (value : α) :
    (m.insertIfNew key value).get? other =
      (m.get? other).or (if other = key then some value else none) := by
  rw [insertIfNew, contains]
  cases hkey : m.get? key with
  | none => by_cases h : other = key <;> simp [h, hkey]
  | some found => by_cases h : other = key <;> simp [h, hkey]

def insertAllNew (m : KeyMap α) (entries : List (String × α)) : KeyMap α :=
  entries.foldl (fun m entry => m.insertIfNew entry.1 entry.2) m

@[simp] theorem get?_insertAllNew (m : KeyMap α) (entries : List (String × α)) (key : String) :
    (m.insertAllNew entries).get? key = (m.get? key).or (lookupEntry key entries) := by
  induction entries generalizing m with
  | nil => simp [insertAllNew]
  | cons entry rest ih =>
      have hrest := ih (m.insertIfNew entry.1 entry.2)
      simp only [insertAllNew, List.foldl_cons] at hrest ⊢
      rw [hrest, get?_insertIfNew, Option.or_assoc, lookupEntry]
      by_cases hkey : key = entry.1 <;> simp [hkey]

end FormDerivation.KeyMap

namespace FormDerivation.KeySet

@[simp] theorem contains_insertAll (s : KeySet) (keys : List String) (key : String) :
    (insertAll s keys).contains key = true ↔ key ∈ keys ∨ s.contains key = true := by
  have hentries : insertAll s keys = KeyMap.insertAll s (keys.map fun key => (key, ())) := by
    rw [KeyMap.insertAll, List.foldl_map]
    rfl
  rw [hentries, KeyMap.contains_insertAll]
  simp [Function.comp_def]

@[simp] theorem contains_ofList (keys : List String) (key : String) :
    (ofList keys).contains key = true ↔ key ∈ keys := by
  rw [ofList, contains_insertAll]
  exact or_iff_left (by simp)

end FormDerivation.KeySet
