/-!
# Maps that remember the order of their keys

An `OrderedMap` is a finite map from texts to values whose keys stand in the order in which they
came in.  Putting a value under a key that is already there replaces the value and leaves the key
where it stands; a new key goes to the end.  So a map built from a list of pairs has each key once,
at the place of its first pair, with the value of its last.

The rules of one operation are `keys_put`, `get?_put_self` and `get?_put_of_ne`; `nodup` belongs to
the type, so no map holds a key twice.  Applying a function to the values goes through everything
that builds a map (`mapEntries_ofList`), and a map is built from its own entries (`ofList_entries`).
-/

namespace NativeHeader

universe u v

/-- A finite map from texts to values whose keys stand in the order in which they came in. -/
structure OrderedMap (α : Type u) where
  /-- The pairs of key and value, in order. -/
  entries : List (String × α)
  /-- No key occurs twice. -/
  nodup : (entries.map Prod.fst).Nodup

namespace OrderedMap

variable {α : Type u} {β : Type v}

/-! ## Lists of pairs -/

/-- Replaces the value of the first pair with the key, or adds a pair at the end. -/
def putEntry (key : String) (value : α) : List (String × α) → List (String × α)
  | [] => [(key, value)]
  | entry :: rest =>
    if entry.1 = key then (key, value) :: rest else entry :: putEntry key value rest

theorem map_fst_putEntry (key : String) (value : α) (entries : List (String × α)) :
    (putEntry key value entries).map Prod.fst =
      if key ∈ entries.map Prod.fst then entries.map Prod.fst
      else entries.map Prod.fst ++ [key] := by
  induction entries with
  | nil => simp [putEntry]
  | cons entry rest ih =>
    by_cases h : entry.1 = key
    · simp [putEntry, h]
    · have h' : ¬ key = entry.1 := fun e => h e.symm
      rw [putEntry, if_neg h, List.map_cons, ih]
      by_cases hk : key ∈ rest.map Prod.fst
      · simp [hk]
      · simp only [List.map_cons, List.mem_cons, h', hk, or_self, if_false, List.cons_append]

theorem nodup_putEntry (key : String) (value : α) {entries : List (String × α)}
    (h : (entries.map Prod.fst).Nodup) : ((putEntry key value entries).map Prod.fst).Nodup := by
  rw [map_fst_putEntry]
  split
  · exact h
  · next hk =>
    rw [List.nodup_append]
    refine ⟨h, by simp, ?_⟩
    intro a ha b hb e
    simp only [List.mem_singleton] at hb
    exact hk (hb ▸ e ▸ ha)

theorem lookup_putEntry_self (key : String) (value : α) (entries : List (String × α)) :
    (putEntry key value entries).lookup key = some value := by
  induction entries with
  | nil => simp [putEntry]
  | cons entry rest ih =>
    by_cases h : entry.1 = key
    · simp [putEntry, h]
    · have h' : (key == entry.1) = false := by simpa using fun e => h e.symm
      obtain ⟨k, v⟩ := entry
      simp only at h h'
      simp [putEntry, h, List.lookup_cons, h', ih]

theorem lookup_putEntry_of_ne {key other : String} (ne : other ≠ key) (value : α)
    (entries : List (String × α)) :
    (putEntry key value entries).lookup other = entries.lookup other := by
  have ne' : (other == key) = false := by simpa using ne
  induction entries with
  | nil => simp [putEntry, List.lookup_cons, ne']
  | cons entry rest ih =>
    obtain ⟨k, v⟩ := entry
    by_cases h : k = key
    · subst h
      simp [putEntry, List.lookup_cons, ne']
    · simp only [putEntry, h, if_false, List.lookup_cons, ih]

theorem mem_of_mem_putEntry {pair : String × α} {key : String} {value : α}
    {entries : List (String × α)} (h : pair ∈ putEntry key value entries) :
    pair = (key, value) ∨ pair ∈ entries := by
  induction entries with
  | nil =>
    left
    simpa [putEntry] using h
  | cons entry rest ih =>
    rw [putEntry] at h
    split at h
    · rcases List.mem_cons.1 h with h | h
      · exact .inl h
      · exact .inr (List.mem_cons_of_mem _ h)
    · rcases List.mem_cons.1 h with h | h
      · exact .inr (h ▸ List.mem_cons_self ..)
      · rcases ih h with h | h
        · exact .inl h
        · exact .inr (List.mem_cons_of_mem _ h)

theorem mem_of_lookup {key : String} {value : α} {entries : List (String × α)}
    (h : entries.lookup key = some value) : (key, value) ∈ entries := by
  induction entries with
  | nil => simp at h
  | cons entry rest ih =>
    obtain ⟨k, v⟩ := entry
    rw [List.lookup_cons] at h
    split at h
    · next e =>
      have hk : key = k := by simpa using e
      have hv : v = value := by simpa using h
      subst hk hv
      exact List.mem_cons_self ..
    · exact List.mem_cons_of_mem _ (ih h)

/-! ## The operations -/

/-- The map without keys. -/
def empty : OrderedMap α := ⟨[], by simp⟩

instance : Inhabited (OrderedMap α) := ⟨empty⟩

/-- The keys, in order. -/
def keys (m : OrderedMap α) : List String := m.entries.map Prod.fst

/-- The values, in the order of their keys. -/
def values (m : OrderedMap α) : List α := m.entries.map Prod.snd

/-- The number of keys. -/
def size (m : OrderedMap α) : Nat := m.entries.length

/-- The value of a key. -/
def get? (m : OrderedMap α) (key : String) : Option α := m.entries.lookup key

/-- Sets the value of a key: a key that is there keeps its place, a new one goes to the end. -/
def put (m : OrderedMap α) (key : String) (value : α) : OrderedMap α :=
  ⟨putEntry key value m.entries, nodup_putEntry key value m.nodup⟩

/-- Removes a key with its value. -/
def erase (m : OrderedMap α) (key : String) : OrderedMap α :=
  ⟨m.entries.filter (·.1 ≠ key), m.nodup.sublist (List.filter_sublist.map _)⟩

/-- Puts the pairs of a list one after another. -/
def putList (m : OrderedMap α) (pairs : List (String × α)) : OrderedMap α :=
  pairs.foldl (fun m pair => m.put pair.1 pair.2) m

/-- The map that a list of pairs describes. -/
def ofList (pairs : List (String × α)) : OrderedMap α := empty.putList pairs

/-- Puts the entries of a second map one after another. -/
def putAll (m n : OrderedMap α) : OrderedMap α := m.putList n.entries

/-- Applies a function of key and value to every value. -/
def mapEntries (f : String → α → β) (m : OrderedMap α) : OrderedMap β :=
  ⟨m.entries.map fun entry => (entry.1, f entry.1 entry.2), by
    simpa [List.map_map, Function.comp_def] using m.nodup⟩

/-! ## Laws of one operation -/

theorem ext_entries {m n : OrderedMap α} (h : m.entries = n.entries) : m = n := by
  cases m
  cases n
  cases h
  rfl

@[simp] theorem keys_empty : (empty : OrderedMap α).keys = [] := rfl

@[simp] theorem get?_empty (key : String) : (empty : OrderedMap α).get? key = none := rfl

theorem nodup_keys (m : OrderedMap α) : m.keys.Nodup := m.nodup

theorem keys_put (m : OrderedMap α) (key : String) (value : α) :
    (m.put key value).keys = if key ∈ m.keys then m.keys else m.keys ++ [key] :=
  map_fst_putEntry key value m.entries

@[simp] theorem get?_put_self (m : OrderedMap α) (key : String) (value : α) :
    (m.put key value).get? key = some value :=
  lookup_putEntry_self key value m.entries

theorem get?_put_of_ne (m : OrderedMap α) {key other : String} (ne : other ≠ key) (value : α) :
    (m.put key value).get? other = m.get? other :=
  lookup_putEntry_of_ne ne value m.entries

theorem keys_erase (m : OrderedMap α) (key : String) :
    (m.erase key).keys = m.keys.filter (· ≠ key) := by
  simp [keys, erase, List.filter_map, Function.comp_def]

@[simp] theorem putList_nil (m : OrderedMap α) : m.putList [] = m := rfl

@[simp] theorem putList_cons (m : OrderedMap α) (pair : String × α) (pairs : List (String × α)) :
    m.putList (pair :: pairs) = (m.put pair.1 pair.2).putList pairs := rfl

theorem putList_append (m : OrderedMap α) (first second : List (String × α)) :
    m.putList (first ++ second) = (m.putList first).putList second := by
  simp [putList, List.foldl_append]

/-! ## Applying a function to every value -/

theorem values_mapEntries (f : String → α → β) (m : OrderedMap α) :
    (m.mapEntries f).values = m.entries.map fun entry => f entry.1 entry.2 := by
  simp [values, mapEntries, List.map_map, Function.comp_def]

theorem map_values (f : α → β) (m : OrderedMap α) :
    m.values.map f = (m.mapEntries fun _ value => f value).values := by
  rw [values_mapEntries, values, List.map_map]
  rfl

theorem lookup_map_value (f : String → α → β) (key : String) (entries : List (String × α)) :
    (entries.map fun entry => (entry.1, f entry.1 entry.2)).lookup key =
      (entries.lookup key).map (f key) := by
  induction entries with
  | nil => rfl
  | cons entry rest ih =>
    rw [List.map_cons, List.lookup_cons, List.lookup_cons]
    cases h : key == entry.1 with
    | true =>
      have hk : key = entry.1 := by simpa using h
      simp [hk]
    | false => simpa using ih

@[simp] theorem get?_mapEntries (f : String → α → β) (m : OrderedMap α) (key : String) :
    (m.mapEntries f).get? key = (m.get? key).map (f key) :=
  lookup_map_value f key m.entries

theorem putEntry_map_value (f : String → α → β) (key : String) (value : α)
    (entries : List (String × α)) :
    putEntry key (f key value) (entries.map fun entry => (entry.1, f entry.1 entry.2)) =
      (putEntry key value entries).map fun entry => (entry.1, f entry.1 entry.2) := by
  induction entries with
  | nil => rfl
  | cons entry rest ih =>
    by_cases h : entry.1 = key
    · simp [putEntry, h]
    · simp only [List.map_cons, putEntry, if_neg h, ih]

theorem mapEntries_put (f : String → α → β) (m : OrderedMap α) (key : String) (value : α) :
    (m.put key value).mapEntries f = (m.mapEntries f).put key (f key value) :=
  ext_entries (putEntry_map_value f key value m.entries).symm

theorem mapEntries_putList (f : String → α → β) (m : OrderedMap α) (pairs : List (String × α)) :
    (m.putList pairs).mapEntries f =
      (m.mapEntries f).putList (pairs.map fun pair => (pair.1, f pair.1 pair.2)) := by
  induction pairs generalizing m with
  | nil => rfl
  | cons pair rest ih => rw [putList_cons, ih, mapEntries_put, List.map_cons, putList_cons]

theorem mapEntries_ofList (f : String → α → β) (pairs : List (String × α)) :
    (ofList pairs).mapEntries f = ofList (pairs.map fun pair => (pair.1, f pair.1 pair.2)) :=
  mapEntries_putList f empty pairs

/-! ## Maps built from pairs with different keys -/

theorem putEntry_of_notMem {key : String} (value : α) {entries : List (String × α)}
    (h : key ∉ entries.map Prod.fst) : putEntry key value entries = entries ++ [(key, value)] := by
  induction entries with
  | nil => rfl
  | cons entry rest ih =>
    simp only [List.map_cons, List.mem_cons, not_or] at h
    rw [putEntry, if_neg (Ne.symm h.1), ih h.2, List.cons_append]

theorem entries_putList (pairs : List (String × α)) (m : OrderedMap α)
    (h : ((m.entries ++ pairs).map Prod.fst).Nodup) :
    (m.putList pairs).entries = m.entries ++ pairs := by
  induction pairs generalizing m with
  | nil => simp
  | cons pair rest ih =>
    have hnew : pair.1 ∉ m.entries.map Prod.fst := by
      intro hm
      rw [List.map_append, List.nodup_append] at h
      exact h.2.2 _ hm _ (List.mem_cons_self ..) rfl
    have hput : (m.put pair.1 pair.2).entries = m.entries ++ [pair] :=
      putEntry_of_notMem pair.2 hnew
    rw [putList_cons, ih _ (by rw [hput]; simpa using h), hput]
    simp

/-- A map is described by its own entries. -/
@[simp] theorem ofList_entries (m : OrderedMap α) : ofList m.entries = m :=
  ext_entries (entries_putList m.entries empty m.nodup)

/-! ## Where entries come from -/

theorem mem_of_mem_putList {pair : String × α} (pairs : List (String × α)) (m : OrderedMap α)
    (h : pair ∈ (m.putList pairs).entries) : pair ∈ m.entries ∨ pair ∈ pairs := by
  induction pairs generalizing m with
  | nil => exact .inl h
  | cons first rest ih =>
    rcases ih (m.put first.1 first.2) h with h | h
    · rcases mem_of_mem_putEntry h with h | h
      · exact .inr (h ▸ List.mem_cons_self ..)
      · exact .inl h
    · exact .inr (List.mem_cons_of_mem _ h)

/-- A map built from pairs holds nothing but pairs of the list. -/
theorem mem_of_mem_ofList {pair : String × α} {pairs : List (String × α)}
    (h : pair ∈ (ofList pairs).entries) : pair ∈ pairs := by
  rcases mem_of_mem_putList pairs empty h with h | h
  · simp [empty] at h
  · exact h

theorem mem_of_get? {m : OrderedMap α} {key : String} {value : α} (h : m.get? key = some value) :
    (key, value) ∈ m.entries :=
  mem_of_lookup h

end OrderedMap

end NativeHeader
