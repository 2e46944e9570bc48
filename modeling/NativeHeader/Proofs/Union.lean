import Mathlib.Data.List.Induction
import Mathlib.Data.List.Nodup
import NativeHeader.OrderedMap

/-!
# Putting one map into another

`putAll` puts the entries of a second map into a first one, one after another.  A key that both have
keeps its place in the first and takes the value of the second; the others go to the end, in order
(`keys_putAll`, `get?_putAll`).  Here are the laws of that: maps with `putAll` are a monoid
(`putAll_assoc`, `empty_putAll`, `putAll_empty`), and a list of pairs can be made into a map before
it is put in (`putAll_ofList`), since a key that the list repeats has its first place and its last
value either way.  The keys of the map stand in the order of their first pairs
(`keys_ofList_pairwise`), and each has the value of its last pair (`get?_ofList`).
-/

namespace NativeHeader.OrderedMap

universe u

variable {α : Type u} {m n : OrderedMap α} {key other : String} {value : α}

/-! ## Keys -/

theorem mem_keys_put : other ∈ (m.put key value).keys ↔ other = key ∨ other ∈ m.keys := by
  rw [keys_put]
  by_cases hkey : key ∈ m.keys
  · rw [if_pos hkey]
    refine ⟨Or.inr, ?_⟩
    rintro (rfl | hother)
    · exact hkey
    · exact hother
  · rw [if_neg hkey, List.mem_append, List.mem_singleton, or_comm]

theorem mem_keys_putList (pairs : List (String × α)) :
    key ∈ (m.putList pairs).keys ↔ key ∈ m.keys ∨ key ∈ pairs.map Prod.fst := by
  induction pairs generalizing m with
  | nil => simp
  | cons pair rest ih =>
    rw [putList_cons, ih, mem_keys_put, List.map_cons, List.mem_cons, or_assoc, or_left_comm]

theorem mem_keys_ofList {pairs : List (String × α)} :
    key ∈ (ofList pairs).keys ↔ key ∈ pairs.map Prod.fst := by
  simp [ofList, mem_keys_putList]

theorem mem_keys_erase : other ∈ (m.erase key).keys ↔ other ∈ m.keys ∧ other ≠ key := by
  rw [keys_erase, List.mem_filter, decide_eq_true_eq]

/-- Different keys that are put go to the end, but for those that are there already. -/
theorem keys_putList {pairs : List (String × α)} (h : (pairs.map Prod.fst).Nodup)
    (m : OrderedMap α) :
    (m.putList pairs).keys = m.keys ++ (pairs.map Prod.fst).filter (· ∉ m.keys) := by
  induction pairs generalizing m with
  | nil => simp
  | cons pair rest ih =>
    rw [List.map_cons, List.nodup_cons] at h
    rw [putList_cons, ih h.2, keys_put, List.map_cons]
    by_cases hkey : pair.1 ∈ m.keys
    · rw [if_pos hkey, List.filter_cons_of_neg (by simpa using hkey)]
    · have hrest : (rest.map Prod.fst).filter (· ∉ m.keys ++ [pair.1]) =
          (rest.map Prod.fst).filter (· ∉ m.keys) := by
        refine List.filter_congr fun key hmem => ?_
        have hne : key ≠ pair.1 := fun e => h.1 (e ▸ hmem)
        simp [hne]
      rw [if_neg hkey, List.filter_cons_of_pos (by simpa using hkey), hrest, List.append_assoc]
      rfl

theorem keys_putAll (m n : OrderedMap α) :
    (m.putAll n).keys = m.keys ++ n.keys.filter (· ∉ m.keys) :=
  keys_putList n.nodup m

/-- A key that a list of pairs gives one value only has that value in the map. -/
theorem mem_entries_ofList {pairs : List (String × α)} (h : (key, value) ∈ pairs)
    (unique : ∀ other, (key, other) ∈ pairs → other = value) :
    (key, value) ∈ (ofList pairs).entries := by
  have hkey : key ∈ (ofList pairs).keys := mem_keys_ofList.2 (List.mem_map.2 ⟨_, h, rfl⟩)
  obtain ⟨⟨_, found⟩, hfound, rfl⟩ := List.mem_map.1 hkey
  have hvalue : found = value := unique found (mem_of_mem_ofList hfound)
  rw [← hvalue]
  exact hfound

/-- A map has one value for a key. -/
theorem value_unique {found : α} (h : (key, value) ∈ m.entries) (h' : (key, found) ∈ m.entries) :
    value = found := by
  have hpair : (key, value) = (key, found) := List.inj_on_of_nodup_map m.nodup h h' rfl
  exact (Prod.mk.inj hpair).2

theorem get?_of_mem (h : (key, value) ∈ m.entries) : m.get? key = some value := by
  cases hget : m.get? key with
  | none =>
    have hother := List.lookup_eq_none_iff.1 hget _ h
    simp at hother
  | some found => rw [value_unique (mem_of_get? hget) h]

theorem get?_eq_some_iff_mem : m.get? key = some value ↔ (key, value) ∈ m.entries :=
  ⟨mem_of_get?, get?_of_mem⟩

/-- The order of the entries does not count for what a key has. -/
theorem get?_eq_of_perm (h : m.entries.Perm n.entries) (key : String) :
    m.get? key = n.get? key := by
  refine Option.ext fun value => ?_
  rw [get?_eq_some_iff_mem, get?_eq_some_iff_mem, h.mem_iff]

theorem get?_eq_none_iff : m.get? key = none ↔ key ∉ m.keys := by
  rw [get?, List.lookup_eq_none_iff, keys, List.mem_map]
  constructor
  · rintro h ⟨entry, hentry, rfl⟩
    exact absurd (h entry hentry) (by simp)
  · intro h entry hentry
    have hne : key ≠ entry.1 := fun e => h ⟨entry, hentry, e.symm⟩
    simpa using hne

theorem entries_ofList {pairs : List (String × α)} (h : (pairs.map Prod.fst).Nodup) :
    (ofList pairs).entries = pairs :=
  entries_putList pairs empty h

/-- The keys of a list of pairs stand in the order of their first pairs. -/
theorem keys_ofList_pairwise (pairs : List (String × α)) :
    (ofList pairs).keys.Pairwise fun key next =>
      (pairs.map Prod.fst).idxOf key < (pairs.map Prod.fst).idxOf next := by
  induction pairs using List.reverseRecOn with
  | nil => exact .nil
  | append_singleton before pair ih =>
    -- the last pair does not change where the keys before it come first
    have hbefore : ∀ key ∈ (ofList before).keys,
        ((before ++ [pair]).map Prod.fst).idxOf key = (before.map Prod.fst).idxOf key := by
      intro key hkey
      rw [List.map_append, List.idxOf_append_of_mem (mem_keys_ofList.1 hkey)]
    have hkept : (ofList before).keys.Pairwise fun key next =>
        ((before ++ [pair]).map Prod.fst).idxOf key <
          ((before ++ [pair]).map Prod.fst).idxOf next := by
      refine ih.imp_of_mem fun {key next} hkey hnext hlt => ?_
      rw [hbefore key hkey, hbefore next hnext]
      exact hlt
    have hkeys : (ofList (before ++ [pair])).keys =
        if pair.1 ∈ (ofList before).keys then (ofList before).keys
        else (ofList before).keys ++ [pair.1] := by
      rw [ofList, putList_append]
      exact keys_put _ pair.1 pair.2
    rw [hkeys]
    split
    · exact hkept
    · next hnew =>
      refine List.pairwise_append.2 ⟨hkept, List.pairwise_singleton .., ?_⟩
      intro key hkey next hnext
      obtain rfl := List.mem_singleton.1 hnext
      have hlast : ((before ++ [pair]).map Prod.fst).idxOf pair.1 =
          (before.map Prod.fst).length := by
        rw [List.map_append, List.idxOf_append_of_notMem (fun h => hnew (mem_keys_ofList.2 h))]
        simp
      rw [hbefore key hkey, hlast]
      exact List.idxOf_lt_length_of_mem (mem_keys_ofList.1 hkey)

/-! ## Values -/

/-- A key that a list of pairs puts has the value of its last pair there, any other key the value
that it had before. -/
theorem get?_putList (m : OrderedMap α) (pairs : List (String × α)) (key : String) :
    (m.putList pairs).get? key = (pairs.reverse.lookup key).or (m.get? key) := by
  induction pairs using List.reverseRecOn with
  | nil => rfl
  | append_singleton before pair ih =>
    have hput : m.putList (before ++ [pair]) = (m.putList before).put pair.1 pair.2 :=
      putList_append ..
    rw [hput, List.reverse_append, List.reverse_singleton, List.singleton_append, List.lookup_cons]
    by_cases hkey : key = pair.1
    · simp [hkey]
    · have hne : (key == pair.1) = false := by simpa using hkey
      simp [get?_put_of_ne _ hkey, hne, ih]

theorem get?_ofList (pairs : List (String × α)) (key : String) :
    (ofList pairs).get? key = pairs.reverse.lookup key := by
  rw [ofList, get?_putList, get?_empty, Option.or_none]

theorem get?_putAll (m n : OrderedMap α) (key : String) :
    (m.putAll n).get? key = (n.get? key).or (m.get? key) := by
  rw [putAll, get?_putList, ← get?_ofList, ofList_entries]

theorem get?_erase_self (m : OrderedMap α) (key : String) : (m.erase key).get? key = none := by
  rw [get?_eq_none_iff, mem_keys_erase]
  exact fun h => h.2 rfl

theorem get?_erase_of_ne (m : OrderedMap α) (ne : other ≠ key) :
    (m.erase key).get? other = m.get? other := by
  show (m.entries.filter (·.1 ≠ key)).lookup other = m.entries.lookup other
  induction m.entries with
  | nil => rfl
  | cons entry rest ih =>
    by_cases h : entry.1 = key
    · have hother : (other == entry.1) = false := by simpa [h] using ne
      rw [List.filter_cons_of_neg (by simpa using h), ih, List.lookup_cons, hother]
    · rw [List.filter_cons_of_pos (by simpa using h), List.lookup_cons, List.lookup_cons, ih]

theorem erase_of_notMem (h : key ∉ m.keys) : m.erase key = m := by
  refine ext_entries (List.filter_eq_self.2 fun entry hentry => ?_)
  have hne : entry.1 ≠ key := fun e => h (e ▸ List.mem_map_of_mem hentry)
  simpa using hne

/-- A map is told by its keys, in order, and by their values. -/
theorem ext_keys_get? (hkeys : m.keys = n.keys) (hget : ∀ key, m.get? key = n.get? key) :
    m = n := by
  have hentries : ∀ m : OrderedMap α, m.entries.map (fun entry => (entry.1, some entry.2)) =
      m.keys.map fun key => (key, m.get? key) := by
    intro m
    rw [keys, List.map_map]
    refine List.map_congr_left fun entry hentry => ?_
    rw [Function.comp_apply, get?_of_mem hentry]
  have hsome : m.entries.map (fun entry => (entry.1, some entry.2)) =
      n.entries.map fun entry => (entry.1, some entry.2) := by
    rw [hentries m, hentries n, hkeys]
    exact List.map_congr_left fun key _ => by rw [hget key]
  refine ext_entries (List.map_injective_iff.2 ?_ hsome)
  rintro ⟨key, value⟩ ⟨other, found⟩ h
  simpa using h

/-! ## Putting a key twice -/

theorem putEntry_putEntry (key : String) (first second : α) (entries : List (String × α)) :
    putEntry key second (putEntry key first entries) = putEntry key second entries := by
  induction entries with
  | nil => simp [putEntry]
  | cons entry rest ih =>
    by_cases h : entry.1 = key
    · simp [putEntry, h]
    · simp [putEntry, h, ih]

/-- A key that is there already may be put before or after another one. -/
theorem putEntry_comm_of_mem {entries : List (String × α)} (hkey : key ∈ entries.map Prod.fst)
    (ne : other ≠ key) (value next : α) :
    putEntry key value (putEntry other next entries) =
      putEntry other next (putEntry key value entries) := by
  induction entries with
  | nil => simp at hkey
  | cons entry rest ih =>
    by_cases h : entry.1 = key
    · have hother : key ≠ other := Ne.symm ne
      simp [putEntry, h, hother]
    · have hrest : key ∈ rest.map Prod.fst := by
        rcases List.mem_cons.1 hkey with e | hrest
        · exact absurd e.symm h
        · exact hrest
      by_cases h' : entry.1 = other
      · simp [putEntry, h', ne]
      · simp [putEntry, h, h', ih hrest]

theorem put_put (m : OrderedMap α) (key : String) (first second : α) :
    (m.put key first).put key second = m.put key second :=
  ext_entries (putEntry_putEntry key first second m.entries)

theorem put_comm_of_mem (hkey : key ∈ m.keys) (ne : other ≠ key) (value next : α) :
    (m.put other next).put key value = (m.put key value).put other next :=
  ext_entries (putEntry_comm_of_mem hkey ne value next)

theorem putList_put_of_mem (hkey : key ∈ m.keys) {pairs : List (String × α)}
    (hnew : key ∉ pairs.map Prod.fst) (value : α) :
    (m.putList pairs).put key value = (m.put key value).putList pairs := by
  induction pairs generalizing m with
  | nil => rfl
  | cons pair rest ih =>
    rw [List.map_cons, List.mem_cons, not_or] at hnew
    have hkey' : key ∈ (m.put pair.1 pair.2).keys := mem_keys_put.2 (.inr hkey)
    rw [putList_cons, putList_cons, ih hkey' hnew.2, put_comm_of_mem hkey (Ne.symm hnew.1)]

/-! ## Putting a map -/

/-- Putting a pair into a list of pairs, or after all of them. -/
theorem putList_putEntry {pairs : List (String × α)} (hnodup : (pairs.map Prod.fst).Nodup)
    (m : OrderedMap α) (key : String) (value : α) :
    m.putList (putEntry key value pairs) = (m.putList pairs).put key value := by
  induction pairs generalizing m with
  | nil => rfl
  | cons pair rest ih =>
    rw [List.map_cons, List.nodup_cons] at hnodup
    by_cases h : pair.1 = key
    · have hkey : key ∈ (m.put key pair.2).keys := mem_keys_put.2 (.inl rfl)
      rw [h] at hnodup
      rw [putEntry, if_pos h, putList_cons, putList_cons, h, putList_put_of_mem hkey hnodup.1,
        put_put]
    · rw [putEntry, if_neg h, putList_cons, putList_cons, ih hnodup.2]

theorem putAll_put (m n : OrderedMap α) (key : String) (value : α) :
    m.putAll (n.put key value) = (m.putAll n).put key value :=
  putList_putEntry n.nodup m key value

theorem putAll_putList (m n : OrderedMap α) (pairs : List (String × α)) :
    m.putAll (n.putList pairs) = (m.putAll n).putList pairs := by
  induction pairs generalizing n with
  | nil => rfl
  | cons pair rest ih => rw [putList_cons, ih, putAll_put, putList_cons]

/-- A list of pairs may be made into a map before it is put in. -/
theorem putAll_ofList (m : OrderedMap α) (pairs : List (String × α)) :
    m.putAll (ofList pairs) = m.putList pairs :=
  putAll_putList m empty pairs

theorem putAll_assoc (a b c : OrderedMap α) : (a.putAll b).putAll c = a.putAll (b.putAll c) :=
  (putAll_putList a b c.entries).symm

@[simp] theorem empty_putAll (m : OrderedMap α) : empty.putAll m = m := ofList_entries m

@[simp] theorem putAll_empty (m : OrderedMap α) : m.putAll empty = m := rfl

theorem ofList_append (first second : List (String × α)) :
    ofList (first ++ second) = (ofList first).putAll (ofList second) := by
  rw [putAll_ofList, ofList, putList_append, ofList]

/-- Two maps without a common key stand one after the other. -/
theorem entries_putAll (h : ∀ key ∈ m.keys, key ∉ n.keys) :
    (m.putAll n).entries = m.entries ++ n.entries := by
  refine entries_putList n.entries m ?_
  rw [List.map_append, List.nodup_append]
  refine ⟨m.nodup, n.nodup, ?_⟩
  intro key hm other hn e
  exact h key hm (e ▸ hn)

end NativeHeader.OrderedMap
