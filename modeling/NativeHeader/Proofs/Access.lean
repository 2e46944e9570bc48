import NativeHeader.Document.Access
import NativeHeader.Proofs.Sequence

/-!
# What the accesses give

Reading a part of a document either fails or gives parts of it, each with the fact that it is
smaller.  Here the parts are looked at from outside, as total functions of the document: its members
(`Document.members`), one of them (`get?`, or `get` where an absent one counts as null), and its
items (`Document.items`).  For each access there are two laws: when it succeeds, and what it has
given when it did.
-/

namespace NativeHeader.Document

variable {d : Document} {key : String}

/-! ## The parts of a document -/

/-- The members that count; anything but an object has none. -/
def members : Document → OrderedMap Document
  | object members => entriesOf members
  | _ => .empty

/-- The member under a key. -/
def get? (d : Document) (key : String) : Option Document := d.members.get? key

/-- The member under a key, or null. -/
def get (d : Document) (key : String) : Document := (d.get? key).getD null

/-- The items of a list; anything else has none. -/
def items : Document → List Document
  | array items => items
  | _ => []

def IsObject : Document → Prop
  | object _ => True
  | _ => False

/-- A list, or an empty text or object, which stand for an empty list. -/
def IsList : Document → Prop
  | array _ => True
  | string text => text = ""
  | object members => members = []
  | _ => False

/-- Whether a value is an object with a member under the key. -/
def Has (d : Document) (key : String) : Prop := ∃ value, d.get? key = some value

theorem get_eq_of_get? {value : Document} (h : d.get? key = some value) : d.get key = value := by
  rw [get, h, Option.getD_some]

theorem get_eq_null (h : d.get? key = none) : d.get key = null := by
  rw [get, h, Option.getD_none]

theorem Has.get? (h : d.Has key) : d.get? key = some (d.get key) := by
  obtain ⟨value, hvalue⟩ := h
  rw [get_eq_of_get? hvalue, hvalue]

theorem Has.isObject (h : d.Has key) : d.IsObject := by
  obtain ⟨value, hvalue⟩ := h
  cases d with
  | object members => trivial
  | _ => cases hvalue

theorem has_of_get_ne_null (h : d.get key ≠ null) : d.Has key := by
  cases hget : d.get? key with
  | none => exact absurd (get_eq_null hget) h
  | some value => exact ⟨value, hget⟩

theorem IsList.ne_null (h : d.IsList) : d ≠ null := by
  rintro rfl
  exact h

theorem IsObject.ne_null (h : d.IsObject) : d ≠ null := by
  rintro rfl
  exact h

theorem Has.ne_null (h : d.Has key) : d ≠ null := h.isObject.ne_null

theorem sizeOf_get_lt (h : d.Has key) : sizeOf (d.get key) < sizeOf d := by
  cases d with
  | object members => exact sizeOf_lt_of_get? h.get?
  | _ => exact absurd h.isObject (by simp [IsObject])

/-- The items under a key are smaller than the document. -/
theorem sizeOf_lt_of_mem_items_get {item : Document} (h : item ∈ (d.get key).items) :
    sizeOf item < sizeOf d := by
  have hhas : d.Has key := by
    refine has_of_get_ne_null fun hnull => ?_
    rw [hnull] at h
    cases h
  have hitem : sizeOf item < sizeOf (d.get key) := by
    cases hget : d.get key with
    | array items =>
      rw [hget] at h
      exact sizeOf_lt_of_mem_items h
    | _ =>
      rw [hget] at h
      cases h
  exact Nat.lt_trans hitem (sizeOf_get_lt hhas)

/-! ## Members -/

theorem field_ok {part : d.Part} (h : d.field key = .ok part) : d.get? key = some part.1 := by
  unfold field at h
  split at h
  · split at h
    · next hvalue =>
      obtain rfl := Except.ok.inj h
      exact hvalue
    · cases h
  · cases h

theorem succeeds_field_iff : Succeeds (d.field key) ↔ d.Has key := by
  constructor
  · rintro ⟨part, h⟩
    exact ⟨part.1, field_ok h⟩
  · rintro ⟨value, hvalue⟩
    cases d with
    | object members =>
      unfold field
      simp only
      split
      · exact succeeds_ok _
      · next hnone => cases hvalue.symm.trans hnone
    | _ => cases hvalue

theorem optionalField_ok {found : Option d.Part} (h : d.optionalField key = .ok found) :
    d.IsObject ∧ found.map Subtype.val = d.get? key := by
  unfold optionalField at h
  split at h
  · split at h
    · next hvalue =>
      obtain rfl := Except.ok.inj h
      exact ⟨trivial, hvalue.symm⟩
    · next hnone =>
      obtain rfl := Except.ok.inj h
      exact ⟨trivial, hnone.symm⟩
  · cases h

theorem succeeds_optionalField_iff (key : String) :
    Succeeds (d.optionalField key) ↔ d.IsObject := by
  constructor
  · rintro ⟨found, h⟩
    exact (optionalField_ok h).1
  · intro h
    cases d with
    | object members =>
      unfold optionalField
      simp only
      split <;> exact succeeds_ok _
    | _ => exact h.elim

theorem entries_ok {parts : List (String × d.Part)} (h : d.entries = .ok parts) :
    d.IsObject ∧ parts.map (fun part => (part.1, part.2.1)) = d.members.entries := by
  unfold entries at h
  split at h
  · obtain rfl := Except.ok.inj h
    refine ⟨trivial, ?_⟩
    rw [List.map_map]
    exact List.attach_map_subtype_val _
  · cases h

theorem succeeds_entries_iff : Succeeds d.entries ↔ d.IsObject := by
  constructor
  · rintro ⟨parts, h⟩
    exact (entries_ok h).1
  · intro h
    cases d with
    | object members => exact succeeds_ok _
    | _ => exact h.elim

/-! ## Items -/

theorem records_ok {parts : List d.Part} (h : d.records = .ok parts) :
    d.IsList ∧ parts.map Subtype.val = d.items := by
  unfold records at h
  split at h
  · obtain rfl := Except.ok.inj h
    refine ⟨trivial, ?_⟩
    rw [List.map_map]
    exact List.attach_map_subtype_val _
  · split at h
    · next hempty =>
      obtain rfl := Except.ok.inj h
      exact ⟨by simpa [IsList] using hempty, rfl⟩
    · cases h
  · split at h
    · next hempty =>
      obtain rfl := Except.ok.inj h
      exact ⟨by simpa [IsList] using hempty, rfl⟩
    · cases h
  · cases h

theorem succeeds_records_iff : Succeeds d.records ↔ d.IsList := by
  constructor
  · rintro ⟨parts, h⟩
    exact (records_ok h).1
  · intro h
    cases d with
    | array items => exact succeeds_ok _
    | string text =>
      obtain rfl : text = "" := h
      exact succeeds_ok _
    | object members =>
      obtain rfl : members = [] := h
      exact succeeds_ok _
    | _ => exact h.elim

theorem optionalRecords_ok {parts : List d.Part} (h : d.optionalRecords key = .ok parts) :
    (d.Has key → (d.get key).IsList) ∧ parts.map Subtype.val = (d.get key).items := by
  obtain ⟨found, hfound, h⟩ := bind_eq_ok_iff.1 h
  have hget := (optionalField_ok hfound).2
  cases found with
  | none =>
    obtain rfl := Except.ok.inj h
    have hnone : d.get? key = none := hget.symm
    refine ⟨fun hhas => ?_, ?_⟩
    · cases hhas.get?.symm.trans hnone
    · rw [get_eq_null hnone]
      rfl
  | some part =>
    obtain ⟨inner, hinner, h⟩ := bind_eq_ok_iff.1 h
    obtain rfl := Except.ok.inj h
    obtain ⟨hlist, hitems⟩ := records_ok hinner
    rw [get_eq_of_get? hget.symm]
    exact ⟨fun _ => hlist, by rw [List.map_map]; exact hitems⟩

theorem succeeds_optionalRecords (hobject : d.IsObject) (hlist : d.Has key → (d.get key).IsList) :
    Succeeds (d.optionalRecords key) := by
  obtain ⟨found, hfound⟩ := (succeeds_optionalField_iff key).2 hobject
  refine succeeds_bind_iff.2 ⟨found, hfound, ?_⟩
  have hget := (optionalField_ok hfound).2
  cases found with
  | none => exact succeeds_ok _
  | some part =>
    have hpart : part.1.IsList := by
      rw [← get_eq_of_get? hget.symm]
      exact hlist ⟨part.1, hget.symm⟩
    obtain ⟨inner, hinner⟩ := succeeds_records_iff.2 hpart
    exact succeeds_bind_iff.2 ⟨inner, hinner, succeeds_ok _⟩

end NativeHeader.Document
