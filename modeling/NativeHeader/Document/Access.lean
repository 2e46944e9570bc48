import NativeHeader.OrderedMap
import NativeHeader.Fault

/-!
# Reading the parts of a document

A schema is read from a document field by field.  Each access looks at one value and either gives
parts of it or fails with the fault of that access: `field` demands a member, `optionalField` asks
for one, `entries` walks through the members, `records` through the items of a list.

A part is given together with the fact that it is smaller than the value it was taken from, so a
function that reads a document from the outside in can call itself on the parts.
-/

namespace NativeHeader.Document

/-- A value found inside another one. -/
abbrev Part (d : Document) := { part : Document // sizeOf part < sizeOf d }

/-! ## Members -/

/-- The members that count: each key once, where it came first, with what came last. -/
def entriesOf (members : List (String × Document)) : OrderedMap Document :=
  OrderedMap.ofList members

theorem sizeOf_lt_of_mem_members {key : String} {value : Document}
    {members : List (String × Document)} (h : (key, value) ∈ members) :
    sizeOf value < sizeOf (Document.object members) := by
  have h₁ := List.sizeOf_lt_of_mem h
  have h₂ : sizeOf (key, value) = 1 + sizeOf key + sizeOf value := rfl
  have h₃ : sizeOf (Document.object members) = 1 + sizeOf members := by simp
  omega

theorem sizeOf_lt_of_get? {members : List (String × Document)} {key : String} {value : Document}
    (h : (entriesOf members).get? key = some value) :
    sizeOf value < sizeOf (Document.object members) :=
  sizeOf_lt_of_mem_members (OrderedMap.mem_of_mem_ofList (OrderedMap.mem_of_get? h))

theorem sizeOf_lt_of_mem_items {item : Document} {items : List Document} (h : item ∈ items) :
    sizeOf item < sizeOf (Document.array items) := by
  have h₁ := List.sizeOf_lt_of_mem h
  have h₂ : sizeOf (Document.array items) = 1 + sizeOf items := by simp
  omega

/-! ## The accesses -/

/-- A member that may be absent. -/
def optionalField (d : Document) (key : String) : Except Fault (Option d.Part) :=
  match d with
  | object members =>
    match h : (entriesOf members).get? key with
    | some value => .ok (some ⟨value, sizeOf_lt_of_get? h⟩)
    | none => .ok none
  | _ => .error .membersOfNonObject

/-- A member that must be there. -/
def field (d : Document) (key : String) : Except Fault d.Part :=
  match d with
  | object members =>
    match h : (entriesOf members).get? key with
    | some value => .ok ⟨value, sizeOf_lt_of_get? h⟩
    | none => .error (.missingKey key)
  | _ => .error .fieldOfNonObject

/-- All members, in order. -/
def entries (d : Document) : Except Fault (List (String × d.Part)) :=
  match d with
  | object members =>
    .ok ((entriesOf members).entries.attach.map fun entry =>
      (entry.1.1, ⟨entry.1.2, sizeOf_lt_of_mem_members (OrderedMap.mem_of_mem_ofList entry.2)⟩))
  | _ => .error .membersOfNonObject

/-- The items of a list, of which fields are going to be read.  An empty text or object stands for
an empty list; what a longer one holds are texts, and no field can be read of the first of them. -/
def records (d : Document) : Except Fault (List d.Part) :=
  match d with
  | array items => .ok (items.attach.map fun item => ⟨item.1, sizeOf_lt_of_mem_items item.2⟩)
  | string text => if text.isEmpty then .ok [] else .error .fieldOfNonObject
  | object members => if members.isEmpty then .ok [] else .error .fieldOfNonObject
  | _ => .error .itemsOfNonList

/-- A part of a part is a part. -/
def Part.widen {d : Document} {part : d.Part} (inner : part.1.Part) : d.Part :=
  ⟨inner.1, Nat.lt_trans inner.2 part.2⟩

/-- The items of a list that may be absent. -/
def optionalRecords (d : Document) (key : String) : Except Fault (List d.Part) := do
  match ← d.optionalField key with
  | some part => return (← part.1.records).map Part.widen
  | none => return []

/-- The value as a key of a table, if it is a text.  A list or an object is no key at all. -/
def key? : Document → Except Fault (Option String)
  | string text => .ok (some text)
  | array _ => .error .compoundKey
  | object _ => .error .compoundKey
  | _ => .ok none

/-- Looks the value up in a table. -/
def lookupIn {α : Type} (key : Document) (table : String → Option α) : Except Fault (Option α) := do
  return (← key.key?).bind table

end NativeHeader.Document
