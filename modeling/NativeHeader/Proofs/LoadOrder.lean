import NativeHeader.Proofs.Union
import NativeHeader.Proofs.Values

/-!
# The order of loading

Loading is a fixed sequence of accesses.  The accesses that a document gives rise to can be listed
from the document alone (`Document.accesses`): its table of source files, per file the table of
modules, per module the table of aliases with their types and then the list of methods, per method
its function type, its name, the list of parameters with their types, and the result at last.  Of a
type the element type is asked for first and read last, after the tag and the properties.

An access fails because of the form of the value that it is made on, or because a field that must be
there is absent (`Access.fault?`), and nothing else can go wrong.  So loading fails exactly if one
of the listed accesses does, and the first one that fails gives the fault, whatever comes after it:
`load_fails_at_first_access`.
-/

namespace NativeHeader

open Document

/-! ## Accesses -/

/-- The form of a value. -/
inductive Form where
  | null
  | bool
  | number
  | string
  | array
  | object
  deriving DecidableEq

def Document.form : Document → Form
  | .null => .null
  | .bool _ => .bool
  | .integer _ => .number
  | .decimal _ => .number
  | .string _ => .string
  | .array _ => .array
  | .object _ => .object

/-- The fields that must be there. -/
inductive Demanded where
  | modules
  | properties
  | shape
  | name
  | params
  | returns
  | type
  deriving DecidableEq

def Demanded.key : Demanded → String
  | modules => "modules"
  | properties => "properties"
  | shape => "typeAnnotation"
  | name => "name"
  | params => "params"
  | returns => "returnTypeAnnotation"
  | type => "type"

/-- An access to a value, as far as it can be seen whether it fails. -/
inductive Access where
  /-- A field that must be there is read. -/
  | field (form : Form) (demanded : Demanded) (present : Bool)
  /-- A field that may be absent is asked for. -/
  | ask (form : Form) (key : String)
  /-- The entries of a table are gone through. -/
  | table (form : Form)
  /-- The items of a list are gone through. -/
  | list (form : Form)
  deriving DecidableEq

/-- The fault of an access, if it fails.  Texts and objects can be gone through as lists can. -/
def Access.fault? : Access → Option Fault
  | field .object _ true => none
  | field .object demanded false => some (.missingKey demanded.key)
  | field _ _ _ => some .fieldOfNonObject
  | ask .object _ => none
  | ask _ _ => some .membersOfNonObject
  | table .object => none
  | table _ => some .membersOfNonObject
  | list .array => none
  | list .string => none
  | list .object => none
  | list _ => some .itemsOfNonList

namespace Document

/-- What is met when a value is gone through as a list: the items of a list, the characters of a
text, the keys of an object. -/
def walked : Document → List Document
  | array items => items
  | string text => (text.toList.map .singleton).map .string
  | object members => (entriesOf members).keys.map .string
  | _ => []

def fieldAccess (d : Document) (demanded : Demanded) : Access :=
  .field d.form demanded (d.get? demanded.key).isSome

def askAccess (d : Document) (key : String) : Access := .ask d.form key

/-- The accesses to a list and to what is met in it. -/
def listAccesses (inner : Document → List Access) (d : Document) : List Access :=
  .list d.form :: d.walked.flatMap inner

/-- The accesses to a table and to its values. -/
def tableAccesses (inner : Document → List Access) (d : Document) : List Access :=
  .table d.form :: d.members.values.flatMap inner

/-- The accesses to the value of a field, if there is one. -/
def accessesUnder (d : Document) (key : String) (inner : Document → List Access) : List Access :=
  match d.get? key with
  | some value => inner value
  | none => []

theorem accessesUnder_of_has {d : Document} {key : String} (h : d.Has key)
    (inner : Document → List Access) : d.accessesUnder key inner = inner (d.get key) := by
  rw [accessesUnder, h.get?]

/-! ## The accesses to the parts of a schema -/

theorem not_has_string {text key : String} : ¬ (string text).Has key :=
  not_has_of_not_isObject id

theorem sizeOf_lt_of_mem_walked {d item value : Document} {key : String} (h : item ∈ d.walked)
    (hvalue : item.get? key = some value) : sizeOf value < sizeOf d := by
  have hhas : item.Has key := ⟨value, hvalue⟩
  have hlt := sizeOf_get_lt hhas
  rw [get_eq_of_get? hvalue] at hlt
  cases d with
  | array items => exact Nat.lt_trans hlt (sizeOf_lt_of_mem_items h)
  | string text =>
    obtain ⟨text, -, rfl⟩ := List.mem_map.1 h
    exact absurd hhas not_has_string
  | object members =>
    obtain ⟨text, -, rfl⟩ := List.mem_map.1 h
    exact absurd hhas not_has_string
  | _ => cases h

theorem mem_walked_of_mem_items {d item : Document} (h : item ∈ d.items) : item ∈ d.walked := by
  cases d with
  | array items => exact h
  | _ => cases h

/-- The properties of a type, which has none if it has no list of them. -/
def propertyList (d : Document) : Document := d.getOr "properties" (array [])

theorem sizeOf_lt_of_mem_walked_propertyList {d item value : Document} {key : String}
    (h : item ∈ d.propertyList.walked) (hvalue : item.get? key = some value) :
    sizeOf value < sizeOf d := by
  by_cases hhas : d.Has "properties"
  · rw [propertyList, getOr_of_has hhas] at h
    exact Nat.lt_trans (sizeOf_lt_of_mem_walked h hvalue) (sizeOf_get_lt hhas)
  · rw [propertyList, getOr_of_not_has hhas] at h
    cases h

theorem sizeOf_get_lt_of_not_isBlank {d : Document} {key : String}
    (h : ¬ (d.get key).isBlank = true) : sizeOf (d.get key) < sizeOf d := by
  refine sizeOf_get_lt (has_of_get_ne_null fun hnull => h ?_)
  rw [hnull]
  rfl

/-- The accesses to a type: the element type is asked for first, and read last. -/
def typeAccesses (d : Document) : List Access :=
  d.askAccess "elementType" :: d.fieldAccess .type :: d.askAccess "properties" ::
    .list d.propertyList.form ::
      (d.propertyList.walked.attach.flatMap fun item =>
        item.1.fieldAccess .name :: item.1.fieldAccess .shape ::
          match _h : item.1.get? "typeAnnotation" with
          | some shape => typeAccesses shape
          | none => []) ++
      if _h : (d.get "elementType").isBlank then [] else typeAccesses (d.get "elementType")
termination_by sizeOf d
decreasing_by
  · exact sizeOf_lt_of_mem_walked_propertyList item.2 ‹_›
  · exact sizeOf_get_lt_of_not_isBlank ‹_›

/-- The accesses to a parameter, or to a property. -/
def namedAccesses (d : Document) : List Access :=
  d.fieldAccess .name :: d.fieldAccess .shape ::
    d.accessesUnder "typeAnnotation" typeAccesses

/-- The accesses to an element type, if that is read. -/
def elementAccesses (d : Document) : List Access := if d.isBlank then [] else d.typeAccesses

/-- The accesses to a type, told by those to its properties and to its element type. -/
theorem typeAccesses_eq (d : Document) :
    d.typeAccesses =
      d.askAccess "elementType" :: d.fieldAccess .type :: d.askAccess "properties" ::
        d.propertyList.listAccesses namedAccesses ++ (d.get "elementType").elementAccesses := by
  have hitem : ∀ item : { item // item ∈ d.propertyList.walked },
      (item.1.fieldAccess .name :: item.1.fieldAccess .shape ::
        match _h : item.1.get? "typeAnnotation" with
        | some shape => typeAccesses shape
        | none => []) = item.1.namedAccesses := by
    intro item
    rw [namedAccesses, accessesUnder]
    split <;> simp_all
  have hwalk : d.propertyList.walked.attach.flatMap (fun item => item.1.namedAccesses) =
      d.propertyList.walked.flatMap namedAccesses := by
    rw [List.flatMap_def, List.flatMap_def, List.attach_map_val]
  rw [typeAccesses, listAccesses]
  simp only [hitem, hwalk, dite_eq_ite]
  rfl

/-- The accesses to a function type: the parameters come before the result. -/
def functionAccesses (d : Document) : List Access :=
  d.fieldAccess .params :: d.accessesUnder "params" (listAccesses namedAccesses) ++
    d.fieldAccess .returns :: d.accessesUnder "returnTypeAnnotation" typeAccesses

/-- The accesses to a method: its function type is looked up before its name, and read after it. -/
def methodAccesses (d : Document) : List Access :=
  d.fieldAccess .shape :: d.fieldAccess .name ::
    d.accessesUnder "typeAnnotation" functionAccesses

/-- The accesses to a module: all aliases come before the methods. -/
def moduleAccesses (d : Document) : List Access :=
  d.askAccess "aliases" :: (d.getOr "aliases" (object [])).tableAccesses typeAccesses ++
    d.fieldAccess .properties :: d.accessesUnder "properties" (listAccesses methodAccesses)

/-- The accesses to the modules of a source file, which has none if null stands there. -/
def modulesAccesses : Document → List Access
  | .null => []
  | d => d.tableAccesses moduleAccesses

def fileAccesses (d : Document) : List Access :=
  d.askAccess "nativeModules" :: d.accessesUnder "nativeModules" modulesAccesses

/-- The accesses to a document, in the order in which it is loaded.  Fields that are only asked for
and kept, after another field of the same object was read, cannot fail and are left out: the name of
a type, and whether a property is optional. -/
def accesses (d : Document) : List Access :=
  d.fieldAccess .modules :: d.accessesUnder "modules" (tableAccesses fileAccesses)

end Document

/-! ## Following accesses -/

/-- A computation fails as the first of the accesses that fails, if any does. -/
def Follows {α : Type} (x : Except Fault α) (accesses : List Access) : Prop :=
  NativeHeader.fault? x = accesses.findSome? Access.fault?

section Follows

variable {α β : Type} {x : Except Fault α} {before after : List Access} {d : Document}

theorem follows_pure (a : α) : Follows (pure a : Except Fault α) [] := rfl

theorem Follows.map (h : Follows x before) (f : α → β) : Follows (f <$> x) before :=
  (fault?_map x f).trans h

theorem Follows.bind {next : α → Except Fault β} (h : Follows x before)
    (hnext : ∀ a, Follows (next a) after) : Follows (x >>= next) (before ++ after) := by
  rw [Follows, fault?_bind _ hnext, List.findSome?_append, h]

/-- What is made of the value at last is no access. -/
theorem Follows.bind_pure (h : Follows x before) (f : α → β) :
    Follows (x >>= fun a => pure (f a)) before := by
  rw [← map_eq_pure_bind]
  exact h.map f

theorem follows_mapM {load : α → Except Fault β} {inner : α → List Access} {xs : List α}
    (h : ∀ x ∈ xs, Follows (load x) (inner x)) : Follows (xs.mapM load) (xs.flatMap inner) := by
  induction xs with
  | nil => exact follows_pure []
  | cons x rest ih =>
    rw [List.forall_mem_cons] at h
    rw [List.mapM_cons, List.flatMap_cons]
    exact h.1.bind fun a => (ih h.2).bind_pure (a :: ·)

theorem follows_cons_of_error {access : Access} {fault : Fault}
    (hfault : access.fault? = some fault) :
    Follows (.error fault : Except Fault α) (access :: after) := by
  rw [Follows, List.findSome?_cons, hfault]
  rfl

theorem follows_cons {access : Access} (hfine : access.fault? = none) (h : Follows x after) :
    Follows x (access :: after) := by
  rw [Follows, List.findSome?_cons, hfine]
  exact h

theorem fault?_fieldAccess_of_has {demanded : Demanded} (h : d.Has demanded.key) :
    (d.fieldAccess demanded).fault? = none := by
  cases d with
  | object members => rw [fieldAccess, h.get?]; rfl
  | _ => exact h.isObject.elim

theorem fault?_fieldAccess_of_not_has {demanded : Demanded} (hobject : d.IsObject)
    (h : ¬ d.Has demanded.key) :
    (d.fieldAccess demanded).fault? = some (.missingKey demanded.key) := by
  cases d with
  | object members => rw [fieldAccess, get?_eq_none_of_not_has h]; rfl
  | _ => exact hobject.elim

theorem fault?_fieldAccess_of_not_isObject {demanded : Demanded} (h : ¬ d.IsObject) :
    (d.fieldAccess demanded).fault? = some .fieldOfNonObject := by
  cases d with
  | object members => exact absurd trivial h
  | _ => rfl

/-- A field that must be there is read, and what follows goes on with its value. -/
theorem follows_required (demanded : Demanded) {key : String} {next : Document → Except Fault α}
    (hnext : d.Has key → Follows (next (d.get key)) after)
    (hkey : demanded.key = key := by rfl) :
    Follows (d.required key >>= next) (d.fieldAccess demanded :: after) := by
  subst hkey
  by_cases hhas : d.Has demanded.key
  · rw [required_of_has hhas]
    exact follows_cons (fault?_fieldAccess_of_has hhas) (hnext hhas)
  · by_cases hobject : d.IsObject
    · rw [required_of_not_has hobject hhas]
      exact follows_cons_of_error (fault?_fieldAccess_of_not_has hobject hhas)
    · rw [required_of_not_isObject hobject]
      exact follows_cons_of_error (fault?_fieldAccess_of_not_isObject hobject)

/-- A field that may be absent is asked for, and what follows goes on with what is found. -/
theorem follows_asked {key : String} {next : Option Document → Except Fault α}
    (hnext : d.IsObject → Follows (next (d.get? key)) after) :
    Follows (d.asked key >>= next) (d.askAccess key :: after) := by
  cases d with
  | object members =>
    rw [asked_of_isObject (show (object members).IsObject from trivial)]
    exact follows_cons rfl (hnext trivial)
  | _ => exact follows_cons_of_error rfl

/-- Loading the entries of a table follows the accesses to its values. -/
theorem follows_loadMembers {load : String → Document → Except Fault α}
    {inner : Document → List Access}
    (hload : ∀ entry ∈ d.members.entries, Follows (load entry.1 entry.2) (inner entry.2)) :
    Follows (loadMembers load d) (d.tableAccesses inner) := by
  rw [loadMembers_values, tableAccesses]
  cases d with
  | object members =>
    rw [table_of_isObject (show (object members).IsObject from trivial)]
    refine follows_cons rfl ?_
    rw [OrderedMap.values, List.flatMap_map]
    exact follows_mapM fun entry hentry => (hload entry hentry).map _
  | _ => exact follows_cons_of_error rfl

section Walks

variable {load : Document → Except Fault α} {inner : Document → List Access}

/-- No field can be read of the first of some texts. -/
theorem follows_texts {texts : List String}
    (htext : ∀ text, (inner (.string text)).findSome? Access.fault? = some .fieldOfNonObject)
    (h : texts ≠ []) :
    Follows (.error .fieldOfNonObject : Except Fault α)
      ((texts.map Document.string).flatMap inner) := by
  obtain ⟨text, rest, rfl⟩ := List.exists_cons_of_ne_nil h
  rw [Follows, List.map_cons, List.flatMap_cons, List.findSome?_append, htext]
  rfl

/-- Going through a list follows the accesses to what is met.  In a text or an object that stands
for the list that are texts, of which no field can be read. -/
theorem follows_listed
    (htext : ∀ text, (inner (.string text)).findSome? Access.fault? = some .fieldOfNonObject)
    (hload : ∀ item ∈ d.items, Follows (load item) (inner item)) :
    Follows (d.listed >>= List.mapM load) (d.listAccesses inner) := by
  rw [listAccesses]
  cases d with
  | array items =>
    rw [listed_of_isList (show (array items).IsList from trivial)]
    exact follows_cons rfl (follows_mapM hload)
  | string text =>
    refine follows_cons rfl ?_
    by_cases hempty : text = ""
    · subst hempty
      exact follows_pure []
    · rw [listed, records, if_neg (by simpa using hempty)]
      exact follows_texts htext (by simpa using hempty)
  | object members =>
    refine follows_cons rfl ?_
    by_cases hempty : members = []
    · subst hempty
      exact follows_pure []
    · rw [listed, records, if_neg (by simpa using hempty)]
      -- the first member that is written has its key among those that are met
      refine follows_texts htext fun hkeys => ?_
      obtain ⟨entry, rest, rfl⟩ := List.exists_cons_of_ne_nil hempty
      have hmem : entry.1 ∈ (entriesOf (entry :: rest)).keys :=
        OrderedMap.mem_keys_ofList.2 (List.mem_cons_self ..)
      rw [hkeys] at hmem
      cases hmem
  | _ => exact follows_cons_of_error rfl

/-- Going through a list, when more is done afterwards. -/
theorem follows_listed_bind
    (htext : ∀ text, (inner (.string text)).findSome? Access.fault? = some .fieldOfNonObject)
    (hload : ∀ item ∈ d.items, Follows (load item) (inner item)) {next : List α → Except Fault β}
    (hnext : ∀ loaded, Follows (next loaded) after) :
    Follows (d.listed >>= fun items => items.mapM load >>= next)
      (d.listAccesses inner ++ after) := by
  rw [← bind_assoc]
  exact (follows_listed htext hload).bind hnext

end Walks

end Follows

/-! ## The parts of a schema -/

section Parts

/-- A parameter, or a property, with what is made of it at last. -/
theorem follows_named {α : Type} {raw : Document} {make : Document → TypeExpr → Except Fault α}
    (hmake : raw.IsObject → ∀ name type, Follows (make name type) [])
    (htype : raw.Has "typeAnnotation" → Follows (TypeExpr.load (raw.get "typeAnnotation"))
      (raw.get "typeAnnotation").typeAccesses) :
    Follows (raw.required "name" >>= fun name =>
      raw.required "typeAnnotation" >>= fun shape =>
        TypeExpr.load shape >>= fun type => make name type) raw.namedAccesses := by
  refine follows_required .name fun hname => ?_
  refine follows_required .shape fun hshape => ?_
  rw [accessesUnder_of_has hshape, ← List.append_nil (typeAccesses _)]
  exact (htype hshape).bind fun type => hmake hname.isObject _ type

theorem follows_property {raw : Document}
    (htype : raw.Has "typeAnnotation" → Follows (TypeExpr.load (raw.get "typeAnnotation"))
      (raw.get "typeAnnotation").typeAccesses) :
    Follows (Property.load raw) raw.namedAccesses := by
  rw [Property.load_values]
  refine follows_named (fun hobject name type => ?_) htype
  rw [asked_of_isObject hobject]
  exact follows_pure _

theorem follows_loadElement {raw : Document}
    (h : raw.isBlank = false → Follows (TypeExpr.load raw) raw.typeAccesses) :
    Follows (TypeExpr.loadElement raw) raw.elementAccesses := by
  rw [TypeExpr.loadElement, elementAccesses]
  split
  · exact follows_pure none
  · next hfilled => exact (h (by simpa using hfilled)).map some

theorem follows_type (raw : Document) : Follows (TypeExpr.load raw) raw.typeAccesses := by
  rw [TypeExpr.load_values, typeAccesses_eq]
  refine follows_asked fun hobject => follows_required .type fun htag => ?_
  rw [asked_of_isObject hobject]
  refine follows_asked fun _ => ?_
  -- what is read of the properties and of the element type is smaller than the type
  refine follows_listed_bind (fun _ => rfl) (fun item hitem => ?_) (fun properties => ?_)
  · refine follows_property fun hshape => ?_
    have hlt : sizeOf (item.get "typeAnnotation") < sizeOf raw :=
      sizeOf_lt_of_mem_walked_propertyList (mem_walked_of_mem_items hitem) hshape.get?
    exact follows_type _
  · have helement : (raw.get "elementType").isBlank = false →
        Follows (TypeExpr.load (raw.get "elementType")) (raw.get "elementType").typeAccesses := by
      intro hfilled
      have hlt : sizeOf (raw.get "elementType") < sizeOf raw :=
        sizeOf_get_lt_of_not_isBlank (by simp [hfilled])
      exact follows_type _
    exact (follows_loadElement helement).bind_pure _
termination_by sizeOf raw

theorem follows_parameter (raw : Document) : Follows (Parameter.load raw) raw.namedAccesses := by
  rw [Parameter.load_values]
  exact follows_named (fun _ _ _ => follows_pure _) fun _ => follows_type _

theorem follows_function (name raw : Document) :
    Follows (Method.loadFunction name raw) raw.functionAccesses := by
  rw [Method.loadFunction]
  refine follows_required .params fun hparams => ?_
  rw [accessesUnder_of_has hparams]
  refine follows_listed_bind (fun _ => rfl) (fun item _ => follows_parameter item) fun _ => ?_
  refine follows_required .returns fun hreturns => ?_
  rw [accessesUnder_of_has hreturns]
  exact (follows_type _).bind_pure _

theorem follows_method (raw : Document) : Follows (Method.load raw) raw.methodAccesses := by
  rw [Method.load_values]
  refine follows_required .shape fun hfunction => follows_required .name fun _ => ?_
  rw [accessesUnder_of_has hfunction]
  exact follows_function _ _

theorem follows_module (name : String) (raw : Document) :
    Follows (ModuleSpec.load name raw) raw.moduleAccesses := by
  rw [ModuleSpec.load_values]
  refine follows_asked fun _ => ?_
  refine (follows_loadMembers fun entry _ => follows_type entry.2).bind fun _ => ?_
  refine follows_required .properties fun hlist => ?_
  rw [accessesUnder_of_has hlist, ← List.append_nil (listAccesses _ _)]
  exact follows_listed_bind (fun _ => rfl) (fun item _ => follows_method item)
    fun _ => follows_pure _

theorem follows_modules (raw : Document) :
    Follows (Schema.loadModules raw) raw.modulesAccesses := by
  have htable : Follows (loadMembers ModuleSpec.load raw) (raw.tableAccesses moduleAccesses) :=
    follows_loadMembers fun entry _ => follows_module entry.1 entry.2
  cases raw with
  | null => exact follows_pure none
  | _ => exact htable.map _

theorem follows_file (raw : Document) : Follows (Schema.loadFile raw) raw.fileAccesses := by
  rw [Schema.loadFile_values]
  refine follows_asked fun _ => ?_
  rw [accessesUnder]
  cases raw.get? "nativeModules" with
  | none => exact follows_pure none
  | some modules => exact follows_modules modules

/-- Loading a document fails as the first of its accesses that fails, if any does. -/
theorem follows_schema (raw : Document) : Follows (Schema.load raw) raw.accesses := by
  rw [Schema.load_values]
  refine follows_required .modules fun hmodules => ?_
  rw [accessesUnder_of_has hmodules]
  exact (follows_loadMembers fun entry _ => follows_file entry.2).map _

end Parts

/-! ## The first access that fails -/

/-- The accesses before it are fine, and this one fails. -/
structure Document.FailsFirst (d : Document) (before : List Access) (access : Access)
    (after : List Access) (fault : Fault) : Prop where
  listed : d.accesses = before ++ access :: after
  fine : ∀ earlier ∈ before, earlier.fault? = none
  fails : access.fault? = some fault

/-- Loading fails exactly if an access fails, and with the fault of the first one that does. -/
theorem load_eq_error_iff {raw : Document} {fault : Fault} :
    Schema.load raw = .error fault ↔
      ∃ before access after, raw.FailsFirst before access after fault := by
  rw [← fault?_eq_some_iff, follows_schema raw, List.findSome?_eq_some_iff]
  constructor
  · rintro ⟨before, access, after, listed, fails, fine⟩
    exact ⟨before, access, after, listed, fine, fails⟩
  · rintro ⟨before, access, after, listed, fine, fails⟩
    exact ⟨before, access, after, listed, fails, fine⟩

/-- Loading succeeds exactly if all accesses are fine. -/
theorem succeeds_load_iff_fine {raw : Document} :
    Succeeds (Schema.load raw) ↔ ∀ access ∈ raw.accesses, access.fault? = none := by
  rw [← List.findSome?_eq_none_iff, ← follows_schema raw]
  cases Schema.load raw <;> simp

/-- What an access can fail with: the form of the value alone decides, or the key is missing. -/
theorem Access.fault?_cases {access : Access} {fault : Fault} (h : access.fault? = some fault) :
    fault = .membersOfNonObject ∨ fault = .fieldOfNonObject ∨ fault = .itemsOfNonList ∨
      ∃ demanded : Demanded, fault = .missingKey demanded.key := by
  cases access with
  | field form demanded present =>
    cases form <;> cases present <;> simp_all [fault?, eq_comm]
  | _ form => cases form <;> simp_all [fault?, eq_comm]

theorem Demanded.key_mem (demanded : Demanded) :
    demanded.key ∈ ["modules", "properties", "typeAnnotation", "name", "params",
      "returnTypeAnnotation", "type"] := by
  cases demanded <;> decide

/-- Loading goes through the accesses of the document in order, and the first one that fails ends
it.  It fails exactly if one of them does, with the fault of that access: a value is not an object
where it must be one, or not a list, or one of seven fields is missing and is named.  What would
come after that access makes no difference. -/
theorem load_fails_at_first_access (raw : Document) :
    (Succeeds (Schema.load raw) ↔ ∀ access ∈ raw.accesses, access.fault? = none) ∧
    (∀ fault, Schema.load raw = .error fault ↔
      ∃ before access after, raw.FailsFirst before access after fault) ∧
    (∀ fault, Schema.load raw = .error fault →
      fault = .membersOfNonObject ∨ fault = .fieldOfNonObject ∨ fault = .itemsOfNonList ∨
        ∃ key ∈ ["modules", "properties", "typeAnnotation", "name", "params",
          "returnTypeAnnotation", "type"], fault = .missingKey key ∧ fault.message = some key) ∧
    ∀ (raw' : Document) (before : List Access) (access : Access) (after after' : List Access)
      (fault : Fault), raw.FailsFirst before access after fault →
        raw'.accesses = before ++ access :: after' →
          Schema.load raw = .error fault ∧ Schema.load raw' = .error fault := by
  refine ⟨succeeds_load_iff_fine, fun _ => load_eq_error_iff, fun fault h => ?_, ?_⟩
  · obtain ⟨before, access, after, hfirst⟩ := load_eq_error_iff.1 h
    rcases access.fault?_cases hfirst.fails with hfault | hfault | hfault | ⟨demanded, hfault⟩
    · exact .inl hfault
    · exact .inr (.inl hfault)
    · exact .inr (.inr (.inl hfault))
    · exact .inr (.inr (.inr ⟨_, demanded.key_mem, hfault, by rw [hfault]; rfl⟩))
  · intro raw' before access after after' fault hfirst hlisted
    exact ⟨load_eq_error_iff.2 ⟨before, access, after, hfirst⟩,
      load_eq_error_iff.2 ⟨before, access, after', hlisted, hfirst.fine, hfirst.fails⟩⟩

/-- A document with a module that has no methods, and another source file. -/
def methodlessDocument (other : Document) : Document :=
  .object
    [("modules", .object
      [("First.js", .object [("nativeModules", .object [("First", .object [])])]),
        ("Second.js", other)])]

/-- The missing methods are found before the second file is looked at. -/
theorem methodlessDocument_fails :
    Schema.load (methodlessDocument .null) = .error (.missingKey "properties") ∧
      Schema.load (methodlessDocument (.object [])) = .error (.missingKey "properties") := by
  have hlisted : ∀ other, (methodlessDocument other).accesses =
      [.field .object .modules true, .table .object, .ask .object "nativeModules", .table .object,
        .ask .object "aliases", .table .object] ++
          .field .object .properties false :: (other.fileAccesses ++ []) := fun _ => rfl
  obtain ⟨-, -, -, hfirst⟩ := load_fails_at_first_access (methodlessDocument .null)
  exact hfirst _ _ _ _ _ _ ⟨hlisted .null, by decide, rfl⟩ (hlisted (.object []))

end NativeHeader
