import NativeHeader.Proofs.Skeleton
import NativeHeader.Proofs.Union
import NativeHeader.Proofs.Values
import NativeHeader.Proofs.Writing

/-!
# Reading by named fields

A document is read through the names of its fields.  An object that stands for a part of a schema is
asked for the fields of its role (`Role.fields`) and for nothing else, so neither the order of its
members counts nor what else it has.  Three things are not read by name: the tables of source files,
of modules and of aliases, whose entries are gone through in order; the lists; and an element type,
of which it is first tested whether it says anything.

`Use.Alike` relates two values that differ in nothing that is read, at any depth, and such documents
are loaded alike, be the result a schema or a fault.  The order of a table of aliases is kept by the
loaded schema, but it shows neither in the header nor in the fault of generating
(`Document.AliasesShuffled`).  Both are stated in `loading_reads_named_fields`.
-/

namespace NativeHeader

open Document

/-! ## Roles -/

/-- What an object stands for that is read field by field. -/
inductive Role where
  | schema
  | file
  | nativeModule
  | method
  | function
  | parameter
  | property
  | type

/-- What becomes of a value that stands in a field. -/
inductive Use where
  /-- It is kept as it is. -/
  | kept
  /-- It is read field by field. -/
  | read (role : Role)
  /-- Its items are read, one after another. -/
  | list (role : Role)
  /-- Its entries are read, one after another, each under its key. -/
  | table (role : Role)
  /-- It is read as a type, unless it says nothing. -/
  | element

/-- The fields that are read of an object, and what becomes of the value in each. -/
def Role.fields : Role → List (String × Use)
  | schema => [("modules", .table .file)]
  | file => [("nativeModules", .table .nativeModule)]
  | nativeModule => [("aliases", .table .type), ("properties", .list .method)]
  | method => [("typeAnnotation", .read .function), ("name", .kept)]
  | function => [("params", .list .parameter), ("returnTypeAnnotation", .read .type)]
  | parameter => [("name", .kept), ("typeAnnotation", .read .type)]
  | property => [("name", .kept), ("typeAnnotation", .read .type), ("optional", .kept)]
  | type =>
    [("elementType", .element), ("type", .kept), ("name", .kept), ("properties", .list .property)]

/-! ## Values that differ in nothing that is read -/

/-- Two values differ in nothing that is read of them.  Objects that are read have the same fields
of their role, and alike values there; all other members are free, and so is the order of all.
Lists are alike item by item, and tables entry by entry, in the same order. -/
inductive Use.Alike : Use → Document → Document → Prop
  | same (use : Use) (d : Document) : Alike use d d
  | read {role : Role} {d d' : Document} (object : d.IsObject) (object' : d'.IsObject)
      (has : ∀ field ∈ role.fields, d.Has field.1 ↔ d'.Has field.1)
      (values : ∀ field ∈ role.fields, Alike field.2 (d.get field.1) (d'.get field.1)) :
      Alike (.read role) d d'
  | list {role : Role} {items items' : List Document} (length : items.length = items'.length)
      (values : ∀ pair ∈ items.zip items', Alike (.read role) pair.1 pair.2) :
      Alike (.list role) (.array items) (.array items')
  | table {role : Role} {d d' : Document} (object : d.IsObject) (object' : d'.IsObject)
      (keys : d.members.keys = d'.members.keys)
      (values : ∀ key ∈ d.members.keys, Alike (.read role) (d.get key) (d'.get key)) :
      Alike (.table role) d d'
  | element {d d' : Document} (filled : d.isBlank = false) (filled' : d'.isBlank = false)
      (value : Alike (.read .type) d d') : Alike .element d d'

/-- The order of the members of an object that is read does not count, nor do members that are not
read. -/
theorem alike_of_perm {role : Role} {before after added : List (String × Document)}
    (unread : ∀ entry ∈ added, entry.1 ∉ role.fields.map Prod.fst)
    (perm : (entriesOf after).entries.Perm ((entriesOf before).entries ++ added)) :
    Use.Alike (.read role) (.object before) (.object after) := by
  have hget : ∀ field ∈ role.fields,
      (Document.object before).get? field.1 = (Document.object after).get? field.1 := by
    intro field hfield
    refine Option.ext fun value => ?_
    show (entriesOf before).get? field.1 = some value ↔ (entriesOf after).get? field.1 = some value
    rw [OrderedMap.get?_eq_some_iff_mem, OrderedMap.get?_eq_some_iff_mem, perm.mem_iff,
      List.mem_append, or_iff_left]
    exact fun hadded => unread _ hadded (List.mem_map_of_mem hfield)
  refine .read trivial trivial (fun field hfield => ?_) (fun field hfield => ?_)
  · rw [Has, Has, hget field hfield]
  · rw [Document.get, Document.get, hget field hfield]
    exact .same ..

/-! ## Values that are loaded alike -/

/-- Two values are loaded alike in a role. -/
def Role.Same : Role → Document → Document → Prop
  | schema, d, d' => Schema.load d = Schema.load d'
  | file, d, d' => Schema.loadFile d = Schema.loadFile d'
  | nativeModule, d, d' => ∀ name, ModuleSpec.load name d = ModuleSpec.load name d'
  | method, d, d' => Method.load d = Method.load d'
  | function, d, d' => ∀ name, Method.loadFunction name d = Method.loadFunction name d'
  | parameter, d, d' => Parameter.load d = Parameter.load d'
  | property, d, d' => Property.load d = Property.load d'
  | type, d, d' => TypeExpr.load d = TypeExpr.load d'

/-- Two values are loaded alike in a use. -/
def Use.Same : Use → Document → Document → Prop
  | kept, d, d' => d = d'
  | read role, d, d' => role.Same d d'
  | list role, d, d' => d = d' ∨
    ∃ items items', d = .array items ∧ d' = .array items' ∧ List.Forall₂ role.Same items items'
  | table role, d, d' => d = d' ∨ d.IsObject ∧ d'.IsObject ∧ d.members.keys = d'.members.keys ∧
    ∀ key ∈ d.members.keys, role.Same (d.get key) (d'.get key)
  | element, d, d' => TypeExpr.loadElement d = TypeExpr.loadElement d'

theorem Role.Same.refl (role : Role) (d : Document) : role.Same d d := by
  cases role with
  | nativeModule => exact fun _ => rfl
  | function => exact fun _ => rfl
  | _ => exact rfl

theorem Use.Same.refl (use : Use) (d : Document) : use.Same d d := by
  cases use with
  | read role => exact Role.Same.refl role d
  | list role => exact .inl rfl
  | table role => exact .inl rfl
  | _ => exact rfl

/-- Two objects have the same fields of a role, and in each the values are loaded alike. -/
structure Role.FieldsSame (role : Role) (d d' : Document) : Prop where
  object : d.IsObject
  object' : d'.IsObject
  has : ∀ field ∈ role.fields, d.Has field.1 ↔ d'.Has field.1
  values : ∀ field ∈ role.fields, field.2.Same (d.get field.1) (d'.get field.1)

section Congruence

variable {α β : Type} {role : Role} {use : Use} {d d' : Document} {key : String}

/-- What follows a field that must be there goes on alike if it does with alike values. -/
theorem required_bind_congr (h : role.FieldsSame d d') (hfield : (key, use) ∈ role.fields)
    {next next' : Document → Except Fault α}
    (hnext : ∀ value value', use.Same value value' → next value = next' value') :
    d.required key >>= next = d'.required key >>= next' := by
  by_cases hhas : d.Has key
  · rw [required_of_has hhas, required_of_has ((h.has _ hfield).1 hhas)]
    exact hnext _ _ (h.values _ hfield)
  · rw [required_of_not_has h.object hhas,
      required_of_not_has h.object' fun hhas' => hhas ((h.has _ hfield).2 hhas')]
    rfl

/-- What follows a field that may be absent goes on alike if it does with alike values, whatever
stands for an absent one. -/
theorem asked_bind_congr (h : role.FieldsSame d d') (hfield : (key, use) ∈ role.fields)
    {next next' : Option Document → Except Fault α}
    (hnext : ∀ found found', (∀ default, use.Same (found.getD default) (found'.getD default)) →
      next found = next' found') :
    d.asked key >>= next = d'.asked key >>= next' := by
  rw [asked_of_isObject h.object, asked_of_isObject h.object']
  refine hnext _ _ fun default => ?_
  have hvalues := h.values _ hfield
  by_cases hhas : d.Has key
  · rwa [hhas.get?, ((h.has _ hfield).1 hhas).get?]
  · rw [get?_eq_none_of_not_has hhas,
      get?_eq_none_of_not_has fun hhas' => hhas ((h.has _ hfield).2 hhas')]
    exact .refl use default

/-- A walk over the items of alike lists gives the same. -/
theorem listed_bind_congr {load : Document → Except Fault α} (h : (Use.list role).Same d d')
    (hload : ∀ item item', role.Same item item' → load item = load item')
    (next : List α → Except Fault β) :
    (d.listed >>= fun items => items.mapM load >>= next) =
      d'.listed >>= fun items => items.mapM load >>= next := by
  obtain rfl | ⟨items, items', rfl, rfl, hitems⟩ := h
  · rfl
  · have hwalk : items.mapM load = items'.mapM load := mapM_eq_mapM (hitems.imp hload)
    rw [listed_of_isList (show (array items).IsList from trivial),
      listed_of_isList (show (array items').IsList from trivial)]
    show items.mapM load >>= next = items'.mapM load >>= next
    rw [hwalk]

theorem entries_eq_map_get (d : Document) :
    d.members.entries = d.members.keys.map fun key => (key, d.get key) := by
  have hentry : ∀ entry ∈ d.members.entries, entry = (entry.1, d.get entry.1) := by
    intro entry hentry
    rw [get_eq_of_get? (OrderedMap.get?_of_mem hentry)]
  rw [OrderedMap.keys, List.map_map]
  exact (List.map_id _).symm.trans (List.map_congr_left hentry)

/-- Loading the entries of alike tables gives the same. -/
theorem loadMembers_congr {load : String → Document → Except Fault α}
    (h : (Use.table role).Same d d')
    (hload : ∀ key value value', role.Same value value' → load key value = load key value') :
    loadMembers load d = loadMembers load d' := by
  obtain rfl | ⟨hobject, hobject', hkeys, hvalues⟩ := h
  · rfl
  · rw [loadMembers_values, loadMembers_values, table_of_isObject hobject,
      table_of_isObject hobject', entries_eq_map_get d, entries_eq_map_get d', ← hkeys]
    refine mapM_eq_mapM ?_
    rw [List.forall₂_map_left_iff, List.forall₂_map_right_iff, List.forall₂_same]
    intro key hkey
    rw [hload key _ _ (hvalues key hkey)]

end Congruence

/-! ## The parts of a schema -/

section Parts

variable {d d' : Document}

theorem loadElement_congr (filled : d.isBlank = false) (filled' : d'.isBlank = false)
    (h : Role.type.Same d d') : TypeExpr.loadElement d = TypeExpr.loadElement d' := by
  have hload : TypeExpr.load d = TypeExpr.load d' := h
  simp only [TypeExpr.loadElement, filled, filled', hload]

theorem load_type_congr (h : Role.type.FieldsSame d d') : TypeExpr.load d = TypeExpr.load d' := by
  rw [TypeExpr.load_values, TypeExpr.load_values]
  refine asked_bind_congr h (.head _) fun element element' helement => ?_
  refine required_bind_congr h (.tail _ (.head _)) fun tag tag' htag => ?_
  refine asked_bind_congr h (.tail _ (.tail _ (.head _))) fun name name' hname => ?_
  refine asked_bind_congr h (.tail _ (.tail _ (.tail _ (.head _)))) fun list list' hlist => ?_
  have helement : TypeExpr.loadElement (element.getD .null) =
      TypeExpr.loadElement (element'.getD .null) := helement .null
  have hname : name.getD .null = name'.getD .null := hname .null
  obtain rfl : tag = tag' := htag
  rw [helement, hname]
  exact listed_bind_congr (hlist _) (fun _ _ hitem => hitem) _

theorem load_property_congr (h : Role.property.FieldsSame d d') :
    Property.load d = Property.load d' := by
  rw [Property.load_values, Property.load_values]
  refine required_bind_congr h (.head _) fun name name' hname => ?_
  refine required_bind_congr h (.tail _ (.head _)) fun shape shape' hshape => ?_
  have hload : TypeExpr.load shape = TypeExpr.load shape' := hshape
  obtain rfl : name = name' := hname
  rw [hload]
  refine bind_congr fun type => ?_
  refine asked_bind_congr h (.tail _ (.tail _ (.head _))) fun optional optional' hoptional => ?_
  have hvalue : optional.getD (.bool false) = optional'.getD (.bool false) := hoptional _
  rw [hvalue]

theorem load_parameter_congr (h : Role.parameter.FieldsSame d d') :
    Parameter.load d = Parameter.load d' := by
  rw [Parameter.load_values, Parameter.load_values]
  refine required_bind_congr h (.head _) fun name name' hname => ?_
  refine required_bind_congr h (.tail _ (.head _)) fun shape shape' hshape => ?_
  have hload : TypeExpr.load shape = TypeExpr.load shape' := hshape
  obtain rfl : name = name' := hname
  rw [hload]

theorem load_function_congr (h : Role.function.FieldsSame d d') (name : Document) :
    Method.loadFunction name d = Method.loadFunction name d' := by
  rw [Method.loadFunction, Method.loadFunction]
  refine required_bind_congr h (.head _) fun params params' hparams => ?_
  -- the result is read after the parameters, and needs nothing of them
  have hrest : ∀ parameters : List Parameter,
      (d.required "returnTypeAnnotation" >>= fun shape =>
        TypeExpr.load shape >>= fun returns => pure (Method.mk name parameters returns)) =
      d'.required "returnTypeAnnotation" >>= fun shape =>
        TypeExpr.load shape >>= fun returns => pure (Method.mk name parameters returns) := by
    intro parameters
    refine required_bind_congr h (.tail _ (.head _)) fun shape shape' hshape => ?_
    have hload : TypeExpr.load shape = TypeExpr.load shape' := hshape
    rw [hload]
  rw [funext hrest]
  exact listed_bind_congr hparams (fun _ _ hitem => hitem) _

theorem load_method_congr (h : Role.method.FieldsSame d d') : Method.load d = Method.load d' := by
  rw [Method.load_values, Method.load_values]
  refine required_bind_congr h (.head _) fun function function' hfunction => ?_
  refine required_bind_congr h (.tail _ (.head _)) fun name name' hname => ?_
  obtain rfl : name = name' := hname
  exact hfunction name

theorem load_nativeModule_congr (h : Role.nativeModule.FieldsSame d d') (name : String) :
    ModuleSpec.load name d = ModuleSpec.load name d' := by
  rw [ModuleSpec.load_values, ModuleSpec.load_values]
  refine asked_bind_congr h (.head _) fun table table' htable => ?_
  rw [loadMembers_congr (htable _) fun _ _ _ hvalue => hvalue]
  refine bind_congr fun aliases => ?_
  refine required_bind_congr h (.tail _ (.head _)) fun list list' hlist => ?_
  exact listed_bind_congr hlist (fun _ _ hitem => hitem) _

theorem loadModules_congr (h : (Use.table .nativeModule).Same d d') :
    Schema.loadModules d = Schema.loadModules d' := by
  have hmembers := loadMembers_congr h fun name _ _ hvalue => hvalue name
  obtain rfl | ⟨hobject, hobject', -⟩ := h
  · rfl
  · rw [loadModules_of_ne_null hobject.ne_null, loadModules_of_ne_null hobject'.ne_null, hmembers]

theorem load_file_congr (h : Role.file.FieldsSame d d') :
    Schema.loadFile d = Schema.loadFile d' := by
  rw [Schema.loadFile_values, Schema.loadFile_values]
  exact asked_bind_congr h (.head _) fun modules modules' hmodules => loadModules_congr (hmodules _)

theorem load_schema_congr (h : Role.schema.FieldsSame d d') : Schema.load d = Schema.load d' := by
  rw [Schema.load_values, Schema.load_values]
  refine required_bind_congr h (.head _) fun modules modules' hmodules => ?_
  rw [loadMembers_congr hmodules fun _ _ _ hvalue => hvalue]

/-- Objects that have alike values in the fields of their role are loaded alike. -/
theorem Role.FieldsSame.same {role : Role} (h : role.FieldsSame d d') : role.Same d d' := by
  cases role with
  | schema => exact load_schema_congr h
  | file => exact load_file_congr h
  | nativeModule => exact load_nativeModule_congr h
  | method => exact load_method_congr h
  | function => exact load_function_congr h
  | parameter => exact load_parameter_congr h
  | property => exact load_property_congr h
  | type => exact load_type_congr h

end Parts

/-- Values that differ in nothing that is read are loaded alike. -/
theorem Use.Alike.same_load {use : Use} {d d' : Document} (h : use.Alike d d') :
    use.Same d d' := by
  induction h with
  | same use d => exact .refl use d
  | read object object' has _ ih => exact Role.FieldsSame.same ⟨object, object', has, ih⟩
  | list length _ ih =>
    exact .inr ⟨_, _, rfl, rfl, List.forall₂_iff_zip.2 ⟨length, fun hpair => ih _ hpair⟩⟩
  | table object object' keys _ ih => exact .inr ⟨object, object', keys, ih⟩
  | element filled filled' _ ih => exact loadElement_congr filled filled' ih

/-! ## Tables of aliases in another order -/

namespace Document

/-- Two objects that differ in one member at most, where the values are related. -/
structure DifferAt (key : String) (related : Document → Document → Prop) (d d' : Document) :
    Prop where
  object : d.IsObject
  object' : d'.IsObject
  others : ∀ other, other ≠ key → d.get? other = d'.get? other
  member : d.get? key = d'.get? key ∨
    ∃ value value', d.get? key = some value ∧ d'.get? key = some value' ∧ related value value'

/-- Two tables with the same keys in the same order, whose values are related. -/
structure TablesRelated (related : Document → Document → Prop) (d d' : Document) : Prop where
  object : d.IsObject
  object' : d'.IsObject
  entries : List.Forall₂ (fun entry entry' => entry.1 = entry'.1 ∧ related entry.2 entry'.2)
    d.members.entries d'.members.entries

/-- Two tables with the same entries, in any order. -/
structure Reordered (d d' : Document) : Prop where
  object : d.IsObject
  object' : d'.IsObject
  perm : d.members.entries.Perm d'.members.entries

/-- Two documents that differ at most in the order of the tables of aliases of their modules. -/
def AliasesShuffled : Document → Document → Prop :=
  DifferAt "modules" <| TablesRelated <|
    DifferAt "nativeModules" <| TablesRelated <| DifferAt "aliases" Reordered

section Shuffled

variable {related : Document → Document → Prop} {d d' : Document} {key : String}

theorem DifferAt.get_of_ne (h : DifferAt key related d d') {other : String} (ne : other ≠ key) :
    d.get other = d'.get other := by
  rw [Document.get, Document.get, h.others other ne]

theorem DifferAt.get_cases (h : DifferAt key related d d') :
    d.get key = d'.get key ∨ related (d.get key) (d'.get key) := by
  rcases h.member with hmember | ⟨value, value', hvalue, hvalue', hrelated⟩
  · left
    rw [Document.get, Document.get, hmember]
  · right
    rwa [get_eq_of_get? hvalue, get_eq_of_get? hvalue']

theorem DifferAt.has_iff (h : DifferAt key related d d') : d.Has key ↔ d'.Has key := by
  rcases h.member with hmember | ⟨value, value', hvalue, hvalue', -⟩
  · rw [Has, Has, hmember]
  · exact iff_of_true ⟨value, hvalue⟩ ⟨value', hvalue'⟩

/-- What the values of related tables pass on. -/
theorem TablesRelated.forall_values {P Q : Document → Prop} (h : TablesRelated related d d')
    (hpass : ∀ value value', P value → related value value' → Q value')
    (hvalues : ∀ entry ∈ d.members.entries, P entry.2) : ∀ entry ∈ d'.members.entries, Q entry.2 :=
  forall_mem_of_forall₂ (P := fun entry : String × Document => P entry.2)
    (fun _ _ hP hentry => hpass _ _ hP hentry.2) h.entries hvalues

/-- Related tables look the same if related values do. -/
theorem TablesRelated.map_eq {α : Type} (h : TablesRelated related d d')
    {look : String → Document → α}
    (hlook : ∀ name value value', related value value' → look name value = look name value') :
    d.members.entries.map (fun entry => (entry.1, look entry.1 entry.2)) =
      d'.members.entries.map fun entry => (entry.1, look entry.1 entry.2) := by
  refine map_eq_map_iff_forall₂.2 (h.entries.imp ?_)
  rintro ⟨name, value⟩ ⟨_, value'⟩ ⟨rfl, hvalue⟩
  rw [hlook name _ _ hvalue]

/-! ### Documents stay well shaped -/

theorem IsModule.of_shuffled (h : d.IsModule) (hdiffer : DifferAt "aliases" Reordered d d') :
    d'.IsModule := by
  have hmethods := hdiffer.get_of_ne (show "properties" ≠ "aliases" by decide)
  refine ⟨fun hhas => ?_, fun entry hentry => ?_, hmethods ▸ h.list, hmethods ▸ h.methods⟩
  · rcases hdiffer.get_cases with hget | hreordered
    · rw [← hget]
      exact h.table (hdiffer.has_iff.2 hhas)
    · exact hreordered.object'
  · rcases hdiffer.get_cases with hget | hreordered
    · rw [← hget] at hentry
      exact h.aliases entry hentry
    · exact h.aliases entry (hreordered.perm.mem_iff.2 hentry)

theorem IsFile.of_shuffled (h : d.IsFile)
    (hdiffer : DifferAt "nativeModules" (TablesRelated (DifferAt "aliases" Reordered)) d d') :
    d'.IsFile := by
  rcases hdiffer.get_cases with hget | htables
  · exact ⟨hdiffer.object', hget ▸ h.declared, hget ▸ h.modules⟩
  · exact ⟨hdiffer.object', .inr htables.object',
      htables.forall_values (fun _ _ => IsModule.of_shuffled) h.modules⟩

theorem IsSchema.of_shuffled (h : d.IsSchema) (hdiffer : AliasesShuffled d d') : d'.IsSchema := by
  rcases hdiffer.get_cases with hget | htables
  · exact ⟨hget ▸ h.object, hget ▸ h.files⟩
  · exact ⟨htables.object', htables.forall_values (fun _ _ => IsFile.of_shuffled) h.files⟩

/-! ### What is seen of the modules stays the same -/

/-- The order of its aliases does not show in a module. -/
theorem skeleton_of_shuffled (name : String) (h : DifferAt "aliases" Reordered d d') :
    (d.moduleOutline name).skeleton = (d'.moduleOutline name).skeleton := by
  have hmethods := h.get_of_ne (show "properties" ≠ "aliases" by decide)
  have hfind : d.aliasHeads.get? = d'.aliasHeads.get? := by
    funext key
    rw [aliasHeads, aliasHeads, OrderedMap.get?_mapEntries, OrderedMap.get?_mapEntries]
    rcases h.get_cases with hget | hreordered
    · rw [hget]
    · rw [OrderedMap.get?_eq_of_perm hreordered.perm]
  have hparameter :
      Outline.Parameter.skeleton d.aliasHeads = Outline.Parameter.skeleton d'.aliasHeads := by
    funext p
    simp only [Outline.Parameter.skeleton, hfind]
  have hmethod : Outline.Method.skeleton d.aliasHeads = Outline.Method.skeleton d'.aliasHeads := by
    funext m
    simp only [Outline.Method.skeleton, hparameter, hfind]
  simp only [Outline.Module.skeleton, moduleOutline, hmethods, hmethod]

/-- The modules of a source file, each with its name and with what is seen of it. -/
def fileSkeletons (file : Document) : List (String × List Skeleton.Method) :=
  (file.get "nativeModules").members.entries.map fun entry =>
    (entry.1, (entry.2.moduleOutline entry.1).skeleton)

theorem fileSkeletons_of_shuffled
    (h : DifferAt "nativeModules" (TablesRelated (DifferAt "aliases" Reordered)) d d') :
    d.fileSkeletons = d'.fileSkeletons := by
  rw [fileSkeletons, fileSkeletons]
  rcases h.get_cases with hget | htables
  · rw [hget]
  · exact htables.map_eq (fun name _ _ => skeleton_of_shuffled name)

/-- The modules that stay, each with its name and with what is seen of it, come from the skeletons
of the source files. -/
theorem outline_map_skeleton (d : Document) :
    d.outline.map (fun m => (m.name, m.skeleton)) =
      (OrderedMap.ofList (((d.get "modules").members.entries.map fun entry =>
        (entry.1, entry.2.fileSkeletons)).flatMap Prod.snd)).entries := by
  have hmodules : d.nativeModules.map
        (fun entry => (entry.1, (entry.2.moduleOutline entry.1).skeleton)) =
      ((d.get "modules").members.entries.map fun entry =>
        (entry.1, entry.2.fileSkeletons)).flatMap Prod.snd := by
    rw [nativeModules, OrderedMap.values, List.map_flatMap, List.flatMap_map, List.flatMap_map]
    rfl
  rw [← hmodules,
    ← OrderedMap.mapEntries_ofList fun name entry => (moduleOutline name entry).skeleton, outline,
    List.map_map]
  rfl

theorem outline_of_shuffled (h : AliasesShuffled d d') :
    d.outline.map (fun m => (m.name, m.skeleton)) =
      d'.outline.map fun m => (m.name, m.skeleton) := by
  rw [outline_map_skeleton, outline_map_skeleton]
  -- two levels of tables below the document, the files look the same
  rcases h.get_cases with hget | htables
  · rw [hget]
  · rw [htables.map_eq fun _ _ _ => fileSkeletons_of_shuffled]

end Shuffled

end Document

/-- What comes of generating depends on the names of the modules and on what is seen of them. -/
theorem result_eq_of_seen {schema schema' : Schema}
    (h : schema.outline.map (fun m => (m.name, m.skeleton)) =
      schema'.outline.map fun m => (m.name, m.skeleton))
    (library moduleSpec : String) :
    (schema.generate library moduleSpec).result = (schema'.generate library moduleSpec).result := by
  simp only [Schema.outline, outlineOf, List.map_map, map_eq_map_iff_forall₂] at h
  refine agree_eq_iff.1 (generate_agrees (fun _ => rfl) (h.imp ?_) ..)
  intro entry entry' hentry
  have hspec := ModuleSpec.skeleton_eq_iff.1 (congrArg Prod.snd hentry)
  exact ⟨congrArg Prod.fst hentry, hspec.imp fun _ _ _ _ => agrees_of_seenAlike⟩

/-! ## What loading does not read -/

/-- Documents are read through named fields: the order of the members of an object that is read, and
members that are not read, make no difference to what is loaded, wherever the object stands, nor to
the fault if loading fails.  And in a document that can be loaded, the order of the tables of
aliases makes no difference to what is generated. -/
theorem loading_reads_named_fields :
    (∀ (role : Role) (before after added : List (String × Document)),
      (∀ entry ∈ added, entry.1 ∉ role.fields.map Prod.fst) →
      (entriesOf after).entries.Perm ((entriesOf before).entries ++ added) →
        Use.Alike (.read role) (.object before) (.object after)) ∧
    (∀ raw raw' : Document, Use.Alike (.read .schema) raw raw' →
      Schema.load raw' = Schema.load raw) ∧
    ∀ (raw raw' : Document) (schema : Schema), Schema.load raw = .ok schema →
      raw.AliasesShuffled raw' →
        ∃ schema', Schema.load raw' = .ok schema' ∧ ∀ library moduleSpec : String,
          (schema'.generate library moduleSpec).result =
            (schema.generate library moduleSpec).result := by
  refine ⟨fun role before after added => alike_of_perm, fun raw raw' h => ?_, ?_⟩
  · have hload : Schema.load raw = Schema.load raw' := h.same_load
    exact hload.symm
  · intro raw raw' schema loaded hshuffled
    have hshape : raw.IsSchema := succeeds_loadSchema_iff.1 ⟨schema, loaded⟩
    obtain ⟨schema', loaded'⟩ := succeeds_loadSchema_iff.2 (hshape.of_shuffled hshuffled)
    refine ⟨schema', loaded', fun library moduleSpec => result_eq_of_seen ?_ library moduleSpec⟩
    rw [outline_of_load loaded, outline_of_load loaded']
    exact (outline_of_shuffled hshuffled).symm

/-- A document of one source file with one module. -/
def singleDocument (entry : Document) : Document :=
  .object [("modules", .object
    [("All.js", .object [("nativeModules", .object [("Shaping", entry)])])])]

/-- The members of an object in reverse order, after one that is not read. -/
def annotated (d : Document) : Document :=
  .object (("comment", .array [.null]) :: d.members.entries.reverse)

theorem perm_annotated {d : Document} (fresh : "comment" ∉ d.members.keys) :
    (entriesOf (("comment", .array [.null]) :: d.members.entries.reverse)).entries.Perm
      (d.members.entries ++ [("comment", .array [.null])]) := by
  rw [entriesOf, OrderedMap.entries_ofList]
  · rw [← List.reverse_concat']
    exact List.reverse_perm _
  · rw [List.map_cons, List.nodup_cons, List.map_reverse, List.mem_reverse, List.nodup_reverse]
    exact ⟨fresh, d.members.nodup⟩

theorem get?_object_singleton (key : String) (value : Document) :
    (Document.object [(key, value)]).get? key = some value :=
  OrderedMap.get?_put_self _ key value

theorem get_object_singleton (key : String) (value : Document) :
    (Document.object [(key, value)]).get key = value :=
  get_eq_of_get? (get?_object_singleton key value)

/-- Changing what stands in the only field. -/
theorem alike_onlyField {role : Role} {use : Use} {key : String} {value value' : Document}
    (only : role.fields = [(key, use)]) (h : use.Alike value value') :
    Use.Alike (.read role) (.object [(key, value)]) (.object [(key, value')]) := by
  refine .read trivial trivial (fun field hfield => ?_) (fun field hfield => ?_)
  · rw [only, List.mem_singleton] at hfield
    subst hfield
    exact iff_of_true ⟨value, get?_object_singleton ..⟩ ⟨value', get?_object_singleton ..⟩
  · rw [only, List.mem_singleton] at hfield
    subst hfield
    rwa [get_object_singleton, get_object_singleton]

/-- Changing what stands in the only entry. -/
theorem alike_onlyEntry {role : Role} {key : String} {value value' : Document}
    (h : Use.Alike (.read role) value value') :
    Use.Alike (.table role) (.object [(key, value)]) (.object [(key, value')]) := by
  refine .table trivial trivial rfl fun other hother => ?_
  obtain rfl := List.mem_singleton.1 hother
  rwa [get_object_singleton, get_object_singleton]

/-- A change of a module is a change of its document. -/
theorem alike_singleDocument {entry entry' : Document}
    (h : Use.Alike (.read .nativeModule) entry entry') :
    Use.Alike (.read .schema) (singleDocument entry) (singleDocument entry') :=
  alike_onlyField rfl (alike_onlyEntry (alike_onlyField rfl (alike_onlyEntry h)))

/-- Changing the value of one member. -/
theorem differAt_cons {key : String} {related : Document → Document → Prop}
    {value value' : Document} {rest : List (String × Document)} (fresh : key ∉ rest.map Prod.fst)
    (h : related value value') :
    DifferAt key related (.object ((key, value) :: rest)) (.object ((key, value') :: rest)) := by
  have hget : ∀ value other, (Document.object ((key, value) :: rest)).get? other =
      (rest.reverse.lookup other).or ([(key, value)].lookup other) := by
    intro value other
    refine (OrderedMap.get?_ofList ..).trans ?_
    rw [List.reverse_cons, List.lookup_append]
  have hself : ∀ value, (Document.object ((key, value) :: rest)).get? key = some value := by
    intro value
    have habsent : rest.reverse.lookup key = none := by
      refine List.lookup_eq_none_iff.2 fun entry hentry => ?_
      have hne : key ≠ entry.1 := fun e =>
        fresh (List.mem_map.2 ⟨entry, List.mem_reverse.1 hentry, e.symm⟩)
      simpa using hne
    simp [hget, habsent]
  refine ⟨trivial, trivial, fun other ne => ?_, .inr ⟨value, value', hself _, hself _, h⟩⟩
  have hother : (other == key) = false := by simpa using ne
  rw [hget, hget, List.lookup_cons, List.lookup_cons, hother]

theorem tablesRelated_singleton {key : String} {related : Document → Document → Prop}
    {value value' : Document} (h : related value value') :
    TablesRelated related (.object [(key, value)]) (.object [(key, value')]) :=
  ⟨trivial, trivial, .cons ⟨rfl, h⟩ .nil⟩

def shapeAlias : String × Document := ("Shape", .object [("type", .string "ObjectTypeAnnotation")])

def spareAlias : String × Document := ("Spare", .object [("type", .string "VoidTypeAnnotation")])

/-- A module with these aliases. -/
def aliasingModule (aliases : List (String × Document)) : Document :=
  shapingModule aliases (.object [("type", .string "ArrayTypeAnnotation")])

/-- A module may have its members in another order, and one that is not read; and it may have its
aliases in another order. -/
theorem aliasingModule_rearranged :
    Schema.load (singleDocument (annotated (aliasingModule [shapeAlias, spareAlias]))) =
      Schema.load (singleDocument (aliasingModule [shapeAlias, spareAlias])) ∧
    ∃ schema schema',
      Schema.load (singleDocument (aliasingModule [shapeAlias, spareAlias])) = .ok schema ∧
      Schema.load (singleDocument (aliasingModule [spareAlias, shapeAlias])) = .ok schema' ∧
        (schema'.generate "library" "specification").result =
          (schema.generate "library" "specification").result := by
  obtain ⟨hperm, hload, hshuffled⟩ := loading_reads_named_fields
  constructor
  · refine hload _ _ (alike_singleDocument (hperm _ _ _ _ ?_ (perm_annotated ?_)))
    · decide
    · decide
  · have hentries : ∀ first second : String × Document, first.1 ≠ second.1 →
        (entriesOf [first, second]).entries = [first, second] := fun first second ne =>
      OrderedMap.entries_ofList (by simpa using ne)
    have hreordered :
        Reordered (.object [shapeAlias, spareAlias]) (.object [spareAlias, shapeAlias]) := by
      refine ⟨trivial, trivial, ?_⟩
      show (entriesOf _).entries.Perm (entriesOf _).entries
      rw [hentries _ _ (by decide), hentries _ _ (by decide)]
      exact .swap ..
    have hdocument : AliasesShuffled (singleDocument (aliasingModule [shapeAlias, spareAlias]))
        (singleDocument (aliasingModule [spareAlias, shapeAlias])) :=
      differAt_cons nofun <| tablesRelated_singleton <| differAt_cons nofun <|
        tablesRelated_singleton <| differAt_cons (by decide) hreordered
    obtain ⟨schema, hschema⟩ := succeeds_iff_isOk.2 (show
      (Schema.load (singleDocument (aliasingModule [shapeAlias, spareAlias]))).isOk = true by
        decide +kernel)
    obtain ⟨schema', hschema', hresult⟩ := hshuffled _ _ schema hschema hdocument
    exact ⟨schema, schema', hschema, hschema', hresult _ _⟩

end NativeHeader
