import NativeHeader.Proofs.Access
import NativeHeader.Schema.Load

/-!
# Well-shaped documents

Which documents can be loaded as a schema.  The shapes follow the parts of a schema: type expression
(`IsTypeExpr`), parameter or property (`IsNamed`), method, module, file and schema.  They speak of
the document alone, and they are exact: each part is loaded exactly if it has its shape, up to
`succeeds_loadSchema_iff`.  A member that is absent is read as null, which has none of the shapes.
-/

namespace NativeHeader

namespace Document

/-- A type expression has a tag; its properties, if any, are a list of named type expressions; and
its element type, unless it says nothing, is a type expression. -/
inductive IsTypeExpr : Document → Prop
  | intro {d : Document} (tag : d.Has "type")
      (list : d.Has "properties" → (d.get "properties").IsList)
      (names : ∀ item ∈ (d.get "properties").items, item.Has "name")
      (types : ∀ item ∈ (d.get "properties").items, IsTypeExpr (item.get "typeAnnotation"))
      (element : (d.get "elementType").isBlank = false → IsTypeExpr (d.get "elementType")) :
      IsTypeExpr d

/-- A parameter of a method. -/
structure IsNamed (d : Document) : Prop where
  name : d.Has "name"
  type : (d.get "typeAnnotation").IsTypeExpr

/-- A method has a name and a function type with a result and a list of parameters. -/
structure IsMethod (d : Document) : Prop where
  name : d.Has "name"
  returns : ((d.get "typeAnnotation").get "returnTypeAnnotation").IsTypeExpr
  list : ((d.get "typeAnnotation").get "params").IsList
  parameters : ∀ item ∈ ((d.get "typeAnnotation").get "params").items, item.IsNamed

/-- A module has a list of methods, and it may have an object of aliases. -/
structure IsModule (d : Document) : Prop where
  table : d.Has "aliases" → (d.get "aliases").IsObject
  aliases : ∀ entry ∈ (d.get "aliases").members.entries, entry.2.IsTypeExpr
  list : (d.get "properties").IsList
  methods : ∀ item ∈ (d.get "properties").items, item.IsMethod

/-- A source file may have an object of modules. -/
structure IsFile (d : Document) : Prop where
  object : d.IsObject
  declared : d.get "nativeModules" = null ∨ (d.get "nativeModules").IsObject
  modules : ∀ entry ∈ (d.get "nativeModules").members.entries, entry.2.IsModule

/-- A schema is an object of source files. -/
structure IsSchema (d : Document) : Prop where
  object : (d.get "modules").IsObject
  files : ∀ entry ∈ (d.get "modules").members.entries, entry.2.IsFile

theorem IsTypeExpr.has_tag {d : Document} (h : d.IsTypeExpr) : d.Has "type" := by
  cases h
  assumption

theorem IsTypeExpr.has {d : Document} {key : String} (h : (d.get key).IsTypeExpr) : d.Has key :=
  has_of_get_ne_null h.has_tag.ne_null

end Document

open Document

/-! ## Loading type expressions -/

/-- Loads a property of an object shape. -/
def Property.load (raw : Document) : Except Fault (Property TypeExpr) := do
  let name ← raw.field "name"
  let shape ← raw.field "typeAnnotation"
  let type ← TypeExpr.load shape.1
  let optional ← raw.optionalField "optional"
  return { name := name.1, type, optional := (optional.map (·.1)).getD (.bool false) }

/-- Loads an element type, unless it says nothing. -/
def TypeExpr.loadElement (raw : Document) : Except Fault (Option TypeExpr) :=
  if raw.isBlank then pure none else some <$> TypeExpr.load raw

theorem TypeExpr.load_eq (raw : Document) :
    TypeExpr.load raw =
      raw.optionalField "elementType" >>= fun element =>
        raw.field "type" >>= fun tag =>
          raw.optionalField "name" >>= fun name =>
            raw.optionalRecords "properties" >>= fun items =>
              items.mapM (fun item => Property.load item.1) >>= fun properties =>
                TypeExpr.loadElement ((element.map Subtype.val).getD .null) >>= fun elementType =>
                  pure { tag := tag.1, name := (name.map Subtype.val).getD .null, properties,
                         elementType } := by
  rw [TypeExpr.load]
  refine bind_congr fun element => bind_congr fun tag => bind_congr fun name =>
    bind_congr fun items => bind_congr fun properties => ?_
  cases element with
  | none => rfl
  | some part =>
    simp only [TypeExpr.loadElement, Option.map_some, Option.getD_some]
    split <;> rfl

theorem isObject_of_load {raw : Document} {expr : TypeExpr} (h : TypeExpr.load raw = .ok expr) :
    raw.IsObject := by
  rw [TypeExpr.load_eq, bind_eq_ok_iff] at h
  obtain ⟨element, helement, -⟩ := h
  exact (optionalField_ok helement).1

theorem has_of_succeeds_load {d : Document} {key : String}
    (h : Succeeds (TypeExpr.load (d.get key))) : d.Has key := by
  obtain ⟨expr, hexpr⟩ := h
  exact has_of_get_ne_null (isObject_of_load hexpr).ne_null

theorem succeeds_loadProperty_iff {raw : Document} :
    Succeeds (Property.load raw) ↔
      raw.Has "name" ∧ Succeeds (TypeExpr.load (raw.get "typeAnnotation")) := by
  constructor
  · rintro ⟨property, h⟩
    simp only [Property.load, bind_eq_ok_iff] at h
    obtain ⟨name, hname, shape, hshape, type, htype, -⟩ := h
    rw [get_eq_of_get? (field_ok hshape)]
    exact ⟨⟨_, field_ok hname⟩, type, htype⟩
  · rintro ⟨hname, htype⟩
    obtain ⟨shape, hshape⟩ := succeeds_field_iff.2 (has_of_succeeds_load htype)
    rw [get_eq_of_get? (field_ok hshape)] at htype
    obtain ⟨type, htype⟩ := htype
    obtain ⟨name, hname'⟩ := succeeds_field_iff.2 hname
    obtain ⟨optional, hoptional⟩ := (succeeds_optionalField_iff "optional").2 hname.isObject
    simp only [Succeeds, Property.load, bind_eq_ok_iff]
    exact ⟨_, name, hname', shape, hshape, type, htype, optional, hoptional, rfl⟩

theorem succeeds_loadElement_iff {raw : Document} :
    Succeeds (TypeExpr.loadElement raw) ↔
      (raw.isBlank = false → Succeeds (TypeExpr.load raw)) := by
  unfold TypeExpr.loadElement
  split
  · next h => simp [h]
  · next h => simp [h, succeeds_map_iff]

/-- What loading a type expression asks of the document, one level deep. -/
theorem succeeds_load_iff_parts {raw : Document} :
    Succeeds (TypeExpr.load raw) ↔
      raw.Has "type" ∧ (raw.Has "properties" → (raw.get "properties").IsList) ∧
        (∀ item ∈ (raw.get "properties").items, Succeeds (Property.load item)) ∧
        Succeeds (TypeExpr.loadElement (raw.get "elementType")) := by
  rw [TypeExpr.load_eq]
  constructor
  · rintro ⟨expr, h⟩
    simp only [bind_eq_ok_iff] at h
    obtain ⟨element, helement, tag, htag, name, -, items, hitems, properties, hproperties,
      elementType, helementType, -⟩ := h
    obtain ⟨hlist, hmap⟩ := optionalRecords_ok hitems
    refine ⟨⟨_, field_ok htag⟩, hlist, ?_, elementType, ?_⟩
    · rw [← hmap, List.forall_mem_map]
      exact succeeds_mapM_iff.1 ⟨properties, hproperties⟩
    · rw [Document.get, ← (optionalField_ok helement).2]
      exact helementType
  · rintro ⟨htag, hlist, hproperties, helementType⟩
    have hobject := htag.isObject
    obtain ⟨element, helement⟩ := (succeeds_optionalField_iff "elementType").2 hobject
    obtain ⟨tag, htag⟩ := succeeds_field_iff.2 htag
    obtain ⟨name, hname⟩ := (succeeds_optionalField_iff "name").2 hobject
    obtain ⟨items, hitems⟩ := succeeds_optionalRecords hobject hlist
    rw [← (optionalRecords_ok hitems).2, List.forall_mem_map] at hproperties
    obtain ⟨properties, hproperties⟩ := succeeds_mapM_iff.2 hproperties
    rw [Document.get, ← (optionalField_ok helement).2] at helementType
    obtain ⟨elementType, helementType⟩ := helementType
    simp only [Succeeds, bind_eq_ok_iff]
    exact ⟨_, element, helement, tag, htag, name, hname, items, hitems, properties, hproperties,
      elementType, helementType, rfl⟩

theorem isTypeExpr_of_succeeds_load (raw : Document) (h : Succeeds (TypeExpr.load raw)) :
    raw.IsTypeExpr := by
  obtain ⟨htag, hlist, hproperties, helement⟩ := succeeds_load_iff_parts.1 h
  refine .intro htag hlist (fun item hitem => ?_) (fun item hitem => ?_) (fun hblank => ?_)
  · exact (succeeds_loadProperty_iff.1 (hproperties item hitem)).1
  · have htype := (succeeds_loadProperty_iff.1 (hproperties item hitem)).2
    have hitem_lt : sizeOf item < sizeOf raw := sizeOf_lt_of_mem_items_get hitem
    have htype_lt : sizeOf (item.get "typeAnnotation") < sizeOf item :=
      sizeOf_get_lt (has_of_succeeds_load htype)
    exact isTypeExpr_of_succeeds_load _ htype
  · have htype := succeeds_loadElement_iff.1 helement hblank
    have htype_lt : sizeOf (raw.get "elementType") < sizeOf raw :=
      sizeOf_get_lt (has_of_succeeds_load htype)
    exact isTypeExpr_of_succeeds_load _ htype
termination_by sizeOf raw

/-- A type expression is loaded exactly if it is well shaped. -/
theorem succeeds_loadTypeExpr_iff {raw : Document} :
    Succeeds (TypeExpr.load raw) ↔ raw.IsTypeExpr := by
  refine ⟨isTypeExpr_of_succeeds_load raw, fun h => ?_⟩
  induction h with
  | intro tag list names types element ihTypes ihElement =>
    refine succeeds_load_iff_parts.2 ⟨tag, list, fun item hitem => ?_, ?_⟩
    · exact succeeds_loadProperty_iff.2 ⟨names item hitem, ihTypes item hitem⟩
    · exact succeeds_loadElement_iff.2 ihElement

/-! ## Loading what is made of them -/

theorem succeeds_loadParameter_iff {raw : Document} :
    Succeeds (Parameter.load raw) ↔ raw.IsNamed := by
  constructor
  · rintro ⟨p, h⟩
    simp only [Parameter.load, bind_eq_ok_iff] at h
    obtain ⟨name, hname, shape, hshape, type, htype, -⟩ := h
    refine ⟨⟨_, field_ok hname⟩, succeeds_loadTypeExpr_iff.1 ⟨type, ?_⟩⟩
    rw [get_eq_of_get? (field_ok hshape)]
    exact htype
  · rintro ⟨hname, htype⟩
    obtain ⟨name, hname⟩ := succeeds_field_iff.2 hname
    obtain ⟨shape, hshape⟩ := succeeds_field_iff.2 htype.has
    rw [get_eq_of_get? (field_ok hshape), ← succeeds_loadTypeExpr_iff] at htype
    obtain ⟨type, htype⟩ := htype
    simp only [Succeeds, Parameter.load, bind_eq_ok_iff]
    exact ⟨_, name, hname, shape, hshape, type, htype, rfl⟩

theorem succeeds_loadMethod_iff {raw : Document} :
    Succeeds (Method.load raw) ↔ raw.IsMethod := by
  constructor
  · rintro ⟨m, h⟩
    simp only [Method.load, bind_eq_ok_iff] at h
    obtain ⟨function, hfunction, name, hname, params, hparams, items, hitems, parameters,
      hparameters, shape, hshape, returns, hreturns, -⟩ := h
    obtain ⟨hlist, hmap⟩ := records_ok hitems
    have hget : raw.get "typeAnnotation" = function.1 := get_eq_of_get? (field_ok hfunction)
    have hget' : function.1.get "params" = params.1 := get_eq_of_get? (field_ok hparams)
    refine ⟨⟨_, field_ok hname⟩, ?_, ?_, ?_⟩
    · rw [hget, get_eq_of_get? (field_ok hshape)]
      exact succeeds_loadTypeExpr_iff.1 ⟨returns, hreturns⟩
    · rw [hget, hget']
      exact hlist
    · rw [hget, hget', ← hmap, List.forall_mem_map]
      intro item hitem
      exact succeeds_loadParameter_iff.1 (succeeds_mapM_iff.1 ⟨parameters, hparameters⟩ item hitem)
  · rintro ⟨hname, hreturns, hlist, hparameters⟩
    obtain ⟨name, hname⟩ := succeeds_field_iff.2 hname
    obtain ⟨function, hfunction⟩ :=
      succeeds_field_iff.2 (has_of_get_ne_null hreturns.has.ne_null)
    have hget : raw.get "typeAnnotation" = function.1 := get_eq_of_get? (field_ok hfunction)
    rw [hget] at hreturns hlist hparameters
    obtain ⟨params, hparams⟩ := succeeds_field_iff.2 (has_of_get_ne_null hlist.ne_null)
    rw [get_eq_of_get? (field_ok hparams)] at hlist hparameters
    obtain ⟨items, hitems⟩ := succeeds_records_iff.2 hlist
    rw [← (records_ok hitems).2, List.forall_mem_map] at hparameters
    obtain ⟨parameters, hparameters⟩ := succeeds_mapM_iff.2 fun item hitem =>
      succeeds_loadParameter_iff.2 (hparameters item hitem)
    obtain ⟨shape, hshape⟩ := succeeds_field_iff.2 hreturns.has
    rw [get_eq_of_get? (field_ok hshape), ← succeeds_loadTypeExpr_iff] at hreturns
    obtain ⟨returns, hreturns⟩ := hreturns
    simp only [Succeeds, Method.load, bind_eq_ok_iff]
    exact ⟨_, function, hfunction, name, hname, params, hparams, items, hitems, parameters,
      hparameters, shape, hshape, returns, hreturns, rfl⟩

/-! ## Loading the members of an object -/

/-- Loads the members of an object, each with its key. -/
def loadMembers {α : Type} (load : String → Document → Except Fault α) (raw : Document) :
    Except Fault (List (String × α)) := do
  (← raw.entries).mapM fun entry => return (entry.1, ← load entry.1 entry.2.1)

theorem succeeds_loadMembers_iff {α : Type} {load : String → Document → Except Fault α}
    {raw : Document} :
    Succeeds (loadMembers load raw) ↔
      raw.IsObject ∧ ∀ entry ∈ raw.members.entries, Succeeds (load entry.1 entry.2) := by
  have hwalk : ∀ parts, raw.entries = .ok parts →
      (Succeeds (parts.mapM fun entry => do return (entry.1, ← load entry.1 entry.2.1)) ↔
        ∀ entry ∈ raw.members.entries, Succeeds (load entry.1 entry.2)) := by
    intro parts hparts
    rw [← (entries_ok hparts).2, List.forall_mem_map, succeeds_mapM_iff]
    refine forall₂_congr fun entry _ => succeeds_bind_iff.trans ⟨?_, ?_⟩
    · rintro ⟨a, ha, -⟩
      exact ⟨a, ha⟩
    · rintro ⟨a, ha⟩
      exact ⟨a, ha, succeeds_pure _⟩
  rw [loadMembers, succeeds_bind_iff]
  constructor
  · rintro ⟨parts, hparts, h⟩
    exact ⟨(entries_ok hparts).1, (hwalk parts hparts).1 h⟩
  · rintro ⟨hobject, h⟩
    obtain ⟨parts, hparts⟩ := succeeds_entries_iff.2 hobject
    exact ⟨parts, hparts, (hwalk parts hparts).2 h⟩

/-- Loads the aliases of a module, if it has any. -/
def AliasTable.loadOptional : Option Document → Except Fault AliasTable
  | some raw => AliasTable.load raw
  | none => pure .empty

/-- Loads the modules of a source file, if it has any. -/
def Schema.loadModules : Document → Except Fault (Option (OrderedMap ModuleSpec))
  | .null => pure none
  | raw => (fun modules => some (.ofList modules)) <$> loadMembers ModuleSpec.load raw

theorem AliasTable.load_eq (raw : Document) :
    AliasTable.load raw = OrderedMap.ofList <$> loadMembers (fun _ => TypeExpr.load) raw := by
  rw [AliasTable.load, loadMembers, map_eq_pure_bind, bind_assoc]

theorem ModuleSpec.load_eq (name : String) (raw : Document) :
    ModuleSpec.load name raw =
      raw.optionalField "aliases" >>= fun aliases =>
        AliasTable.loadOptional (aliases.map Subtype.val) >>= fun aliases =>
          raw.field "properties" >>= fun properties =>
            properties.1.records >>= fun items =>
              items.mapM (fun item => Method.load item.1) >>= fun methods =>
                pure { name, aliases, methods } := by
  rw [ModuleSpec.load]
  refine bind_congr fun aliases => ?_
  cases aliases <;> rfl

theorem Schema.loadFile_eq (raw : Document) :
    Schema.loadFile raw =
      raw.optionalField "nativeModules" >>= fun modules =>
        Schema.loadModules ((modules.map Subtype.val).getD .null) := by
  rw [Schema.loadFile]
  refine bind_congr fun modules => ?_
  match modules with
  | none => rfl
  | some ⟨.null, _⟩ => rfl
  | some ⟨.object members, h⟩ =>
    simp only [Option.map_some, Option.getD_some, Schema.loadModules, loadMembers,
      map_eq_pure_bind, bind_assoc]
  | some ⟨.bool value, h⟩ => rfl
  | some ⟨.integer value, h⟩ => rfl
  | some ⟨.decimal value, h⟩ => rfl
  | some ⟨.string value, h⟩ => rfl
  | some ⟨.array value, h⟩ => rfl

theorem Schema.load_eq (raw : Document) :
    Schema.load raw =
      raw.field "modules" >>= fun modules =>
        (fun files => { modules := .ofList files }) <$>
          loadMembers (fun _ => Schema.loadFile) modules.1 := by
  rw [Schema.load]
  simp only [loadMembers, map_eq_pure_bind, bind_assoc]

/-! ## Modules, files, and the schema -/

theorem succeeds_loadAliases_iff {raw : Document} :
    Succeeds (AliasTable.load raw) ↔
      raw.IsObject ∧ ∀ entry ∈ raw.members.entries, entry.2.IsTypeExpr := by
  rw [AliasTable.load_eq, succeeds_map_iff, succeeds_loadMembers_iff]
  simp only [succeeds_loadTypeExpr_iff]

theorem succeeds_loadOptional_iff {raw : Document} {key : String} :
    Succeeds (AliasTable.loadOptional (raw.get? key)) ↔
      (raw.Has key → (raw.get key).IsObject) ∧
        ∀ entry ∈ (raw.get key).members.entries, entry.2.IsTypeExpr := by
  cases hget : raw.get? key with
  | none =>
    rw [get_eq_null hget]
    refine iff_of_true (succeeds_pure _) ⟨fun hhas => ?_, fun entry hentry => ?_⟩
    · cases hhas.get?.symm.trans hget
    · cases hentry
  | some aliases =>
    rw [get_eq_of_get? hget, AliasTable.loadOptional, succeeds_loadAliases_iff]
    have hhas : raw.Has key := ⟨aliases, hget⟩
    simp only [hhas, forall_const]

theorem succeeds_loadModuleSpec_iff {name : String} {raw : Document} :
    Succeeds (ModuleSpec.load name raw) ↔ raw.IsModule := by
  rw [ModuleSpec.load_eq]
  constructor
  · rintro ⟨spec, h⟩
    simp only [bind_eq_ok_iff] at h
    obtain ⟨found, hfound, aliases, haliases, properties, hproperties, items, hitems, methods,
      hmethods, -⟩ := h
    rw [(optionalField_ok hfound).2] at haliases
    obtain ⟨htable, haliases⟩ := succeeds_loadOptional_iff.1 ⟨aliases, haliases⟩
    obtain ⟨hlist, hmap⟩ := records_ok hitems
    have hget : raw.get "properties" = properties.1 := get_eq_of_get? (field_ok hproperties)
    refine ⟨htable, haliases, by rw [hget]; exact hlist, ?_⟩
    rw [hget, ← hmap, List.forall_mem_map]
    intro item hitem
    exact succeeds_loadMethod_iff.1 (succeeds_mapM_iff.1 ⟨methods, hmethods⟩ item hitem)
  · rintro ⟨htable, haliases, hlist, hmethods⟩
    have hhas : raw.Has "properties" := has_of_get_ne_null hlist.ne_null
    obtain ⟨found, hfound⟩ := (succeeds_optionalField_iff "aliases").2 hhas.isObject
    obtain ⟨aliases, haliases⟩ := succeeds_loadOptional_iff.2 ⟨htable, haliases⟩
    rw [← (optionalField_ok hfound).2] at haliases
    obtain ⟨properties, hproperties⟩ := succeeds_field_iff.2 hhas
    rw [get_eq_of_get? (field_ok hproperties)] at hlist hmethods
    obtain ⟨items, hitems⟩ := succeeds_records_iff.2 hlist
    rw [← (records_ok hitems).2, List.forall_mem_map] at hmethods
    obtain ⟨methods, hmethods⟩ := succeeds_mapM_iff.2 fun item hitem =>
      succeeds_loadMethod_iff.2 (hmethods item hitem)
    simp only [Succeeds, bind_eq_ok_iff]
    exact ⟨_, found, hfound, aliases, haliases, properties, hproperties, items, hitems, methods,
      hmethods, rfl⟩

theorem loadModules_of_ne_null {raw : Document} (h : raw ≠ .null) :
    Schema.loadModules raw =
      (fun modules => some (.ofList modules)) <$> loadMembers ModuleSpec.load raw := by
  cases raw with
  | null => exact absurd rfl h
  | _ => rfl

theorem succeeds_loadModules_iff {raw : Document} :
    Succeeds (Schema.loadModules raw) ↔
      (raw = .null ∨ raw.IsObject) ∧ ∀ entry ∈ raw.members.entries, entry.2.IsModule := by
  by_cases hnull : raw = .null
  · subst hnull
    exact iff_of_true (succeeds_pure _) ⟨.inl rfl, fun entry hentry => nomatch hentry⟩
  · rw [loadModules_of_ne_null hnull, succeeds_map_iff, succeeds_loadMembers_iff]
    simp only [succeeds_loadModuleSpec_iff, hnull, false_or]

theorem succeeds_loadFile_iff {raw : Document} :
    Succeeds (Schema.loadFile raw) ↔ raw.IsFile := by
  rw [Schema.loadFile_eq, succeeds_bind_iff]
  constructor
  · rintro ⟨found, hfound, h⟩
    obtain ⟨hobject, hget⟩ := optionalField_ok hfound
    rw [hget] at h
    obtain ⟨hdeclared, hmodules⟩ := succeeds_loadModules_iff.1 h
    exact ⟨hobject, hdeclared, hmodules⟩
  · rintro ⟨hobject, hdeclared, hmodules⟩
    obtain ⟨found, hfound⟩ := (succeeds_optionalField_iff "nativeModules").2 hobject
    refine ⟨found, hfound, ?_⟩
    rw [(optionalField_ok hfound).2]
    exact succeeds_loadModules_iff.2 ⟨hdeclared, hmodules⟩

/-- A schema is loaded exactly if the document is well shaped. -/
theorem succeeds_loadSchema_iff {raw : Document} :
    Succeeds (Schema.load raw) ↔ raw.IsSchema := by
  rw [Schema.load_eq, succeeds_bind_iff]
  constructor
  · rintro ⟨modules, hmodules, h⟩
    rw [succeeds_map_iff, succeeds_loadMembers_iff] at h
    have hget : raw.get "modules" = modules.1 := get_eq_of_get? (field_ok hmodules)
    refine ⟨by rw [hget]; exact h.1, ?_⟩
    rw [hget]
    intro entry hentry
    exact succeeds_loadFile_iff.1 (h.2 entry hentry)
  · rintro ⟨hobject, hfiles⟩
    obtain ⟨modules, hmodules⟩ := succeeds_field_iff.2 (has_of_get_ne_null hobject.ne_null)
    rw [get_eq_of_get? (field_ok hmodules)] at hobject hfiles
    refine ⟨modules, hmodules, ?_⟩
    rw [succeeds_map_iff, succeeds_loadMembers_iff]
    exact ⟨hobject, fun entry hentry => succeeds_loadFile_iff.2 (hfiles entry hentry)⟩

end NativeHeader
