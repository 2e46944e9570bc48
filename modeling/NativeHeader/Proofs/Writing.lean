import NativeHeader.Header
import NativeHeader.Proofs.Loading

/-!
# Writing a schema as a document

A schema is written as a document field by field (`Schema.document`).  All that a loaded schema
keeps is written, at every depth: names, tags and flags as the values that they are, properties,
parameters and methods in order, and the tables and maps in the order of their keys.  So loading
what is written gives the schema back (`load_document` at each level).

A document need not be what its schema is written as: fields that are not read are dropped, defaults
are spelled out, and an element type that says nothing vanishes.  To normalise a document is to load
it and to write what is loaded.  This can be done once (`loading_undoes_writing`).
-/

namespace NativeHeader

open Document

/-! ## Written forms -/

mutual

/-- A type expression as a document.  An element type is written only if there is one. -/
def TypeExpr.document : TypeExpr → Document
  | ⟨tag, name, properties, elementType⟩ =>
    .object
      ([("type", tag), ("name", name), ("properties", .array (propertyDocuments properties))] ++
        elementMembers elementType)

def propertyDocuments : List (Property TypeExpr) → List Document
  | [] => []
  | property :: rest => propertyDocument property :: propertyDocuments rest

def propertyDocument : Property TypeExpr → Document
  | ⟨name, type, optional⟩ =>
    .object [("name", name), ("typeAnnotation", type.document), ("optional", optional)]

def elementMembers : Option TypeExpr → List (String × Document)
  | none => []
  | some type => [("elementType", type.document)]

end

def Parameter.document (p : Parameter) : Document :=
  .object [("name", p.name), ("typeAnnotation", p.type.document)]

def Method.document (m : Method) : Document :=
  .object
    [("name", m.name),
      ("typeAnnotation", .object
        [("params", .array (m.parameters.map Parameter.document)),
          ("returnTypeAnnotation", m.returns.document)])]

/-- A map as an object, with its keys in order. -/
def OrderedMap.document {α : Type} (write : α → Document) (m : OrderedMap α) : Document :=
  .object (m.mapEntries fun _ value => write value).entries

def ModuleSpec.document (spec : ModuleSpec) : Document :=
  .object
    [("aliases", spec.aliases.document TypeExpr.document),
      ("properties", .array (spec.methods.map Method.document))]

/-- The modules of a source file, or null if it declares none. -/
def Schema.modulesDocument : Option (OrderedMap ModuleSpec) → Document
  | none => .null
  | some modules => modules.document ModuleSpec.document

def Schema.fileDocument (file : Option (OrderedMap ModuleSpec)) : Document :=
  .object [("nativeModules", modulesDocument file)]

/-- The written form of a schema. -/
def Schema.document (schema : Schema) : Document :=
  .object [("modules", schema.modules.document Schema.fileDocument)]

/-! ## Reading what is written -/

section Reading

variable {α : Type} {d value : Document} {key : String}

theorem exists_field (h : d.get? key = some value) :
    ∃ part, d.field key = .ok part ∧ part.1 = value := by
  obtain ⟨part, hpart⟩ := succeeds_field_iff.2 ⟨value, h⟩
  exact ⟨part, hpart, Option.some.inj ((field_ok hpart).symm.trans h)⟩

theorem exists_optionalField (h : d.IsObject) (key : String) :
    ∃ found, d.optionalField key = .ok found ∧ found.map Subtype.val = d.get? key := by
  obtain ⟨found, hfound⟩ := (succeeds_optionalField_iff key).2 h
  exact ⟨found, hfound, (optionalField_ok hfound).2⟩

theorem exists_records {items : List Document} (h : d = .array items) :
    ∃ parts, d.records = .ok parts ∧ parts.map Subtype.val = items := by
  subst h
  obtain ⟨parts, hparts⟩ := succeeds_records_iff.2 (show (array items).IsList from trivial)
  exact ⟨parts, hparts, (records_ok hparts).2⟩

theorem exists_optionalRecords {items : List Document} (h : d.get? key = some (.array items)) :
    ∃ parts, d.optionalRecords key = .ok parts ∧ parts.map Subtype.val = items := by
  have hget : d.get key = .array items := get_eq_of_get? h
  obtain ⟨parts, hparts⟩ := succeeds_optionalRecords (Has.isObject ⟨_, h⟩) fun _ => by
    rw [hget]
    trivial
  refine ⟨parts, hparts, ?_⟩
  rw [(optionalRecords_ok hparts).2, hget]
  rfl

/-- Going through the parts of a document is going through the documents that they are. -/
theorem mapM_parts {parts : List d.Part} {items : List Document}
    (h : parts.map Subtype.val = items) (load : Document → Except Fault α) :
    parts.mapM (fun part => load part.1) = items.mapM load := by
  rw [← h, List.mapM_map]
  rfl

theorem mapM_map_eq_ok {β : Type} {write : α → β} {load : β → Except Fault α} {xs : List α}
    (h : ∀ x ∈ xs, load (write x) = .ok x) : (xs.map write).mapM load = .ok xs :=
  mapM_eq_ok_iff.2 (List.forall₂_map_left_iff.2 (List.forall₂_same.2 h))

end Reading

/-! ## Type expressions -/

/-- Loading a type expression whose fields are all there. -/
theorem loadTypeExpr_of_fields {raw tag : Document} {items : List Document}
    {properties : List (Property TypeExpr)} {elementType : Option TypeExpr}
    (htag : raw.get? "type" = some tag) (hlist : raw.get? "properties" = some (.array items))
    (hproperties : items.mapM Property.load = .ok properties)
    (helement : TypeExpr.loadElement (raw.get "elementType") = .ok elementType) :
    TypeExpr.load raw = .ok { tag, name := raw.get "name", properties, elementType } := by
  have hobject : raw.IsObject := Has.isObject ⟨_, htag⟩
  obtain ⟨element, hfound, hvalue⟩ := exists_optionalField hobject "elementType"
  obtain ⟨part, hpart, rfl⟩ := exists_field htag
  obtain ⟨name, hname, hnamed⟩ := exists_optionalField hobject "name"
  obtain ⟨parts, hparts, hitems⟩ := exists_optionalRecords hlist
  simp only [TypeExpr.load_eq, bind_eq_ok_iff]
  refine ⟨element, hfound, part, hpart, name, hname, parts, hparts, properties, ?_, elementType, ?_,
    ?_⟩
  · rw [mapM_parts hitems, hproperties]
  · rw [hvalue]
    exact helement
  · rw [hnamed]
    rfl

/-- Loading a property whose fields are all there. -/
theorem loadProperty_of_fields {raw name shape : Document} {type : TypeExpr}
    (hname : raw.get? "name" = some name) (hshape : raw.get? "typeAnnotation" = some shape)
    (htype : TypeExpr.load shape = .ok type) :
    Property.load raw =
      .ok { name, type, optional := (raw.get? "optional").getD (.bool false) } := by
  obtain ⟨part, hpart, rfl⟩ := exists_field hname
  obtain ⟨inner, hinner, rfl⟩ := exists_field hshape
  obtain ⟨optional, hoptional, hvalue⟩ := exists_optionalField (Has.isObject ⟨_, hname⟩) "optional"
  simp only [Property.load, bind_eq_ok_iff]
  refine ⟨part, hpart, inner, hinner, type, htype, optional, hoptional, ?_⟩
  rw [← hvalue]
  rfl

theorem get_elementType_document (expr : TypeExpr) :
    expr.document.get "elementType" =
      (expr.elementType.map TypeExpr.document).getD .null := by
  obtain ⟨tag, name, properties, elementType⟩ := expr
  cases elementType <;> rfl

/-- What a type expression is written as says something. -/
theorem isBlank_document (expr : TypeExpr) : expr.document.isBlank = false := by
  cases expr
  rfl

mutual

/-- A type expression is loaded from its written form. -/
theorem TypeExpr.load_document : (expr : TypeExpr) → TypeExpr.load expr.document = .ok expr
  | ⟨tag, name, properties, elementType⟩ => by
    have hproperties := load_propertyDocuments properties
    have helement := loadElement_document elementType
    rw [← get_elementType_document ⟨tag, name, properties, elementType⟩] at helement
    cases elementType <;> exact loadTypeExpr_of_fields rfl rfl hproperties helement

theorem load_propertyDocuments : (properties : List (Property TypeExpr)) →
    (propertyDocuments properties).mapM Property.load = .ok properties
  | [] => rfl
  | property :: rest => by
    rw [propertyDocuments, List.mapM_cons, load_propertyDocument property,
      load_propertyDocuments rest]
    rfl

theorem load_propertyDocument : (property : Property TypeExpr) →
    Property.load (propertyDocument property) = .ok property
  | ⟨_, type, _⟩ => loadProperty_of_fields rfl rfl (TypeExpr.load_document type)

theorem loadElement_document : (elementType : Option TypeExpr) →
    TypeExpr.loadElement ((elementType.map TypeExpr.document).getD .null) = .ok elementType
  | none => rfl
  | some type => by
    rw [Option.map_some, Option.getD_some, TypeExpr.loadElement, isBlank_document,
      TypeExpr.load_document type]
    rfl

end

/-! ## Parameters and methods -/

theorem Parameter.load_document (p : Parameter) : Parameter.load p.document = .ok p := by
  obtain ⟨name, hname, hvalue⟩ := exists_field (show p.document.get? "name" = some p.name from rfl)
  obtain ⟨shape, hshape, hwritten⟩ :=
    exists_field (show p.document.get? "typeAnnotation" = some p.type.document from rfl)
  simp only [Parameter.load, bind_eq_ok_iff]
  refine ⟨name, hname, shape, hshape, p.type, ?_, ?_⟩
  · rw [hwritten, TypeExpr.load_document]
  · rw [hvalue]
    rfl

/-- Loading a method whose fields are all there. -/
theorem loadMethod_of_fields {raw function name shape : Document} {items : List Document}
    {parameters : List Parameter} {returns : TypeExpr}
    (hfunction : raw.get? "typeAnnotation" = some function) (hname : raw.get? "name" = some name)
    (hlist : function.get? "params" = some (.array items))
    (hshape : function.get? "returnTypeAnnotation" = some shape)
    (hparameters : items.mapM Parameter.load = .ok parameters)
    (hreturns : TypeExpr.load shape = .ok returns) :
    Method.load raw = .ok { name, parameters, returns } := by
  obtain ⟨outer, houter, rfl⟩ := exists_field hfunction
  obtain ⟨part, hpart, rfl⟩ := exists_field hname
  obtain ⟨params, hparams, hvalue⟩ := exists_field hlist
  obtain ⟨parts, hparts, hitems⟩ := exists_records hvalue
  obtain ⟨inner, hinner, rfl⟩ := exists_field hshape
  simp only [Method.load, bind_eq_ok_iff]
  refine ⟨outer, houter, part, hpart, params, hparams, parts, hparts, parameters, ?_, inner, hinner,
    returns, hreturns, rfl⟩
  rw [mapM_parts hitems, hparameters]

theorem Method.load_document (m : Method) : Method.load m.document = .ok m :=
  loadMethod_of_fields rfl rfl rfl rfl (mapM_map_eq_ok fun p _ => p.load_document)
    m.returns.load_document

/-! ## Modules and files -/

theorem members_document {α : Type} (write : α → Document) (m : OrderedMap α) :
    (m.document write).members = m.mapEntries fun _ => write :=
  OrderedMap.ofList_entries _

/-- A map of things that are loaded from their written forms, each under its key. -/
theorem loadMembers_document {α : Type} {load : String → Document → Except Fault α}
    {write : α → Document} {m : OrderedMap α}
    (h : ∀ entry ∈ m.entries, load entry.1 (write entry.2) = .ok entry.2) :
    loadMembers load (m.document write) = .ok m.entries := by
  obtain ⟨parts, hparts⟩ :=
    succeeds_entries_iff.2 (show (m.document write).IsObject from trivial)
  have hmembers : parts.map (fun part => (part.1, part.2.1)) =
      m.entries.map fun entry => (entry.1, write entry.2) := by
    rw [(entries_ok hparts).2, members_document]
    rfl
  calc loadMembers load (m.document write)
    _ = parts.mapM fun part => do return (part.1, ← load part.1 part.2.1) := by
      rw [loadMembers, hparts]
      rfl
    _ = (parts.map fun part => (part.1, part.2.1)).mapM
          fun entry => do return (entry.1, ← load entry.1 entry.2) := by
      rw [List.mapM_map]
      rfl
    _ = .ok m.entries := by
      rw [hmembers]
      refine mapM_map_eq_ok fun entry hentry => ?_
      rw [h entry hentry]
      rfl

/-- Loading a module whose fields are all there. -/
theorem loadModuleSpec_of_fields {name : String} {raw table : Document} {items : List Document}
    {aliases : AliasTable} {methods : List Method} (htable : raw.get? "aliases" = some table)
    (hlist : raw.get? "properties" = some (.array items))
    (haliases : loadMembers (fun _ => TypeExpr.load) table = .ok aliases.entries)
    (hmethods : items.mapM Method.load = .ok methods) :
    ModuleSpec.load name raw = .ok { name, aliases, methods } := by
  obtain ⟨found, hfound, hvalue⟩ := exists_optionalField (Has.isObject ⟨_, htable⟩) "aliases"
  obtain ⟨properties, hproperties, hwritten⟩ := exists_field hlist
  obtain ⟨parts, hparts, hitems⟩ := exists_records hwritten
  simp only [ModuleSpec.load_eq, bind_eq_ok_iff]
  refine ⟨found, hfound, aliases, ?_, properties, hproperties, parts, hparts, methods, ?_, rfl⟩
  · rw [hvalue, htable, AliasTable.loadOptional, AliasTable.load_eq, map_eq_ok_iff]
    exact ⟨aliases.entries, haliases, OrderedMap.ofList_entries aliases⟩
  · rw [mapM_parts hitems, hmethods]

/-- A module is loaded from its written form, if it stands under its own name. -/
theorem ModuleSpec.load_document (spec : ModuleSpec) :
    ModuleSpec.load spec.name spec.document = .ok spec :=
  loadModuleSpec_of_fields rfl rfl (loadMembers_document fun entry _ => entry.2.load_document)
    (mapM_map_eq_ok fun m _ => m.load_document)

/-- A source file is loaded from its written form, if its modules stand under their own names. -/
theorem loadFile_fileDocument {file : Option (OrderedMap ModuleSpec)}
    (h : ∀ entry ∈ Schema.declared file, entry.2.name = entry.1) :
    Schema.loadFile (Schema.fileDocument file) = .ok file := by
  obtain ⟨found, hfound, hvalue⟩ := exists_optionalField
    (show (Schema.fileDocument file).IsObject from trivial) "nativeModules"
  have hget : (Schema.fileDocument file).get? "nativeModules" =
      some (Schema.modulesDocument file) := rfl
  rw [Schema.loadFile_eq, hfound]
  show Schema.loadModules ((found.map Subtype.val).getD .null) = .ok file
  rw [hvalue, hget, Option.getD_some]
  cases file with
  | none => rfl
  | some modules =>
    refine map_eq_ok_iff.2 ⟨modules.entries, loadMembers_document fun entry hentry => ?_, ?_⟩
    · rw [← h entry hentry]
      exact entry.2.load_document
    · rw [OrderedMap.ofList_entries]

/-! ## Schemas -/

/-- A schema whose modules stand under their own names is loaded from its written form. -/
theorem Schema.load_document {schema : Schema}
    (h : ∀ file ∈ schema.modules.values, ∀ entry ∈ declared file, entry.2.name = entry.1) :
    Schema.load schema.document = .ok schema := by
  obtain ⟨files, hfiles, hwritten⟩ :=
    exists_field (show schema.document.get? "modules" =
      some (schema.modules.document fileDocument) from rfl)
  rw [Schema.load_eq, hfiles]
  refine map_eq_ok_iff.2 ⟨schema.modules.entries, ?_, ?_⟩
  · rw [hwritten]
    refine loadMembers_document fun entry hentry => ?_
    exact loadFile_fileDocument (h entry.2 (List.mem_map_of_mem hentry))
  · rw [OrderedMap.ofList_entries]

namespace Document

/-- The document that a loaded schema is written as. -/
def normalise (d : Document) : Except Fault Document := Schema.document <$> Schema.load d

/-- Generates the header of the schema that a document describes. -/
def generate (d : Document) (library moduleSpec : String) : Traced (OrderedMap String) :=
  Traced.of (Schema.load d) >>= fun schema => schema.generate library moduleSpec

theorem normalise_of_load {d : Document} {schema : Schema} (h : Schema.load d = .ok schema) :
    d.normalise = .ok schema.document := by
  rw [normalise, h]
  rfl

end Document

/-- A loaded schema is loaded again from its written form, and nothing of it is lost.  So it makes
no difference whether a document is written anew once or twice, and a document that is written anew
has the header that it had, or the fault. -/
theorem loading_undoes_writing (raw : Document) :
    (∀ schema, Schema.load raw = .ok schema → Schema.load schema.document = .ok schema) ∧
      (raw.normalise >>= Document.normalise) = raw.normalise ∧
        ∀ library moduleSpec : String,
          (Traced.of raw.normalise >>= fun written => written.generate library moduleSpec) =
            raw.generate library moduleSpec := by
  have hload : ∀ schema, Schema.load raw = .ok schema → Schema.load schema.document = .ok schema :=
    fun schema h => Schema.load_document (name_of_load h)
  refine ⟨hload, ?_, fun library moduleSpec => ?_⟩
  · cases h : Schema.load raw with
    | error fault =>
      rw [Document.normalise, h]
      rfl
    | ok schema =>
      rw [normalise_of_load h]
      exact normalise_of_load (hload schema h)
  · cases h : Schema.load raw with
    | error fault =>
      rw [Document.normalise, Document.generate, h]
      rfl
    | ok schema =>
      rw [normalise_of_load h, Document.generate, h]
      show schema.document.generate library moduleSpec = _
      rw [Document.generate, hload schema h]

/-- An object shape as it may stand in a document: with a field that is not read, an element type
that says nothing, and properties that lack fields. -/
def looseShape : Document :=
  .object
    [("elementType", .object []), ("comment", .integer (.ofDigit 1)),
      ("type", .string "ObjectTypeAnnotation"),
      ("properties", .array
        [.object
          [("optional", .null),
            ("typeAnnotation", .object
              [("type", .string "ArrayTypeAnnotation"),
                ("elementType", .object [("type", .string "StringTypeAnnotation")])]),
            ("name", .string "tags")],
          .object
            [("name", .integer (.ofDigit 3)),
              ("typeAnnotation", .object [("type", .null), ("properties", .string "")])]])]

def looseType : TypeExpr where
  tag := .string "ObjectTypeAnnotation"
  name := .null
  properties :=
    [{ name := .string "tags"
       type := ⟨.string "ArrayTypeAnnotation", .null, [],
         some ⟨.string "StringTypeAnnotation", .null, [], none⟩⟩
       optional := .null },
     { name := .integer (.ofDigit 3), type := ⟨.null, .null, [], none⟩,
       optional := .bool false }]
  elementType := none

/-- A schema of three source files.  The first is written twice, so that its later members count at
the earlier place; the others have no modules. -/
def looseDocument : Document :=
  .object
    [("modules", .object
      [("store", .integer (.ofDigit 3)), ("empty", .object []),
        ("store", .object
          [("nativeModules", .object
            [("Store", .object
              [("properties", .array
                [.object
                  [("name", .string "tag"),
                    ("typeAnnotation", .object
                      [("returnTypeAnnotation", looseShape),
                        ("params", .array
                          [.object [("name", .string "x"), ("typeAnnotation", looseShape)]])])]]),
                ("aliases", .object [("Tags", looseShape)])])])]),
        ("silent", .object [("nativeModules", .null)])])]

def looseSchema : Schema where
  modules := .ofList
    [("store", some (.ofList
      [("Store",
        { name := "Store"
          aliases := .ofList [("Tags", looseType)]
          methods :=
            [{ name := .string "tag"
               parameters := [{ name := .string "x", type := looseType }]
               returns := looseType }] })])),
      ("empty", none), ("silent", none)]

theorem looseDocument_is_rewritten :
    Schema.load looseDocument = .ok looseSchema ∧
      Schema.load looseSchema.document = .ok looseSchema := by
  have hload : Schema.load looseDocument = .ok looseSchema := by with_unfolding_all rfl
  exact ⟨hload, (loading_undoes_writing looseDocument).1 looseSchema hload⟩

end NativeHeader
