import NativeHeader.Proofs.Outline
import NativeHeader.Proofs.Shape

/-!
# The outline of a document

What a loaded schema looks like to the generator can be said of the document alone: the modules are
the ones that stay when the native modules of all source files are put into one map
(`Document.survivors`), and each has the methods, parameters and aliases that stand in it, in order.
Loading keeps all that: `outline_of_load`.
-/

namespace NativeHeader

namespace Document

/-- The head of a type expression. -/
def head (d : Document) : Head := { tag := d.get "type", name := d.get "name" }

def parameterOutline (d : Document) : Outline.Parameter :=
  { name := d.get "name", type := (d.get "typeAnnotation").head }

def methodOutline (d : Document) : Outline.Method :=
  { name := d.get "name"
    returns := ((d.get "typeAnnotation").get "returnTypeAnnotation").head
    parameters := ((d.get "typeAnnotation").get "params").items.map parameterOutline }

/-- The heads of the aliases of a module. -/
def aliasHeads (d : Document) : OrderedMap Head :=
  (d.get "aliases").members.mapEntries fun _ shape => shape.head

def moduleOutline (name : String) (d : Document) : Outline.Module :=
  { name, aliases := d.aliasHeads, methods := (d.get "properties").items.map methodOutline }

/-- The native modules of all source files, in order, under their names. -/
def nativeModules (d : Document) : List (String × Document) :=
  (d.get "modules").members.values.flatMap fun file => (file.get "nativeModules").members.entries

/-- The native modules that stay: a later one of the same name takes the place of the earlier. -/
def survivors (d : Document) : OrderedMap Document := .ofList d.nativeModules

def outline (d : Document) : Outline :=
  d.survivors.entries.map fun entry => entry.2.moduleOutline entry.1

end Document

open Document

/-! ## Type expressions, parameters, and methods -/

theorem getD_optionalField {raw : Document} {key : String} {found : Option raw.Part}
    (h : raw.optionalField key = .ok found) : (found.map Subtype.val).getD .null = raw.get key := by
  rw [(optionalField_ok h).2, Document.get]

theorem head_of_load {raw : Document} {expr : TypeExpr} (h : TypeExpr.load raw = .ok expr) :
    expr.head = raw.head := by
  rw [TypeExpr.load_eq] at h
  simp only [bind_eq_ok_iff] at h
  obtain ⟨element, -, tag, htag, name, hname, items, -, properties, -, elementType, -, h⟩ := h
  obtain rfl := Except.ok.inj h
  rw [TypeExpr.head, Document.head, get_eq_of_get? (field_ok htag), getD_optionalField hname]

theorem outline_of_loadParameter {raw : Document} {p : Parameter} (h : Parameter.load raw = .ok p) :
    p.outline = raw.parameterOutline := by
  simp only [Parameter.load, bind_eq_ok_iff] at h
  obtain ⟨name, hname, shape, hshape, type, htype, h⟩ := h
  obtain rfl := Except.ok.inj h
  rw [Parameter.outline, parameterOutline, get_eq_of_get? (field_ok hname),
    get_eq_of_get? (field_ok hshape), head_of_load htype]

/-- A walk over parts of a document, seen from the items. -/
theorem map_of_mapM_parts {α β : Type} {d raw : Document} {parts : List d.Part} {results : List α}
    {load : Document → Except Fault α} {look : α → β} {view : Document → β}
    (hlook : ∀ item a, load item = .ok a → look a = view item)
    (hparts : parts.map Subtype.val = raw.items)
    (h : parts.mapM (fun part => load part.1) = .ok results) :
    results.map look = raw.items.map view := by
  rw [← hparts, List.map_map]
  exact map_eq_of_mapM_eq_ok (fun part _ a ha => hlook part.1 a ha) h

theorem outline_of_loadMethod {raw : Document} {m : Method} (h : Method.load raw = .ok m) :
    m.outline = raw.methodOutline := by
  simp only [Method.load, bind_eq_ok_iff] at h
  obtain ⟨function, hfunction, name, hname, params, hparams, items, hitems, parameters,
    hparameters, shape, hshape, returns, hreturns, h⟩ := h
  obtain rfl := Except.ok.inj h
  have hwalk : parameters.map Parameter.outline = params.1.items.map parameterOutline :=
    map_of_mapM_parts (fun _ _ => outline_of_loadParameter) (records_ok hitems).2 hparameters
  simp only [Method.outline, methodOutline, get_eq_of_get? (field_ok hname),
    get_eq_of_get? (field_ok hfunction), get_eq_of_get? (field_ok hparams),
    get_eq_of_get? (field_ok hshape), head_of_load hreturns, hwalk]

/-! ## Members of an object -/

section Members

variable {α β : Type} {load : String → Document → Except Fault α} {raw : Document}
  {results : List (String × α)}

/-- If what is loaded from each member looks as the member does, the results look as the members
do. -/
theorem map_of_loadMembers (look : String → α → β) (view : String → Document → β)
    (hlook : ∀ key value a, load key value = .ok a → look key a = view key value)
    (h : loadMembers load raw = .ok results) :
    results.map (fun result => (result.1, look result.1 result.2)) =
      raw.members.entries.map fun entry => (entry.1, view entry.1 entry.2) := by
  obtain ⟨parts, hparts, h⟩ := bind_eq_ok_iff.1 h
  rw [← (entries_ok hparts).2, List.map_map]
  refine map_eq_of_mapM_eq_ok (fun part _ result hresult => ?_) h
  obtain ⟨a, ha, hresult⟩ := bind_eq_ok_iff.1 hresult
  obtain rfl := Except.ok.inj hresult
  simp only [Function.comp_apply, hlook _ _ _ ha]

theorem mapEntries_of_loadMembers (look : String → α → β) (view : String → Document → β)
    (hlook : ∀ key value a, load key value = .ok a → look key a = view key value)
    (h : loadMembers load raw = .ok results) :
    (OrderedMap.ofList results).mapEntries look = raw.members.mapEntries view := by
  rw [OrderedMap.mapEntries_ofList, map_of_loadMembers look view hlook h,
    ← OrderedMap.mapEntries_ofList, OrderedMap.ofList_entries]

theorem exists_of_mem_loadMembers (h : loadMembers load raw = .ok results) {result : String × α}
    (hmem : result ∈ results) : ∃ value, load result.1 value = .ok result.2 := by
  obtain ⟨parts, -, h⟩ := bind_eq_ok_iff.1 h
  obtain ⟨part, -, hresult⟩ := (mem_iff_of_mapM_eq_ok h).1 hmem
  obtain ⟨a, ha, hresult⟩ := bind_eq_ok_iff.1 hresult
  obtain rfl := Except.ok.inj hresult
  exact ⟨part.2.1, ha⟩

end Members

/-! ## Modules -/

theorem heads_of_loadOptional {raw : Document} {key : String} {aliases : AliasTable}
    (h : AliasTable.loadOptional (raw.get? key) = .ok aliases) :
    AliasTable.heads aliases = (raw.get key).members.mapEntries fun _ shape => shape.head := by
  cases hget : raw.get? key with
  | none =>
    rw [hget] at h
    obtain rfl := Except.ok.inj h
    rw [get_eq_null hget]
    rfl
  | some table =>
    rw [hget, AliasTable.loadOptional, AliasTable.load_eq, map_eq_ok_iff] at h
    obtain ⟨results, hresults, rfl⟩ := h
    rw [get_eq_of_get? hget]
    exact mapEntries_of_loadMembers _ _ (fun _ _ _ => head_of_load) hresults

theorem outline_of_loadModuleSpec {name : String} {raw : Document} {spec : ModuleSpec}
    (h : ModuleSpec.load name raw = .ok spec) : spec.outline name = raw.moduleOutline name := by
  rw [ModuleSpec.load_eq] at h
  simp only [bind_eq_ok_iff] at h
  obtain ⟨found, hfound, aliases, haliases, properties, hproperties, items, hitems, methods,
    hmethods, h⟩ := h
  obtain rfl := Except.ok.inj h
  rw [(optionalField_ok hfound).2] at haliases
  have hwalk : methods.map Method.outline = properties.1.items.map methodOutline :=
    map_of_mapM_parts (fun _ _ => outline_of_loadMethod) (records_ok hitems).2 hmethods
  have hname : ModuleSpec.nameOr { name, aliases, methods } name = name := by
    rw [ModuleSpec.nameOr]
    split <;> rfl
  simp only [ModuleSpec.outline, moduleOutline, aliasHeads, hname, heads_of_loadOptional haliases,
    get_eq_of_get? (field_ok hproperties), hwalk]

/-! ## The schema -/

/-- The modules that a source file declares. -/
def Schema.declared : Option (OrderedMap ModuleSpec) → List (String × ModuleSpec)
  | some modules => modules.entries
  | none => []

theorem foldl_addFile (files : List (Option (OrderedMap ModuleSpec)))
    (modules : OrderedMap ModuleSpec) :
    files.foldl Schema.addFile modules = modules.putList (files.flatMap Schema.declared) := by
  induction files generalizing modules with
  | nil => rfl
  | cons file rest ih =>
    rw [List.foldl_cons, ih, List.flatMap_cons, OrderedMap.putList_append]
    cases file <;> rfl

/-- Flattening puts the declared modules of all files into one map, one after another. -/
theorem flatten_eq_ofList (schema : Schema) :
    schema.flatten = OrderedMap.ofList (schema.modules.values.flatMap Schema.declared) :=
  foldl_addFile schema.modules.values .empty

theorem outline_of_loadModules {raw : Document} {file : Option (OrderedMap ModuleSpec)}
    (h : Schema.loadModules raw = .ok file) :
    (Schema.declared file).map (fun entry => (entry.1, entry.2.outline entry.1)) =
      raw.members.entries.map fun entry => (entry.1, entry.2.moduleOutline entry.1) := by
  by_cases hnull : raw = .null
  · subst hnull
    obtain rfl := Except.ok.inj h
    rfl
  · rw [loadModules_of_ne_null hnull, map_eq_ok_iff] at h
    obtain ⟨results, hresults, rfl⟩ := h
    have hmap := mapEntries_of_loadMembers (fun name spec => spec.outline name) moduleOutline
      (fun _ _ _ => outline_of_loadModuleSpec) hresults
    exact congrArg OrderedMap.entries hmap

theorem outline_of_loadFile {raw : Document} {file : Option (OrderedMap ModuleSpec)}
    (h : Schema.loadFile raw = .ok file) :
    (Schema.declared file).map (fun entry => (entry.1, entry.2.outline entry.1)) =
      (raw.get "nativeModules").members.entries.map fun entry =>
        (entry.1, entry.2.moduleOutline entry.1) := by
  rw [Schema.loadFile_eq, bind_eq_ok_iff] at h
  obtain ⟨found, hfound, h⟩ := h
  rw [getD_optionalField hfound] at h
  exact outline_of_loadModules h

/-- A module is loaded with the name under which it stands. -/
theorem name_of_mem_declared {raw : Document} {file : Option (OrderedMap ModuleSpec)}
    (h : Schema.loadFile raw = .ok file) {entry : String × ModuleSpec}
    (hmem : entry ∈ Schema.declared file) : entry.2.name = entry.1 := by
  rw [Schema.loadFile_eq, bind_eq_ok_iff] at h
  obtain ⟨found, -, h⟩ := h
  by_cases hnull : (found.map Subtype.val).getD .null = .null
  · rw [hnull] at h
    obtain rfl := Except.ok.inj h
    cases hmem
  · rw [loadModules_of_ne_null hnull, map_eq_ok_iff] at h
    obtain ⟨results, hresults, rfl⟩ := h
    obtain ⟨value, hload⟩ :=
      exists_of_mem_loadMembers hresults (OrderedMap.mem_of_mem_ofList hmem)
    rw [ModuleSpec.load_eq] at hload
    simp only [bind_eq_ok_iff] at hload
    obtain ⟨_, -, aliases, -, _, -, _, -, methods, -, hspec⟩ := hload
    rw [← Except.ok.inj hspec]

theorem outlineOf_ofList (pairs : List (String × ModuleSpec)) :
    outlineOf (.ofList pairs) =
      (OrderedMap.ofList (pairs.map fun pair => (pair.1, pair.2.outline pair.1))).values := by
  have hmap :=
    OrderedMap.mapEntries_ofList (fun name (spec : ModuleSpec) => spec.outline name) pairs
  rw [← hmap, OrderedMap.values_mapEntries]
  rfl

theorem outline_eq_ofList (raw : Document) :
    raw.outline =
      (OrderedMap.ofList
        (raw.nativeModules.map fun pair => (pair.1, pair.2.moduleOutline pair.1))).values := by
  rw [← OrderedMap.mapEntries_ofList moduleOutline, OrderedMap.values_mapEntries]
  rfl

/-- The outline of a loaded schema is the outline of its document. -/
theorem outline_of_load {raw : Document} {schema : Schema} (h : Schema.load raw = .ok schema) :
    schema.outline = raw.outline := by
  rw [Schema.load_eq, bind_eq_ok_iff] at h
  obtain ⟨modules, hmodules, h⟩ := h
  rw [map_eq_ok_iff] at h
  obtain ⟨files, hfiles, rfl⟩ := h
  -- file by file, what is declared looks as the document does
  have hmap := mapEntries_of_loadMembers
    (fun _ file => (Schema.declared file).map fun entry => (entry.1, entry.2.outline entry.1))
    (fun _ file => (file.get "nativeModules").members.entries.map fun entry =>
      (entry.1, entry.2.moduleOutline entry.1))
    (fun _ _ _ => outline_of_loadFile) hfiles
  rw [Schema.outline, flatten_eq_ofList, outlineOf_ofList, outline_eq_ofList, nativeModules,
    get_eq_of_get? (field_ok hmodules), List.map_flatMap, List.map_flatMap, List.flatMap_def,
    List.flatMap_def, OrderedMap.map_values, OrderedMap.map_values, hmap]

/-- The modules of a loaded schema stand under their own names. -/
theorem name_of_load {raw : Document} {schema : Schema} (h : Schema.load raw = .ok schema) :
    ∀ file ∈ schema.modules.values, ∀ entry ∈ Schema.declared file, entry.2.name = entry.1 := by
  rw [Schema.load_eq, bind_eq_ok_iff] at h
  obtain ⟨modules, -, h⟩ := h
  obtain ⟨files, hfiles, rfl⟩ := map_eq_ok_iff.1 h
  intro file hfile entry hentry
  obtain ⟨named, hnamed, rfl⟩ := List.mem_map.1 hfile
  obtain ⟨value, hload⟩ := exists_of_mem_loadMembers hfiles (OrderedMap.mem_of_mem_ofList hnamed)
  exact name_of_mem_declared hload hentry

theorem name_of_mem_flatten {raw : Document} {schema : Schema} (h : Schema.load raw = .ok schema)
    {entry : String × ModuleSpec} (hmem : entry ∈ schema.flatten.entries) :
    entry.2.name = entry.1 := by
  rw [flatten_eq_ofList] at hmem
  obtain ⟨file, hfile, hmem⟩ := List.mem_flatMap.1 (OrderedMap.mem_of_mem_ofList hmem)
  exact name_of_load h file hfile entry hmem

/-- The classes of a loaded schema have the names under which the modules stand. -/
theorem names_of_load {raw : Document} {schema : Schema} (h : Schema.load raw = .ok schema) :
    schema.outline.map Outline.Module.name = schema.flatten.keys := by
  rw [Schema.outline, outlineOf, List.map_map]
  refine List.map_congr_left fun entry hmem => ?_
  show entry.2.nameOr entry.1 = entry.1
  rw [ModuleSpec.nameOr, name_of_mem_flatten h hmem, ite_self]

end NativeHeader
