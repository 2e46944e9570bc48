import NativeHeader.Proofs.Shape

/-!
# Loading, value by value

The loader takes a document apart into parts, each with the fact that it is smaller.  The loader
ends because of these facts, but what it gives does not depend on them.  So each access is stated
here as a function to values: `required`, `asked`, `table` and `listed`.  Which of them fails
depends on the kind of the document and on the presence of the field alone, and so does the fault
(`required_of_has` and what follows it).

Each part of a schema is then loaded from the values that stand in its fields, in the order of the
fields below, where an absent table of aliases is an empty object and absent properties are an empty
list.
-/

namespace NativeHeader

namespace Document

variable {d : Document} {key : String}

/-! ## Accesses to values -/

/-- The member that must be there. -/
def required (d : Document) (key : String) : Except Fault Document := Subtype.val <$> d.field key

/-- The member that may be absent. -/
def asked (d : Document) (key : String) : Except Fault (Option Document) :=
  Option.map Subtype.val <$> d.optionalField key

/-- All members, each with its key. -/
def table (d : Document) : Except Fault (List (String × Document)) :=
  List.map (fun part => (part.1, part.2.1)) <$> d.entries

/-- All items, of which fields are going to be read. -/
def listed (d : Document) : Except Fault (List Document) := List.map Subtype.val <$> d.records

/-- The member under a key, or what stands for an absent one. -/
def getOr (d : Document) (key : String) (default : Document) : Document := (d.get? key).getD default

theorem getOr_of_has (h : d.Has key) (default : Document) : d.getOr key default = d.get key := by
  rw [getOr, h.get?, Option.getD_some]

theorem get?_eq_none_of_not_has (h : ¬ d.Has key) : d.get? key = none := by
  cases hget : d.get? key with
  | none => rfl
  | some value => exact absurd ⟨value, hget⟩ h

theorem getOr_of_not_has (h : ¬ d.Has key) (default : Document) :
    d.getOr key default = default := by
  rw [getOr, get?_eq_none_of_not_has h, Option.getD_none]

theorem not_has_of_not_isObject (h : ¬ d.IsObject) : ¬ d.Has key := fun hhas => h hhas.isObject

/-! ## What an access gives -/

theorem required_of_has (h : d.Has key) : d.required key = .ok (d.get key) := by
  obtain ⟨part, hpart⟩ := succeeds_field_iff.2 h
  rw [required, hpart, get_eq_of_get? (field_ok hpart)]
  rfl

theorem required_of_not_has (hobject : d.IsObject) (h : ¬ d.Has key) :
    d.required key = .error (.missingKey key) := by
  cases d with
  | object members =>
    rw [required]
    unfold field
    simp only
    split
    · next hvalue => exact absurd ⟨_, hvalue⟩ h
    · rfl
  | _ => exact hobject.elim

theorem required_of_not_isObject (h : ¬ d.IsObject) :
    d.required key = .error .fieldOfNonObject := by
  cases d with
  | object members => exact absurd trivial h
  | _ => rfl

theorem asked_of_isObject (h : d.IsObject) (key : String) :
    d.asked key = .ok (d.get? key) := by
  obtain ⟨found, hfound⟩ := (succeeds_optionalField_iff key).2 h
  rw [asked, hfound, ← (optionalField_ok hfound).2]
  rfl

theorem table_of_isObject (h : d.IsObject) : d.table = .ok d.members.entries := by
  obtain ⟨parts, hparts⟩ := succeeds_entries_iff.2 h
  rw [table, hparts, ← (entries_ok hparts).2]
  rfl

theorem table_of_not_isObject (h : ¬ d.IsObject) : d.table = .error .membersOfNonObject := by
  cases d with
  | object members => exact absurd trivial h
  | _ => rfl

theorem listed_of_isList (h : d.IsList) : d.listed = .ok d.items := by
  obtain ⟨parts, hparts⟩ := succeeds_records_iff.2 h
  rw [listed, hparts, ← (records_ok hparts).2]
  rfl

end Document

open Document

/-! ## Parts of a schema -/

theorem Property.load_values (raw : Document) :
    Property.load raw =
      raw.required "name" >>= fun name =>
        raw.required "typeAnnotation" >>= fun shape =>
          TypeExpr.load shape >>= fun type =>
            raw.asked "optional" >>= fun optional =>
              pure { name, type, optional := optional.getD (.bool false) } := by
  simp only [Property.load, required, asked, bind_map_left]

/-- The items of a list that may be absent are the items of the list, or of an empty one. -/
theorem optionalRecords_bind {α : Type} (raw : Document) (key : String)
    (next : List Document → Except Fault α) :
    (raw.optionalRecords key >>= fun parts => next (parts.map Subtype.val)) =
      raw.asked key >>= fun list => (list.getD (.array [])).listed >>= next := by
  simp only [optionalRecords, asked, bind_assoc, bind_map_left]
  refine bind_congr fun found => ?_
  cases found with
  | none => rfl
  | some part =>
    simp only [listed, bind_map_left, bind_assoc, pure_bind, List.map_map]
    rfl

theorem TypeExpr.load_values (raw : Document) :
    TypeExpr.load raw =
      raw.asked "elementType" >>= fun element =>
        raw.required "type" >>= fun tag =>
          raw.asked "name" >>= fun name =>
            raw.asked "properties" >>= fun list =>
              (list.getD (.array [])).listed >>= fun items =>
                items.mapM Property.load >>= fun properties =>
                  TypeExpr.loadElement (element.getD .null) >>= fun elementType =>
                    pure { tag, name := name.getD .null, properties, elementType } := by
  have hitems : ∀ parts : List raw.Part, parts.mapM (fun item => Property.load item.1) =
      (parts.map Subtype.val).mapM Property.load := by
    intro parts
    rw [List.mapM_map]
    rfl
  simp only [TypeExpr.load_eq, hitems, required, asked, bind_map_left]
  refine bind_congr fun element => bind_congr fun tag => bind_congr fun name => ?_
  have hlist := optionalRecords_bind raw "properties" fun items =>
    items.mapM Property.load >>= fun properties =>
      TypeExpr.loadElement ((element.map Subtype.val).getD .null) >>= fun elementType =>
        pure (TypeExpr.mk tag.1 ((name.map Subtype.val).getD .null) properties elementType)
  rw [asked, bind_map_left] at hlist
  exact hlist

theorem Parameter.load_values (raw : Document) :
    Parameter.load raw =
      raw.required "name" >>= fun name =>
        raw.required "typeAnnotation" >>= fun shape =>
          TypeExpr.load shape >>= fun type => pure { name, type } := by
  simp only [Parameter.load, required, bind_map_left]

/-- Loads what a method has from its function type. -/
def Method.loadFunction (name function : Document) : Except Fault Method :=
  function.required "params" >>= fun params =>
    params.listed >>= fun items =>
      items.mapM Parameter.load >>= fun parameters =>
        function.required "returnTypeAnnotation" >>= fun shape =>
          TypeExpr.load shape >>= fun returns => pure { name, parameters, returns }

theorem Method.load_values (raw : Document) :
    Method.load raw =
      raw.required "typeAnnotation" >>= fun function =>
        raw.required "name" >>= fun name => Method.loadFunction name function := by
  simp only [Method.load, Method.loadFunction, required, listed, bind_map_left, List.mapM_map]
  rfl

/-- Loads the entries of a table, each with its key. -/
def loadEntries {α : Type} (load : String → Document → Except Fault α)
    (entries : List (String × Document)) : Except Fault (List (String × α)) :=
  entries.mapM fun entry => (entry.1, ·) <$> load entry.1 entry.2

theorem loadMembers_values {α : Type} (load : String → Document → Except Fault α)
    (raw : Document) : loadMembers load raw = raw.table >>= loadEntries load := by
  rw [loadMembers, table, bind_map_left]
  refine bind_congr fun parts => ?_
  rw [loadEntries, List.mapM_map]
  refine congrArg (parts.mapM ·) (funext fun part => ?_)
  exact (map_eq_pure_bind _ _).symm

theorem ModuleSpec.load_values (name : String) (raw : Document) :
    ModuleSpec.load name raw =
      raw.asked "aliases" >>= fun table =>
        loadMembers (fun _ => TypeExpr.load) (table.getD (.object [])) >>= fun aliases =>
          raw.required "properties" >>= fun list =>
            list.listed >>= fun items =>
              items.mapM Method.load >>= fun methods =>
                pure { name, aliases := .ofList aliases, methods } := by
  simp only [ModuleSpec.load_eq, required, asked, listed, bind_map_left, List.mapM_map]
  refine bind_congr fun found => ?_
  cases found with
  | none => rfl
  | some table =>
    simp only [Option.map_some, Option.getD_some, AliasTable.loadOptional, AliasTable.load_eq,
      bind_map_left]
    rfl

theorem Schema.loadFile_values (raw : Document) :
    Schema.loadFile raw =
      raw.asked "nativeModules" >>= fun modules => Schema.loadModules (modules.getD .null) := by
  simp only [Schema.loadFile_eq, asked, bind_map_left]

theorem Schema.load_values (raw : Document) :
    Schema.load raw =
      raw.required "modules" >>= fun modules =>
        (fun files => { modules := .ofList files }) <$>
          loadMembers (fun _ => Schema.loadFile) modules := by
  simp only [Schema.load_eq, required, bind_map_left]

end NativeHeader
