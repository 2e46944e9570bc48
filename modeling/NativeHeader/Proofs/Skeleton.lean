import NativeHeader.Proofs.Agreement
import NativeHeader.Proofs.Loading

/-!
# Skeletons

At a place of a declaration the generator sees very little: after the one hop, a tag, or a reserved
name, or the name of an alias that is not there (`Head.seen`).  The skeleton of a schema keeps the
names of its methods and parameters, and what is seen at each place.

The result of generating, be it a header or a fault, depends on the names of the modules and on the
skeleton only (`generate_depends_on_skeleton`).  Properties of object shapes and their flags, types
of elements, names that other expressions carry, aliases that no place refers to, the order of an
alias table, the aliases of other modules and the source files are all free.
-/

namespace NativeHeader

open Document

/-! ## What is seen at a place -/

/-- What is seen of a type expression at a place of a declaration. -/
inductive Seen where
  /-- A tag, other than that of a reserved name. -/
  | tag (value : Document)
  /-- A reserved name. -/
  | reserved (name : Document)
  /-- The name of an alias that is not in the table. -/
  | missing (name : Document)

namespace Document

/-- Whether a value is the given text. -/
def isText (text : String) : Document → Bool
  | string other => other = text
  | _ => false

/-- What a table has under a value, if that is a text. -/
def findIn {α : Type} (table : String → Option α) : Document → Option α
  | string text => table text
  | _ => none

theorem isText_iff {d : Document} {text : String} : d.isText text = true ↔ d = .string text := by
  cases d <;> simp [isText]

end Document

namespace Head

/-- What is seen of a head that needs no hop. -/
def direct (head : Head) : Seen :=
  if head.tag.isText Kind.reserved.tag then .reserved head.name else .tag head.tag

/-- What is seen of a head after the one hop through the aliases of its module. -/
def seen (find : String → Option Head) (head : Head) : Seen :=
  if head.tag.isText Kind.typeAlias.tag then
    match head.name.findIn find with
    | some shape => shape.direct
    | none => .missing head.name
  else head.direct

end Head

/-- What is seen of a type expression among the aliases of its module. -/
def TypeExpr.seen (aliases : AliasTable) (expr : TypeExpr) : Seen :=
  expr.head.seen (AliasTable.heads aliases).get?

/-- The C++ type of what is seen.  The context says where it stands. -/
def Seen.cxxType (context : String) : Seen → Except Fault CxxType
  | tag value => demand value Kind.typeOfTag? (.unsupportedType context value)
  | reserved name =>
    demand name Kind.typeOfReserved? (.unsupportedType context (.string name.text))
  | missing name => demand name (fun _ => none) (.missingKey name.text)

section Seen

variable {aliases : AliasTable} {expr : TypeExpr}

theorem findIn_heads (aliases : AliasTable) (name : Document) :
    name.findIn (AliasTable.heads aliases).get? =
      (name.findIn aliases.get?).map TypeExpr.head := by
  cases name with
  | string text => exact get?_heads aliases text
  | _ => rfl

theorem seen_of_not_alias (aliases : AliasTable)
    (h : expr.head.tag ≠ .string Kind.typeAlias.tag) : expr.seen aliases = expr.head.direct := by
  have htest : ¬ expr.head.tag.isText Kind.typeAlias.tag = true := fun ht => h (isText_iff.1 ht)
  rw [TypeExpr.seen, Head.seen, if_neg htest]

theorem seen_of_entry {shape : TypeExpr} (h : expr.head.tag = .string Kind.typeAlias.tag)
    (found : expr.name.findIn aliases.get? = some shape) :
    expr.seen aliases = shape.head.direct := by
  have hfound : expr.head.name.findIn (AliasTable.heads aliases).get? = some shape.head := by
    rw [findIn_heads, TypeExpr.head, found, Option.map_some]
  rw [TypeExpr.seen, Head.seen, if_pos (isText_iff.2 h), hfound]

theorem seen_of_missing (h : expr.head.tag = .string Kind.typeAlias.tag)
    (missing : expr.name.findIn aliases.get? = none) : expr.seen aliases = .missing expr.name := by
  have hmissing : expr.head.name.findIn (AliasTable.heads aliases).get? = none := by
    rw [findIn_heads, TypeExpr.head, missing, Option.map_none]
  rw [TypeExpr.seen, Head.seen, if_pos (isText_iff.2 h), hmissing, TypeExpr.head]

theorem resolvedType_eq_direct (context : String) (expr : TypeExpr) :
    expr.resolvedType context = expr.head.direct.cxxType context := by
  by_cases htag : expr.head.tag = .string Kind.reserved.tag
  · rw [resolvedType_of_reserved context htag, Head.direct, if_pos (isText_iff.2 htag)]
    rfl
  · have htest : ¬ expr.head.tag.isText Kind.reserved.tag = true := fun ht => htag (isText_iff.1 ht)
    rw [resolvedType_of_not_reserved context htag, Head.direct, if_neg htest]
    rfl

theorem resolve_of_entry {shape : TypeExpr} (h : expr.head.tag = .string Kind.typeAlias.tag)
    (found : expr.name.findIn aliases.get? = some shape) : expr.resolve aliases = .ok shape := by
  rw [resolve_of_alias aliases h, demand_eq_ok_iff]
  cases hname : expr.name with
  | string text =>
    rw [hname] at found
    exact ⟨text, rfl, found⟩
  | _ =>
    rw [hname] at found
    cases found

/-- What is not in a table fails in the same way whatever would come next. -/
theorem demand_bind_of_missing {α β : Type} {key : Document} {table : String → Option α}
    (missing : key.findIn table = none) (fault : Fault) (next : α → Except Fault β) :
    demand key table fault >>= next = demand key (fun _ => none) fault := by
  cases key with
  | string text =>
    have htable : table text = none := missing
    have hdemand : demand (.string text) table fault = .error fault := by
      simp [demand, Document.lookupIn, Document.key?, htable, bind, Except.bind, pure, Except.pure,
        throw, throwThe, MonadExceptOf.throw]
    rw [hdemand]
    rfl
  | _ => rfl

/-- A type expression is given the C++ type of what is seen of it. -/
theorem cxxType_eq_seen (aliases : AliasTable) (context : String) (expr : TypeExpr) :
    expr.cxxType aliases context = (expr.seen aliases).cxxType context := by
  by_cases htag : expr.head.tag = .string Kind.typeAlias.tag
  · cases hfound : expr.name.findIn aliases.get? with
    | some shape =>
      rw [TypeExpr.cxxType, resolve_of_entry htag hfound, seen_of_entry htag hfound,
        ← resolvedType_eq_direct]
      rfl
    | none =>
      rw [TypeExpr.cxxType, resolve_of_alias aliases htag, seen_of_missing htag hfound]
      exact demand_bind_of_missing hfound _ _
  · rw [TypeExpr.cxxType, resolve_of_not_alias aliases htag, seen_of_not_alias aliases htag,
      ← resolvedType_eq_direct]
    rfl

end Seen

/-! ## Skeletons -/

namespace Skeleton

/-- A parameter: its name and what is seen of its type. -/
@[ext]
structure Parameter where
  name : Document
  type : Seen

/-- A method: its name, what is seen of its result, and its parameters. -/
@[ext]
structure Method where
  name : Document
  returns : Seen
  parameters : List Parameter

end Skeleton

namespace Outline

def Parameter.skeleton (aliases : OrderedMap Head) (p : Parameter) : Skeleton.Parameter :=
  { name := p.name, type := p.type.seen aliases.get? }

def Method.skeleton (aliases : OrderedMap Head) (m : Method) : Skeleton.Method :=
  { name := m.name
    returns := m.returns.seen aliases.get?
    parameters := m.parameters.map (Parameter.skeleton aliases) }

/-- The methods of a module, as far as they are seen. -/
def Module.skeleton (m : Module) : List Skeleton.Method :=
  m.methods.map (Method.skeleton m.aliases)

end Outline

/-- The methods of all modules, as far as they are seen. -/
def Schema.skeleton (schema : Schema) : List (List Skeleton.Method) :=
  schema.outline.map Outline.Module.skeleton

/-- Of two type expressions the same is seen, each among the aliases of its own module. -/
def TypeExpr.SeenAlike (aliases aliases' : AliasTable) (expr expr' : TypeExpr) : Prop :=
  expr.seen aliases = expr'.seen aliases'

section Skeleton

variable {aliases aliases' : AliasTable}

theorem Parameter.skeleton_eq_iff {p p' : Parameter} :
    p.outline.skeleton (AliasTable.heads aliases) =
        p'.outline.skeleton (AliasTable.heads aliases') ↔
      p.Matches (TypeExpr.SeenAlike aliases aliases') p' := by
  constructor
  · intro h
    exact ⟨congrArg Skeleton.Parameter.name h, congrArg Skeleton.Parameter.type h⟩
  · intro h
    exact Skeleton.Parameter.ext h.name h.type

theorem Method.skeleton_eq_iff {m m' : Method} :
    m.outline.skeleton (AliasTable.heads aliases) =
        m'.outline.skeleton (AliasTable.heads aliases') ↔
      m.Matches (TypeExpr.SeenAlike aliases aliases') m' := by
  have hparameters : (m.outline.skeleton (AliasTable.heads aliases)).parameters =
        (m'.outline.skeleton (AliasTable.heads aliases')).parameters ↔
      List.Forall₂ (Parameter.Matches (TypeExpr.SeenAlike aliases aliases'))
        m.parameters m'.parameters := by
    simp only [Outline.Method.skeleton, Method.outline, List.map_map, map_eq_map_iff_forall₂,
      Function.comp_apply, Parameter.skeleton_eq_iff]
  constructor
  · intro h
    exact ⟨congrArg Skeleton.Method.name h, congrArg Skeleton.Method.returns h,
      hparameters.1 (congrArg Skeleton.Method.parameters h)⟩
  · intro h
    exact Skeleton.Method.ext h.name h.returns (hparameters.2 h.parameters)

theorem ModuleSpec.skeleton_eq_iff {spec spec' : ModuleSpec} {name name' : String} :
    (spec.outline name).skeleton = (spec'.outline name').skeleton ↔
      spec.Matches TypeExpr.SeenAlike spec' := by
  simp only [Outline.Module.skeleton, ModuleSpec.outline, List.map_map, map_eq_map_iff_forall₂,
    Function.comp_apply, Method.skeleton_eq_iff]
  rfl

/-- Two schemas have the same skeleton exactly if the same is seen at each place of the modules. -/
theorem Schema.skeleton_eq_iff {schema schema' : Schema} :
    schema.skeleton = schema'.skeleton ↔
      List.Forall₂ (ModuleSpec.Matches TypeExpr.SeenAlike) schema.flatten.values
        schema'.flatten.values := by
  simp only [Schema.skeleton, Schema.outline, outlineOf, List.map_map, map_eq_map_iff_forall₂,
    Function.comp_apply, ModuleSpec.skeleton_eq_iff, OrderedMap.values, List.forall₂_map_left_iff,
    List.forall₂_map_right_iff]

/-- Where the same is seen, the C++ types are the same, or the faults. -/
theorem agrees_of_seenAlike {expr expr' : TypeExpr} (h : expr.SeenAlike aliases aliases' expr') :
    expr.Agrees Eq aliases aliases' expr' := by
  intro context
  rw [agree_eq_iff, cxxType_eq_seen, cxxType_eq_seen, h]

end Skeleton

/-! ## What does not count -/

/-- Two type expressions have the same tag, and the same name if it is a reserved one.  Their
properties, their element types and the names that go with other tags are free. -/
structure TypeExpr.Resembles (expr expr' : TypeExpr) : Prop where
  tag : expr.tag = expr'.tag
  reserved : expr.tag = .string Kind.reserved.tag → expr.name = expr'.name

/-- At a place, two aliases also have the same name, and under it their tables have nothing or
expressions that resemble each other.  All else that the tables have is free. -/
structure TypeExpr.ResemblesAmong (aliases aliases' : AliasTable) (expr expr' : TypeExpr) :
    Prop where
  shape : expr.Resembles expr'
  typeAlias : expr.tag = .string Kind.typeAlias.tag → expr.name = expr'.name ∧
    Option.Rel TypeExpr.Resembles (expr.name.findIn aliases.get?) (expr'.name.findIn aliases'.get?)

theorem direct_of_resembles {expr expr' : TypeExpr} (h : expr.Resembles expr') :
    expr.head.direct = expr'.head.direct := by
  by_cases htag : expr.tag = .string Kind.reserved.tag
  · have htag' : expr'.tag = .string Kind.reserved.tag := h.tag.symm.trans htag
    simp only [Head.direct, TypeExpr.head, htag, htag', h.reserved htag]
  · have htest : ¬ expr'.tag.isText Kind.reserved.tag = true := by
      intro ht
      exact htag (h.tag.trans (isText_iff.1 ht))
    simp only [Head.direct, TypeExpr.head, h.tag, htest, Bool.false_eq_true, if_false]

theorem seenAlike_of_resemblesAmong {aliases aliases' : AliasTable} {expr expr' : TypeExpr}
    (h : expr.ResemblesAmong aliases aliases' expr') : expr.SeenAlike aliases aliases' expr' := by
  rw [TypeExpr.SeenAlike]
  by_cases htag : expr.tag = .string Kind.typeAlias.tag
  · have htag' : expr'.tag = .string Kind.typeAlias.tag := h.shape.tag.symm.trans htag
    obtain ⟨hname, hentries⟩ := h.typeAlias htag
    generalize hfound : expr.name.findIn aliases.get? = found at hentries
    generalize hfound' : expr'.name.findIn aliases'.get? = found' at hentries
    cases hentries with
    | some hshape =>
      rw [seen_of_entry htag hfound, seen_of_entry htag' hfound', direct_of_resembles hshape]
    | none => rw [seen_of_missing htag hfound, seen_of_missing htag' hfound', hname]
  · have htag' : expr'.tag ≠ .string Kind.typeAlias.tag := fun ht => htag (h.shape.tag.trans ht)
    rw [seen_of_not_alias aliases htag, seen_of_not_alias aliases' htag',
      direct_of_resembles h.shape]

/-- What comes of a loaded schema, be it a header or a fault, depends on the names of its modules
and on its skeleton.  So it is the same for schemas whose modules resemble each other place by
place. -/
theorem generate_depends_on_skeleton {raw raw' : Document} {schema schema' : Schema}
    (loaded : Schema.load raw = .ok schema) (loaded' : Schema.load raw' = .ok schema')
    (names : schema.flatten.keys = schema'.flatten.keys)
    (library moduleSpec library' moduleSpec' : String) :
    (schema.skeleton = schema'.skeleton →
      (schema.generate library moduleSpec).result =
        (schema'.generate library' moduleSpec').result) ∧
    (List.Forall₂ (ModuleSpec.Matches TypeExpr.ResemblesAmong) schema.flatten.values
        schema'.flatten.values →
      (schema.generate library moduleSpec).result =
        (schema'.generate library' moduleSpec').result) := by
  have hsame : schema.skeleton = schema'.skeleton →
      (schema.generate library moduleSpec).result =
        (schema'.generate library' moduleSpec').result := by
    intro hskeleton
    have hnames : schema.outline.map Outline.Module.name =
        schema'.outline.map Outline.Module.name := by
      rw [names_of_load loaded, names_of_load loaded', names]
    have hspecs := Schema.skeleton_eq_iff.1 hskeleton
    simp only [Schema.outline, outlineOf, List.map_map, map_eq_map_iff_forall₂] at hnames
    simp only [OrderedMap.values, List.forall₂_map_left_iff, List.forall₂_map_right_iff] at hspecs
    have hentries : List.Forall₂ (EntriesAgree Eq) schema.flatten.entries
        schema'.flatten.entries := by
      refine List.Forall₂.mp ?_ hnames hspecs
      intro entry entry' hname hspec
      exact ⟨hname, hspec.imp fun _ _ _ _ => agrees_of_seenAlike⟩
    exact agree_eq_iff.1 (generate_agrees (fun _ => rfl) hentries _ _ _ _)
  refine ⟨hsame, ?_⟩
  intro hresemble
  have hseen : List.Forall₂ (ModuleSpec.Matches TypeExpr.SeenAlike) schema.flatten.values
      schema'.flatten.values := by
    refine hresemble.imp ?_
    intro spec spec' hspec
    exact hspec.imp fun _ _ _ _ => seenAlike_of_resemblesAmong
  exact hsame (Schema.skeleton_eq_iff.2 hseen)

/-- A module with a method that takes a list and gives a shape. -/
def shapingModule (aliases : List (String × Document)) (list : Document) : Document :=
  .object
    [("aliases", .object aliases),
      ("properties", .array [.object
        [("name", .string "shape"),
          ("typeAnnotation", .object
            [("returnTypeAnnotation", .object
                [("type", .string "TypeAliasTypeAnnotation"), ("name", .string "Shape")]),
              ("params", .array
                [.object [("name", .string "list"), ("typeAnnotation", list)]])])]])]

/-- The same module, loaded. -/
def shapingSpec (aliases : List (String × TypeExpr)) (list : TypeExpr) : ModuleSpec where
  name := "Shaping"
  aliases := .ofList aliases
  methods :=
    [{ name := .string "shape"
       parameters := [⟨.string "list", list⟩]
       returns := ⟨.string "TypeAliasTypeAnnotation", .string "Shape", [], none⟩ }]

def emptySpec (aliases : List (String × TypeExpr)) : ModuleSpec where
  name := "Empty"
  aliases := .ofList aliases
  methods := []

/-- Two modules of one source file. -/
def groupedDocument : Document :=
  .object [("modules", .object
    [("All.js", .object [("nativeModules", .object
      [("Shaping", shapingModule [("Shape", .object [("type", .string "ObjectTypeAnnotation")])]
          (.object [("type", .string "ArrayTypeAnnotation")])),
        ("Empty", .object [("properties", .array [])])])])])]

def groupedSchema : Schema where
  modules := .ofList [("All.js", some (.ofList
    [("Shaping", shapingSpec [("Shape", ⟨.string "ObjectTypeAnnotation", .null, [], none⟩)]
        ⟨.string "ArrayTypeAnnotation", .null, [], none⟩),
      ("Empty", emptySpec [])]))]

/-- The same modules in two source files.  There is one more alias, the other module has an alias of
the same name, and the types say more. -/
def scatteredDocument : Document :=
  .object [("modules", .object
    [("First.js", .object [("nativeModules", .object
      [("Shaping", shapingModule
          [("Spare", .object [("type", .string "VoidTypeAnnotation")]),
            ("Shape", .object [("type", .string "ObjectTypeAnnotation"), ("name", .string "Own"),
              ("properties", .array [.object
                [("name", .string "x"), ("optional", .bool true),
                  ("typeAnnotation", .object [("type", .string "NumberTypeAnnotation")])]])])]
          (.object [("type", .string "ArrayTypeAnnotation"),
            ("elementType", .object [("type", .string "StringTypeAnnotation")])]))])]),
    ("Second.js", .object [("nativeModules", .object
      [("Empty", .object
          [("aliases", .object [("Shape", .object [("type", .string "StringTypeAnnotation")])]),
            ("properties", .array [])])])])])]

def scatteredSchema : Schema where
  modules := .ofList
    [("First.js", some (.ofList
        [("Shaping", shapingSpec
          [("Spare", ⟨.string "VoidTypeAnnotation", .null, [], none⟩),
            ("Shape", ⟨.string "ObjectTypeAnnotation", .string "Own",
              [⟨.string "x", ⟨.string "NumberTypeAnnotation", .null, [], none⟩, .bool true⟩],
              none⟩)]
          ⟨.string "ArrayTypeAnnotation", .null, [],
            some ⟨.string "StringTypeAnnotation", .null, [], none⟩⟩)])),
      ("Second.js", some (.ofList
        [("Empty", emptySpec [("Shape", ⟨.string "StringTypeAnnotation", .null, [], none⟩)])]))]

theorem groupedSchema_result_eq :
    groupedSchema.skeleton = scatteredSchema.skeleton ∧
      List.Forall₂ (ModuleSpec.Matches TypeExpr.ResemblesAmong) groupedSchema.flatten.values
        scatteredSchema.flatten.values ∧
      (groupedSchema.generate "library" "specification").result =
        (scatteredSchema.generate "" "").result := by
  have hgrouped : Schema.load groupedDocument = .ok groupedSchema := by with_unfolding_all rfl
  have hscattered : Schema.load scatteredDocument = .ok scatteredSchema := by with_unfolding_all rfl
  obtain ⟨-, hresemble⟩ := generate_depends_on_skeleton hgrouped hscattered rfl
    "library" "specification" "" ""
  have hother : ∀ (tag : String) (shape shape' : TypeExpr), tag ≠ Kind.reserved.tag →
      shape.tag = .string tag → shape'.tag = .string tag → shape.Resembles shape' := by
    intro tag shape shape' htag hshape hshape'
    refine ⟨hshape.trans hshape'.symm, fun hreserved => ?_⟩
    exact absurd (Document.string.inj (hshape.symm.trans hreserved)) htag
  have hall : List.Forall₂ (ModuleSpec.Matches TypeExpr.ResemblesAmong)
      groupedSchema.flatten.values scatteredSchema.flatten.values := by
    refine .cons (.cons ⟨rfl, ?_, .cons ⟨rfl, ?_⟩ .nil⟩ .nil) (.cons .nil .nil)
    · refine ⟨hother "TypeAliasTypeAnnotation" _ _ (by decide) rfl rfl, fun _ => ⟨rfl, ?_⟩⟩
      exact .some (hother "ObjectTypeAnnotation" _ _ (by decide) rfl rfl)
    · refine ⟨hother "ArrayTypeAnnotation" _ _ (by decide) rfl rfl, fun halias => ?_⟩
      exact absurd (Document.string.inj halias) (by decide)
  exact ⟨rfl, hall, hresemble hall⟩

end NativeHeader
