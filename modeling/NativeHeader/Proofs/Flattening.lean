import Mathlib.Data.List.Sort
import NativeHeader.Header
import NativeHeader.Proofs.Loading
import NativeHeader.Proofs.Union

/-!
# The modules of a schema

The source files of a schema declare modules one after another, and several of them may declare the
same name.  Flattened, a schema has each declared name once: it stands where the name is declared
first and has the module of the file that declares it last, so place and module may come from
different files.  Exactly one map is like that (`isFlattening_iff`).

The map only depends on the row of declarations, and not on how it is cut into files or on the names
of these, and the header only depends on the map (`flatten_laws`).
-/

namespace NativeHeader

namespace Schema

/-- The declarations of all source files, one after another.  A file that declares nothing adds
nothing. -/
def declarations (schema : Schema) : List (String × ModuleSpec) :=
  schema.modules.values.flatMap declared

/-- The names that the source files declare, one after another, as often as they do. -/
def declaredNames (schema : Schema) : List String := schema.declarations.map Prod.fst

/-- The module that a source file declares under a name. -/
def declaredAs (name : String) (file : Option (OrderedMap ModuleSpec)) : Option ModuleSpec :=
  file.bind (·.get? name)

/-- The schema of a single source file. -/
def single (file : String) (modules : OrderedMap ModuleSpec) : Schema where
  modules := .ofList [(file, some modules)]

/-- What makes a map the modules of a schema. -/
structure IsFlattening (schema : Schema) (modules : OrderedMap ModuleSpec) : Prop where
  /-- The names are those that some file declares. -/
  mem_keys : ∀ name, name ∈ modules.keys ↔
    ∃ declared, some declared ∈ schema.modules.values ∧ name ∈ declared.keys
  /-- They stand in the order in which they are declared first, so each of them once. -/
  first : modules.keys.Pairwise fun name next =>
    schema.declaredNames.idxOf name < schema.declaredNames.idxOf next
  /-- A name has the module of the last file that declares it. -/
  last : ∀ name spec, modules.get? name = some spec ↔
    ∃ before declared after, schema.modules.values = before ++ some declared :: after ∧
      declared.get? name = some spec ∧ ∀ later, some later ∈ after → name ∉ later.keys

end Schema

open Schema

variable {schema other : Schema} {name : String} {modules : OrderedMap ModuleSpec}

/-! ## Names -/

theorem mem_declaredNames :
    name ∈ schema.declaredNames ↔
      ∃ declared, some declared ∈ schema.modules.values ∧ name ∈ declared.keys := by
  rw [declaredNames, declarations, List.map_flatMap, List.mem_flatMap]
  constructor
  · rintro ⟨file, hfile, hname⟩
    cases file with
    | none => cases hname
    | some declared => exact ⟨declared, hfile, hname⟩
  · rintro ⟨declared, hfile, hname⟩
    exact ⟨some declared, hfile, hname⟩

theorem mem_keys_flatten : name ∈ schema.flatten.keys ↔ name ∈ schema.declaredNames := by
  rw [flatten_eq_ofList, OrderedMap.mem_keys_ofList]
  rfl

theorem keys_flatten_pairwise (schema : Schema) :
    schema.flatten.keys.Pairwise fun name next =>
      schema.declaredNames.idxOf name < schema.declaredNames.idxOf next := by
  rw [flatten_eq_ofList]
  exact OrderedMap.keys_ofList_pairwise schema.declarations

/-! ## Modules -/

theorem declaredAs_eq_none_iff {file : Option (OrderedMap ModuleSpec)} :
    declaredAs name file = none ↔ ∀ declared, file = some declared → name ∉ declared.keys := by
  cases file with
  | none => simp [declaredAs]
  | some modules =>
    have hnone : declaredAs name (some modules) = none ↔ name ∉ modules.keys :=
      OrderedMap.get?_eq_none_iff
    rw [hnone]
    constructor
    · rintro h declared ⟨⟩
      exact h
    · exact fun h => h modules rfl

theorem get?_addFile (modules : OrderedMap ModuleSpec) (file : Option (OrderedMap ModuleSpec))
    (name : String) :
    (addFile modules file).get? name = (declaredAs name file).or (modules.get? name) := by
  cases file with
  | none => rfl
  | some declared => exact OrderedMap.get?_putAll modules declared name

/-- Files are searched from the last one. -/
theorem get?_flatten (schema : Schema) (name : String) :
    schema.flatten.get? name = schema.modules.values.reverse.findSome? (declaredAs name) := by
  have hfiles : ∀ files : List (Option (OrderedMap ModuleSpec)),
      (files.foldl addFile .empty).get? name = files.reverse.findSome? (declaredAs name) := by
    intro files
    induction files using List.reverseRecOn with
    | nil => rfl
    | append_singleton before file ih =>
      rw [List.foldl_append, List.foldl_cons, List.foldl_nil, get?_addFile, ih,
        List.reverse_append, List.reverse_singleton, List.singleton_append, List.findSome?_cons]
      cases declaredAs name file <;> rfl
  exact hfiles schema.modules.values

theorem get?_flatten_eq_some_iff {spec : ModuleSpec} :
    schema.flatten.get? name = some spec ↔
      ∃ before declared after, schema.modules.values = before ++ some declared :: after ∧
        declared.get? name = some spec ∧ ∀ later, some later ∈ after → name ∉ later.keys := by
  rw [get?_flatten, List.findSome?_eq_some_iff]
  constructor
  · rintro ⟨after, file, before, hfiles, hspec, hlater⟩
    cases file with
    | none => cases hspec
    | some declared =>
      refine ⟨before.reverse, declared, after.reverse, ?_, hspec, ?_⟩
      · rw [← List.reverse_reverse schema.modules.values, hfiles]
        simp
      · intro later hmem
        exact declaredAs_eq_none_iff.1 (hlater _ (List.mem_reverse.1 hmem)) later rfl
  · rintro ⟨before, declared, after, hfiles, hspec, hlater⟩
    refine ⟨after.reverse, some declared, before.reverse, ?_, hspec, ?_⟩
    · rw [hfiles]
      simp
    · intro file hmem
      refine declaredAs_eq_none_iff.2 fun later hfile => hlater later ?_
      rw [← hfile]
      exact List.mem_reverse.1 hmem

/-! ## The map as a whole -/

theorem isFlattening_flatten (schema : Schema) : schema.IsFlattening schema.flatten where
  mem_keys _ := mem_keys_flatten.trans mem_declaredNames
  first := keys_flatten_pairwise schema
  last _ _ := get?_flatten_eq_some_iff

/-- There is only one such map. -/
theorem isFlattening_iff : schema.IsFlattening modules ↔ modules = schema.flatten := by
  refine ⟨fun h => ?_, fun h => h ▸ isFlattening_flatten schema⟩
  have hirrefl : Std.Irrefl fun name next =>
      schema.declaredNames.idxOf name < schema.declaredNames.idxOf next :=
    ⟨fun _ => Nat.lt_irrefl _⟩
  have hantisymm : Std.Antisymm fun name next =>
      schema.declaredNames.idxOf name < schema.declaredNames.idxOf next :=
    ⟨fun _ _ hlt hgt => absurd hgt (Nat.lt_asymm hlt)⟩
  have hkeys : modules.keys = schema.flatten.keys :=
    h.first.eq_of_mem_iff (keys_flatten_pairwise schema) fun name =>
      (h.mem_keys name).trans ((isFlattening_flatten schema).mem_keys name).symm
  refine OrderedMap.ext_keys_get? hkeys fun name => Option.ext fun spec => ?_
  exact (h.last name spec).trans get?_flatten_eq_some_iff.symm

theorem flatten_congr (h : other.declarations = schema.declarations) :
    other.flatten = schema.flatten := by
  rw [flatten_eq_ofList, flatten_eq_ofList]
  exact congrArg OrderedMap.ofList h

theorem flatten_single (file : String) (modules : OrderedMap ModuleSpec) :
    (single file modules).flatten = modules :=
  OrderedMap.empty_putAll modules

theorem generate_congr (h : other.flatten = schema.flatten) :
    other.generate = schema.generate := by
  unfold Schema.generate
  rw [h]

/-- The modules of a schema are the one map with the declared names, each where it is declared first
and with its last module.  Schemas with the same row of declarations have the same modules and the
same header, and so has the schema of a single file that declares all the modules.  In a schema that
has been loaded, modules have the names under which they stand. -/
theorem flatten_laws (schema : Schema) :
    (∀ modules, schema.IsFlattening modules ↔ modules = schema.flatten) ∧
      (∀ other : Schema, other.declarations = schema.declarations →
        other.flatten = schema.flatten ∧ other.generate = schema.generate) ∧
      (∀ file, (single file schema.flatten).flatten = schema.flatten ∧
        (single file schema.flatten).generate = schema.generate) ∧
      ∀ raw, Schema.load raw = .ok schema →
        ∀ entry ∈ schema.flatten.entries, entry.2.name = entry.1 := by
  refine ⟨fun _ => isFlattening_iff, fun other h => ?_, fun file => ?_, fun _ h _ hentry =>
    name_of_mem_flatten h hentry⟩
  · exact ⟨flatten_congr h, generate_congr (flatten_congr h)⟩
  · have hsingle := flatten_single file schema.flatten
    exact ⟨hsingle, generate_congr hsingle⟩

/-- A module without aliases, with one method that takes nothing and returns nothing. -/
def callingSpec (name method : String) : ModuleSpec where
  name := name
  aliases := .empty
  methods := [⟨.string method, [], ⟨.string "VoidTypeAnnotation", .null, [], none⟩⟩]

/-- A document for such a module. -/
def callingModule (method : String) : Document :=
  .object [("properties", .array [.object [("name", .string method), ("typeAnnotation", .object [
    ("params", .array []),
    ("returnTypeAnnotation", .object [("type", .string "VoidTypeAnnotation")])])]])]

/-- Three source files, of which the second declares nothing and the third a module of the first. -/
def repeatedDocument : Document :=
  .object [("modules", .object
    [("First.js", .object [("nativeModules", .object [("Shared", callingModule "old")])]),
      ("Second.js", .object [("nativeModules", .null)]),
      ("Third.js", .object [("nativeModules", .object
        [("Other", callingModule "call"), ("Shared", callingModule "new")])])])]

/-- The schema of these files. -/
def repeatedSchema : Schema where
  modules := .ofList [("First.js", some (.ofList [("Shared", callingSpec "Shared" "old")])),
    ("Second.js", none),
    ("Third.js", some (.ofList
      [("Other", callingSpec "Other" "call"), ("Shared", callingSpec "Shared" "new")]))]

/-- The same declarations in other files. -/
def recutSchema : Schema where
  modules := .ofList [("All.js", some (.ofList
      [("Shared", callingSpec "Shared" "old"), ("Other", callingSpec "Other" "call")])),
    ("None.js", some .empty),
    ("Again.js", some (.ofList [("Shared", callingSpec "Shared" "new")]))]

theorem repeatedSchema_flattens :
    repeatedSchema.flatten = .ofList
        [("Shared", callingSpec "Shared" "new"), ("Other", callingSpec "Other" "call")] ∧
      recutSchema.flatten = repeatedSchema.flatten ∧
      recutSchema.generate = repeatedSchema.generate ∧
      ∀ entry ∈ repeatedSchema.flatten.entries, entry.2.name = entry.1 := by
  have hload : Schema.load repeatedDocument = .ok repeatedSchema := by with_unfolding_all rfl
  obtain ⟨-, hsame, -, hnames⟩ := flatten_laws repeatedSchema
  obtain ⟨hflatten, hgenerate⟩ := hsame recutSchema rfl
  exact ⟨rfl, hflatten, hgenerate, hnames _ hload⟩

end NativeHeader
