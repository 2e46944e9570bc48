import NativeHeader.Proofs.Skeleton

/-!
# Inlining aliases

Instead of following aliases while it generates, one can put the expressions that they stand for
into the schema beforehand and drop the alias tables (`Schema.inlined`).  The header is the same
(`generate_inlined`): either both schemas have it, or none has one.

Inlining is done once, as is the hop of the generator.  An entry that is an alias itself, be it a
part of a chain or of a cycle, has no C++ type in either schema, but for different reasons: at first
its tag is not listed, and once it is inlined its name is in no table.  Where no place leads to such
an entry, the faults are the same, too.
-/

namespace NativeHeader

open Document

/-! ## The schema without aliases -/

/-- An alias that is in the table gives way to the expression that it stands for. -/
def TypeExpr.inlined (aliases : AliasTable) (expr : TypeExpr) : TypeExpr :=
  if expr.isAlias then (expr.name.findIn aliases.get?).getD expr else expr

def Parameter.inlined (aliases : AliasTable) (p : Parameter) : Parameter :=
  { name := p.name, type := p.type.inlined aliases }

def Method.inlined (aliases : AliasTable) (m : Method) : Method :=
  { name := m.name
    parameters := m.parameters.map (Parameter.inlined aliases)
    returns := m.returns.inlined aliases }

/-- The module whose methods need no aliases; it has none. -/
def ModuleSpec.inlined (spec : ModuleSpec) : ModuleSpec :=
  { name := spec.name
    aliases := .empty
    methods := spec.methods.map (Method.inlined spec.aliases) }

/-- The schema in which all modules of all source files are inlined. -/
def Schema.inlined (schema : Schema) : Schema where
  modules := schema.modules.mapEntries fun _ file =>
    file.map (OrderedMap.mapEntries fun _ spec => spec.inlined)

/-- The type expressions at the places of a method. -/
def Method.types (m : Method) : List TypeExpr := m.returns :: m.parameters.map Parameter.type

/-- No alias at a place of the module stands for an alias. -/
def ModuleSpec.Unchained (spec : ModuleSpec) : Prop :=
  ∀ m ∈ spec.methods, ∀ expr ∈ m.types, expr.isAlias = true →
    ∀ shape, expr.name.findIn spec.aliases.get? = some shape → shape.isAlias = false

/-- Inlining each module of a schema inlines the modules that stay. -/
theorem flatten_inlined (schema : Schema) :
    schema.inlined.flatten = schema.flatten.mapEntries fun _ spec => spec.inlined := by
  have hfile : ∀ file : Option (OrderedMap ModuleSpec),
      Schema.declared (file.map (OrderedMap.mapEntries fun _ spec => spec.inlined)) =
        (Schema.declared file).map fun entry => (entry.1, entry.2.inlined) := by
    intro file
    cases file <;> rfl
  rw [flatten_eq_ofList, flatten_eq_ofList, OrderedMap.mapEntries_ofList, Schema.inlined,
    ← OrderedMap.map_values, List.flatMap_map, List.map_flatMap]
  simp only [hfile]

/-! ## At one place -/

section Place

variable {aliases : AliasTable} {expr shape : TypeExpr}

theorem inlined_of_not_alias (aliases : AliasTable) (h : expr.isAlias = false) :
    expr.inlined aliases = expr := by
  rw [TypeExpr.inlined, h, if_neg Bool.false_ne_true]

theorem inlined_of_entry (h : expr.isAlias = true)
    (found : expr.name.findIn aliases.get? = some shape) : expr.inlined aliases = shape := by
  rw [TypeExpr.inlined, if_pos h, found, Option.getD_some]

theorem inlined_of_missing (h : expr.isAlias = true)
    (missing : expr.name.findIn aliases.get? = none) : expr.inlined aliases = expr := by
  rw [TypeExpr.inlined, if_pos h, missing, Option.getD_none]

theorem findIn_empty (name : Document) :
    name.findIn (OrderedMap.empty : AliasTable).get? = none := by
  cases name <;> rfl

theorem tag_ne_of_not_alias (h : expr.isAlias = false) :
    expr.head.tag ≠ .string Kind.typeAlias.tag := by
  intro htag
  rw [isAlias_iff.2 htag] at h
  cases h

/-- After inlining, the same is seen, unless an alias stands for an alias. -/
theorem seenAlike_inlined
    (unchained : expr.isAlias = true → ∀ shape, expr.name.findIn aliases.get? = some shape →
      shape.isAlias = false) :
    expr.SeenAlike aliases .empty (expr.inlined aliases) := by
  rw [TypeExpr.SeenAlike]
  cases halias : expr.isAlias with
  | false =>
    have htag := tag_ne_of_not_alias halias
    rw [inlined_of_not_alias aliases halias, seen_of_not_alias aliases htag,
      seen_of_not_alias .empty htag]
  | true =>
    have htag := isAlias_iff.1 halias
    cases hfound : expr.name.findIn aliases.get? with
    | some shape =>
      have hshape := tag_ne_of_not_alias (unchained halias shape hfound)
      rw [inlined_of_entry halias hfound, seen_of_entry htag hfound,
        seen_of_not_alias .empty hshape]
    | none =>
      rw [inlined_of_missing halias hfound, seen_of_missing htag hfound,
        seen_of_missing htag (findIn_empty _)]

/-- An alias that stands for an alias has no C++ type, before inlining and after. -/
theorem cxxType_ne_ok_of_chained (h : expr.isAlias = true)
    (found : expr.name.findIn aliases.get? = some shape) (chained : shape.isAlias = true)
    (context : String) (type : CxxType) :
    expr.cxxType aliases context ≠ .ok type ∧ shape.cxxType .empty context ≠ .ok type := by
  have htag : shape.head.tag = .string Kind.typeAlias.tag := isAlias_iff.1 chained
  refine ⟨?_, ?_⟩
  · have hdirect : shape.head.direct = .tag (.string Kind.typeAlias.tag) := by
      rw [Head.direct, htag, if_neg (by decide)]
    rw [cxxType_eq_seen, seen_of_entry (isAlias_iff.1 h) found, hdirect]
    intro hok
    obtain ⟨text, htext, hlisted⟩ := demand_eq_ok_iff.1 hok
    have hnone : Kind.typeOfTag? Kind.typeAlias.tag = none := by decide
    rw [← Document.string.inj htext, hnone] at hlisted
    cases hlisted
  · rw [cxxType_eq_seen, seen_of_missing htag (findIn_empty _)]
    intro hok
    obtain ⟨text, -, hlisted⟩ := demand_eq_ok_iff.1 hok
    cases hlisted

/-- Inlining keeps the type of a type expression, or it had none and has none. -/
theorem agrees_inlined (aliases : AliasTable) (expr : TypeExpr) :
    expr.Agrees (fun _ _ => True) aliases .empty (expr.inlined aliases) := by
  intro context
  rw [agree_true_iff]
  intro type
  by_cases hchained : expr.isAlias = true ∧
      ∃ shape, expr.name.findIn aliases.get? = some shape ∧ shape.isAlias = true
  · obtain ⟨halias, shape, hfound, hshape⟩ := hchained
    obtain ⟨hbefore, hafter⟩ := cxxType_ne_ok_of_chained halias hfound hshape context type
    rw [inlined_of_entry halias hfound]
    exact iff_of_false hbefore hafter
  · have hunchained : expr.isAlias = true →
        ∀ shape, expr.name.findIn aliases.get? = some shape → shape.isAlias = false := by
      intro halias shape hfound
      by_contra hshape
      exact hchained ⟨halias, shape, hfound, eq_true_of_ne_false hshape⟩
    have hsame := agrees_of_seenAlike (seenAlike_inlined hunchained) context
    rw [agree_eq_iff] at hsame
    rw [hsame]

end Place

/-! ## The whole schema -/

theorem Method.matches_inlined {types : TypeExpr → TypeExpr → Prop} {aliases : AliasTable}
    {m : Method} (h : ∀ expr ∈ m.types, types expr (expr.inlined aliases)) :
    m.Matches types (m.inlined aliases) := by
  refine ⟨rfl, h _ (List.mem_cons_self ..), ?_⟩
  rw [Method.inlined, List.forall₂_map_right_iff, List.forall₂_same]
  intro p hp
  exact ⟨rfl, h _ (List.mem_cons_of_mem _ (List.mem_map_of_mem hp))⟩

/-- A relation that inlining keeps at each place of each module matches the modules that stay with
those of the inlined schema. -/
theorem forall₂_entriesAgree_inlined {related : Fault → Fault → Prop} {schema : Schema}
    (h : ∀ spec ∈ schema.flatten.values, ∀ m ∈ spec.methods, ∀ expr ∈ m.types,
      expr.Agrees related spec.aliases .empty (expr.inlined spec.aliases)) :
    List.Forall₂ (EntriesAgree related) schema.flatten.entries schema.inlined.flatten.entries := by
  rw [flatten_inlined, OrderedMap.mapEntries, List.forall₂_map_right_iff, List.forall₂_same]
  intro entry hentry
  refine ⟨rfl, ?_⟩
  rw [ModuleSpec.Matches, ModuleSpec.inlined, List.forall₂_map_right_iff, List.forall₂_same]
  intro m hm
  exact Method.matches_inlined (h entry.2 (List.mem_map_of_mem hentry) m hm)

/-- Inlining the aliases of a schema preserves its header; and where no alias at a place stands for
an alias, it preserves the fault as well. -/
theorem generate_inlined (schema : Schema) (library moduleSpec : String) :
    (∀ files, (schema.generate library moduleSpec).result = .ok files ↔
      (schema.inlined.generate library moduleSpec).result = .ok files) ∧
    ((∀ spec ∈ schema.flatten.values, spec.Unchained) →
      (schema.inlined.generate library moduleSpec).result =
        (schema.generate library moduleSpec).result) := by
  refine ⟨?_, ?_⟩
  · have hentries : List.Forall₂ (EntriesAgree fun _ _ => True) schema.flatten.entries
        schema.inlined.flatten.entries :=
      forall₂_entriesAgree_inlined fun spec _ _ _ expr _ => agrees_inlined spec.aliases expr
    exact agree_true_iff.1 (generate_agrees (fun _ => trivial) hentries _ _ _ _)
  · intro hunchained
    have hentries : List.Forall₂ (EntriesAgree Eq) schema.flatten.entries
        schema.inlined.flatten.entries := by
      refine forall₂_entriesAgree_inlined ?_
      intro spec hspec m hm expr hexpr
      exact agrees_of_seenAlike (seenAlike_inlined (hunchained spec hspec m hm expr hexpr))
    exact (agree_eq_iff.1 (generate_agrees (fun _ => rfl) hentries _ _ _ _)).symm

/-- A module with a method whose result is an alias. -/
def aliasedSchema (aliases : AliasTable) : Schema where
  modules := .ofList [("Sample.js", some (.ofList [("Sample",
    { name := "Sample"
      aliases
      methods :=
        [{ name := .string "read"
           parameters := []
           returns := ⟨.string "TypeAliasTypeAnnotation", .string "Shape", [], none⟩ }] })]))]

/-- A table in which the alias stands for a type without a counterpart. -/
def unsupportedTable : AliasTable :=
  .ofList [("Shape", ⟨.string "AnyTypeAnnotation", .null, [], none⟩)]

theorem generate_aliasedSchema_inlined :
    (∀ spec ∈ (aliasedSchema unsupportedTable).flatten.values, spec.Unchained) ∧
      ((aliasedSchema unsupportedTable).inlined.generate "library" "specification").result =
        .error (.unsupportedType "return type of read" (.string "AnyTypeAnnotation")) := by
  have hunchained : ∀ spec ∈ (aliasedSchema unsupportedTable).flatten.values, spec.Unchained := by
    refine List.forall_mem_singleton.2 (List.forall_mem_singleton.2 ?_)
    refine List.forall_mem_singleton.2 ?_
    intro _ shape hshape
    obtain rfl := Option.some.inj hshape
    rfl
  refine ⟨hunchained, ?_⟩
  rw [(generate_inlined (aliasedSchema unsupportedTable) "library" "specification").2 hunchained]
  rfl

/-- A table in which the alias stands for itself. -/
def cyclicTable : AliasTable :=
  .ofList [("Shape", ⟨.string "TypeAliasTypeAnnotation", .string "Shape", [], none⟩)]

/-- An alias that stands for an alias fails before inlining and after, for different reasons. -/
theorem cyclicTable_faults_differ :
    ((aliasedSchema cyclicTable).generate "library" "specification").result =
        .error (.unsupportedType "return type of read" (.string "TypeAliasTypeAnnotation")) ∧
      ((aliasedSchema cyclicTable).inlined.generate "library" "specification").result =
        .error (.missingKey "Shape") :=
  ⟨rfl, rfl⟩

end NativeHeader
