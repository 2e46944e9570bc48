import NativeHeader.Proofs.Checks
import NativeHeader.Proofs.Classification
import NativeHeader.Proofs.Loading

/-!
# What can still go wrong after loading

A document that can be loaded may still have no header.  There are four reasons, each of which can
be pointed at in the outline of the document (`Outline.Fails`): a type without counterpart, an alias
that its module does not have, a tag or a name that is looked up and is a list or an object, and a
method whose name is no text.  No value is asked for a member that it lacks, and the three templates
of the header have a slot for each value that they are given and a value for each slot, so their own
faults never occur: `loaded_documents_fail_as_outlined`.
-/

namespace NativeHeader

open Document

/-! ## Reasons for a fault -/

/-- A value is looked up that is no key of any table: the name of an alias, or after the hop a
reserved name or a tag. -/
inductive Head.LooksUpCompound (find : String → Option Head) (head : Head) : Prop
  | aliasName (tag : head.tag = .string Kind.typeAlias.tag) (compound : head.name.IsCompound)
  | reservedName {shape : Head} (leads : head.LeadsTo find shape)
      (tag : shape.tag = .string Kind.reserved.tag) (compound : shape.name.IsCompound)
  | tag {shape : Head} (leads : head.LeadsTo find shape) (compound : shape.tag.IsCompound)

/-- An alias that is not in the table of its module. -/
structure Head.Dangles (find : String → Option Head) (head : Head) : Prop where
  tag : head.tag = .string Kind.typeAlias.tag
  simple : ¬ head.name.IsCompound
  absent : ∀ name, head.name = .string name → find name = none

namespace Outline

/-- The places of a method where a type stands, each with the text that names it. -/
inductive Method.Place (m : Method) : String → Head → Prop
  | returns : m.Place ("return type of " ++ m.name.text) m.returns
  | parameter {p : Parameter} (h : p ∈ m.parameters) :
      m.Place ("param \"" ++ p.name.text ++ "\" in " ++ m.name.text) p.type

/-- The reasons for which the modules of an outline may have no header, each with its fault. -/
inductive Fails (outline : Outline) : Fault → Prop
  /-- A type has no counterpart after the one hop. -/
  | unsupported {m : Module} {method : Method} {context : String} {head shape : Head}
      {typeName : Document} (module : m ∈ outline) (declared : method ∈ m.methods)
      (place : method.Place context head) (leads : head.LeadsTo m.aliases.get? shape)
      (unlisted : shape.Unlisted typeName) : Fails outline (.unsupportedType context typeName)
  /-- An alias is not there. -/
  | dangling {m : Module} {method : Method} {context : String} {head : Head} (module : m ∈ outline)
      (declared : method ∈ m.methods) (place : method.Place context head)
      (dangles : head.Dangles m.aliases.get?) : Fails outline (.missingKey head.name.text)
  /-- A list or an object is looked up. -/
  | compound {m : Module} {method : Method} {context : String} {head : Head} (module : m ∈ outline)
      (declared : method ∈ m.methods) (place : method.Place context head)
      (looked : head.LooksUpCompound m.aliases.get?) : Fails outline .compoundKey
  /-- The name of a method is no text. -/
  | notText {m : Module} {method : Method} (module : m ∈ outline) (declared : method ∈ m.methods)
      (kind : ∀ text, method.name ≠ .string text) : Fails outline .slotValueNotText

end Outline

/-! ## Faults of types -/

section Types

variable {aliases : AliasTable} {context : String} {expr : TypeExpr}

theorem leadsTo_of_resolvesTo {shape : TypeExpr} (h : expr.ResolvesTo aliases shape) :
    expr.head.LeadsTo (AliasTable.heads aliases).get? shape.head :=
  leadsTo_of_resolve h.resolve_eq

/-- Every fault of a type expression has one of three reasons. -/
theorem reason_of_cxxType {fault : Fault} (h : expr.cxxType aliases context = .error fault) :
    (∃ typeName shape, fault = .unsupportedType context typeName ∧
        expr.head.LeadsTo (AliasTable.heads aliases).get? shape ∧ shape.Unlisted typeName) ∨
      (fault = .missingKey expr.head.name.text ∧
        expr.head.Dangles (AliasTable.heads aliases).get?) ∨
      (fault = .compoundKey ∧ expr.head.LooksUpCompound (AliasTable.heads aliases).get?) := by
  have hunsupported : ∀ typeName, fault = .unsupportedType context typeName →
      ∃ typeName shape, fault = .unsupportedType context typeName ∧
        expr.head.LeadsTo (AliasTable.heads aliases).get? shape ∧ shape.Unlisted typeName := by
    rintro typeName rfl
    obtain ⟨-, shape, hleads, hunlisted⟩ := unlisted_of_cxxType h
    exact ⟨typeName, shape, rfl, hleads, hunlisted⟩
  -- the cases of the type mapping, of which two are no faults
  generalize hresult : (Except.error fault : Except Fault CxxType) = result at h
  cases TypeExpr.cxxType_eq_iff.1 h with
  | compoundAlias tag name =>
    exact .inr (.inr ⟨Except.error.inj hresult, .aliasName tag name⟩)
  | dangling tag simple absent =>
    refine .inr (.inl ⟨Except.error.inj hresult, tag, simple, fun name hname => ?_⟩)
    rw [get?_heads, absent name hname, Option.map_none]
  | compoundReserved resolves tag name =>
    exact .inr (.inr ⟨Except.error.inj hresult,
      .reservedName (leadsTo_of_resolvesTo resolves) tag name⟩)
  | compoundTag resolves tag =>
    exact .inr (.inr ⟨Except.error.inj hresult, .tag (leadsTo_of_resolvesTo resolves) tag⟩)
  | reserved => exact .inl (hunsupported _ (Except.error.inj hresult))
  | chained => exact .inl (hunsupported _ (Except.error.inj hresult))
  | unlisted => exact .inl (hunsupported _ (Except.error.inj hresult))
  | rootTag => cases hresult
  | row => cases hresult

end Types

/-! ## Faults of checks -/

theorem place_outline {m : Method} {context : String} {expr : TypeExpr}
    (h : m.Place context expr) : m.outline.Place context expr.head := by
  cases h with
  | returns => exact .returns
  | @parameter p h =>
    have hmem : p.outline ∈ m.outline.parameters := List.mem_map_of_mem h
    have hplace := Outline.Method.Place.parameter hmem
    exact hplace

/-- A check that fails points at a reason in the outline. -/
theorem fails_of_check {schema : Schema} {check : Check} {fault : Fault}
    (hmem : check ∈ schema.checks) (hfault : check.fault? = some fault) :
    schema.outline.Fails fault := by
  -- the check belongs to a method of a module that stays
  obtain ⟨entry, hentry, hmem⟩ := List.mem_flatMap.1 hmem
  obtain ⟨method, hmethod, hmem⟩ := List.mem_flatMap.1 hmem
  have hmodule : entry.2.outline entry.1 ∈ schema.outline := List.mem_map.2 ⟨entry, hentry, rfl⟩
  have hdeclared : method.outline ∈ (entry.2.outline entry.1).methods :=
    List.mem_map.2 ⟨method, hmethod, rfl⟩
  rcases Method.place_of_mem_checks hmem with ⟨context, expr, hplace, rfl⟩ | rfl
  · have hplace := place_outline hplace
    rcases reason_of_cxxType (fault?_eq_some_iff.1 hfault) with
      ⟨typeName, shape, rfl, hleads, hunlisted⟩ | ⟨rfl, hdangles⟩ | ⟨rfl, hlooked⟩
    · exact .unsupported hmodule hdeclared hplace hleads hunlisted
    · exact .dangling hmodule hdeclared hplace hdangles
    · exact .compound hmodule hdeclared hplace hlooked
  · have hkind : ∀ text, method.name ≠ .string text := by
      intro text htext
      rw [htext] at hfault
      cases hfault
    obtain rfl : fault = .slotValueNotText := by
      cases hname : method.name with
      | string text => exact absurd hname (hkind text)
      | _ =>
        rw [hname] at hfault
        exact (Option.some.inj hfault).symm
    exact .notText hmodule hdeclared hkind

/-- Generating fails only for a reason that is in the outline. -/
theorem fails_of_generate {schema : Schema} {library moduleSpec : String} {fault : Fault}
    (h : (schema.generate library moduleSpec).result = .error fault) :
    schema.outline.Fails fault := by
  rw [← fault?_eq_some_iff, fault?_generate] at h
  obtain ⟨check, hmem, hfault⟩ := List.exists_of_findSome?_eq_some h
  exact fails_of_check hmem hfault

/-- A declaration can only be refused for the name of its method. -/
theorem render_declarationTemplate_eq_error {returns arguments : String} {name : Document}
    {fault : Fault}
    (h : declarationTemplate.render [("return_value", .string returns), ("property_name", name),
      ("args", .string arguments)] = .error fault) :
    fault = .slotValueNotText ∧ ∀ text, name ≠ .string text := by
  rw [render_declarationTemplate] at h
  cases name with
  | string text => cases h
  | _ => exact ⟨(Except.error.inj h).symm, nofun⟩

/-- Generating from a loaded document succeeds, or it fails for a reason that is in the outline of
the document, and with the fault that goes with the reason.  So it never asks a value for a member
that it lacks; and the templates are never given a value without a slot, nor lack a value, whatever
is put into them. -/
theorem loaded_documents_fail_as_outlined {raw : Document} {schema : Schema}
    (loaded : Schema.load raw = .ok schema) (library moduleSpec : String) :
    (Succeeds (schema.generate library moduleSpec).result ∨
      ∃ fault, (schema.generate library moduleSpec).result = .error fault ∧
        raw.outline.Fails fault) ∧
    (schema.generate library moduleSpec).result ≠ .error .membersOfNonObject ∧
    (∀ (returns arguments : String) (name : Document) (fault : Fault),
      declarationTemplate.render [("return_value", .string returns), ("property_name", name),
          ("args", .string arguments)] = .error fault →
        fault = .slotValueNotText ∧ ∀ text, name ≠ .string text) ∧
    (∀ name declarations : String, Succeeds (classTemplate.render
      [("module_name", .string name), ("module_properties", .string declarations)])) ∧
    ∀ classes : String, Succeeds (fileTemplate.render [("modules", .string classes)]) := by
  have hfails : ∀ fault, (schema.generate library moduleSpec).result = .error fault →
      raw.outline.Fails fault := by
    intro fault h
    rw [← outline_of_load loaded]
    exact fails_of_generate h
  refine ⟨?_, fun h => ?_, fun _ _ _ _ => render_declarationTemplate_eq_error, fun _ _ => ?_,
    fun _ => ?_⟩
  · cases hresult : (schema.generate library moduleSpec).result with
    | ok header => exact .inl (succeeds_ok header)
    | error fault => exact .inr ⟨fault, rfl, hfails fault hresult⟩
  · cases hfails _ h
  · rw [render_classTemplate]
    exact succeeds_ok _
  · rw [render_fileTemplate]
    exact succeeds_ok _

/-- A document of one module, whose method has a number for the name of an alias. -/
def danglingDocument : Document :=
  .object [("modules", .object [("All.js", .object [("nativeModules", .object
    [("Sample", .object [("properties", .array [.object
      [("name", .string "f"),
        ("typeAnnotation", .object
          [("params", .array []),
            ("returnTypeAnnotation", .object
              [("type", .string "TypeAliasTypeAnnotation"),
                ("name", .integer (.ofDigit 3))])])]])])])])])]

/-- The alias is looked up by its number, and named by the text of that. -/
theorem danglingDocument_fails :
    ∃ schema, Schema.load danglingDocument = .ok schema ∧
      (schema.generate "library" "specification").result = .error (.missingKey "3") ∧
        danglingDocument.outline.Fails (.missingKey "3") := by
  have h : (Schema.load danglingDocument).toOption.any (fun schema =>
      match (schema.generate "library" "specification").result with
      | .error (.missingKey key) => key = "3"
      | _ => false) = true := by decide +kernel
  obtain ⟨schema, hload, htest⟩ := exists_of_toOption_any h
  obtain ⟨houtcome, -⟩ := loaded_documents_fail_as_outlined hload "library" "specification"
  rcases houtcome with ⟨header, hheader⟩ | ⟨fault, hresult, hfails⟩
  · rw [hheader] at htest
    cases htest
  · rw [hresult] at htest
    cases fault with
    | missingKey key =>
      obtain rfl : key = "3" := of_decide_eq_true htest
      exact ⟨schema, hload, hresult, hfails⟩
    | _ => cases htest

end NativeHeader
