import NativeHeader.Proofs.Interface

/-!
# The checks of a header

What can go wrong when a header is made is a list of checks: module by module in the order of the
flattened schema, method by method, first that the result has a C++ type, then that each parameter
has one, and last that the name of the method is a text.  Generating goes through the whole list and
ends with the fault of the first check that fails (`generate_ends_at_first_fault`).

A fault that reports an unsupported type tells the truth: the place that it names is one of the
header, and what it gives as found there is in no table.
-/

namespace NativeHeader

/-! ## Checks -/

/-- One check on the way to a header. -/
inductive Check where
  /-- That a type expression has a C++ type among the aliases of its module; the context says where
  it stands. -/
  | type (aliases : AliasTable) (context : String) (expr : TypeExpr)
  /-- That the name of a method is a text. -/
  | name (name : Document)

/-- The fault of a check, if it fails. -/
def Check.fault? : Check → Option Fault
  | type aliases context expr => NativeHeader.fault? (expr.cxxType aliases context)
  | name (.string _) => none
  | name _ => some .slotValueNotText

/-- The checks of a method, in the order in which they are made. -/
def Method.checks (aliases : AliasTable) (m : Method) : List Check :=
  .type aliases ("return type of " ++ m.name.text) m.returns ::
    (m.parameters.map fun p =>
      .type aliases ("param \"" ++ p.name.text ++ "\" in " ++ m.name.text) p.type) ++
    [.name m.name]

/-- The checks of all modules. -/
def Schema.checks (schema : Schema) : List Check :=
  schema.flatten.entries.flatMap fun entry =>
    entry.2.methods.flatMap (Method.checks entry.2.aliases)

/-- The places of a method where a type expression stands, each with the text that names it. -/
inductive Method.Place (m : Method) : String → TypeExpr → Prop
  | returns : m.Place ("return type of " ++ m.name.text) m.returns
  | parameter {p : Parameter} (h : p ∈ m.parameters) :
      m.Place ("param \"" ++ p.name.text ++ "\" in " ++ m.name.text) p.type

theorem Method.place_of_mem_checks {m : Method} {aliases : AliasTable} {check : Check}
    (h : check ∈ m.checks aliases) :
    (∃ context expr, m.Place context expr ∧ check = .type aliases context expr) ∨
      check = .name m.name := by
  simp only [Method.checks, List.mem_append, List.mem_cons, List.mem_map, List.not_mem_nil,
    or_false] at h
  rcases h with (rfl | ⟨p, hp, rfl⟩) | rfl
  · exact .inl ⟨_, _, .returns, rfl⟩
  · exact .inl ⟨_, _, .parameter hp, rfl⟩
  · exact .inr rfl

/-! ## The first fault -/

theorem fault?_contentOf (name : Document) :
    fault? (Template.contentOf name) = (Check.name name).fault? := by
  cases name <;> rfl

theorem Parameter.fault?_declaration (aliases : AliasTable) (method : Document) (p : Parameter) :
    fault? (p.declaration aliases method) =
      (Check.type aliases (parameterContext p.name method) p.type).fault? := by
  rw [Parameter.declaration, fault?_bind none (fun _ => rfl), Option.or_none]
  rfl

theorem Method.fault?_declaration (aliases : AliasTable) (m : Method) :
    fault? (m.declaration aliases) = (m.checks aliases).findSome? Check.fault? := by
  have hrender : ∀ (returns : CxxType) (parameters : List String),
      fault? (declarationTemplate.render
        [("return_value", .string returns.name), ("property_name", m.name),
          ("args", .string (", ".intercalate (CxxType.runtimeParameter :: parameters)))]) =
        (Check.name m.name).fault? := by
    intro returns parameters
    rw [render_declarationTemplate, fault?_map, fault?_contentOf]
  have hparameters : fault? (m.parameters.mapM (Parameter.declaration aliases m.name)) =
      m.parameters.findSome? fun p =>
        (Check.type aliases (parameterContext p.name m.name) p.type).fault? := by
    simp only [fault?_mapM, Parameter.fault?_declaration]
  have hchecks : (m.checks aliases).findSome? Check.fault? =
      (Check.type aliases (returnContext m.name) m.returns).fault?.or
        ((m.parameters.findSome? fun p =>
          (Check.type aliases (parameterContext p.name m.name) p.type).fault?).or
          (Check.name m.name).fault?) := by
    rw [Method.checks, List.cons_append, findSome?_cons_eq_or, List.findSome?_append,
      List.findSome?_map, List.findSome?_singleton]
    rfl
  rw [hchecks, Method.declaration, fault?_bind _ fun returns => fault?_bind _ fun parameters =>
    hrender returns parameters, hparameters]
  rfl

theorem ModuleSpec.fault?_classText (spec : ModuleSpec) (name : String) :
    fault? (spec.classText name).result =
      (spec.methods.flatMap (Method.checks spec.aliases)).findSome? Check.fault? := by
  have hwalk : fault? (spec.methods.mapM (Method.declaration spec.aliases)) =
      (spec.methods.flatMap (Method.checks spec.aliases)).findSome? Check.fault? := by
    rw [fault?_mapM, findSome?_flatMap]
    simp only [Method.fault?_declaration]
  simp only [ModuleSpec.classText, Traced.result_bind, Traced.result_report, Traced.result_of,
    render_classTemplate]
  show fault? (spec.methods.mapM (Method.declaration spec.aliases) >>= _) = _
  rw [fault?_bind none fun _ => rfl, Option.or_none, hwalk]

/-- Generating a header fails with the fault of the first check that fails. -/
theorem fault?_generate (schema : Schema) (library moduleSpec : String) :
    fault? (schema.generate library moduleSpec).result = schema.checks.findSome? Check.fault? := by
  rw [result_generate, fault?_map]
  simp only [headerText, Traced.result_bind, Traced.result_mapM, Traced.result_of,
    render_fileTemplate]
  rw [fault?_bind none fun _ => rfl, Option.or_none, fault?_mapM, Schema.checks, findSome?_flatMap]
  simp only [ModuleSpec.fault?_classText]

/-- Generating ends with the fault of the first check that fails; and if that is an unsupported
type, the fault names a place of a module that stays, and a tag or a reserved name that is listed
nowhere and stands at that place, or at the alias that the place goes through. -/
theorem generate_ends_at_first_fault (schema : Schema) (library moduleSpec : String) :
    (∀ fault, (schema.generate library moduleSpec).result = .error fault ↔
      ∃ before check after, schema.checks = before ++ check :: after ∧
        (∀ earlier ∈ before, earlier.fault? = none) ∧ check.fault? = some fault) ∧
    ∀ context typeName,
      (schema.generate library moduleSpec).result = .error (.unsupportedType context typeName) →
        Fault.message (.unsupportedType context typeName) =
          some ("Unsupported type for " ++ context ++ ". Found: " ++ typeName.text) ∧
        ∃ entry ∈ schema.flatten.entries, ∃ method ∈ entry.2.methods, ∃ expr,
          method.Place context expr ∧
            ∃ shape, expr.head.LeadsTo (AliasTable.heads entry.2.aliases).get? shape ∧
              shape.Unlisted typeName := by
  have hfirst : ∀ fault, (schema.generate library moduleSpec).result = .error fault ↔
      ∃ before check after, schema.checks = before ++ check :: after ∧
        (∀ earlier ∈ before, earlier.fault? = none) ∧ check.fault? = some fault := by
    intro fault
    rw [← fault?_eq_some_iff, fault?_generate, List.findSome?_eq_some_iff]
    constructor
    · rintro ⟨before, check, after, hchecks, hcheck, hbefore⟩
      exact ⟨before, check, after, hchecks, hbefore, hcheck⟩
    · rintro ⟨before, check, after, hchecks, hbefore, hcheck⟩
      exact ⟨before, check, after, hchecks, hcheck, hbefore⟩
  refine ⟨hfirst, fun context typeName h => ⟨rfl, ?_⟩⟩
  -- the check that failed belongs to a method, and it is not the one of its name
  obtain ⟨before, check, after, hchecks, -, hcheck⟩ := (hfirst _).1 h
  have hmem : check ∈ schema.checks := by
    rw [hchecks]
    exact List.mem_append_right _ (List.mem_cons_self ..)
  rw [Schema.checks, List.mem_flatMap] at hmem
  obtain ⟨entry, hentry, hmem⟩ := hmem
  obtain ⟨method, hmethod, hmem⟩ := List.mem_flatMap.1 hmem
  rcases Method.place_of_mem_checks hmem with ⟨place, expr, hplace, rfl⟩ | rfl
  · obtain ⟨rfl, hunlisted⟩ := unlisted_of_cxxType (fault?_eq_some_iff.1 hcheck)
    exact ⟨entry, hentry, method, hmethod, expr, hplace, hunlisted⟩
  · cases hname : method.name <;> rw [hname] at hcheck <;> cases hcheck

/-- A type expression that is only a tag. -/
def TypeExpr.tagged (tag : String) : TypeExpr :=
  { tag := .string tag, name := .null, properties := [], elementType := none }

/-- A method with two faults of its own, a parameter of no known type and a name that is no text,
before a method with a third. -/
def faultySchema : Schema where
  modules := .ofList [("Sample.js", some (.ofList [("Sample",
    { name := "Sample"
      aliases := .empty
      methods :=
        [{ name := .integer (.ofDigit 3)
           parameters := [⟨.string "x", .tagged "AnyTypeAnnotation"⟩]
           returns := .tagged "VoidTypeAnnotation" },
         { name := .string "later"
           parameters := []
           returns := .tagged "NullTypeAnnotation" }] })]))]

theorem faultySchema_ends_at_first_fault :
    (faultySchema.generate "library" "specification").result =
        .error (.unsupportedType "param \"x\" in 3" (.string "AnyTypeAnnotation")) ∧
      ∃ entry ∈ faultySchema.flatten.entries, ∃ method ∈ entry.2.methods, ∃ expr,
        method.Place "param \"x\" in 3" expr := by
  obtain ⟨hfirst, hplace⟩ := generate_ends_at_first_fault faultySchema "library" "specification"
  have hresult := (hfirst (.unsupportedType "param \"x\" in 3" (.string "AnyTypeAnnotation"))).2
    ⟨[.type .empty "return type of 3" (.tagged "VoidTypeAnnotation")],
      .type .empty "param \"x\" in 3" (.tagged "AnyTypeAnnotation"),
      [.name (.integer (.ofDigit 3)),
        .type .empty "return type of later" (.tagged "NullTypeAnnotation"),
        .name (.string "later")], rfl, List.forall_mem_singleton.2 rfl, rfl⟩
  obtain ⟨-, entry, hentry, method, hmethod, expr, h, -⟩ := hplace _ _ hresult
  exact ⟨hresult, entry, hentry, method, hmethod, expr, h⟩

end NativeHeader
