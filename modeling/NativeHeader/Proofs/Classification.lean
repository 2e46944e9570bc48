import NativeHeader.Proofs.Outline

/-!
# All cases of the type mapping

What comes of a type expression is told by the expression that decides, which is the expression
itself or the one entry that its alias table has for it (`TypeExpr.ResolvesTo`).  An alias that the
entry stands for is not followed, so tables with chains and cycles of aliases need no special care.

`TypeExpr.Outcome` lists the cases: the alias that is not there, the reserved names, the rows of the
type table, the chained alias, and the tags without a row.  Every expression falls under a case,
none falls under cases with different outcomes, and the outcome is what is computed
(`cxxType_classification`).
-/

namespace NativeHeader

/-- The type table: each tag that has a C++ type, with that type. -/
def Kind.rows : List (String × CxxType) :=
  [("VoidTypeAnnotation", ⟨"void", .value⟩),
    ("StringTypeAnnotation", ⟨"jsi::String", .constReference⟩),
    ("NumberTypeAnnotation", ⟨"double", .value⟩),
    ("FloatTypeAnnotation", ⟨"double", .value⟩),
    ("Int32TypeAnnotation", ⟨"int", .value⟩),
    ("BooleanTypeAnnotation", ⟨"bool", .value⟩),
    ("GenericObjectTypeAnnotation", ⟨"jsi::Object", .constReference⟩),
    ("ObjectTypeAnnotation", ⟨"jsi::Object", .constReference⟩),
    ("ArrayTypeAnnotation", ⟨"jsi::Array", .constReference⟩),
    ("FunctionTypeAnnotation", ⟨"jsi::Function", .constReference⟩),
    ("GenericPromiseTypeAnnotation", ⟨"jsi::Value", .constReference⟩)]

/-- The rows are what stands under the tags of the kinds. -/
theorem Kind.mem_rows_iff {tag : String} {type : CxxType} :
    (tag, type) ∈ Kind.rows ↔ Kind.typeOfTag? tag = some type := by
  have hrows : Kind.rows =
      Kind.all.filterMap fun kind => kind.cxxType?.map fun type => (kind.tag, type) := by decide
  rw [hrows, List.mem_filterMap, Kind.typeOfTag?, Option.bind_eq_some_iff]
  constructor
  · rintro ⟨kind, -, hrow⟩
    obtain ⟨found, hfound, hpair⟩ := Option.map_eq_some_iff.1 hrow
    obtain ⟨rfl, rfl⟩ := Prod.mk.inj hpair
    exact ⟨kind, Kind.ofTag?_tag kind, hfound⟩
  · rintro ⟨kind, hkind, htype⟩
    obtain rfl := Kind.ofTag?_eq_some_iff.1 hkind
    exact ⟨kind, Kind.mem_all kind, by rw [htype, Option.map_some]⟩

/-- A list or an object, which is no key of any table. -/
def Document.IsCompound : Document → Prop
  | array _ => True
  | object _ => True
  | _ => False

/-- A fault at another place: only that of a type without counterpart says where it is. -/
def Fault.placedAt (place : String) : Fault → Fault
  | unsupportedType _ typeName => unsupportedType place typeName
  | fault => fault

/-! ## Looking a value up -/

section Demand

variable {α : Type} {key : Document} {table : String → Option α} {fault : Fault}

theorem demand_of_compound (h : key.IsCompound) : demand key table fault = .error .compoundKey := by
  cases key with
  | array items => rfl
  | object members => rfl
  | _ => exact h.elim

theorem demand_string (text : String) :
    demand (.string text) table fault =
      match table text with
      | some a => .ok a
      | none => .error fault := rfl

theorem demand_of_absent (simple : ¬ key.IsCompound)
    (absent : ∀ text, key = .string text → table text = none) :
    demand key table fault = .error fault := by
  cases key with
  | string text => rw [demand_string, absent text rfl]
  | array items => exact (simple trivial).elim
  | object members => exact (simple trivial).elim
  | _ => rfl

theorem demand_congr {table' : String → Option α}
    (h : ∀ text, key = .string text → table text = table' text) :
    demand key table fault = demand key table' fault := by
  cases key with
  | string text => rw [demand_string, demand_string, h text rfl]
  | _ => rfl

end Demand

namespace TypeExpr

variable {aliases : AliasTable} {context : String} {expr shape : TypeExpr}

/-! ## The cases -/

/-- The expression that decides: the expression itself, or for an alias the entry of its table. -/
inductive ResolvesTo (aliases : AliasTable) (expr : TypeExpr) : TypeExpr → Prop
  | itself (tag : expr.tag ≠ .string Kind.typeAlias.tag) : ResolvesTo aliases expr expr
  | entry {name : String} {shape : TypeExpr} (tag : expr.tag = .string Kind.typeAlias.tag)
      (key : expr.name = .string name) (found : aliases.get? name = some shape) :
      ResolvesTo aliases expr shape

/-- What comes of a type expression among the aliases of its module. -/
inductive Outcome (aliases : AliasTable) (context : String) (expr : TypeExpr) :
    Except Fault CxxType → Prop
  /-- An alias whose name is no key. -/
  | compoundAlias (tag : expr.tag = .string Kind.typeAlias.tag) (name : expr.name.IsCompound) :
      Outcome aliases context expr (.error .compoundKey)
  /-- An alias that the table does not have. -/
  | dangling (tag : expr.tag = .string Kind.typeAlias.tag) (simple : ¬ expr.name.IsCompound)
      (absent : ∀ name, expr.name = .string name → aliases.get? name = none) :
      Outcome aliases context expr (.error (.missingKey expr.name.text))
  /-- The reserved name that has a type. -/
  | rootTag {shape : TypeExpr} (resolves : ResolvesTo aliases expr shape)
      (tag : shape.tag = .string Kind.reserved.tag) (name : shape.name = .string "RootTag") :
      Outcome aliases context expr (.ok ⟨"double", .value⟩)
  /-- A reserved name that is no key. -/
  | compoundReserved {shape : TypeExpr} (resolves : ResolvesTo aliases expr shape)
      (tag : shape.tag = .string Kind.reserved.tag) (name : shape.name.IsCompound) :
      Outcome aliases context expr (.error .compoundKey)
  /-- Any other reserved name. -/
  | reserved {shape : TypeExpr} (resolves : ResolvesTo aliases expr shape)
      (tag : shape.tag = .string Kind.reserved.tag) (simple : ¬ shape.name.IsCompound)
      (other : shape.name ≠ .string "RootTag") :
      Outcome aliases context expr (.error (.unsupportedType context (.string shape.name.text)))
  /-- A tag of the type table. -/
  | row {shape : TypeExpr} {tag : String} {type : CxxType}
      (resolves : ResolvesTo aliases expr shape) (tagged : shape.tag = .string tag)
      (listed : (tag, type) ∈ Kind.rows) :
      Outcome aliases context expr (.ok type)
  /-- An alias that stands for an alias. -/
  | chained {shape : TypeExpr} (resolves : ResolvesTo aliases expr shape)
      (tag : shape.tag = .string Kind.typeAlias.tag) :
      Outcome aliases context expr
        (.error (.unsupportedType context (.string "TypeAliasTypeAnnotation")))
  /-- A tag that is no key. -/
  | compoundTag {shape : TypeExpr} (resolves : ResolvesTo aliases expr shape)
      (tag : shape.tag.IsCompound) : Outcome aliases context expr (.error .compoundKey)
  /-- Any other tag. -/
  | unlisted {shape : TypeExpr} (resolves : ResolvesTo aliases expr shape)
      (simple : ¬ shape.tag.IsCompound) (unreserved : shape.tag ≠ .string Kind.reserved.tag)
      (unchained : shape.tag ≠ .string Kind.typeAlias.tag)
      (absent : ∀ tag type, shape.tag = .string tag → (tag, type) ∉ Kind.rows) :
      Outcome aliases context expr (.error (.unsupportedType context shape.tag))

/-! ## The expression that decides -/

theorem ResolvesTo.resolve_eq (h : ResolvesTo aliases expr shape) :
    expr.resolve aliases = .ok shape := by
  cases h with
  | itself tag => exact resolve_of_not_alias aliases tag
  | entry tag key found =>
    rw [resolve_of_alias aliases tag, demand_eq_ok_iff]
    exact ⟨_, key, found⟩

/-- What comes of an expression is decided by the one it resolves to. -/
theorem ResolvesTo.cxxType_eq (h : ResolvesTo aliases expr shape) :
    expr.cxxType aliases context = shape.resolvedType context := by
  rw [cxxType, h.resolve_eq]
  rfl

theorem cxxType_of_unresolved {fault : Fault} (h : expr.resolve aliases = .error fault) :
    expr.cxxType aliases context = .error fault := by
  rw [cxxType, h]
  rfl

theorem typeOfReserved?_eq_none {name : String} (h : name ≠ "RootTag") :
    Kind.typeOfReserved? name = none := by
  have hname : (name == "RootTag") = false := by simpa using h
  simp [Kind.typeOfReserved?, Kind.reservedTypes, List.lookup_cons, hname]

theorem typeOfTag?_eq_none {tag : String} (h : ∀ type, (tag, type) ∉ Kind.rows) :
    Kind.typeOfTag? tag = none :=
  Option.eq_none_iff_forall_ne_some.2 fun type htype => h type (Kind.mem_rows_iff.2 htype)

/-- Each case has the outcome that it lists. -/
theorem Outcome.cxxType_eq {outcome : Except Fault CxxType}
    (h : Outcome aliases context expr outcome) : expr.cxxType aliases context = outcome := by
  have hunreserved : ∀ {shape : TypeExpr} {tag : String}, shape.tag = .string tag →
      tag ≠ Kind.reserved.tag → shape.head.tag ≠ .string Kind.reserved.tag :=
    fun htag hne h => hne (Document.string.inj (htag.symm.trans h))
  cases h with
  | compoundAlias tag name =>
    refine cxxType_of_unresolved ?_
    rw [resolve_of_alias aliases tag, demand_of_compound name]
  | dangling tag simple absent =>
    refine cxxType_of_unresolved ?_
    rw [resolve_of_alias aliases tag, demand_of_absent simple absent]
  | rootTag resolves tag name =>
    rw [resolves.cxxType_eq, resolvedType_of_reserved context tag, demand_eq_ok_iff]
    exact ⟨"RootTag", name, rfl⟩
  | compoundReserved resolves tag name =>
    rw [resolves.cxxType_eq, resolvedType_of_reserved context tag, demand_of_compound name]
  | reserved resolves tag simple other =>
    rw [resolves.cxxType_eq, resolvedType_of_reserved context tag, demand_of_absent simple]
    intro name hname
    exact typeOfReserved?_eq_none fun hroot => other (hname.trans (congrArg _ hroot))
  | @row shape tag type resolves tagged listed =>
    -- reserved names have no row, so the tag is not looked at as one of them
    have hne : tag ≠ Kind.reserved.tag := by
      rintro rfl
      have hnone : Kind.typeOfTag? Kind.reserved.tag = none := by decide
      cases hnone.symm.trans (Kind.mem_rows_iff.1 listed)
    rw [resolves.cxxType_eq, resolvedType_of_not_reserved context (hunreserved tagged hne),
      demand_eq_ok_iff]
    exact ⟨tag, tagged, Kind.mem_rows_iff.1 listed⟩
  | @chained shape resolves tag =>
    have hsimple : ¬ shape.tag.IsCompound := by
      rw [tag]
      exact id
    rw [resolves.cxxType_eq,
      resolvedType_of_not_reserved context (hunreserved tag (by decide)), demand_of_absent hsimple,
      tag]
    · rfl
    · intro text htext
      rw [← Document.string.inj (tag.symm.trans htext)]
      decide
  | @compoundTag shape resolves tag =>
    have hne : shape.head.tag ≠ .string Kind.reserved.tag := by
      intro h
      rw [show shape.tag = .string Kind.reserved.tag from h] at tag
      exact tag
    rw [resolves.cxxType_eq, resolvedType_of_not_reserved context hne, demand_of_compound tag]
  | unlisted resolves simple unreserved unchained absent =>
    rw [resolves.cxxType_eq, resolvedType_of_not_reserved context unreserved,
      demand_of_absent simple]
    exact fun tag htag => typeOfTag?_eq_none fun type => absent tag type htag

/-! ## No case is missing -/

/-- An expression that resolves falls under one of the cases of what it resolves to. -/
theorem ResolvesTo.exists_outcome (h : ResolvesTo aliases expr shape) (context : String) :
    ∃ outcome, Outcome aliases context expr outcome := by
  by_cases hreserved : shape.tag = .string Kind.reserved.tag
  · by_cases hcompound : shape.name.IsCompound
    · exact ⟨_, .compoundReserved h hreserved hcompound⟩
    · by_cases hroot : shape.name = .string "RootTag"
      · exact ⟨_, .rootTag h hreserved hroot⟩
      · exact ⟨_, .reserved h hreserved hcompound hroot⟩
  · by_cases hcompound : shape.tag.IsCompound
    · exact ⟨_, .compoundTag h hcompound⟩
    · by_cases halias : shape.tag = .string Kind.typeAlias.tag
      · exact ⟨_, .chained h halias⟩
      · by_cases hrow : ∃ tag type, shape.tag = .string tag ∧ (tag, type) ∈ Kind.rows
        · obtain ⟨tag, type, htag, hlisted⟩ := hrow
          exact ⟨_, .row h htag hlisted⟩
        · exact ⟨_, .unlisted h hcompound hreserved halias fun tag type htag hlisted =>
            hrow ⟨tag, type, htag, hlisted⟩⟩

theorem exists_outcome (aliases : AliasTable) (context : String) (expr : TypeExpr) :
    ∃ outcome, Outcome aliases context expr outcome := by
  by_cases halias : expr.tag = .string Kind.typeAlias.tag
  · by_cases hcompound : expr.name.IsCompound
    · exact ⟨_, .compoundAlias halias hcompound⟩
    · by_cases hfound : ∃ name shape, expr.name = .string name ∧ aliases.get? name = some shape
      · obtain ⟨name, shape, hname, hshape⟩ := hfound
        exact (ResolvesTo.entry halias hname hshape).exists_outcome context
      · refine ⟨_, .dangling halias hcompound fun name hname => ?_⟩
        exact Option.eq_none_iff_forall_ne_some.2 fun shape hshape =>
          hfound ⟨name, shape, hname, hshape⟩
  · exact (ResolvesTo.itself halias).exists_outcome context

theorem cxxType_eq_iff {outcome : Except Fault CxxType} :
    expr.cxxType aliases context = outcome ↔ Outcome aliases context expr outcome := by
  refine ⟨?_, Outcome.cxxType_eq⟩
  rintro rfl
  obtain ⟨outcome, h⟩ := exists_outcome aliases context expr
  rw [h.cxxType_eq]
  exact h

/-- Tables that have the same for the one name that is looked up give the same. -/
theorem cxxType_congr {other : AliasTable} (context : String)
    (h : ∀ name, expr.tag = .string Kind.typeAlias.tag → expr.name = .string name →
      other.get? name = aliases.get? name) :
    expr.cxxType other context = expr.cxxType aliases context := by
  by_cases halias : expr.tag = .string Kind.typeAlias.tag
  · rw [cxxType, cxxType, resolve_of_alias other halias, resolve_of_alias aliases halias,
      demand_congr fun name => h name halias]
  · rw [cxxType, cxxType, resolve_of_not_alias other halias, resolve_of_not_alias aliases halias]

/-- At another place the cases are the same, with the fault of that place. -/
theorem Outcome.placedAt {outcome : Except Fault CxxType} (place : String)
    (h : Outcome aliases context expr outcome) :
    Outcome aliases place expr (outcome.mapError (Fault.placedAt place)) := by
  cases h with
  | compoundAlias tag name => exact .compoundAlias tag name
  | dangling tag simple absent => exact .dangling tag simple absent
  | rootTag resolves tag name => exact .rootTag resolves tag name
  | compoundReserved resolves tag name => exact .compoundReserved resolves tag name
  | reserved resolves tag simple other => exact .reserved resolves tag simple other
  | row resolves tagged listed => exact .row resolves tagged listed
  | chained resolves tag => exact .chained resolves tag
  | compoundTag resolves tag => exact .compoundTag resolves tag
  | unlisted resolves simple unreserved unchained absent =>
    exact .unlisted resolves simple unreserved unchained absent

/-- What comes of a type expression is the outcome of the case that it falls under.  It depends on
the table only through the entry for the expression's own name, if the expression is an alias; and
the context stands, as it is given, in the fault of a type without counterpart, and counts for
nothing else. -/
theorem cxxType_classification (aliases : AliasTable) (context : String) (expr : TypeExpr) :
    (∀ outcome, expr.cxxType aliases context = outcome ↔ Outcome aliases context expr outcome) ∧
      (∀ other : AliasTable,
        (∀ name, expr.tag = .string Kind.typeAlias.tag → expr.name = .string name →
          other.get? name = aliases.get? name) →
        expr.cxxType other context = expr.cxxType aliases context) ∧
      ∀ place, expr.cxxType aliases place =
        (expr.cxxType aliases context).mapError (Fault.placedAt place) :=
  ⟨fun _ => cxxType_eq_iff, fun _ => cxxType_congr context,
    fun place => (Outcome.placedAt place (cxxType_eq_iff.1 rfl)).cxxType_eq⟩

/-- An alias that its table has as an alias for itself. -/
def loop : TypeExpr := ⟨.string "TypeAliasTypeAnnotation", .string "Loop", [], none⟩

def loopTable : AliasTable := .ofList [("Loop", loop)]

/-- The table of `loop` with a second alias before it. -/
def crowdedTable : AliasTable :=
  .ofList [("Count", ⟨.string "NumberTypeAnnotation", .null, [], none⟩), ("Loop", loop)]

theorem loop_is_not_followed :
    loop.cxxType loopTable "return type of f" =
        .error (.unsupportedType "return type of f" (.string "TypeAliasTypeAnnotation")) ∧
      loop.cxxType crowdedTable "return type of f" = loop.cxxType loopTable "return type of f" := by
  obtain ⟨houtcome, htable, -⟩ := cxxType_classification loopTable "return type of f" loop
  refine ⟨(houtcome _).2 (.chained (.entry rfl rfl rfl) rfl), htable crowdedTable ?_⟩
  intro name htag hname
  obtain rfl := Document.string.inj hname
  rfl

end TypeExpr

end NativeHeader
