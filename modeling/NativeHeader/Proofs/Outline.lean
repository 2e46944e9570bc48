import NativeHeader.Header
import NativeHeader.Proofs.Sequence

/-!
# Outlines

The generator looks at a small part of a schema.  Of a type expression it sees only the head, that
is the tag and the name; of an alias table the heads of the shapes; of a module its name and, method
by method, the names and heads at the places of a declaration.  The `Outline` of a schema keeps just
that, module by module in the order of the flattened schema.

A head leads to the head that decides, in at most one hop through the alias table (`Head.LeadsTo`),
and that one has the C++ type that stands under its tag or its reserved name (`Head.Means`).  The
main result is `cxxType_eq_ok_iff`: a type expression is given exactly the type that its head
denotes, wherever the expression stands.
-/

namespace NativeHeader

/-! ## Heads -/

/-- What decides the C++ type of a type expression: its tag, and the name that goes with it. -/
structure Head where
  tag : Document
  name : Document

namespace Head

variable {find : String → Option Head} {head shape : Head} {type : CxxType}

/-- The head that decides: the head itself, or, for an alias, the one that the table has under the
name of the alias. -/
inductive LeadsTo (find : String → Option Head) : Head → Head → Prop
  | itself {head : Head} (tag : head.tag ≠ .string Kind.typeAlias.tag) : LeadsTo find head head
  | entry {head shape : Head} {name : String} (tag : head.tag = .string Kind.typeAlias.tag)
      (key : head.name = .string name) (found : find name = some shape) : LeadsTo find head shape

/-- The C++ type that stands under the tag of a head, or under its name if it is a reserved one. -/
inductive Means : Head → CxxType → Prop
  | byTag {head : Head} {type : CxxType} {text : String} (tag : head.tag = .string text)
      (listed : Kind.typeOfTag? text = some type) : Means head type
  | byName {head : Head} {type : CxxType} {text : String}
      (tag : head.tag = .string Kind.reserved.tag) (name : head.name = .string text)
      (listed : Kind.typeOfReserved? text = some type) : Means head type

/-- The C++ type of a head among the aliases of its module. -/
def Denotes (find : String → Option Head) (head : Head) (type : CxxType) : Prop :=
  ∃ shape, LeadsTo find head shape ∧ shape.Means type

/-- The name or tag of a head under which the table has no C++ type. -/
inductive Unlisted : Head → Document → Prop
  | name {head : Head} (tag : head.tag = .string Kind.reserved.tag)
      (absent : ∀ text, head.name = .string text → Kind.typeOfReserved? text = none) :
      Unlisted head (.string head.name.text)
  | tag {head : Head} (tag : head.tag ≠ .string Kind.reserved.tag)
      (absent : ∀ text, head.tag = .string text → Kind.typeOfTag? text = none) :
      Unlisted head head.tag

/-- A head whose tag is listed needs no hop. -/
theorem denotes_of_tag {text : String} (tag : head.tag = .string text)
    (listed : Kind.typeOfTag? text = some type) : head.Denotes find type := by
  refine ⟨head, .itself fun halias => ?_, .byTag tag listed⟩
  have htext : text = Kind.typeAlias.tag := Document.string.inj (tag.symm.trans halias)
  have hnone : Kind.typeOfTag? Kind.typeAlias.tag = none := by decide
  rw [htext, hnone] at listed
  cases listed

theorem LeadsTo.unique {other : Head} (h : LeadsTo find head shape)
    (h' : LeadsTo find head other) : shape = other := by
  cases h with
  | itself tag =>
    cases h' with
    | itself _ => rfl
    | entry tag' _ _ => exact absurd tag' tag
  | entry tag key found =>
    cases h' with
    | itself tag' => exact absurd tag tag'
    | entry _ key' found' =>
      have hname := Document.string.inj (key.symm.trans key')
      subst hname
      exact Option.some.inj (found.symm.trans found')

theorem Means.unique {other : CxxType} (h : head.Means type) (h' : head.Means other) :
    type = other := by
  have hreserved : Kind.typeOfTag? Kind.reserved.tag = none := by decide
  cases h with
  | byTag tag listed =>
    cases h' with
    | byTag tag' listed' =>
      have htag := Document.string.inj (tag.symm.trans tag')
      subst htag
      exact Option.some.inj (listed.symm.trans listed')
    | byName tag' _ _ =>
      have htag := Document.string.inj (tag.symm.trans tag')
      rw [htag, hreserved] at listed
      cases listed
  | byName tag name listed =>
    cases h' with
    | byTag tag' listed' =>
      have htag := Document.string.inj (tag'.symm.trans tag)
      rw [htag, hreserved] at listed'
      cases listed'
    | byName _ name' listed' =>
      have hname := Document.string.inj (name.symm.trans name')
      subst hname
      exact Option.some.inj (listed.symm.trans listed')

theorem Denotes.unique {other : CxxType} (h : head.Denotes find type)
    (h' : head.Denotes find other) : type = other := by
  obtain ⟨shape, hlead, hmeans⟩ := h
  obtain ⟨shape', hlead', hmeans'⟩ := h'
  have hshape := hlead.unique hlead'
  subst hshape
  exact hmeans.unique hmeans'

end Head

/-! ## Outlines -/

namespace Outline

/-- A parameter: its name and the head of its type. -/
structure Parameter where
  name : Document
  type : Head

/-- A method: its name, the head of its result, and its parameters. -/
structure Method where
  name : Document
  returns : Head
  parameters : List Parameter

/-- A module: the name of its class, the heads of its aliases, and its methods. -/
structure Module where
  name : String
  aliases : OrderedMap Head
  methods : List Method

end Outline

/-- What the generator looks at: the modules in the order of the flattened schema. -/
abbrev Outline := List Outline.Module

/-- The head of a type expression. -/
def TypeExpr.head (expr : TypeExpr) : Head := { tag := expr.tag, name := expr.name }

/-- The heads of the aliases of a module. -/
def AliasTable.heads (aliases : AliasTable) : OrderedMap Head :=
  aliases.mapEntries fun _ shape => shape.head

def Parameter.outline (p : Parameter) : Outline.Parameter := { name := p.name, type := p.type.head }

def Method.outline (m : Method) : Outline.Method :=
  { name := m.name, returns := m.returns.head, parameters := m.parameters.map Parameter.outline }

/-- The outline of a module under the name it is registered with. -/
def ModuleSpec.outline (spec : ModuleSpec) (name : String) : Outline.Module :=
  { name := spec.nameOr name, aliases := AliasTable.heads spec.aliases,
    methods := spec.methods.map Method.outline }

/-- The outline of a map of modules, each under its key. -/
def outlineOf (modules : OrderedMap ModuleSpec) : Outline :=
  modules.entries.map fun entry => entry.2.outline entry.1

def Schema.outline (schema : Schema) : Outline := outlineOf schema.flatten

/-! ## Looking a value up -/

theorem lookupIn_eq_ok_some_iff {α : Type} {key : Document} {table : String → Option α} {a : α} :
    key.lookupIn table = .ok (some a) ↔ ∃ text, key = .string text ∧ table text = some a := by
  cases key <;> simp [Document.lookupIn, Document.key?, bind, Except.bind, pure, Except.pure]

/-- What a table has under a key, where it must have something. -/
def demand {α : Type} (key : Document) (table : String → Option α) (fault : Fault) :
    Except Fault α := do
  match ← key.lookupIn table with
  | some a => return a
  | none => throw fault

section Demand

variable {α : Type} {key : Document} {table : String → Option α} {fault : Fault}

theorem demand_eq_ok_iff {a : α} :
    demand key table fault = .ok a ↔ ∃ text, key = .string text ∧ table text = some a := by
  rw [demand, bind_eq_ok_iff, ← lookupIn_eq_ok_some_iff]
  constructor
  · rintro ⟨found, hfound, h⟩
    cases found with
    | none => cases h
    | some b => rw [hfound, Except.ok.inj h]
  · intro h
    exact ⟨some a, h, rfl⟩

/-- What could be a key but is not found gives the fault of the place. -/
theorem demand_eq_error {e : Fault} (h : demand key table fault = .error e)
    (he : e ≠ .compoundKey) :
    e = fault ∧ ∀ text, key = .string text → table text = none := by
  rw [demand] at h
  cases hfound : key.lookupIn table with
  | error e' =>
    rw [hfound] at h
    have he' := Except.error.inj h
    cases key <;> simp [Document.lookupIn, Document.key?, bind, Except.bind, pure, Except.pure]
      at hfound <;> exact absurd (he' ▸ hfound.symm) he
  | ok found =>
    rw [hfound] at h
    cases found with
    | some b => cases h
    | none =>
      refine ⟨(Except.error.inj h).symm, ?_⟩
      rintro text rfl
      simpa [Document.lookupIn, Document.key?, bind, Except.bind, pure, Except.pure] using hfound

end Demand

/-! ## The type of a type expression -/

theorem kind?_eq_some_iff {expr : TypeExpr} {kind : Kind} :
    expr.kind? = some kind ↔ expr.head.tag = .string kind.tag := by
  unfold TypeExpr.kind?
  split
  · next text htag =>
    simp [Kind.ofTag?_eq_some_iff, TypeExpr.head, htag]
  · next hno =>
    constructor
    · intro h
      cases h
    · intro h
      exact absurd h (hno _)

theorem isAlias_iff {expr : TypeExpr} :
    expr.isAlias = true ↔ expr.head.tag = .string Kind.typeAlias.tag := by
  rw [TypeExpr.isAlias, decide_eq_true_iff, kind?_eq_some_iff]

theorem isReserved_iff {expr : TypeExpr} :
    expr.isReserved = true ↔ expr.head.tag = .string Kind.reserved.tag := by
  rw [TypeExpr.isReserved, decide_eq_true_iff, kind?_eq_some_iff]

theorem get?_heads (aliases : AliasTable) (name : String) :
    (AliasTable.heads aliases).get? name = (aliases.get? name).map TypeExpr.head :=
  OrderedMap.get?_mapEntries ..

theorem resolve_of_not_alias {expr : TypeExpr} (aliases : AliasTable)
    (h : expr.head.tag ≠ .string Kind.typeAlias.tag) : expr.resolve aliases = .ok expr := by
  rw [TypeExpr.resolve, if_neg (fun hc => h (isAlias_iff.1 hc))]
  rfl

theorem resolve_of_alias {expr : TypeExpr} (aliases : AliasTable)
    (h : expr.head.tag = .string Kind.typeAlias.tag) :
    expr.resolve aliases = demand expr.name aliases.get? (.missingKey expr.name.text) := by
  rw [TypeExpr.resolve, if_pos (isAlias_iff.2 h), demand]
  refine bind_congr fun found => ?_
  cases found <;> rfl

theorem resolvedType_of_reserved {expr : TypeExpr} (context : String)
    (h : expr.head.tag = .string Kind.reserved.tag) :
    expr.resolvedType context =
      demand expr.name Kind.typeOfReserved?
        (.unsupportedType context (.string expr.name.text)) := by
  rw [TypeExpr.resolvedType, if_pos (isReserved_iff.2 h), demand]
  refine bind_congr fun found => ?_
  cases found <;> rfl

theorem resolvedType_of_not_reserved {expr : TypeExpr} (context : String)
    (h : expr.head.tag ≠ .string Kind.reserved.tag) :
    expr.resolvedType context =
      demand expr.tag Kind.typeOfTag? (.unsupportedType context expr.tag) := by
  rw [TypeExpr.resolvedType, if_neg (fun hc => h (isReserved_iff.1 hc)), demand]
  refine bind_congr fun found => ?_
  cases found <;> rfl

/-- Resolving an expression leads to the head that decides. -/
theorem leadsTo_of_resolve {aliases : AliasTable} {expr shape : TypeExpr}
    (h : expr.resolve aliases = .ok shape) :
    expr.head.LeadsTo (AliasTable.heads aliases).get? shape.head := by
  by_cases htag : expr.head.tag = .string Kind.typeAlias.tag
  · rw [resolve_of_alias aliases htag, demand_eq_ok_iff] at h
    obtain ⟨name, hname, hentry⟩ := h
    exact .entry htag hname (by rw [get?_heads, hentry, Option.map_some])
  · rw [resolve_of_not_alias aliases htag] at h
    obtain rfl := Except.ok.inj h
    exact .itself htag

theorem resolve_of_leadsTo {aliases : AliasTable} {expr : TypeExpr} {head : Head}
    (h : expr.head.LeadsTo (AliasTable.heads aliases).get? head) :
    ∃ shape, expr.resolve aliases = .ok shape ∧ shape.head = head := by
  cases h with
  | itself tag => exact ⟨expr, resolve_of_not_alias aliases tag, rfl⟩
  | entry tag key found =>
    rw [get?_heads, Option.map_eq_some_iff] at found
    obtain ⟨shape, hshape, rfl⟩ := found
    refine ⟨shape, ?_, rfl⟩
    rw [resolve_of_alias aliases tag, demand_eq_ok_iff]
    exact ⟨_, key, hshape⟩

theorem resolvedType_eq_ok_iff {context : String} {expr : TypeExpr} {type : CxxType} :
    expr.resolvedType context = .ok type ↔ expr.head.Means type := by
  have hreserved : Kind.typeOfTag? Kind.reserved.tag = none := by decide
  by_cases htag : expr.head.tag = .string Kind.reserved.tag
  · rw [resolvedType_of_reserved context htag, demand_eq_ok_iff]
    constructor
    · rintro ⟨name, hname, hlisted⟩
      exact .byName htag hname hlisted
    · intro hmeans
      cases hmeans with
      | byTag tag listed =>
        rw [Document.string.inj (tag.symm.trans htag), hreserved] at listed
        cases listed
      | byName _ name listed => exact ⟨_, name, listed⟩
  · rw [resolvedType_of_not_reserved context htag, demand_eq_ok_iff]
    constructor
    · rintro ⟨text, htext, hlisted⟩
      exact .byTag htext hlisted
    · intro hmeans
      cases hmeans with
      | byTag tag listed => exact ⟨_, tag, listed⟩
      | byName tag _ _ => exact absurd tag htag

/-- An expression is given the type that its head denotes, wherever the expression stands. -/
theorem cxxType_eq_ok_iff {aliases : AliasTable} {context : String} {expr : TypeExpr}
    {type : CxxType} :
    expr.cxxType aliases context = .ok type ↔
      expr.head.Denotes (AliasTable.heads aliases).get? type := by
  rw [TypeExpr.cxxType, bind_eq_ok_iff]
  constructor
  · rintro ⟨shape, hshape, htype⟩
    exact ⟨shape.head, leadsTo_of_resolve hshape, resolvedType_eq_ok_iff.1 htype⟩
  · rintro ⟨head, hlead, hmeans⟩
    obtain ⟨shape, hshape, rfl⟩ := resolve_of_leadsTo hlead
    exact ⟨shape, hshape, resolvedType_eq_ok_iff.2 hmeans⟩

/-! ## Types that are not listed -/

theorem unlisted_of_resolvedType {context place : String} {expr : TypeExpr} {typeName : Document}
    (h : expr.resolvedType context = .error (.unsupportedType place typeName)) :
    place = context ∧ expr.head.Unlisted typeName := by
  by_cases htag : expr.head.tag = .string Kind.reserved.tag
  · rw [resolvedType_of_reserved context htag] at h
    obtain ⟨hfault, habsent⟩ := demand_eq_error h (by simp)
    obtain ⟨rfl, rfl⟩ := Fault.unsupportedType.inj hfault
    exact ⟨rfl, .name htag habsent⟩
  · rw [resolvedType_of_not_reserved context htag] at h
    obtain ⟨hfault, habsent⟩ := demand_eq_error h (by simp)
    obtain ⟨rfl, rfl⟩ := Fault.unsupportedType.inj hfault
    exact ⟨rfl, .tag htag habsent⟩

theorem resolve_ne_unsupportedType (aliases : AliasTable) (expr : TypeExpr) (place : String)
    (typeName : Document) : expr.resolve aliases ≠ .error (.unsupportedType place typeName) := by
  intro h
  by_cases htag : expr.head.tag = .string Kind.typeAlias.tag
  · rw [resolve_of_alias aliases htag] at h
    obtain ⟨hfault, -⟩ := demand_eq_error h (by simp)
    cases hfault
  · rw [resolve_of_not_alias aliases htag] at h
    cases h

/-- A type that is reported as unsupported is looked up after the one hop, and is not listed. -/
theorem unlisted_of_cxxType {aliases : AliasTable} {context place : String} {expr : TypeExpr}
    {typeName : Document}
    (h : expr.cxxType aliases context = .error (.unsupportedType place typeName)) :
    place = context ∧ ∃ shape, expr.head.LeadsTo (AliasTable.heads aliases).get? shape ∧
      shape.Unlisted typeName := by
  rw [TypeExpr.cxxType] at h
  cases hshape : expr.resolve aliases with
  | error fault =>
    rw [hshape] at h
    obtain rfl := Except.error.inj h
    exact absurd hshape (resolve_ne_unsupportedType aliases expr place typeName)
  | ok shape =>
    rw [hshape] at h
    obtain ⟨hplace, hunlisted⟩ := unlisted_of_resolvedType h
    exact ⟨hplace, shape.head, leadsTo_of_resolve hshape, hunlisted⟩

end NativeHeader
