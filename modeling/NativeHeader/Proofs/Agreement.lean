import NativeHeader.Proofs.Interface

/-!
# Two runs side by side

Two runs of the generator are compared by their results: both give the same value, or both fail,
with faults that are related in a given way (`Agree`).  If the relation is equality, the results are
the same (`agree_eq_iff`).  If it holds of any two faults, both runs give the same values and fail
together (`agree_true_iff`).

Agreement goes through everything that the generator does.  So the headers of two lists of modules
agree if the modules do place by place: the same names, and types that agree whatever a message
would call the place (`generate_agrees`).  Modules are compared place by place with any relation
between type expressions (`ModuleSpec.Matches`).
-/

namespace NativeHeader

variable {ε α β γ δ : Type}

/-! ## Results that agree -/

/-- Both results are the same value, or both are faults that are related. -/
inductive Agree (related : ε → ε → Prop) : Except ε α → Except ε α → Prop
  | value (a : α) : Agree related (.ok a) (.ok a)
  | fault {e e' : ε} (h : related e e') : Agree related (.error e) (.error e')

section Agree

variable {related : ε → ε → Prop} {x y : Except ε α}

theorem agree_refl (hrefl : ∀ e, related e e) (x : Except ε α) : Agree related x x := by
  cases x with
  | error e => exact .fault (hrefl e)
  | ok a => exact .value a

theorem agree_eq_iff : Agree Eq x y ↔ x = y := by
  constructor
  · intro h
    cases h with
    | value a => rfl
    | fault h => rw [h]
  · rintro rfl
    exact agree_refl (fun _ => rfl) x

theorem agree_true_iff : Agree (fun _ _ => True) x y ↔ ∀ a, x = .ok a ↔ y = .ok a := by
  constructor
  · intro h a
    cases h with
    | value b => exact Iff.rfl
    | fault h => simp
  · intro h
    cases x with
    | ok a =>
      rw [(h a).1 rfl]
      exact .value a
    | error e =>
      cases y with
      | ok b => cases (h b).2 rfl
      | error e' => exact .fault trivial

theorem Agree.bind {f g : α → Except ε β} (h : Agree related x y)
    (hnext : ∀ a, Agree related (f a) (g a)) : Agree related (x >>= f) (y >>= g) := by
  cases h with
  | value a => exact hnext a
  | fault h => exact .fault h

theorem Agree.map (f : α → β) (h : Agree related x y) : Agree related (f <$> x) (f <$> y) := by
  cases h with
  | value a => exact .value (f a)
  | fault h => exact .fault h

/-- Walks over two lists agree if they do item by item. -/
theorem agree_mapM {f : γ → Except ε α} {g : δ → Except ε α} {xs : List γ} {ys : List δ}
    (h : List.Forall₂ (fun x y => Agree related (f x) (g y)) xs ys) :
    Agree related (xs.mapM f) (ys.mapM g) := by
  induction h with
  | nil => exact .value []
  | cons hitem _ ih =>
    rw [List.mapM_cons, List.mapM_cons]
    exact hitem.bind fun a => ih.bind fun others => .value (a :: others)

end Agree

/-! ## Modules that match place by place -/

section Matches

variable {types types' : TypeExpr → TypeExpr → Prop}

/-- Two parameters have the same name, and types that are related. -/
structure Parameter.Matches (types : TypeExpr → TypeExpr → Prop) (p p' : Parameter) : Prop where
  name : p.name = p'.name
  type : types p.type p'.type

/-- Two methods have the same name, results that are related, and parameters that match. -/
structure Method.Matches (types : TypeExpr → TypeExpr → Prop) (m m' : Method) : Prop where
  name : m.name = m'.name
  returns : types m.returns m'.returns
  parameters : List.Forall₂ (Parameter.Matches types) m.parameters m'.parameters

/-- Two modules match method by method, where types are related among the aliases of each module.
The names of the modules do not count. -/
def ModuleSpec.Matches (types : AliasTable → AliasTable → TypeExpr → TypeExpr → Prop)
    (spec spec' : ModuleSpec) : Prop :=
  List.Forall₂ (Method.Matches (types spec.aliases spec'.aliases)) spec.methods spec'.methods

theorem Parameter.Matches.imp {p p' : Parameter} (h : p.Matches types p')
    (himp : ∀ expr expr', types expr expr' → types' expr expr') : p.Matches types' p' :=
  ⟨h.name, himp _ _ h.type⟩

theorem Method.Matches.imp {m m' : Method} (h : m.Matches types m')
    (himp : ∀ expr expr', types expr expr' → types' expr expr') : m.Matches types' m' :=
  ⟨h.name, himp _ _ h.returns, h.parameters.imp fun _ _ hp => hp.imp himp⟩

theorem ModuleSpec.Matches.imp {types types' : AliasTable → AliasTable → TypeExpr → TypeExpr → Prop}
    {spec spec' : ModuleSpec} (h : spec.Matches types spec')
    (himp : ∀ aliases aliases' expr expr',
      types aliases aliases' expr expr' → types' aliases aliases' expr expr') :
    spec.Matches types' spec' :=
  List.Forall₂.imp (fun _ _ hm => hm.imp (himp _ _)) h

end Matches

/-! ## Headers that agree -/

section Headers

variable {related : Fault → Fault → Prop} {aliases aliases' : AliasTable}

/-- Two type expressions have types that agree, each among the aliases of its own module and
wherever both stand. -/
def TypeExpr.Agrees (related : Fault → Fault → Prop) (aliases aliases' : AliasTable)
    (expr expr' : TypeExpr) : Prop :=
  ∀ context, Agree related (expr.cxxType aliases context) (expr'.cxxType aliases' context)

/-- The classes of two modules have the same name, and their types agree. -/
structure EntriesAgree (related : Fault → Fault → Prop) (entry entry' : String × ModuleSpec) :
    Prop where
  name : entry.2.nameOr entry.1 = entry'.2.nameOr entry'.1
  spec : entry.2.Matches (TypeExpr.Agrees related) entry'.2

theorem Parameter.declaration_agrees {method : Document} {p p' : Parameter}
    (h : p.Matches (TypeExpr.Agrees related aliases aliases') p') :
    Agree related (p.declaration aliases method) (p'.declaration aliases' method) := by
  rw [Parameter.declaration, Parameter.declaration, h.name]
  exact (h.type _).bind fun type => .value (type.parameter p'.name.text)

theorem Method.declaration_agrees (hrefl : ∀ fault, related fault fault) {m m' : Method}
    (h : m.Matches (TypeExpr.Agrees related aliases aliases') m') :
    Agree related (m.declaration aliases) (m'.declaration aliases') := by
  have hwalk : Agree related (m.parameters.mapM (Parameter.declaration aliases m'.name))
      (m'.parameters.mapM (Parameter.declaration aliases' m'.name)) :=
    agree_mapM (h.parameters.imp fun _ _ => Parameter.declaration_agrees)
  rw [Method.declaration, Method.declaration, h.name]
  refine (h.returns _).bind fun returns => hwalk.bind fun parameters => ?_
  exact agree_refl hrefl _

theorem ModuleSpec.classText_agrees (hrefl : ∀ fault, related fault fault)
    {entry entry' : String × ModuleSpec} (h : EntriesAgree related entry entry') :
    Agree related (entry.2.classText entry.1).result (entry'.2.classText entry'.1).result := by
  have hwalk : Agree related (entry.2.methods.mapM (Method.declaration entry.2.aliases))
      (entry'.2.methods.mapM (Method.declaration entry'.2.aliases)) :=
    agree_mapM (List.Forall₂.imp (fun _ _ => Method.declaration_agrees hrefl) h.spec)
  simp only [ModuleSpec.classText, Traced.result_bind, Traced.result_report, Traced.result_of,
    h.name]
  refine (agree_refl hrefl _).bind fun _ => hwalk.bind fun declarations => ?_
  exact agree_refl hrefl _

theorem headerText_agrees (hrefl : ∀ fault, related fault fault)
    {modules modules' : OrderedMap ModuleSpec}
    (h : List.Forall₂ (EntriesAgree related) modules.entries modules'.entries) :
    Agree related (headerText modules).result (headerText modules').result := by
  have hwalk : Agree related
      (modules.entries.mapM fun entry => (entry.2.classText entry.1).result)
      (modules'.entries.mapM fun entry => (entry.2.classText entry.1).result) :=
    agree_mapM (h.imp fun _ _ => ModuleSpec.classText_agrees hrefl)
  simp only [headerText, Traced.result_bind, Traced.result_mapM, Traced.result_of]
  exact hwalk.bind fun classes => agree_refl hrefl _

/-- Schemas whose modules agree generate results that agree. -/
theorem generate_agrees (hrefl : ∀ fault, related fault fault) {schema schema' : Schema}
    (h : List.Forall₂ (EntriesAgree related) schema.flatten.entries schema'.flatten.entries)
    (library moduleSpec library' moduleSpec' : String) :
    Agree related (schema.generate library moduleSpec).result
      (schema'.generate library' moduleSpec').result := by
  rw [result_generate, result_generate]
  exact (headerText_agrees hrefl h).map _

end Headers

end NativeHeader
