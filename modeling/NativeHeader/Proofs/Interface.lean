import NativeHeader.Proofs.Outline
import NativeHeader.Proofs.Template

/-!
# Interfaces

An `Interface` is what a header tells its reader: a list of classes, each with the declarations of
its methods.  `Interface.text` writes it down without any template: the parts of a declaration, the
declarations of a class and the classes of the file stand one after another in a fixed frame.

An outline declares an interface (`Outline.Declares`) if both agree place by place: the same names,
and at each place the C++ type that the head denotes.  An outline declares at most one interface
(`Outline.Declares.unique`).  The main result is `headerText_eq_ok_iff`: there is a header exactly
if there is such an interface, and its text is that of the interface, whatever the names are.
-/

set_option maxRecDepth 10000

namespace NativeHeader

namespace Interface

/-- A parameter as a header declares it. -/
structure Parameter where
  name : String
  type : CxxType
  deriving DecidableEq

/-- A method as a header declares it. -/
structure Method where
  name : String
  returns : CxxType
  parameters : List Parameter
  deriving DecidableEq

/-- A class of a header. -/
structure Class where
  name : String
  methods : List Method
  deriving DecidableEq

/-- A parameter of a type that is passed by constant reference says so; any other does not. -/
def Parameter.text (p : Parameter) : String :=
  match p.type.passing with
  | .constReference => "const " ++ p.type.name ++ " &" ++ p.name
  | _ => p.type.name ++ " " ++ p.name

/-- The result has the bare name of its type, and each parameter follows a comma. -/
def Method.text (m : Method) : String :=
  "virtual " ++ m.returns.name ++ " " ++ m.name ++ "(jsi::Runtime &rt" ++
    String.join (m.parameters.map fun p => ", " ++ p.text) ++ ") = 0;"

def Class.text (c : Class) : String :=
  "\nclass JSI_EXPORT Native" ++ c.name ++
    "CxxSpecJSI : public TurboModule \x7b\nprotected:\n  Native" ++ c.name ++
    "CxxSpecJSI(std::shared_ptr<CallInvoker> jsInvoker);\n\npublic:\n" ++
    "\n".intercalate (c.methods.map Method.text) ++ "\n\n\x7d;"

/-- What stands before the classes. -/
def textBefore : String := "
/**
 * Copyright (c) Facebook, Inc. and its affiliates.
 *
 * This source code is licensed under the MIT license found in the
 * LICENSE file in the root directory of this source tree.
 */

#pragma once

#include <ReactCommon/TurboModule.h>

namespace facebook \x7b
namespace react \x7b
"

/-- What stands after the classes. -/
def textAfter : String := "

\x7d // namespace react
\x7d // namespace facebook
"

end Interface

/-- What a header tells its reader. -/
abbrev Interface := List Interface.Class

/-- The text of the header for an interface. -/
def Interface.text (classes : Interface) : String :=
  textBefore ++ "\n".intercalate (classes.map Class.text) ++ textAfter

/-! ## What an outline declares -/

namespace Outline

variable {aliases : OrderedMap Head}

structure Parameter.Declares (aliases : OrderedMap Head) (p : Parameter)
    (shown : Interface.Parameter) : Prop where
  name : shown.name = p.name.text
  type : p.type.Denotes aliases.get? shown.type

/-- Only a method whose name is a text declares anything. -/
structure Method.Declares (aliases : OrderedMap Head) (m : Method)
    (shown : Interface.Method) : Prop where
  name : m.name = .string shown.name
  returns : m.returns.Denotes aliases.get? shown.returns
  parameters : List.Forall₂ (Parameter.Declares aliases) m.parameters shown.parameters

structure Module.Declares (m : Module) (shown : Interface.Class) : Prop where
  name : shown.name = m.name
  methods : List.Forall₂ (Method.Declares m.aliases) m.methods shown.methods

/-- The interface has one class for each module, in order. -/
def Declares (outline : Outline) (interface : Interface) : Prop :=
  List.Forall₂ Module.Declares outline interface

theorem Parameter.Declares.unique {p : Parameter} {shown other : Interface.Parameter}
    (h : p.Declares aliases shown) (h' : p.Declares aliases other) : shown = other := by
  obtain ⟨name, type⟩ := shown
  obtain ⟨name', type'⟩ := other
  have hname : name = name' := h.name.trans h'.name.symm
  have htype : type = type' := h.type.unique h'.type
  rw [hname, htype]

theorem Method.Declares.unique {m : Method} {shown other : Interface.Method}
    (h : m.Declares aliases shown) (h' : m.Declares aliases other) : shown = other := by
  obtain ⟨name, returns, parameters⟩ := shown
  obtain ⟨name', returns', parameters'⟩ := other
  have hname : name = name' := Document.string.inj (h.name.symm.trans h'.name)
  have hreturns : returns = returns' := h.returns.unique h'.returns
  have hunique : Relator.RightUnique (Parameter.Declares aliases) := fun _ _ _ h h' => h.unique h'
  have hparameters : parameters = parameters' := hunique.forall₂ h.parameters h'.parameters
  rw [hname, hreturns, hparameters]

theorem Module.Declares.unique {m : Module} {shown other : Interface.Class}
    (h : m.Declares shown) (h' : m.Declares other) : shown = other := by
  obtain ⟨name, methods⟩ := shown
  obtain ⟨name', methods'⟩ := other
  have hname : name = name' := h.name.trans h'.name.symm
  have hunique : Relator.RightUnique (Method.Declares m.aliases) := fun _ _ _ h h' => h.unique h'
  have hmethods : methods = methods' := hunique.forall₂ h.methods h'.methods
  rw [hname, hmethods]

theorem Declares.unique {outline : Outline} {interface other : Interface}
    (h : outline.Declares interface) (h' : outline.Declares other) : interface = other := by
  have hunique : Relator.RightUnique Module.Declares := fun _ _ _ h h' => h.unique h'
  exact hunique.forall₂ h h'

/-! ## Which outlines declare an interface -/

/-- A method that can be declared: its name is a text, and there is a C++ type at each place. -/
structure Method.IsDeclarable (aliases : OrderedMap Head) (m : Method) : Prop where
  name : ∃ text, m.name = .string text
  returns : ∃ type, m.returns.Denotes aliases.get? type
  parameters : ∀ p ∈ m.parameters, ∃ type, p.type.Denotes aliases.get? type

theorem Method.exists_declares_iff {m : Method} :
    (∃ shown, m.Declares aliases shown) ↔ m.IsDeclarable aliases := by
  constructor
  · rintro ⟨shown, hname, hreturns, hparameters⟩
    refine ⟨⟨_, hname⟩, ⟨_, hreturns⟩, fun p hp => ?_⟩
    obtain ⟨shown, hshown⟩ := exists_forall₂_iff.1 ⟨_, hparameters⟩ p hp
    exact ⟨shown.type, hshown.type⟩
  · rintro ⟨⟨name, hname⟩, ⟨returns, hreturns⟩, hparameters⟩
    have hshown : ∀ p ∈ m.parameters, ∃ shown, p.Declares aliases shown := by
      intro p hp
      obtain ⟨type, htype⟩ := hparameters p hp
      exact ⟨⟨p.name.text, type⟩, rfl, htype⟩
    obtain ⟨parameters, hparameters⟩ := exists_forall₂_iff.2 hshown
    exact ⟨⟨name, returns, parameters⟩, hname, hreturns, hparameters⟩

theorem exists_declares_iff {outline : Outline} :
    (∃ interface, outline.Declares interface) ↔
      ∀ module ∈ outline, ∀ method ∈ module.methods, method.IsDeclarable module.aliases := by
  unfold Outline.Declares
  rw [exists_forall₂_iff]
  refine forall₂_congr fun module _ => ?_
  simp only [← Method.exists_declares_iff, ← exists_forall₂_iff]
  constructor
  · rintro ⟨shown, _, hmethods⟩
    exact ⟨_, hmethods⟩
  · rintro ⟨methods, hmethods⟩
    exact ⟨⟨module.name, methods⟩, rfl, hmethods⟩

end Outline

/-! ## The templates -/

theorem fragments_declarationTemplate :
    declarationTemplate.fragments =
      [.text "virtual ", .slot "return_value", .text " ", .slot "property_name", .text "(",
        .slot "args", .text ") = 0;"] :=
  fragments_ofText (show _ = String.ofList _ from rfl) rfl

theorem fragments_classTemplate :
    classTemplate.fragments =
      [.text "\nclass JSI_EXPORT Native", .slot "module_name",
        .text "CxxSpecJSI : public TurboModule \x7b\nprotected:\n  Native", .slot "module_name",
        .text "CxxSpecJSI(std::shared_ptr<CallInvoker> jsInvoker);\n\npublic:\n",
        .slot "module_properties", .text "\n\n\x7d;"] :=
  fragments_ofText (show _ = String.ofList _ from rfl) rfl

theorem fragments_fileTemplate :
    fileTemplate.fragments =
      [.text Interface.textBefore, .slot "modules", .text Interface.textAfter] :=
  fragments_ofText (show _ = String.ofList _ from rfl) rfl

theorem render_declarationTemplate (returns arguments : String) (name : Document) :
    declarationTemplate.render
        [("return_value", .string returns), ("property_name", name),
          ("args", .string arguments)] =
      (fun name => "virtual " ++ returns ++ " " ++ name ++ "(" ++ arguments ++ ") = 0;") <$>
        Template.contentOf name := by
  rw [render_of_slots (by simp [Template.ownName]) (by simp [fragments_declarationTemplate]),
    fragments_declarationTemplate]
  cases name <;> simp [Template.fill, Template.contentOf, List.lookup_cons, bind, Except.bind,
    Functor.map, Except.map, pure, Except.pure, String.append_assoc]

theorem render_classTemplate (name declarations : String) :
    classTemplate.render
        [("module_name", .string name), ("module_properties", .string declarations)] =
      .ok ("\nclass JSI_EXPORT Native" ++ name ++
        "CxxSpecJSI : public TurboModule \x7b\nprotected:\n  Native" ++ name ++
        "CxxSpecJSI(std::shared_ptr<CallInvoker> jsInvoker);\n\npublic:\n" ++ declarations ++
        "\n\n\x7d;") := by
  rw [render_of_slots (by simp [Template.ownName]) (by simp [fragments_classTemplate]),
    fragments_classTemplate]
  simp [Template.fill, Template.contentOf, List.lookup_cons, bind, Except.bind, Functor.map,
    Except.map, pure, Except.pure, String.append_assoc]

theorem render_fileTemplate (classes : String) :
    fileTemplate.render [("modules", .string classes)] =
      .ok (Interface.textBefore ++ classes ++ Interface.textAfter) := by
  rw [render_of_slots (by simp [Template.ownName]) (by simp [fragments_fileTemplate]),
    fragments_fileTemplate]
  simp [Template.fill, Template.contentOf, bind, Except.bind, Functor.map,
    Except.map, pure, Except.pure, String.append_assoc]

/-! ## From the outline to the text -/

theorem parameter_eq_text (shown : Interface.Parameter) :
    shown.type.parameter shown.name = shown.text := by
  unfold CxxType.parameter CxxType.isByReference Interface.Parameter.text
  split <;> simp_all

theorem contentOf_eq_ok_iff {value : Document} {text : String} :
    Template.contentOf value = .ok text ↔ value = .string text := by
  cases value <;> simp [Template.contentOf]

/-- A list after a first item: each later item follows a separator. -/
theorem intercalate_cons (separator first : String) (rest : List String) :
    separator.intercalate (first :: rest) = first ++ String.join (rest.map (separator ++ ·)) := by
  induction rest generalizing first with
  | nil => simp
  | cons second rest ih =>
    rw [String.intercalate_cons_cons, ih, List.map_cons, String.join_cons]
    simp only [String.append_assoc]

theorem Parameter.declaration_eq_ok_iff {aliases : AliasTable} {method : Document} {p : Parameter}
    {text : String} :
    p.declaration aliases method = .ok text ↔
      ∃ shown, p.outline.Declares (AliasTable.heads aliases) shown ∧ text = shown.text := by
  rw [Parameter.declaration, bind_eq_ok_iff]
  constructor
  · rintro ⟨type, htype, h⟩
    exact ⟨⟨p.name.text, type⟩, ⟨rfl, cxxType_eq_ok_iff.1 htype⟩,
      (Except.ok.inj h).symm.trans (parameter_eq_text ⟨p.name.text, type⟩)⟩
  · rintro ⟨⟨name, type⟩, ⟨hname, htype⟩, rfl⟩
    obtain rfl : name = p.name.text := hname
    exact ⟨type, cxxType_eq_ok_iff.2 htype, congrArg _ (parameter_eq_text ⟨p.name.text, type⟩)⟩

theorem Method.declaration_eq_ok_iff {aliases : AliasTable} {m : Method} {text : String} :
    m.declaration aliases = .ok text ↔
      ∃ shown, m.outline.Declares (AliasTable.heads aliases) shown ∧ text = shown.text := by
  have hwalk : ∀ texts, m.parameters.mapM (Parameter.declaration aliases m.name) = .ok texts ↔
      ∃ shown, List.Forall₂ (Outline.Parameter.Declares (AliasTable.heads aliases))
        (m.parameters.map Parameter.outline) shown ∧
        texts = shown.map Interface.Parameter.text := by
    intro texts
    exact mapM_eq_ok_iff_exists fun p text => Parameter.declaration_eq_ok_iff
  have htext : ∀ shown : Interface.Method,
      "virtual " ++ shown.returns.name ++ " " ++ shown.name ++ "(" ++
        ", ".intercalate
          (CxxType.runtimeParameter :: shown.parameters.map Interface.Parameter.text) ++
        ") = 0;" = shown.text := by
    intro shown
    have hopen : "(jsi::Runtime &rt" = "(" ++ CxxType.runtimeParameter := by decide
    rw [intercalate_cons, List.map_map, Interface.Method.text, hopen]
    simp only [Function.comp_def, String.append_assoc]
  simp only [Method.declaration, bind_eq_ok_iff, hwalk, render_declarationTemplate, map_eq_ok_iff,
    contentOf_eq_ok_iff, cxxType_eq_ok_iff]
  constructor
  · rintro ⟨returns, hreturns, _, ⟨parameters, hparameters, rfl⟩, name, hname, rfl⟩
    exact ⟨⟨name, returns, parameters⟩, ⟨hname, hreturns, hparameters⟩,
      htext ⟨name, returns, parameters⟩⟩
  · rintro ⟨shown, ⟨hname, hreturns, hparameters⟩, rfl⟩
    exact ⟨shown.returns, hreturns, _, ⟨shown.parameters, hparameters, rfl⟩, shown.name, hname,
      htext shown⟩

theorem ModuleSpec.classText_eq_ok_iff {spec : ModuleSpec} {name text : String} :
    (spec.classText name).result = .ok text ↔
      ∃ shown, (spec.outline name).Declares shown ∧ text = shown.text := by
  have hwalk : ∀ texts, spec.methods.mapM (Method.declaration spec.aliases) = .ok texts ↔
      ∃ shown, List.Forall₂ (Outline.Method.Declares (AliasTable.heads spec.aliases))
        (spec.methods.map Method.outline) shown ∧ texts = shown.map Interface.Method.text := by
    intro texts
    exact mapM_eq_ok_iff_exists fun m text => Method.declaration_eq_ok_iff
  simp only [ModuleSpec.classText, Traced.result_bind, Traced.result_report, Traced.result_of,
    render_classTemplate, bind_eq_ok_iff, hwalk]
  constructor
  · rintro ⟨_, -, _, ⟨methods, hmethods, rfl⟩, h⟩
    exact ⟨⟨spec.nameOr name, methods⟩, ⟨rfl, hmethods⟩, (Except.ok.inj h).symm⟩
  · rintro ⟨⟨name', methods⟩, ⟨hname, hmethods⟩, rfl⟩
    obtain rfl : name' = spec.nameOr name := hname
    exact ⟨(), trivial, _, ⟨methods, hmethods, rfl⟩, rfl⟩

/-- There is a header exactly if the outline declares an interface, and its text is that of the
interface. -/
theorem headerText_eq_ok_iff {modules : OrderedMap ModuleSpec} {text : String} :
    (headerText modules).result = .ok text ↔
      ∃ interface, (outlineOf modules).Declares interface ∧ text = interface.text := by
  have hwalk : ∀ texts,
      modules.entries.mapM (fun entry => (entry.2.classText entry.1).result) = .ok texts ↔
        ∃ shown, (outlineOf modules).Declares shown ∧ texts = shown.map Interface.Class.text := by
    intro texts
    exact mapM_eq_ok_iff_exists fun entry text => ModuleSpec.classText_eq_ok_iff
  simp only [headerText, Traced.result_bind, Traced.result_mapM, Traced.result_of,
    render_fileTemplate, bind_eq_ok_iff, hwalk]
  constructor
  · rintro ⟨_, ⟨classes, hclasses, rfl⟩, h⟩
    exact ⟨classes, hclasses, (Except.ok.inj h).symm⟩
  · rintro ⟨classes, hclasses, rfl⟩
    exact ⟨_, ⟨classes, hclasses, rfl⟩, rfl⟩

theorem result_generate (schema : Schema) (library moduleSpec : String) :
    (schema.generate library moduleSpec).result =
      OrderedMap.empty.put outputFileName <$> (headerText schema.flatten).result := by
  simp only [Schema.generate, Traced.result_bind, Traced.result_report, Traced.result_pure]
  cases (headerText schema.flatten).result <;> rfl

/-- The generated files are a single one, the header. -/
theorem generate_eq_ok_iff {schema : Schema} {library moduleSpec : String}
    {files : OrderedMap String} :
    (schema.generate library moduleSpec).result = .ok files ↔
      ∃ interface, schema.outline.Declares interface ∧
        files.entries = [("NativeModules.h", interface.text)] := by
  rw [result_generate, map_eq_ok_iff]
  constructor
  · rintro ⟨text, htext, rfl⟩
    obtain ⟨interface, hdeclares, rfl⟩ := headerText_eq_ok_iff.1 htext
    exact ⟨interface, hdeclares, rfl⟩
  · rintro ⟨interface, hdeclares, hfiles⟩
    exact ⟨interface.text, headerText_eq_ok_iff.2 ⟨interface, hdeclares, rfl⟩,
      OrderedMap.ext_entries hfiles.symm⟩

end NativeHeader
