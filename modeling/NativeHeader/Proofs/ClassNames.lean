import NativeHeader.Proofs.Interface
import NativeHeader.Proofs.Union

/-!
# The names of the classes in a header

A map of modules has each of them under a key, and the module has a name of its own.  Its class is
named after the key, which no other module of the map has.  Only the empty key says nothing: the
module under it gives the class its own name, and that may be the key of another module
(`emptyKey_repeats_class`).  Where the empty key is not used, or hides no name, the classes of a
header are named after the keys, in order, and so have different names (`classNames_of_headerText`).
-/

namespace NativeHeader

/-- The C++ name of the class for a module that is registered under a name. -/
def cxxClassName (name : String) : String := "Native" ++ name ++ "CxxSpecJSI"

theorem cxxClassName_inj {name other : String} (h : cxxClassName name = cxxClassName other) :
    name = other := by
  have hlist := congrArg String.toList h
  simp only [cxxClassName, String.toList_append] at hlist
  exact String.toList_inj.1 (List.append_cancel_left (List.append_cancel_right hlist))

namespace Interface

/-- The C++ name of a class. -/
def Class.cxxName (c : Class) : String := cxxClassName c.name

/-- What follows the name of a class where the class is opened. -/
def Class.textAfterName (c : Class) : String :=
  " : public TurboModule \x7b\nprotected:\n  " ++ c.cxxName ++
    "(std::shared_ptr<CallInvoker> jsInvoker);\n\npublic:\n" ++
    "\n".intercalate (c.methods.map Method.text) ++ "\n\n\x7d;"

/-- A class has its name where it is opened, and again at its constructor. -/
theorem Class.text_eq_cxxName (c : Class) :
    c.text = "\nclass JSI_EXPORT " ++ c.cxxName ++ c.textAfterName := by
  have hopening : "\nclass JSI_EXPORT Native" = "\nclass JSI_EXPORT " ++ "Native" := by decide
  have hbody : "CxxSpecJSI : public TurboModule \x7b\nprotected:\n  Native" =
      "CxxSpecJSI" ++ (" : public TurboModule \x7b\nprotected:\n  " ++ "Native") := by decide
  have hconstructor : "CxxSpecJSI(std::shared_ptr<CallInvoker> jsInvoker);\n\npublic:\n" =
      "CxxSpecJSI" ++ "(std::shared_ptr<CallInvoker> jsInvoker);\n\npublic:\n" := by decide
  unfold Class.text Class.textAfterName Class.cxxName cxxClassName
  rw [hopening, hbody, hconstructor]
  simp only [String.append_assoc]

/-- The first class of a header can be told from the text: two headers with the same text begin with
the same characters from the name of the first class on. -/
theorem first_cxxName_of_text {c d : Class} {classes others : Interface}
    (h : Interface.text (c :: classes) = Interface.text (d :: others)) :
    ∃ rest rest', c.cxxName.toList ++ rest = d.cxxName.toList ++ rest' := by
  have hfirst : ∀ (c : Class) (classes : Interface), ∃ rest,
      (Interface.text (c :: classes)).toList =
        (textBefore ++ "\nclass JSI_EXPORT ").toList ++ (c.cxxName.toList ++ rest) := by
    intro c classes
    refine ⟨c.textAfterName.toList ++
      ((String.join ((classes.map Class.text).map ("\n" ++ ·))).toList ++ textAfter.toList), ?_⟩
    rw [Interface.text, List.map_cons, intercalate_cons, Class.text_eq_cxxName]
    simp only [String.toList_append, List.append_assoc]
  obtain ⟨rest, hc⟩ := hfirst c classes
  obtain ⟨rest', hd⟩ := hfirst d others
  refine ⟨rest, rest', ?_⟩
  rw [h, hd] at hc
  exact (List.append_cancel_left hc).symm

end Interface

open Interface

/-! ## Names and keys -/

/-- The classes of a header are named after the keys of the modules, in order; only under the empty
key a module has its own name.  If there is no such module, or it has no name either, the classes
have different names. -/
theorem classNames_of_headerText {modules : OrderedMap ModuleSpec} {text : String}
    (h : (headerText modules).result = .ok text) :
    ∃ interface : Interface, text = interface.text ∧
      interface.map Class.cxxName = modules.entries.map (fun entry =>
        cxxClassName (if entry.1 = "" then entry.2.name else entry.1)) ∧
      ((∀ spec, modules.get? "" = some spec → spec.name = "") →
        interface.map Class.cxxName = modules.keys.map cxxClassName ∧
          (interface.map Class.cxxName).Nodup) := by
  obtain ⟨interface, hdeclares, rfl⟩ := headerText_eq_ok_iff.1 h
  have hnames : interface.map Class.name =
      modules.entries.map fun entry => if entry.1 = "" then entry.2.name else entry.1 := by
    have hall := map_eq_map_iff_forall₂.2
      (hdeclares.imp fun module shown hshown => hshown.name.symm)
    rw [outlineOf, List.map_map] at hall
    rw [← hall]
    refine List.map_congr_left fun entry _ => ?_
    show entry.2.nameOr entry.1 = _
    simp only [ModuleSpec.nameOr, String.isEmpty_iff]
  have hcxx : ∀ names : List String, interface.map Class.name = names →
      interface.map Class.cxxName = names.map cxxClassName := by
    rintro names rfl
    rw [List.map_map]
    rfl
  refine ⟨interface, rfl, ?_, fun hempty => ?_⟩
  · rw [hcxx _ hnames, List.map_map]
    rfl
  · have hkeys : interface.map Class.name = modules.keys := by
      rw [hnames, OrderedMap.keys]
      refine List.map_congr_left fun entry hentry => ?_
      by_cases hkey : entry.1 = ""
      · have hspec : modules.get? "" = some entry.2 := by
          rw [← hkey]
          exact OrderedMap.get?_of_mem hentry
        rw [if_pos hkey, hempty _ hspec, hkey]
      · rw [if_neg hkey]
    rw [hcxx _ hkeys]
    exact ⟨rfl, modules.nodup_keys.map fun name other => cxxClassName_inj⟩

/-- Two modules of the same name under keys of their own. -/
def renamedModules : OrderedMap ModuleSpec :=
  .ofList [("First", { name := "Sample", aliases := .empty, methods := [] }),
    ("Second", { name := "Sample", aliases := .empty, methods := [] })]

theorem classNames_of_renamedModules :
    ∃ text, (headerText renamedModules).result = .ok text ∧
      ∃ interface : Interface, text = interface.text ∧
        interface.map Class.cxxName = ["NativeFirstCxxSpecJSI", "NativeSecondCxxSpecJSI"] ∧
        (interface.map Class.cxxName).Nodup := by
  have htext : (headerText renamedModules).result =
      .ok (Interface.text [⟨"First", []⟩, ⟨"Second", []⟩]) :=
    headerText_eq_ok_iff.2 ⟨_, .cons ⟨rfl, .nil⟩ (.cons ⟨rfl, .nil⟩ .nil), rfl⟩
  obtain ⟨interface, hinterface, -, hkeys⟩ := classNames_of_headerText htext
  obtain ⟨hnames, hnodup⟩ := hkeys nofun
  exact ⟨_, htext, interface, hinterface, hnames, hnodup⟩

/-! ## The empty key -/

/-- A module under the empty key, and another one under the name of the first. -/
def emptyKeyModules : OrderedMap ModuleSpec :=
  .ofList [("", { name := "Sample", aliases := .empty, methods := [] }),
    ("Sample", { name := "Sample", aliases := .empty, methods := [] })]

/-- The class of a module under the empty key can repeat the name of another class, so it is not
always named after its key. -/
theorem emptyKey_repeats_class :
    (headerText emptyKeyModules).result =
        .ok (Interface.text [⟨"Sample", []⟩, ⟨"Sample", []⟩]) ∧
      emptyKeyModules.keys = ["", "Sample"] ∧
      ¬ ∀ (modules : OrderedMap ModuleSpec) (text : String),
          (headerText modules).result = .ok text →
            ∃ interface : Interface, text = interface.text ∧
              interface.map Class.cxxName = modules.keys.map cxxClassName := by
  have htext : (headerText emptyKeyModules).result =
      .ok (Interface.text [⟨"Sample", []⟩, ⟨"Sample", []⟩]) :=
    headerText_eq_ok_iff.2 ⟨_, .cons ⟨rfl, .nil⟩ (.cons ⟨rfl, .nil⟩ .nil), rfl⟩
  refine ⟨htext, rfl, fun h => ?_⟩
  obtain ⟨interface, hsame, hnames⟩ := h emptyKeyModules _ htext
  cases interface with
  | nil => cases hnames
  | cons c classes =>
    have hname : c.cxxName = "NativeCxxSpecJSI" := List.head_eq_of_cons_eq hnames
    obtain ⟨rest, rest', hfirst⟩ := first_cxxName_of_text hsame
    rw [hname] at hfirst
    -- the seventh characters differ
    simp [Class.cxxName, cxxClassName] at hfirst

end NativeHeader
