import Mathlib.Data.List.Infix
import NativeHeader.Proofs.Interface

/-!
# Reading an interface back

A reader that goes through the lines of a header from the last to the first.  A line that opens a
class takes the declarations below it that no class has taken yet; a line that is a declaration is
read from the outside to the inside; and any other line is passed over.

The reader gives an interface back from its text (`ofText_text`) if no name breaks a line, no name
of a method has an opening parenthesis, and no name of a parameter has a comma.  Nothing else is
asked of the names: they may look like any part of a header.  So schemas with such names and one
and the same header declare the same interface (`interface_of_header`).
-/

set_option maxRecDepth 10000

namespace NativeHeader

/-! ## Cutting -/

section Cutting

variable {c : Char} {first rest : List Char} {before after : String}

/-- What stands before the first such character, and what stands after it. -/
def cut (c : Char) (text : List Char) : List Char × List Char :=
  (text.takeWhile (· ≠ c), (text.dropWhile (· ≠ c)).drop 1)

/-- What stands between a fixed beginning and a fixed end. -/
def between? (before after : String) (text : List Char) : Option (List Char) :=
  (text.dropPrefix? before.toList).bind (·.dropSuffix? after.toList)

theorem cut_append (h : c ∉ first) (rest : List Char) :
    cut c (first ++ c :: rest) = (first, rest) := by
  have hpos : ∀ a ∈ first, decide (a ≠ c) = true := by
    intro a ha
    have hne : a ≠ c := fun hac => h (hac ▸ ha)
    exact decide_eq_true hne
  rw [cut, List.takeWhile_append_of_pos hpos, List.dropWhile_append_of_pos hpos]
  simp

theorem between?_append (before after : String) (text : List Char) :
    between? before after (before.toList ++ (text ++ after.toList)) = some text := by
  rw [between?, List.dropPrefix?_append_of_beq _ (beq_self_eq_true _), Option.bind_some,
    List.dropSuffix?_eq_some_iff]
  exact ⟨after.toList, rfl, beq_self_eq_true _⟩

theorem dropPrefix?_eq_none {front text : List Char} (hfront : front.head? = some c)
    (htext : text.head? ≠ some c) : text.dropPrefix? front = none := by
  cases front with
  | nil => cases hfront
  | cons d others =>
    obtain rfl := Option.some.inj hfront
    cases text with
    | nil => rfl
    | cons e rest =>
      have hne : e ≠ d := fun hed => htext (congrArg some hed)
      rw [List.dropPrefix?, if_neg (by simpa using hne)]

theorem between?_eq_none {text : List Char} (hbefore : before.toList.head? = some c)
    (htext : text.head? ≠ some c) : between? before after text = none := by
  rw [between?, dropPrefix?_eq_none hbefore htext, Option.bind_none]

end Cutting

/-! ## The types that occur in a header -/

namespace CxxType

/-- The C++ types that occur in a header. -/
def all : List CxxType :=
  [double, void, int, bool, jsiString, jsiObject, jsiArray, jsiFunction, jsiValue]

/-- The type of a name. -/
def ofName? (name : List Char) : Option CxxType := all.find? (·.name.toList = name)

theorem ofName?_name {type : CxxType} (h : type ∈ all) : ofName? type.name.toList = some type := by
  have hall : ∀ type ∈ all, ofName? type.name.toList = some type := by decide +kernel
  exact hall type h

/-- The characters that the reader cuts at are not in a type's name. -/
theorem notMem_name {type : CxxType} (h : type ∈ all) :
    ' ' ∉ type.name.toList ∧ ',' ∉ type.name.toList ∧ '\n' ∉ type.name.toList := by
  have hall : ∀ type ∈ all,
      ' ' ∉ type.name.toList ∧ ',' ∉ type.name.toList ∧ '\n' ∉ type.name.toList := by
    decide +kernel
  exact hall type h

theorem head?_name_append {type : CxxType} (h : type ∈ all) (rest : List Char) :
    (type.name.toList ++ rest).head? ≠ some 'c' := by
  have hall : ∀ type ∈ all, type.name.toList.headD 'c' ≠ 'c' := by decide +kernel
  have hhead := hall type h
  cases hname : type.name.toList with
  | nil =>
    rw [hname] at hhead
    exact absurd rfl hhead
  | cons d others =>
    rw [hname] at hhead
    exact fun hd => hhead (Option.some.inj hd)

end CxxType

theorem Kind.mem_all_of_typeOfTag? {text : String} {type : CxxType}
    (h : Kind.typeOfTag? text = some type) : type ∈ CxxType.all := by
  obtain ⟨kind, -, hkind⟩ := Option.bind_eq_some_iff.1 h
  cases kind <;> simp only [Kind.cxxType?, Option.some.injEq, reduceCtorEq] at hkind <;>
    rw [← hkind] <;> decide

theorem Kind.mem_all_of_typeOfReserved? {text : String} {type : CxxType}
    (h : Kind.typeOfReserved? text = some type) : type ∈ CxxType.all := by
  have hmem : (text, type) ∈ Kind.reservedTypes := OrderedMap.mem_of_lookup h
  obtain ⟨-, rfl⟩ := Prod.mk.inj (List.mem_singleton.1 hmem)
  decide

theorem Head.Denotes.mem_all {find : String → Option Head} {head : Head} {type : CxxType}
    (h : head.Denotes find type) : type ∈ CxxType.all := by
  obtain ⟨shape, -, hmeans⟩ := h
  cases hmeans with
  | byTag _ listed => exact Kind.mem_all_of_typeOfTag? listed
  | byName _ _ listed => exact Kind.mem_all_of_typeOfReserved? listed

/-! ## The reader -/

namespace Interface

/-- Reads a parameter of a declaration. -/
def Parameter.ofChars? (text : List Char) : Option Parameter :=
  let (type, name) := cut ' ' ((text.dropPrefix? "const ".toList).getD text)
  (CxxType.ofName? type).map fun type =>
    { name := String.ofList (if type.isByReference then name.drop 1 else name), type }

/-- Reads the line of a declaration. -/
def Method.ofChars? (line : List Char) : Option Method := do
  let declaration ← between? "virtual " ") = 0;" line
  let (type, rest) := cut ' ' declaration
  let (name, arguments) := cut '(' rest
  let returns ← CxxType.ofName? type
  -- the first argument is the runtime, and a blank follows each comma
  let parameters := (arguments.splitOn ',').tail.filterMap fun part =>
    Parameter.ofChars? (part.drop 1)
  return { name := String.ofList name, returns, parameters }

/-- Reads a line: the methods that no class has taken, and the classes, grow at the front. -/
def readLine (line : List Char) (read : List Method × Interface) : List Method × Interface :=
  match between? "class JSI_EXPORT Native" "CxxSpecJSI : public TurboModule \x7b" line with
  | some name => ([], { name := String.ofList name, methods := read.1 } :: read.2)
  | none =>
    match Method.ofChars? line with
    | some method => (method :: read.1, read.2)
    | none => read

/-- Reads the lines of a text, the last one first. -/
def readLines (text : List Char) (read : List Method × Interface) : List Method × Interface :=
  (text.splitOn '\n').foldr readLine read

/-- Reads the text of a header. -/
def ofText (text : String) : Interface := (readLines text.toList ([], [])).2

/-! ## Plain interfaces -/

structure Parameter.IsPlain (p : Parameter) : Prop where
  type : p.type ∈ CxxType.all
  comma : ',' ∉ p.name.toList
  newline : '\n' ∉ p.name.toList

structure Method.IsPlain (m : Method) : Prop where
  returns : m.returns ∈ CxxType.all
  parenthesis : '(' ∉ m.name.toList
  newline : '\n' ∉ m.name.toList
  parameters : ∀ p ∈ m.parameters, p.IsPlain

structure Class.IsPlain (c : Class) : Prop where
  newline : '\n' ∉ c.name.toList
  methods : ∀ m ∈ c.methods, m.IsPlain

/-- No name has a character that the reader cuts at. -/
def IsPlain (classes : Interface) : Prop := ∀ c ∈ classes, c.IsPlain

/-! ## Reading a parameter -/

theorem Parameter.toList_text (p : Parameter) :
    p.text.toList =
      if p.type.isByReference then
        "const ".toList ++ (p.type.name.toList ++ ' ' :: '&' :: p.name.toList)
      else p.type.name.toList ++ ' ' :: p.name.toList := by
  rw [← parameter_eq_text, CxxType.parameter]
  split <;> simp

theorem Parameter.notMem_text {p : Parameter} {c : Char} (hfixed : c ∉ "const &".toList)
    (htype : c ∉ p.type.name.toList) (hname : c ∉ p.name.toList) : c ∉ p.text.toList := by
  rw [Parameter.toList_text]
  split <;> simp_all

theorem Parameter.ofChars?_text {p : Parameter} (h : p.type ∈ CxxType.all) :
    Parameter.ofChars? p.text.toList = some p := by
  have hblank := (CxxType.notMem_name h).1
  rw [Parameter.toList_text]
  cases hby : p.type.isByReference with
  | true =>
    simp only [if_true, Parameter.ofChars?, List.dropPrefix?_append_of_beq _ (beq_self_eq_true _),
      Option.getD_some, cut_append hblank, CxxType.ofName?_name h, Option.map_some, hby,
      List.drop_one, List.tail_cons, String.ofList_toList]
  | false =>
    have hdrop : (p.type.name.toList ++ ' ' :: p.name.toList).dropPrefix? "const ".toList = none :=
      dropPrefix?_eq_none (c := 'c') (by decide) (CxxType.head?_name_append h _)
    simp only [Bool.false_eq_true, if_false, Parameter.ofChars?, hdrop, Option.getD_none,
      cut_append hblank, CxxType.ofName?_name h, Option.map_some, hby, String.ofList_toList]

/-! ## Reading a method -/

/-- What stands between the parentheses of a declaration. -/
def Method.arguments (m : Method) : List (List Char) :=
  "jsi::Runtime &rt".toList :: m.parameters.map fun p => ' ' :: p.text.toList

theorem Method.toList_text (m : Method) :
    m.text.toList = "virtual ".toList ++ ((m.returns.name.toList ++ ' ' ::
      (m.name.toList ++ '(' :: [','].intercalate m.arguments)) ++ ") = 0;".toList) := by
  have harguments : "jsi::Runtime &rt" ++ String.join (m.parameters.map fun p => ", " ++ p.text) =
      ",".intercalate ("jsi::Runtime &rt" :: m.parameters.map fun p => " " ++ p.text) := by
    have hcomma : ", " = "," ++ " " := by decide
    rw [intercalate_cons, List.map_map, hcomma]
    simp only [Function.comp_def, String.append_assoc]
  have hlist : [','].intercalate m.arguments =
      (",".intercalate ("jsi::Runtime &rt" :: m.parameters.map fun p => " " ++ p.text)).toList := by
    rw [String.toList_intercalate, List.map_cons, List.map_map, Method.arguments]
    simp [Function.comp_def]
  rw [hlist, ← harguments, Method.text]
  simp

theorem Method.splitOn_arguments {m : Method} (h : m.IsPlain) :
    ([','].intercalate m.arguments).splitOn ',' = m.arguments := by
  refine List.splitOn_intercalate ',' ?_ (List.cons_ne_nil _ _)
  rw [Method.arguments, List.forall_mem_cons, List.forall_mem_map]
  refine ⟨by decide, fun p hp => ?_⟩
  have htype := CxxType.notMem_name (h.parameters p hp).type
  have htext := Parameter.notMem_text (by decide) htype.2.1 (h.parameters p hp).comma
  simpa using htext

theorem Method.ofChars?_text {m : Method} (h : m.IsPlain) :
    Method.ofChars? m.text.toList = some m := by
  have hparameters :
      m.arguments.tail.filterMap (fun part => Parameter.ofChars? (part.drop 1)) =
        m.parameters := by
    rw [Method.arguments, List.tail_cons, List.filterMap_map]
    refine (List.filterMap_congr fun p hp => ?_).trans List.filterMap_some
    exact Parameter.ofChars?_text (h.parameters p hp).type
  rw [Method.ofChars?, Method.toList_text, between?_append]
  simp only [Option.bind_eq_bind, Option.bind_some, cut_append (CxxType.notMem_name h.returns).1,
    cut_append h.parenthesis, CxxType.ofName?_name h.returns, Method.splitOn_arguments h,
    hparameters, String.ofList_toList]
  rfl

/-! ## Reading lines -/

section Lines

variable {line : List Char} {read : List Method × Interface}

theorem readLines_append (first rest : List Char) (read : List Method × Interface) :
    readLines (first ++ '\n' :: rest) read = readLines first (readLines rest read) := by
  rw [readLines, List.splitOn_append_cons_self, List.foldr_append]
  rfl

theorem readLines_append_newline (first rest : String) (read : List Method × Interface) :
    readLines (first ++ ("\n" ++ rest)).toList read =
      readLines first.toList (readLines rest.toList read) := by
  rw [String.toList_append, String.toList_append]
  exact readLines_append ..

theorem readLines_line (h : '\n' ∉ line) : readLines line read = readLine line read := by
  rw [readLines, List.splitOn_eq_singleton h]
  rfl

/-- A line of the frame, known by its first character. -/
def IsFrame (line : List Char) : Prop := line.head? ≠ some 'c' ∧ line.head? ≠ some 'v'

instance : DecidablePred IsFrame := fun _ => inferInstanceAs (Decidable (_ ∧ _))

theorem readLine_frame (h : IsFrame line) : readLine line read = read := by
  rw [readLine, between?_eq_none (c := 'c') (by decide) h.1, Method.ofChars?,
    between?_eq_none (c := 'v') (by decide) h.2]
  rfl

theorem readLines_frame (text : List Char) (h : ∀ line ∈ text.splitOn '\n', IsFrame line) :
    readLines text read = read := by
  have hfold : ∀ lines : List (List Char), (∀ line ∈ lines, IsFrame line) →
      lines.foldr readLine read = read := by
    intro lines hlines
    induction lines with
    | nil => rfl
    | cons line rest ih =>
      rw [List.forall_mem_cons] at hlines
      rw [List.foldr_cons, ih hlines.2, readLine_frame hlines.1]
  exact hfold _ h

/-- Texts that are joined by newlines are read one after another. -/
theorem readLines_intercalate (texts : List String) :
    readLines ("\n".intercalate texts).toList read =
      texts.foldr (fun text read => readLines text.toList read) read := by
  induction texts with
  | nil => rfl
  | cons text rest ih =>
    cases rest with
    | nil => rw [String.intercalate_singleton, List.foldr_cons, List.foldr_nil]
    | cons next rest =>
      rw [String.intercalate_cons_cons, String.append_assoc, readLines_append_newline,
        List.foldr_cons, ih]

end Lines

/-! ## Reading a class -/

theorem Method.newline_notMem_text {m : Method} (h : m.IsPlain) : '\n' ∉ m.text.toList := by
  have hparameters : ∀ p ∈ m.parameters, '\n' ∉ p.text.toList := by
    intro p hp
    have htype := CxxType.notMem_name (h.parameters p hp).type
    exact Parameter.notMem_text (by decide) htype.2.2 (h.parameters p hp).newline
  have hreturns := (CxxType.notMem_name h.returns).2.2
  unfold Method.text
  simpa [hreturns, h.newline] using hparameters

theorem readLines_method {m : Method} (h : m.IsPlain) (read : List Method × Interface) :
    readLines m.text.toList read = (m :: read.1, read.2) := by
  have hclass : between? "class JSI_EXPORT Native" "CxxSpecJSI : public TurboModule \x7b"
      m.text.toList = none := by
    refine between?_eq_none (c := 'c') (by decide) ?_
    rw [Method.toList_text]
    simp
  rw [readLines_line (Method.newline_notMem_text h), readLine, hclass, Method.ofChars?_text h]

theorem readLines_methods {methods : List Method} (h : ∀ m ∈ methods, m.IsPlain)
    (read : List Method × Interface) :
    readLines ("\n".intercalate (methods.map Method.text)).toList read =
      (methods ++ read.1, read.2) := by
  rw [readLines_intercalate]
  induction methods with
  | nil => rfl
  | cons m rest ih =>
    rw [List.forall_mem_cons] at h
    rw [List.map_cons, List.foldr_cons, ih h.2, readLines_method h.1]
    rfl

/-- The line that opens a class. -/
def Class.opening (c : Class) : String :=
  "class JSI_EXPORT Native" ++ (c.name ++ "CxxSpecJSI : public TurboModule \x7b")

def Class.constructor (c : Class) : String :=
  "  Native" ++ (c.name ++ "CxxSpecJSI(std::shared_ptr<CallInvoker> jsInvoker);")

theorem Class.text_eq_lines (c : Class) :
    c.text = "" ++ ("\n" ++ (c.opening ++ ("\n" ++ ("protected:" ++ ("\n" ++
      (c.constructor ++ ("\n" ++ ("\npublic:" ++ ("\n" ++
        ("\n".intercalate (c.methods.map Method.text) ++ ("\n" ++ "\n\x7d;"))))))))))) := by
  have hopening : "\nclass JSI_EXPORT Native" = "" ++ ("\n" ++ "class JSI_EXPORT Native") := by
    decide
  have hprotected : "CxxSpecJSI : public TurboModule \x7b\nprotected:\n  Native" =
      "CxxSpecJSI : public TurboModule \x7b" ++
        ("\n" ++ ("protected:" ++ ("\n" ++ "  Native"))) := by
    decide
  have hpublic : "CxxSpecJSI(std::shared_ptr<CallInvoker> jsInvoker);\n\npublic:\n" =
      "CxxSpecJSI(std::shared_ptr<CallInvoker> jsInvoker);" ++
        ("\n" ++ ("\npublic:" ++ "\n")) := by
    decide
  have hend : "\n\n\x7d;" = "\n" ++ "\n\x7d;" := by
    decide
  -- unfolded, since Lean takes long to make equations for texts of this length
  unfold Class.text Class.opening Class.constructor
  rw [hopening, hprotected, hpublic, hend]
  simp only [String.append_assoc]

theorem Class.newline_notMem_opening {c : Class} (h : c.IsPlain) : '\n' ∉ c.opening.toList := by
  unfold Class.opening
  simp [h.newline]

theorem Class.newline_notMem_constructor {c : Class} (h : c.IsPlain) :
    '\n' ∉ c.constructor.toList := by
  unfold Class.constructor
  simp [h.newline]

theorem readLine_opening (c : Class) (read : List Method × Interface) :
    readLine c.opening.toList read = ([], { name := c.name, methods := read.1 } :: read.2) := by
  unfold Class.opening
  rw [String.toList_append, String.toList_append, readLine, between?_append]
  simp only [String.ofList_toList]

theorem readLine_constructor (c : Class) (read : List Method × Interface) :
    readLine c.constructor.toList read = read := by
  refine readLine_frame ?_
  unfold Class.constructor
  constructor <;> simp

/-- A class takes all declarations below it. -/
theorem readLines_class {c : Class} (h : c.IsPlain) (classes : Interface) :
    readLines c.text.toList ([], classes) = ([], c :: classes) := by
  rw [Class.text_eq_lines]
  simp only [readLines_append_newline]
  -- from the closing brace up to the empty line before the class
  rw [readLines_frame "\n\x7d;".toList (by decide), readLines_methods h.methods,
    readLines_frame "\npublic:".toList (by decide),
    readLines_line (Class.newline_notMem_constructor h), readLine_constructor,
    readLines_frame "protected:".toList (by decide),
    readLines_line (Class.newline_notMem_opening h), readLine_opening,
    readLines_frame "".toList (by decide), List.append_nil]

/-! ## Reading a header -/

/-- Lines of the frame can stand before a text, each ended. -/
theorem readLines_before {frame : String} {chars : List Char} (hframe : frame = String.ofList chars)
    (hend : chars = chars.dropLast ++ ['\n'])
    (hlines : ∀ line ∈ chars.dropLast.splitOn '\n', IsFrame line) (rest : List Char)
    (read : List Method × Interface) :
    readLines (frame.toList ++ rest) read = readLines rest read := by
  rw [hframe, String.toList_ofList, hend, List.append_assoc]
  exact (readLines_append ..).trans (readLines_frame _ hlines)

/-- Lines of the frame can stand after a text, each begun. -/
theorem readLines_after {frame : String} {chars : List Char} (hframe : frame = String.ofList chars)
    (hbegin : chars = '\n' :: chars.tail)
    (hlines : ∀ line ∈ chars.tail.splitOn '\n', IsFrame line) (first : List Char)
    (read : List Method × Interface) :
    readLines (first ++ frame.toList) read = readLines first read := by
  rw [hframe, String.toList_ofList, hbegin, readLines_append, readLines_frame _ hlines]

theorem readLines_textBefore (rest : List Char) (read : List Method × Interface) :
    readLines (textBefore.toList ++ rest) read = readLines rest read :=
  readLines_before (show textBefore = String.ofList _ from rfl) (by decide) (by decide) rest read

theorem readLines_textAfter (first : List Char) (read : List Method × Interface) :
    readLines (first ++ textAfter.toList) read = readLines first read :=
  readLines_after (show textAfter = String.ofList _ from rfl) (by decide) (by decide) first read

theorem readLines_classes {classes : Interface} (h : classes.IsPlain) :
    readLines ("\n".intercalate (classes.map Class.text)).toList ([], []) = ([], classes) := by
  rw [readLines_intercalate]
  induction classes with
  | nil => rfl
  | cons c rest ih =>
    have hplain := List.forall_mem_cons.1 h
    rw [List.map_cons, List.foldr_cons, ih hplain.2, readLines_class hplain.1]

/-- A plain interface is read back from its text. -/
theorem ofText_text {classes : Interface} (h : classes.IsPlain) :
    ofText classes.text = classes := by
  have htext : classes.text.toList = textBefore.toList ++
      (("\n".intercalate (classes.map Class.text)).toList ++ textAfter.toList) := by
    rw [Interface.text, String.toList_append, String.toList_append, List.append_assoc]
  rw [ofText, htext, readLines_textBefore, readLines_textAfter, readLines_classes h]

end Interface

/-! ## Outlines with plain names -/

namespace Outline

structure Parameter.IsPlain (p : Parameter) : Prop where
  comma : ',' ∉ p.name.text.toList
  newline : '\n' ∉ p.name.text.toList

structure Method.IsPlain (m : Method) : Prop where
  parenthesis : '(' ∉ m.name.text.toList
  newline : '\n' ∉ m.name.text.toList
  parameters : ∀ p ∈ m.parameters, p.IsPlain

structure Module.IsPlain (m : Module) : Prop where
  newline : '\n' ∉ m.name.toList
  methods : ∀ method ∈ m.methods, method.IsPlain

/-- No name breaks a line, no name of a method has an opening parenthesis, and no name of a
parameter, as the text that is put in, has a comma. -/
def IsPlain (outline : Outline) : Prop := ∀ module ∈ outline, module.IsPlain

variable {aliases : OrderedMap Head}

theorem Parameter.Declares.isPlain {p : Parameter} {shown : Interface.Parameter}
    (plain : p.IsPlain) (h : p.Declares aliases shown) : shown.IsPlain := by
  refine ⟨h.type.mem_all, ?_, ?_⟩
  · rw [h.name]
    exact plain.comma
  · rw [h.name]
    exact plain.newline

theorem Method.Declares.isPlain {m : Method} {shown : Interface.Method}
    (plain : m.IsPlain) (h : m.Declares aliases shown) : shown.IsPlain := by
  have hname : shown.name = m.name.text := by rw [h.name, Document.text]
  refine ⟨h.returns.mem_all, ?_, ?_, ?_⟩
  · rw [hname]
    exact plain.parenthesis
  · rw [hname]
    exact plain.newline
  · exact forall_mem_of_forall₂ (fun _ _ => Parameter.Declares.isPlain) h.parameters
      plain.parameters

theorem Module.Declares.isPlain {m : Module} {shown : Interface.Class}
    (plain : m.IsPlain) (h : m.Declares shown) : shown.IsPlain := by
  refine ⟨?_, ?_⟩
  · rw [h.name]
    exact plain.newline
  · exact forall_mem_of_forall₂ (fun _ _ => Method.Declares.isPlain) h.methods plain.methods

theorem Declares.isPlain {outline : Outline} {interface : Interface} (plain : outline.IsPlain)
    (h : outline.Declares interface) : interface.IsPlain :=
  forall_mem_of_forall₂ (fun _ _ => Module.Declares.isPlain) h plain

end Outline

/-! ## Headers -/

theorem exists_interface_of_generate {schema : Schema} {library moduleSpec : String}
    {files : OrderedMap String} (h : (schema.generate library moduleSpec).result = .ok files) :
    ∃ interface : Interface, schema.outline.Declares interface ∧
      files.get? "NativeModules.h" = some interface.text := by
  obtain ⟨interface, hdeclares, hfiles⟩ := generate_eq_ok_iff.1 h
  refine ⟨interface, hdeclares, ?_⟩
  rw [OrderedMap.get?, hfiles, List.lookup_cons_self]

/-- Nothing of the interface is lost in a header, as long as names are plain: two schemas with one
and the same header declare the same interface, and no other, and the reader finds it in the
header. -/
theorem interface_of_header {schema₁ schema₂ : Schema}
    {library₁ library₂ moduleSpec₁ moduleSpec₂ : String} {files₁ files₂ : OrderedMap String}
    (generated₁ : (schema₁.generate library₁ moduleSpec₁).result = .ok files₁)
    (generated₂ : (schema₂.generate library₂ moduleSpec₂).result = .ok files₂)
    (plain₁ : schema₁.outline.IsPlain) (plain₂ : schema₂.outline.IsPlain)
    (same : files₁.get? "NativeModules.h" = files₂.get? "NativeModules.h") :
    ∃ interface : Interface,
      (∀ other, schema₁.outline.Declares other ↔ other = interface) ∧
      (∀ other, schema₂.outline.Declares other ↔ other = interface) ∧
      (files₁.get? "NativeModules.h").map Interface.ofText = some interface := by
  obtain ⟨interface, hdeclares, hfile⟩ := exists_interface_of_generate generated₁
  obtain ⟨interface', hdeclares', hfile'⟩ := exists_interface_of_generate generated₂
  have hread := Interface.ofText_text (hdeclares.isPlain plain₁)
  have hread' := Interface.ofText_text (hdeclares'.isPlain plain₂)
  have htext : interface.text = interface'.text := by
    rw [hfile, hfile'] at same
    exact Option.some.inj same
  have hsame : interface = interface' := by rw [← hread, htext, hread']
  have hunique : ∀ {outline : Outline}, outline.Declares interface →
      ∀ other, outline.Declares other ↔ other = interface :=
    fun h other => ⟨fun h' => h'.unique h, fun h' => h' ▸ h⟩
  refine ⟨interface, hunique hdeclares, hunique (hsame ▸ hdeclares'), ?_⟩
  rw [hfile, Option.map_some, hread]

/-- A schema with one method, whose result has the given tag. -/
def sampleSchema (tag : String) : Schema where
  modules := .ofList [("Sample.js", some (.ofList [("Sample",
    { name := "Sample"
      aliases := .empty
      methods :=
        [{ name := .string "size"
           parameters := []
           returns := { tag := .string tag, name := .null, properties := [],
                        elementType := none } }] })]))]

/-- Numbers of two kinds give the same header. -/
theorem interface_of_sampleSchemas :
    ∃ files₁ files₂ : OrderedMap String,
      ((sampleSchema "NumberTypeAnnotation").generate "library" "specification").result =
        .ok files₁ ∧
      ((sampleSchema "FloatTypeAnnotation").generate "library" "specification").result =
        .ok files₂ ∧
      files₁.get? "NativeModules.h" = files₂.get? "NativeModules.h" ∧
      (files₁.get? "NativeModules.h").map Interface.ofText =
        some [⟨"Sample", [⟨"size", .double, []⟩]⟩] := by
  have houtline : ∀ tag, (sampleSchema tag).outline =
      [⟨"Sample", .empty, [⟨.string "size", ⟨.string tag, .null⟩, []⟩]⟩] := fun tag => rfl
  have hplain : ∀ tag, (sampleSchema tag).outline.IsPlain := by
    intro tag
    have hmodule : '\n' ∉ "Sample".toList := by decide
    have hmethod : '(' ∉ "size".toList ∧ '\n' ∉ "size".toList := by decide
    rw [houtline]
    exact List.forall_mem_singleton.2 ⟨hmodule, List.forall_mem_singleton.2
      ⟨hmethod.1, hmethod.2, nofun⟩⟩
  have hdeclares : ∀ tag, Kind.typeOfTag? tag = some .double →
      (sampleSchema tag).outline.Declares [⟨"Sample", [⟨"size", .double, []⟩]⟩] := by
    intro tag hlisted
    rw [houtline]
    exact .cons ⟨rfl, .cons ⟨rfl, Head.denotes_of_tag rfl hlisted, .nil⟩ .nil⟩ .nil
  have hnumber := hdeclares "NumberTypeAnnotation" (by decide)
  have hfloat := hdeclares "FloatTypeAnnotation" (by decide)
  have hfiles : ∀ tag, (sampleSchema tag).outline.Declares [⟨"Sample", [⟨"size", .double, []⟩]⟩] →
      ((sampleSchema tag).generate "library" "specification").result =
        .ok (OrderedMap.empty.put "NativeModules.h"
          (Interface.text [⟨"Sample", [⟨"size", .double, []⟩]⟩])) :=
    fun tag h => generate_eq_ok_iff.2 ⟨_, h, rfl⟩
  obtain ⟨interface, hinterface, -, hread⟩ := interface_of_header
    (hfiles _ hnumber) (hfiles _ hfloat) (hplain _) (hplain _) rfl
  rw [← (hinterface _).1 hnumber] at hread
  exact ⟨_, _, hfiles _ hnumber, hfiles _ hfloat, rfl, hread⟩

end NativeHeader
