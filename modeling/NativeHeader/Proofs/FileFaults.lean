import NativeHeader.Proofs.Shape
import NativeHeader.Workspace

/-!
# What goes wrong before a header is begun

A schema that cannot be read or loaded is at fault by itself: a path leads to no file, bytes are no
text, a text is no document, or an access to the document fails.  None of that says anything about
types.  So a fault that reports an unsupported type never comes from searching, reading or loading
(`loadSchema_ne_unsupportedType`).
-/

namespace NativeHeader

variable {α β : Type} {P Q : Fault → Prop}

/-! ## Kinds of faults -/

/-- The faults of the accesses to a document. -/
inductive Fault.IsAccess : Fault → Prop
  | missingKey (key : String) : IsAccess (.missingKey key)
  | field : IsAccess .fieldOfNonObject
  | members : IsAccess .membersOfNonObject
  | items : IsAccess .itemsOfNonList

/-- The faults of reading a text as a document. -/
inductive Fault.IsSyntax : Fault → Prop
  | document : IsSyntax .malformedDocument
  | number : IsSyntax .numberTooLong
  | pair : IsSyntax .halfPair

/-- The faults of opening a file. -/
inductive Fault.IsOpening : Fault → Prop
  | nothing : IsOpening .nothingAtPath
  | directory : IsOpening .directoryAtPath
  | belowFile : IsOpening .pathBelowFile

/-- The faults of reading the document in a file. -/
inductive Fault.IsReading : Fault → Prop
  | file {fault : Fault} : fault.IsOpening → IsReading fault
  | bytes : IsReading .malformedEncoding
  | text {fault : Fault} : fault.IsSyntax → IsReading fault

/-- Every fault of a computation is of the given kind. -/
def FailsOnly (P : Fault → Prop) (x : Except Fault α) : Prop := ∀ fault, x = .error fault → P fault

theorem failsOnly_ok (a : α) : FailsOnly P (.ok a : Except Fault α) := nofun

theorem failsOnly_error {fault : Fault} (h : P fault) :
    FailsOnly P (.error fault : Except Fault α) := by
  intro found hfound
  rw [← Except.error.inj hfound]
  exact h

theorem FailsOnly.mono {x : Except Fault α} (h : FailsOnly P x)
    (hPQ : ∀ fault, P fault → Q fault) : FailsOnly Q x :=
  fun fault hfault => hPQ fault (h fault hfault)

theorem FailsOnly.bind {x : Except Fault α} {f : α → Except Fault β} (h : FailsOnly P x)
    (hnext : ∀ a, FailsOnly P (f a)) : FailsOnly P (x >>= f) := by
  cases x with
  | error fault => exact failsOnly_error (h fault rfl)
  | ok a => exact hnext a

theorem FailsOnly.map {x : Except Fault α} (h : FailsOnly P x) (f : α → β) :
    FailsOnly P (f <$> x) := by
  cases x with
  | error fault => exact failsOnly_error (h fault rfl)
  | ok a => exact failsOnly_ok (f a)

theorem failsOnly_foldlM {f : β → α → Except Fault β} (h : ∀ b a, FailsOnly P (f b a))
    (xs : List α) (b : β) : FailsOnly P (xs.foldlM f b) := by
  induction xs generalizing b with
  | nil => exact failsOnly_ok b
  | cons x rest ih => exact (h b x).bind ih

theorem failsOnly_mapM {f : α → Except Fault β} {xs : List α} (h : ∀ x ∈ xs, FailsOnly P (f x)) :
    FailsOnly P (xs.mapM f) := by
  intro fault hfault
  have hfirst : xs.findSome? (fun x => fault? (f x)) = some fault := by
    rw [← fault?_mapM, fault?_eq_some_iff]
    exact hfault
  obtain ⟨x, hx, hfound⟩ := List.exists_of_findSome?_eq_some hfirst
  exact h x hx fault (fault?_eq_some_iff.1 hfound)

/-! ## Accesses -/

namespace Document

theorem failsOnly_field (d : Document) (key : String) : FailsOnly Fault.IsAccess (d.field key) := by
  unfold field
  split
  · split
    · exact failsOnly_ok _
    · exact failsOnly_error (.missingKey key)
  · exact failsOnly_error .field

theorem failsOnly_optionalField (d : Document) (key : String) :
    FailsOnly Fault.IsAccess (d.optionalField key) := by
  unfold optionalField
  split
  · split <;> exact failsOnly_ok _
  · exact failsOnly_error .members

theorem failsOnly_entries (d : Document) : FailsOnly Fault.IsAccess d.entries := by
  unfold entries
  split
  · exact failsOnly_ok _
  · exact failsOnly_error .members

theorem failsOnly_records (d : Document) : FailsOnly Fault.IsAccess d.records := by
  unfold records
  split
  · exact failsOnly_ok _
  · split
    · exact failsOnly_ok _
    · exact failsOnly_error .field
  · split
    · exact failsOnly_ok _
    · exact failsOnly_error .field
  · exact failsOnly_error .items

theorem failsOnly_optionalRecords (d : Document) (key : String) :
    FailsOnly Fault.IsAccess (d.optionalRecords key) := by
  refine (failsOnly_optionalField d key).bind fun found => ?_
  cases found with
  | none => exact failsOnly_ok _
  | some part => exact (failsOnly_records part.1).bind fun inner => failsOnly_ok _

end Document

open Document

/-! ## Loading -/

/-- A property of an object shape, of which the type is known to fail only so. -/
theorem failsOnly_loadProperty {raw : Document}
    (h : ∀ shape : raw.Part, FailsOnly Fault.IsAccess (TypeExpr.load shape.1)) :
    FailsOnly Fault.IsAccess (Property.load raw) := by
  refine (failsOnly_field raw "name").bind fun name => ?_
  refine (failsOnly_field raw "typeAnnotation").bind fun shape => ?_
  refine (h shape).bind fun type => ?_
  exact (failsOnly_optionalField raw "optional").bind fun optional => failsOnly_ok _

theorem failsOnly_loadTypeExpr (raw : Document) :
    FailsOnly Fault.IsAccess (TypeExpr.load raw) := by
  rw [TypeExpr.load_eq]
  refine (failsOnly_optionalField raw "elementType").bind fun element => ?_
  refine (failsOnly_field raw "type").bind fun tag => ?_
  refine (failsOnly_optionalField raw "name").bind fun name => ?_
  refine (failsOnly_optionalRecords raw "properties").bind fun items => ?_
  have hproperties : FailsOnly Fault.IsAccess (items.mapM fun item => Property.load item.1) := by
    refine failsOnly_mapM fun item _ => failsOnly_loadProperty fun shape => ?_
    have hsmaller : sizeOf shape.1 < sizeOf raw := Nat.lt_trans shape.2 item.2
    exact failsOnly_loadTypeExpr shape.1
  refine hproperties.bind fun properties => ?_
  refine FailsOnly.bind ?_ fun elementType => failsOnly_ok _
  cases element with
  | none => exact failsOnly_ok _
  | some part =>
    have hsmaller : sizeOf part.1 < sizeOf raw := part.2
    rw [Option.map_some, Option.getD_some, TypeExpr.loadElement]
    split
    · exact failsOnly_ok _
    · exact (failsOnly_loadTypeExpr part.1).map _
termination_by sizeOf raw

theorem failsOnly_loadParameter (raw : Document) :
    FailsOnly Fault.IsAccess (Parameter.load raw) := by
  refine (failsOnly_field raw "name").bind fun name => ?_
  refine (failsOnly_field raw "typeAnnotation").bind fun shape => ?_
  exact (failsOnly_loadTypeExpr shape.1).bind fun type => failsOnly_ok _

theorem failsOnly_loadMethod (raw : Document) : FailsOnly Fault.IsAccess (Method.load raw) := by
  refine (failsOnly_field raw "typeAnnotation").bind fun function => ?_
  refine (failsOnly_field raw "name").bind fun name => ?_
  refine (failsOnly_field function.1 "params").bind fun params => ?_
  refine (failsOnly_records params.1).bind fun items => ?_
  refine (failsOnly_mapM fun item _ => failsOnly_loadParameter item.1).bind fun parameters => ?_
  refine (failsOnly_field function.1 "returnTypeAnnotation").bind fun shape => ?_
  exact (failsOnly_loadTypeExpr shape.1).bind fun returns => failsOnly_ok _

theorem failsOnly_loadMembers {load : String → Document → Except Fault α}
    (h : ∀ key value, FailsOnly Fault.IsAccess (load key value)) (raw : Document) :
    FailsOnly Fault.IsAccess (loadMembers load raw) := by
  refine (failsOnly_entries raw).bind fun parts => failsOnly_mapM fun part _ => ?_
  exact (h part.1 part.2.1).bind fun a => failsOnly_ok _

theorem failsOnly_loadModuleSpec (name : String) (raw : Document) :
    FailsOnly Fault.IsAccess (ModuleSpec.load name raw) := by
  have haliases : ∀ found : Option Document,
      FailsOnly Fault.IsAccess (AliasTable.loadOptional found) := by
    intro found
    cases found with
    | none => exact failsOnly_ok _
    | some table =>
      rw [AliasTable.loadOptional, AliasTable.load_eq]
      exact (failsOnly_loadMembers (fun _ => failsOnly_loadTypeExpr) table).map _
  rw [ModuleSpec.load_eq]
  refine (failsOnly_optionalField raw "aliases").bind fun found => ?_
  refine (haliases _).bind fun aliases => ?_
  refine (failsOnly_field raw "properties").bind fun properties => ?_
  refine (failsOnly_records properties.1).bind fun items => ?_
  exact (failsOnly_mapM fun item _ => failsOnly_loadMethod item.1).bind fun methods =>
    failsOnly_ok _

theorem failsOnly_loadFile (raw : Document) : FailsOnly Fault.IsAccess (Schema.loadFile raw) := by
  rw [Schema.loadFile_eq]
  refine (failsOnly_optionalField raw "nativeModules").bind fun found => ?_
  by_cases hnull : (found.map Subtype.val).getD .null = .null
  · rw [hnull]
    exact failsOnly_ok _
  · rw [loadModules_of_ne_null hnull]
    exact (failsOnly_loadMembers failsOnly_loadModuleSpec _).map _

/-- Loading a schema fails only where an access to the document fails. -/
theorem failsOnly_loadSchema (raw : Document) : FailsOnly Fault.IsAccess (Schema.load raw) := by
  rw [Schema.load_eq]
  refine (failsOnly_field raw "modules").bind fun modules => ?_
  exact (failsOnly_loadMembers (fun _ => failsOnly_loadFile) modules.1).map _

/-! ## Reading -/

namespace Document

open ReaderState

theorem failsOnly_refused : FailsOnly Fault.IsSyntax (refused : Except Fault α) :=
  failsOnly_error .document

theorem failsOnly_complete (value : Document) (stack : List Unclosed) :
    FailsOnly Fault.IsSyntax (complete value stack) := by
  unfold complete
  split
  · exact failsOnly_ok _
  · exact failsOnly_ok _
  · exact failsOnly_ok _
  · exact failsOnly_refused

theorem failsOnly_closeArray (stack : List Unclosed) :
    FailsOnly Fault.IsSyntax (closeArray stack) := by
  unfold closeArray
  split
  · exact failsOnly_complete _ _
  · exact failsOnly_refused

theorem failsOnly_closeObject (stack : List Unclosed) :
    FailsOnly Fault.IsSyntax (closeObject stack) := by
  unfold closeObject
  split
  · exact failsOnly_complete _ _
  · exact failsOnly_refused

theorem failsOnly_beginValue (stack : List Unclosed) (token : Token) :
    FailsOnly Fault.IsSyntax (beginValue stack token) := by
  cases token with
  | openBrace | openBracket => exact failsOnly_ok _
  | text | halves | word => exact failsOnly_complete _ _
  | longNumber => exact failsOnly_error .number
  | closeBrace | closeBracket | comma | colon | broken => exact failsOnly_refused

theorem failsOnly_beginMember (stack : List Unclosed) (token : Token) :
    FailsOnly Fault.IsSyntax (beginMember stack token) := by
  unfold beginMember
  split
  · exact failsOnly_ok _
  · exact failsOnly_ok _
  · exact failsOnly_refused

theorem failsOnly_afterComma (stack : List Unclosed) :
    FailsOnly Fault.IsSyntax (afterComma stack) := by
  unfold afterComma
  split
  · exact failsOnly_ok _
  · exact failsOnly_ok _
  · exact failsOnly_refused

theorem failsOnly_afterColon (key : String) (stack : List Unclosed) :
    FailsOnly Fault.IsSyntax (afterColon key stack) := by
  unfold afterColon
  split
  · exact failsOnly_ok _
  · exact failsOnly_refused

theorem failsOnly_step (state : ReaderState) (token : Token) :
    FailsOnly Fault.IsSyntax (ReaderState.step state token) := by
  unfold ReaderState.step
  split
  · exact failsOnly_beginValue _ _
  · exact failsOnly_closeArray _
  · exact failsOnly_beginValue _ _
  · exact failsOnly_closeObject _
  · exact failsOnly_beginMember _ _
  · exact failsOnly_beginMember _ _
  · exact failsOnly_afterColon _ _
  · exact failsOnly_afterComma _
  · exact failsOnly_closeArray _
  · exact failsOnly_closeObject _
  · exact failsOnly_refused

theorem failsOnly_read (chars : List Char) : FailsOnly Fault.IsSyntax (Document.read chars) := by
  refine (failsOnly_foldlM failsOnly_step _ _).bind fun state => FailsOnly.bind ?_ fun _ => ?_
  · unfold ReaderState.result
    split
    · exact failsOnly_ok _
    · exact failsOnly_refused
  · split
    · exact failsOnly_error .pair
    · exact failsOnly_ok _

end Document

theorem failsOnly_follow (above : List FileTree) (here : FileTree) (names : List Path.Name) :
    FailsOnly Fault.IsOpening (FileTree.follow above here names) := by
  fun_induction FileTree.follow above here names with
  | case1 => exact failsOnly_ok _
  | case2 => exact failsOnly_error .belowFile
  | case3 _ _ _ _ _ ih => exact ih
  | case4 _ _ _ _ _ ih => exact ih
  | case5 _ _ _ ih => exact ih
  | case6 _ _ _ _ _ _ _ _ ih => exact ih
  | case7 => exact failsOnly_error .nothing

theorem failsOnly_readFile (w : Workspace) (path : String) :
    FailsOnly Fault.IsOpening (w.read path) := by
  have hfind : FailsOnly Fault.IsOpening (w.find path) := by
    unfold Workspace.find
    split
    · exact failsOnly_error .nothing
    · exact failsOnly_follow [] w.files _
  refine hfind.bind fun found => ?_
  cases found with
  | file content => exact failsOnly_ok _
  | directory entries => exact failsOnly_error .directory

theorem Utf8.decode_eq_error {bytes : List UInt8} {fault : Fault}
    (h : Utf8.decode bytes = .error fault) : fault = .malformedEncoding := by
  unfold Utf8.decode at h
  split at h
  · cases h
  · exact (Except.error.inj h).symm

theorem failsOnly_readDocument (w : Workspace) (path : String) :
    FailsOnly Fault.IsReading (w.readDocument path) := by
  refine ((failsOnly_readFile w path).mono fun _ => .file).bind fun bytes =>
    FailsOnly.bind ?_ fun chars => ?_
  · intro fault hfault
    rw [Utf8.decode_eq_error hfault]
    exact .bytes
  · exact (failsOnly_read chars).mono fun _ => .text

/-- The schema files under some paths are at fault in the reading of one or in an access. -/
theorem failsOnly_loadSchemaFiles {w : Workspace} {paths : List String}
    (hread : ∀ path ∈ paths, FailsOnly P (w.readDocument path))
    (haccess : ∀ fault, fault.IsAccess → P fault) :
    FailsOnly P (w.loadSchema paths).result := by
  have hsources : ∀ path raw, FailsOnly Fault.IsAccess (Workspace.sourcesOf path raw) := by
    intro path raw
    refine (failsOnly_field raw "modules").bind fun modules => ?_
    exact (failsOnly_entries modules.1).bind fun entries => failsOnly_ok _
  have hfile : ∀ path ∈ paths, FailsOnly P (w.readSources path).result := by
    intro path hpath
    simp only [Workspace.readSources, Traced.result_bind, Traced.result_of, Traced.result_report,
      Traced.result_pure]
    refine FailsOnly.bind ?_ fun sources => failsOnly_ok _
    exact (hread path hpath).bind fun raw => (hsources path raw).mono haccess
  simp only [Workspace.loadSchema, Traced.result_bind, Traced.result_mapM, Traced.result_of]
  refine (failsOnly_mapM hfile).bind fun sources => ?_
  exact (failsOnly_loadSchema _).mono haccess

theorem loadSchema_ne_unsupportedType (w : Workspace) (paths : List String) (context : String)
    (typeName : Document) :
    (w.loadSchema paths).result ≠ .error (.unsupportedType context typeName) := by
  intro h
  have hfault := failsOnly_loadSchemaFiles
    (fun path _ => (failsOnly_readDocument w path).mono fun _ => Or.inl) (fun _ => Or.inr) _ h
  rcases hfault with (hopening | _ | hsyntax) | haccess
  · cases hopening
  · cases hsyntax
  · cases haccess

/-- Whether no file under some paths holds a document with a text that names half of a pair of code
units. -/
def Workspace.HaveWholeTexts (w : Workspace) (paths : List String) : Prop :=
  ∀ path ∈ paths, w.readDocument path ≠ .error .halfPair

theorem loadSchema_ne_halfPair {w : Workspace} {paths : List String}
    (whole : w.HaveWholeTexts paths) : (w.loadSchema paths).result ≠ .error .halfPair := by
  intro h
  refine failsOnly_loadSchemaFiles (P := (· ≠ .halfPair)) (fun path hpath fault hfault => ?_)
    (fun fault haccess => ?_) _ h rfl
  · rintro rfl
    exact whole path hpath hfault
  · rintro rfl
    cases haccess

end NativeHeader
