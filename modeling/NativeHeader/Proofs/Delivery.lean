import NativeHeader.Proofs.Failures
import NativeHeader.Proofs.FileFaults
import NativeHeader.Proofs.Reports

/-!
# What a run delivers

A run goes through four stages: it searches for schema files, loads them, generates the header, and
finishes it with the formatter if that is asked for.  Either all stages complete, with the text that
is to be delivered (`Completes`), or one of them fails after those before it have completed
(`StageFails`).  Nothing is written before the last stage has completed, and nothing of a text that
the standard output does not take.  So a run writes all or nothing, and its exit code tells which
(`run_writes_all_or_nothing`).
-/

namespace NativeHeader

variable {α β : Type}

/-! ## What a computation writes -/

namespace Traced

/-- The texts on the standard output, one for each time something is written. -/
def written (t : Traced α) : List String := t.actions.filterMap Action.written?

theorem output_eq_join (t : Traced α) : t.output = String.join t.written := rfl

theorem written_bind_of_ok {t : Traced α} {value : α} (h : t.result = .ok value)
    (next : α → Traced β) : (t >>= next).written = t.written ++ (next value).written := by
  rw [andThen_of_ok h]
  exact List.filterMap_append

theorem written_bind_of_error {t : Traced α} {fault : Fault} (h : t.result = .error fault)
    (next : α → Traced β) : (t >>= next).written = t.written := by
  rw [andThen_of_error h]
  rfl

theorem written_bind_eq_nil {t : Traced α} {next : α → Traced β} (h : t.written = [])
    (hnext : ∀ value, (next value).written = []) : (t >>= next).written = [] := by
  cases hresult : t.result with
  | error fault => rw [written_bind_of_error hresult, h]
  | ok value => rw [written_bind_of_ok hresult, h, hnext, List.append_nil]

theorem OnlyReports.written_eq_nil {t : Traced α} (h : OnlyReports t) : t.written = [] := by
  refine List.filterMap_eq_nil_iff.2 fun action haction => ?_
  obtain ⟨event, rfl⟩ := h action haction
  rfl

/-- A computation that gives this result, and writes these texts on the way. -/
structure Gives (t : Traced α) (written : List String) (result : Except Fault α) : Prop where
  written : t.written = written
  result : t.result = result

theorem Gives.bind {t : Traced α} {value : α} {next : α → Traced β} {texts : List String}
    {result : Except Fault β} (h : Gives t [] (.ok value))
    (hnext : Gives (next value) texts result) :
    Gives (t >>= next) texts result := by
  refine ⟨?_, ?_⟩
  · rw [Traced.written_bind_of_ok h.result, h.written, hnext.written, List.nil_append]
  · rw [Traced.result_bind, h.result]
    exact hnext.result

theorem Gives.bind_error {t : Traced α} {next : α → Traced β} {texts : List String}
    {fault : Fault} (h : Gives t texts (.error fault)) :
    Gives (t >>= next) texts (.error fault) := by
  refine ⟨?_, ?_⟩
  · rw [Traced.written_bind_of_error h.result, h.written]
  · rw [Traced.result_bind, h.result]
    rfl

theorem Gives.output_eq {t : Traced α} {texts : List String} {result : Except Fault α}
    (h : Gives t texts result) : t.output = String.join texts := by
  rw [Traced.output_eq_join, h.written]

theorem gives_of (result : Except Fault α) : Gives (Traced.of result) [] result := ⟨rfl, rfl⟩

theorem gives_report (event : Event) : Gives (Traced.report event) [] (.ok ()) := ⟨rfl, rfl⟩

end Traced

theorem written_format (formatter : Formatter) (text : String) :
    (formatter.format text).written = [] := by
  refine Traced.written_bind_eq_nil rfl fun _ => ?_
  cases formatter (Formatter.callOn text) with
  | missing => rfl
  | failed failure complaint => rfl
  | succeeded output => rfl

namespace CommandLine

open Traced (Gives gives_of gives_report)

variable {w : Workspace} {formatter : Formatter} {a : Arguments} {schema : Schema}
  {header text : String} {fault : Fault}

/-! ## The stages of a run -/

/-- The schema files that the arguments ask for. -/
def matched (w : Workspace) (a : Arguments) : List String := (search w a).files w.files

/-- Searching finds schema files, and they are loaded as one schema. -/
structure Loads (w : Workspace) (a : Arguments) (schema : Schema) : Prop where
  found : matched w a ≠ []
  loaded : (w.loadSchema (matched w a)).result = .ok schema

/-- What comes of generating for the arguments. -/
def generated (a : Arguments) (schema : Schema) : Except Fault (OrderedMap String) :=
  (schema.generate (Arguments.shownName a.libraryName)
    (Arguments.shownName a.moduleSpecName)).result

/-- The complete header is generated for the schema that is loaded. -/
def Generates (w : Workspace) (a : Arguments) (header : String) : Prop :=
  ∃ schema, Loads w a schema ∧
    generated a schema = .ok (OrderedMap.empty.put "NativeModules.h" header)

/-- What comes of the complete header.  It is delivered as it is, unless a formatter is asked for
and succeeds: then what the formatter has written is delivered, if it is text. -/
inductive Finishes (formatter : Formatter) (a : Arguments) (header : String) :
    Except Fault String → Prop
  | plain (off : a.format = false) : Finishes formatter a header (.ok header)
  | missing (on : a.format = true)
      (outcome : formatter (Formatter.callOn header) = .missing) :
      Finishes formatter a header (.ok header)
  | failed {failure : Failure} {complaint : List UInt8} (on : a.format = true)
      (outcome : formatter (Formatter.callOn header) = .failed failure complaint) :
      Finishes formatter a header (.ok header)
  | formatted {output : List UInt8} {chars : List Char} (on : a.format = true)
      (outcome : formatter (Formatter.callOn header) = .succeeded output)
      (decoded : Utf8.decode output = .ok chars) :
      Finishes formatter a header (.ok (String.ofList chars))
  | undecodable {output : List UInt8} {fault : Fault} (on : a.format = true)
      (outcome : formatter (Formatter.callOn header) = .succeeded output)
      (decoded : Utf8.decode output = .error fault) :
      Finishes formatter a header (.error fault)

/-- All stages complete, and this text is to be delivered. -/
def Completes (w : Workspace) (formatter : Formatter) (a : Arguments) (text : String) : Prop :=
  ∃ header, Generates w a header ∧ Finishes formatter a header (.ok text)

/-- A stage fails, after those before it have completed, or the text that they give cannot be
written. -/
inductive StageFails (w : Workspace) (formatter : Formatter) (a : Arguments) : Fault → Prop
  | searching (none : matched w a = []) : StageFails w formatter a (.noSchemaFiles a.paths)
  | loading {fault : Fault} (found : matched w a ≠ [])
      (failed : (w.loadSchema (matched w a)).result = .error fault) :
      StageFails w formatter a fault
  | generating {schema : Schema} {fault : Fault} (loads : Loads w a schema)
      (failed : generated a schema = .error fault) : StageFails w formatter a fault
  | finishing {header : String} {fault : Fault} (generates : Generates w a header)
      (failed : Finishes formatter a header (.error fault)) : StageFails w formatter a fault
  | writing {text : String} (completes : Completes w formatter a text)
      (refused : w.takes text = false) : StageFails w formatter a .outputRefused

/-! ## Stage by stage -/

theorem schemaPaths_of_found (h : matched w a ≠ []) : schemaPaths w a = .ok (matched w a) := by
  unfold schemaPaths
  split
  · next hnone => exact absurd hnone h
  · rfl

theorem schemaPaths_of_none (h : matched w a = []) :
    schemaPaths w a = .error (.noSchemaFiles a.paths) := by
  have hnone : (search w a).files w.files = [] := h
  rw [schemaPaths, hnone]

theorem exists_finishes (formatter : Formatter) (a : Arguments) (header : String) :
    ∃ result, Finishes formatter a header result := by
  cases hformat : a.format with
  | false => exact ⟨_, .plain hformat⟩
  | true =>
    cases houtcome : formatter (Formatter.callOn header) with
    | missing => exact ⟨_, .missing hformat houtcome⟩
    | failed failure complaint => exact ⟨_, .failed hformat houtcome⟩
    | succeeded output =>
      cases hdecoded : Utf8.decode output with
      | error fault => exact ⟨_, .undecodable hformat houtcome hdecoded⟩
      | ok chars => exact ⟨_, .formatted hformat houtcome hdecoded⟩

/-- Generating gives one file, the header, or fails. -/
theorem exists_generated (a : Arguments) (schema : Schema) :
    (∃ header, generated a schema = .ok (OrderedMap.empty.put "NativeModules.h" header)) ∨
      ∃ fault, generated a schema = .error fault := by
  rw [generated, result_generate]
  cases (headerText schema.flatten).result with
  | ok header => exact .inl ⟨header, rfl⟩
  | error fault => exact .inr ⟨fault, rfl⟩

theorem completes_or_stageFails (w : Workspace) (formatter : Formatter) (a : Arguments) :
    (∃ text, Completes w formatter a text ∧ w.takes text = true) ∨
      ∃ fault, StageFails w formatter a fault := by
  by_cases hfound : matched w a = []
  · exact .inr ⟨_, .searching hfound⟩
  cases hloaded : (w.loadSchema (matched w a)).result with
  | error fault => exact .inr ⟨fault, .loading hfound hloaded⟩
  | ok schema =>
    have hloads : Loads w a schema := ⟨hfound, hloaded⟩
    rcases exists_generated a schema with ⟨header, hheader⟩ | ⟨fault, hfault⟩
    · have hgenerates : Generates w a header := ⟨schema, hloads, hheader⟩
      obtain ⟨result, hresult⟩ := exists_finishes formatter a header
      cases result with
      | ok text =>
        have hcompletes : Completes w formatter a text := ⟨header, hgenerates, hresult⟩
        cases htakes : w.takes text with
        | true => exact .inl ⟨text, hcompletes, htakes⟩
        | false => exact .inr ⟨_, .writing hcompletes htakes⟩
      | error fault => exact .inr ⟨fault, .finishing hgenerates hresult⟩
    · exact .inr ⟨fault, .generating hloads hfault⟩

/-! ## What the stages write -/

theorem result_format (formatter : Formatter) (text : String) :
    (formatter.format text).result = match formatter (Formatter.callOn text) with
      | .missing => .ok text
      | .failed _ _ => .ok text
      | .succeeded output => String.ofList <$> Utf8.decode output := by
  rw [Formatter.format, Traced.result_bind]
  cases formatter (Formatter.callOn text) <;> rfl

/-- Formats the header, if that is asked for. -/
def finish (formatter : Formatter) (a : Arguments) (header : String) : Traced String :=
  if a.format then formatter.format header else pure header

theorem writeFile_eq (w : Workspace) (formatter : Formatter) (a : Arguments)
    (file : String × String) :
    writeFile w formatter a file = finish formatter a file.2 >>= write w file.1 := by
  unfold writeFile finish
  cases a.format <;> rfl

theorem write_of_takes (h : w.takes text = true) (name : String) :
    write w name text = Traced.act (.write text) >>= fun _ => Traced.report (.wrote name) := by
  rw [write, if_pos h]

theorem write_of_refused (h : w.takes text = false) (name : String) :
    write w name text = Traced.of (.error .outputRefused) := by
  rw [write, if_neg (by simp [h])]

theorem gives_finish {result : Except Fault String} (h : Finishes formatter a header result) :
    Gives (finish formatter a header) [] result := by
  have hformat : a.format = true →
      Gives (finish formatter a header) [] (formatter.format header).result := by
    intro on
    rw [finish, if_pos on]
    exact ⟨written_format formatter header, rfl⟩
  rw [result_format] at hformat
  cases h with
  | plain off =>
    rw [finish, off]
    exact ⟨rfl, rfl⟩
  | missing on outcome => simpa only [outcome] using hformat on
  | failed on outcome => simpa only [outcome] using hformat on
  | formatted on outcome decoded =>
    have h := hformat on
    simp only [outcome, decoded] at h
    exact h
  | undecodable on outcome decoded =>
    have h := hformat on
    simp only [outcome, decoded] at h
    exact h

theorem gives_loadSchema {paths : List String} {result : Except Fault Schema}
    (h : (w.loadSchema paths).result = result) : Gives (w.loadSchema paths) [] result :=
  ⟨(onlyReports_loadSchema w paths).written_eq_nil, h⟩

/-- The stages after searching. -/
theorem gives_produce_of_found {texts : List String} {result : Except Fault Unit}
    (found : matched w a ≠ [])
    (hnext : Gives (w.loadSchema (matched w a) >>= fun schema =>
      schema.generate (Arguments.shownName a.libraryName)
        (Arguments.shownName a.moduleSpecName) >>= fun files =>
          files.entries.forM (writeFile w formatter a)) texts result) :
    Gives (produce w formatter a) texts result := by
  have hpaths := gives_of (schemaPaths w a)
  rw [schemaPaths_of_found found] at hpaths
  rw [produce, schemaPaths_of_found found]
  exact hpaths.bind ((gives_report _).bind hnext)

/-- The stages after loading, of which the last one writes. -/
theorem gives_produce_of_loads {texts : List String} {result : Except Fault Unit}
    (h : Loads w a schema)
    (hnext : Gives (schema.generate (Arguments.shownName a.libraryName)
      (Arguments.shownName a.moduleSpecName) >>= fun files =>
        files.entries.forM (writeFile w formatter a)) texts result) :
    Gives (produce w formatter a) texts result :=
  gives_produce_of_found h.found ((gives_loadSchema h.loaded).bind hnext)

theorem gives_generate {result : Except Fault (OrderedMap String)}
    (h : generated a schema = result) :
    Gives (schema.generate (Arguments.shownName a.libraryName)
      (Arguments.shownName a.moduleSpecName)) [] result :=
  ⟨(onlyReports_generate schema _ _).written_eq_nil, h⟩

/-- What comes of writing the text that the stages before it give. -/
theorem gives_produce_of_write {texts : List String} {result : Except Fault Unit}
    (h : Completes w formatter a text)
    (hwrite : Gives (write w "NativeModules.h" text) texts result) :
    Gives (produce w formatter a) texts result := by
  obtain ⟨header, ⟨schema, hloads, hgenerated⟩, hfinishes⟩ := h
  refine gives_produce_of_loads hloads ((gives_generate hgenerated).bind ?_)
  show Gives (writeFile w formatter a ("NativeModules.h", header) >>= fun _ => pure ()) texts _
  rw [bind_pure_unit, writeFile_eq]
  exact (gives_finish hfinishes).bind hwrite

theorem gives_produce_of_completes (h : Completes w formatter a text)
    (htakes : w.takes text = true) : Gives (produce w formatter a) [text] (.ok ()) := by
  refine gives_produce_of_write h ?_
  rw [write_of_takes htakes]
  exact ⟨rfl, rfl⟩

theorem gives_produce_of_stageFails (h : StageFails w formatter a fault) :
    Gives (produce w formatter a) [] (.error fault) := by
  cases h with
  | searching none =>
    rw [produce, schemaPaths_of_none none]
    exact (gives_of _).bind_error
  | loading found failed =>
    exact gives_produce_of_found found (gives_loadSchema failed).bind_error
  | generating loads failed =>
    exact gives_produce_of_loads loads (gives_generate failed).bind_error
  | finishing generates failed =>
    obtain ⟨schema, hloads, hgenerated⟩ := generates
    refine gives_produce_of_loads hloads ((gives_generate hgenerated).bind ?_)
    show Gives (writeFile w formatter a ("NativeModules.h", _) >>= fun _ => pure ()) [] _
    rw [bind_pure_unit, writeFile_eq]
    exact (gives_finish failed).bind_error
  | writing completes refused =>
    refine gives_produce_of_write completes ?_
    rw [write_of_refused refused]
    exact gives_of _

/-! ## How a run ends -/

/-- A fault that reports a type without a counterpart. -/
def IsUnsupported (fault : Fault) : Prop :=
  ∃ context typeName, fault = .unsupportedType context typeName

/-- Only generating reports a type without a counterpart. -/
theorem stageFails_unsupported_iff {context : String} {typeName : Document} :
    StageFails w formatter a (.unsupportedType context typeName) ↔
      ∃ schema, Loads w a schema ∧
        generated a schema = .error (.unsupportedType context typeName) := by
  constructor
  · intro h
    cases h with
    | loading found failed => exact absurd failed (loadSchema_ne_unsupportedType w _ _ _)
    | generating loads failed => exact ⟨_, loads, failed⟩
    | finishing generates failed =>
      cases failed with
      | undecodable on outcome decoded => cases Utf8.decode_eq_error decoded
  · rintro ⟨schema, hloads, hfailed⟩
    exact .generating hloads hfailed

theorem gives_run {code : Except Fault Nat} {texts : List String}
    (h : Gives (recover (produce w formatter a)) texts code) :
    Gives (run w formatter a) texts code :=
  (gives_report _).bind h

theorem gives_run_of_completes (h : Completes w formatter a text) (htakes : w.takes text = true) :
    Gives (run w formatter a) [text] (.ok 0) := by
  obtain ⟨hwritten, hresult⟩ := gives_produce_of_completes h htakes
  refine gives_run ?_
  rw [recover, hresult]
  exact ⟨hwritten, rfl⟩

theorem gives_run_of_unsupported {context : String} {typeName : Document}
    (h : StageFails w formatter a (.unsupportedType context typeName)) :
    Gives (run w formatter a) [] (.ok 1) := by
  obtain ⟨hwritten, hresult⟩ := gives_produce_of_stageFails h
  refine gives_run ?_
  rw [recover, hresult]
  refine ⟨?_, rfl⟩
  rw [Traced.written, List.filterMap_append]
  exact congrArg (· ++ []) hwritten

theorem gives_run_of_fault (h : StageFails w formatter a fault) (other : ¬ IsUnsupported fault) :
    Gives (run w formatter a) [] (.error fault) := by
  obtain ⟨hwritten, hresult⟩ := gives_produce_of_stageFails h
  refine gives_run ?_
  rw [recover, hresult]
  cases fault with
  | unsupportedType context typeName => exact absurd ⟨context, typeName, rfl⟩ other
  | _ => exact ⟨hwritten, rfl⟩

/-- A run ends in one of three ways, and writes in one of them only. -/
theorem run_cases (w : Workspace) (formatter : Formatter) (a : Arguments) :
    (∃ text, Completes w formatter a text ∧ w.takes text = true ∧
        Gives (run w formatter a) [text] (.ok 0)) ∨
      (∃ context typeName, StageFails w formatter a (.unsupportedType context typeName) ∧
        Gives (run w formatter a) [] (.ok 1)) ∨
      ∃ fault, StageFails w formatter a fault ∧ ¬ IsUnsupported fault ∧
        Gives (run w formatter a) [] (.error fault) := by
  rcases completes_or_stageFails w formatter a with ⟨text, h, htakes⟩ | ⟨fault, h⟩
  · exact .inl ⟨text, h, htakes, gives_run_of_completes h htakes⟩
  · by_cases hunsupported : IsUnsupported fault
    · obtain ⟨context, typeName, rfl⟩ := hunsupported
      exact .inr (.inl ⟨context, typeName, h, gives_run_of_unsupported h⟩)
    · exact .inr (.inr ⟨fault, h, hunsupported, gives_run_of_fault h hunsupported⟩)

theorem run_eq_zero_iff :
    (run w formatter a).result = .ok 0 ↔
      ∃ text, Completes w formatter a text ∧ w.takes text = true := by
  constructor
  · intro hzero
    rcases run_cases w formatter a with
      ⟨text, h, htakes, _⟩ | ⟨_, _, _, hgives⟩ | ⟨_, _, _, hgives⟩
    · exact ⟨text, h, htakes⟩
    · cases hgives.result.symm.trans hzero
    · cases hgives.result.symm.trans hzero
  · rintro ⟨text, h, htakes⟩
    exact (gives_run_of_completes h htakes).result

theorem run_eq_one_iff :
    (run w formatter a).result = .ok 1 ↔
      ∃ schema context typeName, Loads w a schema ∧
        generated a schema = .error (.unsupportedType context typeName) := by
  constructor
  · intro hone
    rcases run_cases w formatter a with
      ⟨_, _, _, hgives⟩ | ⟨context, typeName, h, _⟩ | ⟨_, _, _, hgives⟩
    · cases hgives.result.symm.trans hone
    · obtain ⟨schema, hloads, hfailed⟩ := stageFails_unsupported_iff.1 h
      exact ⟨schema, context, typeName, hloads, hfailed⟩
    · cases hgives.result.symm.trans hone
  · rintro ⟨schema, context, typeName, hloads, hfailed⟩
    exact (gives_run_of_unsupported (.generating hloads hfailed)).result

theorem run_eq_error_iff :
    (run w formatter a).result = .error fault ↔
      StageFails w formatter a fault ∧ ¬ IsUnsupported fault := by
  constructor
  · intro herror
    rcases run_cases w formatter a with
      ⟨_, _, _, hgives⟩ | ⟨_, _, _, hgives⟩ | ⟨found, h, hother, hgives⟩
    · cases hgives.result.symm.trans herror
    · cases hgives.result.symm.trans herror
    · obtain rfl := Except.error.inj (hgives.result.symm.trans herror)
      exact ⟨h, hother⟩
  · rintro ⟨h, hother⟩
    exact (gives_run_of_fault h hother).result

/-- A run is not at fault in a text that is not whole, if there is none. -/
theorem run_ne_halfPair (whole : w.HaveWholeTexts (matched w a)) :
    (run w formatter a).result ≠ .error .halfPair := by
  intro h
  obtain ⟨hfails, -⟩ := run_eq_error_iff.1 h
  cases hfails with
  | loading found failed => exact loadSchema_ne_halfPair whole failed
  | generating loads failed => cases fails_of_generate failed
  | finishing generates failed =>
    cases failed with
    | undecodable on outcome decoded => cases Utf8.decode_eq_error decoded

/-- A run writes all or nothing, whatever its arguments are, however the formatter behaves, and
whatever the standard output takes.  If it ends with exit code 0, the complete text is on the
standard output, else nothing is.  It ends so exactly if all stages complete and the output takes
the text that they give, so exactly if all stages complete where the output takes it in any case.
It ends with exit code 1 exactly if generating reports a type without a counterpart, and with the
fault of the stage that fails in every other case.  The documents in the matched files are those
that have whole texts only, so none of these faults stands for a document that is not described. -/
theorem run_writes_all_or_nothing (w : Workspace) (formatter : Formatter) (a : Arguments)
    (whole : w.HaveWholeTexts (matched w a)) :
    ((∃ text, Completes w formatter a text ∧ (run w formatter a).result = .ok 0 ∧
        (run w formatter a).output = text) ∨
      ((run w formatter a).result ≠ .ok 0 ∧ (run w formatter a).output = "")) ∧
    ((run w formatter a).result = .ok 0 ↔
      ∃ text, Completes w formatter a text ∧ w.takes text = true) ∧
    ((∀ text, Completes w formatter a text → w.takes text = true) →
      ((run w formatter a).result = .ok 0 ↔ ∃ text, Completes w formatter a text)) ∧
    ((run w formatter a).result = .ok 1 ↔
      ∃ schema context typeName, Loads w a schema ∧
        generated a schema = .error (.unsupportedType context typeName)) ∧
    (∀ fault, (run w formatter a).result = .error fault ↔
      StageFails w formatter a fault ∧ ¬ IsUnsupported fault) ∧
    (run w formatter a).result ≠ .error .halfPair ∧
    ∀ code, (run w formatter a).result = .ok code → code = 0 ∨ code = 1 := by
  refine ⟨?_, run_eq_zero_iff, fun htakes => ?_, run_eq_one_iff, fun fault => run_eq_error_iff,
    run_ne_halfPair whole, fun code hcode => ?_⟩
  · rcases run_cases w formatter a with
      ⟨text, h, _, hgives⟩ | ⟨_, _, _, hgives⟩ | ⟨_, _, _, hgives⟩
    · exact .inl ⟨text, h, hgives.result, hgives.output_eq.trans (by simp)⟩
    · exact .inr ⟨by simp [hgives.result], hgives.output_eq⟩
    · exact .inr ⟨by simp [hgives.result], hgives.output_eq⟩
  · rw [run_eq_zero_iff]
    exact exists_congr fun text => and_iff_left_of_imp (htakes text)
  · rcases run_cases w formatter a with
      ⟨_, _, _, hgives⟩ | ⟨_, _, _, hgives⟩ | ⟨_, _, _, hgives⟩
    · exact .inl (Except.ok.inj (hcode.symm.trans hgives.result))
    · exact .inr (Except.ok.inj (hcode.symm.trans hgives.result))
    · cases hcode.symm.trans hgives.result

/-- A schema file without modules. -/
def emptyWorkspace (takes : String → Bool) : Workspace where
  home := ["home".toList]
  files := .directory [("home".toList, .directory
    [("a.json".toList, .file (Utf8.encode "\x7b\"modules\":\x7b\x7d\x7d"))])]
  edition := .newer
  takes := takes

def emptyArguments : Arguments where
  paths := ["a.json"]

theorem matched_emptyWorkspace (takes : String → Bool) :
    matched (emptyWorkspace takes) emptyArguments = ["/home/a.json"] := by
  show matched (emptyWorkspace fun _ => true) emptyArguments = ["/home/a.json"]
  decide +kernel

theorem emptyWorkspace_haveWholeTexts (takes : String → Bool) :
    (emptyWorkspace takes).HaveWholeTexts (matched (emptyWorkspace takes) emptyArguments) := by
  have hread : ((emptyWorkspace takes).readDocument "/home/a.json").isOk = true := by
    show ((emptyWorkspace fun _ => true).readDocument "/home/a.json").isOk = true
    decide +kernel
  intro path hpath h
  rw [matched_emptyWorkspace, List.mem_singleton] at hpath
  rw [hpath] at h
  rw [h] at hread
  cases hread

theorem emptyWorkspace_completes (takes : String → Bool) :
    Completes (emptyWorkspace takes) (fun _ => .missing) emptyArguments (Interface.text []) := by
  have h : ((emptyWorkspace takes).loadSchema ["/home/a.json"]).result.toOption.any
      (fun schema => schema.outline.isEmpty) = true := by
    show ((emptyWorkspace fun _ => true).loadSchema ["/home/a.json"]).result.toOption.any _ = true
    decide +kernel
  obtain ⟨schema, hschema, houtline⟩ := exists_of_toOption_any h
  have hloads : Loads (emptyWorkspace takes) emptyArguments schema :=
    ⟨by rw [matched_emptyWorkspace]; decide, by rw [matched_emptyWorkspace]; exact hschema⟩
  refine ⟨_, ⟨schema, hloads, generate_eq_ok_iff.2 ⟨[], ?_, rfl⟩⟩, .plain rfl⟩
  rw [List.isEmpty_iff.1 houtline]
  exact .nil

/-- All stages complete.  The header is written if the standard output takes it, else nothing is. -/
theorem emptyWorkspace_writes_all_or_nothing :
    (∀ takes, (emptyWorkspace takes).HaveWholeTexts
      (matched (emptyWorkspace takes) emptyArguments)) ∧
    ((run (emptyWorkspace fun _ => true) (fun _ => .missing) emptyArguments).result = .ok 0 ∧
      ∃ text, Completes (emptyWorkspace fun _ => true) (fun _ => .missing) emptyArguments text ∧
        (run (emptyWorkspace fun _ => true) (fun _ => .missing) emptyArguments).output = text) ∧
    (run (emptyWorkspace fun _ => false) (fun _ => .missing) emptyArguments).result =
      .error .outputRefused ∧
    (run (emptyWorkspace fun _ => false) (fun _ => .missing) emptyArguments).output = "" := by
  obtain ⟨hopen, -, hzero, -⟩ := run_writes_all_or_nothing (emptyWorkspace fun _ => true)
    (fun _ => .missing) emptyArguments (emptyWorkspace_haveWholeTexts _)
  obtain ⟨hclosed, -, -, -, hfault, -⟩ := run_writes_all_or_nothing (emptyWorkspace fun _ => false)
    (fun _ => .missing) emptyArguments (emptyWorkspace_haveWholeTexts _)
  have hwritten := (hzero fun _ _ => rfl).2 ⟨_, emptyWorkspace_completes _⟩
  have hrefused := (hfault .outputRefused).2 ⟨.writing (emptyWorkspace_completes _) rfl, nofun⟩
  refine ⟨emptyWorkspace_haveWholeTexts, ⟨hwritten, ?_⟩, hrefused, ?_⟩
  · rcases hopen with ⟨text, hcompletes, -, houtput⟩ | ⟨hnot, -⟩
    · exact ⟨text, hcompletes, houtput⟩
    · exact absurd hwritten hnot
  · rcases hclosed with ⟨text, -, hother, -⟩ | ⟨-, houtput⟩
    · cases hrefused.symm.trans hother
    · exact houtput

end CommandLine

end NativeHeader
