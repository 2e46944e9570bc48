import NativeHeader.Proofs.Checks
import NativeHeader.Proofs.Merging
import NativeHeader.Proofs.Running
import NativeHeader.Proofs.SearchLaws

/-!
# The log of a verbose run

A run reports each schema file when it has read it, the header when it begins, and each module when
its class begins.  Reports are made in the order of the work (`log_bind_of_ok`), and a fault ends
them.  So of a list of modules those up to the first with a fault are reported
(`log_mapM_of_error`): the last module that the log names is the one where the fault is
(`FailsIn`).

For a whole run this gives the log of one that generates the header (`reports_of_generated`), and
the log of one that does not (`reports_of_failsIn`): `verbose_log_locates_failure`.
-/

namespace NativeHeader

variable {α β : Type}

/-! ## Logs of computations -/

namespace Traced

theorem log_bind_of_ok {t : Traced α} {value : α} (h : t.result = .ok value)
    (next : α → Traced β) : (t >>= next).log = t.log ++ (next value).log := by
  rw [andThen_of_ok h]
  exact List.filterMap_append

theorem log_bind_of_error {t : Traced α} {fault : Fault} (h : t.result = .error fault)
    (next : α → Traced β) : (t >>= next).log = t.log := by
  rw [andThen_of_error h]
  rfl

/-- What is only computed from a value is not reported. -/
theorem log_bind_of (t : Traced α) (f : α → Except Fault β) :
    (t >>= fun value => of (f value)).log = t.log := by
  cases h : t.result with
  | error fault => exact log_bind_of_error h _
  | ok value => exact (log_bind_of_ok h _).trans (List.append_nil _)

theorem log_report_bind (event : Event) (next : Unit → Traced β) :
    (report event >>= next).log = event :: (next ()).log :=
  log_bind_of_ok rfl next

theorem log_mapM_cons (f : α → Traced β) {x : α} {y : β} (h : (f x).result = .ok y)
    (rest : List α) : ((x :: rest).mapM f).log = (f x).log ++ (rest.mapM f).log := by
  rw [List.mapM_cons, log_bind_of_ok h]
  exact congrArg _ (log_bind_of (rest.mapM f) fun ys => .ok (y :: ys))

variable {f : α → Traced β} {line : α → Event}

/-- Where everything goes well each item makes its report. -/
theorem log_mapM_of_ok {xs : List α} {ys : List β}
    (hline : ∀ x ∈ xs, ∀ y, (f x).result = .ok y → (f x).log = [line x])
    (h : (xs.mapM f).result = .ok ys) : (xs.mapM f).log = xs.map line := by
  rw [result_mapM] at h
  have hall := succeeds_mapM_iff.1 ⟨ys, h⟩
  clear h
  induction xs with
  | nil => rfl
  | cons x rest ih =>
    obtain ⟨⟨y, hy⟩, hrest⟩ := List.forall_mem_cons.1 hall
    obtain ⟨hx, hlines⟩ := List.forall_mem_cons.1 hline
    rw [log_mapM_cons f hy, hx y hy, ih hlines hrest]
    rfl

/-- The item with the fault is the last that makes its report. -/
theorem log_mapM_of_error {before after : List α} {x : α} {fault : Fault}
    (hline : ∀ reported ∈ before ++ [x], (f reported).log = [line reported])
    (hbefore : ∀ earlier ∈ before, Succeeds (f earlier).result)
    (hfault : (f x).result = .error fault) :
    ((before ++ x :: after).mapM f).log = (before ++ [x]).map line := by
  induction before with
  | nil =>
    rw [List.nil_append, List.mapM_cons, log_bind_of_error hfault]
    exact hline x (List.mem_singleton_self x)
  | cons first rest ih =>
    obtain ⟨⟨y, hy⟩, hrest⟩ := List.forall_mem_cons.1 hbefore
    rw [List.cons_append] at hline ⊢
    obtain ⟨hfirst, hlines⟩ := List.forall_mem_cons.1 hline
    rw [log_mapM_cons f hy, hfirst, ih hlines hrest]
    rfl

end Traced

open Traced

/-! ## Loading and generating -/

/-- All schema files are reported in turn if they are loaded. -/
theorem log_loadSchema {w : Workspace} {paths : List String} {schema : Schema}
    (h : (w.loadSchema paths).result = .ok schema) :
    (w.loadSchema paths).log = paths.map .loaded := by
  have hline : ∀ path ∈ paths, ∀ sources, (w.readSources path).result = .ok sources →
      (w.readSources path).log = [.loaded path] := by
    intro path _ sources hsources
    rw [Workspace.readSources, result_bind] at hsources
    obtain ⟨found, hfound, -⟩ := bind_eq_ok_iff.1 hsources
    rw [Workspace.readSources, log_bind_of_ok hfound]
    rfl
  rw [Workspace.loadSchema, result_bind] at h
  obtain ⟨sources, hsources, -⟩ := bind_eq_ok_iff.1 h
  rw [Workspace.loadSchema, log_bind_of, log_mapM_of_ok hline hsources]

/-- The report of a module: its name, and the number of its methods. -/
def moduleLine (entry : String × ModuleSpec) : Event := .moduleBegun entry.1 entry.2.methods.length

theorem ModuleSpec.log_classText (spec : ModuleSpec) (name : String) :
    (spec.classText name).log = [.moduleBegun (spec.nameOr name) spec.methods.length] := rfl

/-- A module that stands under its own name is reported under it. -/
theorem log_classText_of_name {entry : String × ModuleSpec} (h : entry.2.name = entry.1) :
    (entry.2.classText entry.1).log = [moduleLine entry] := by
  rw [ModuleSpec.log_classText, ModuleSpec.nameOr, h, ite_self]
  rfl

/-! ## Where generating fails -/

/-- The checks of a module. -/
def ModuleSpec.checks (spec : ModuleSpec) : List Check :=
  spec.methods.flatMap (Method.checks spec.aliases)

/-- Generating fails in a module of a schema: the modules before it pass all their checks, and the
first of its own checks that it does not pass has this fault. -/
structure Schema.FailsIn (schema : Schema) (before : List (String × ModuleSpec))
    (entry : String × ModuleSpec) (fault : Fault) : Prop where
  place : ∃ after, schema.flatten.entries = before ++ entry :: after
  passed : ∀ earlier ∈ before, ∀ check ∈ earlier.2.checks, check.fault? = none
  failed : entry.2.checks.findSome? Check.fault? = some fault

namespace Schema

variable {schema : Schema} {before : List (String × ModuleSpec)} {entry : String × ModuleSpec}
  {fault : Fault} {library moduleSpec : String}

/-- If generating fails, it does so in one of the modules. -/
theorem exists_failsIn (h : (schema.generate library moduleSpec).result = .error fault) :
    ∃ before entry, schema.FailsIn before entry fault := by
  rw [← fault?_eq_some_iff, fault?_generate, Schema.checks, findSome?_flatMap,
    List.findSome?_eq_some_iff] at h
  obtain ⟨before, entry, after, hplace, hfailed, hpassed⟩ := h
  refine ⟨before, entry, ⟨⟨after, hplace⟩, fun earlier hearlier => ?_, hfailed⟩⟩
  exact List.findSome?_eq_none_iff.1 (hpassed earlier hearlier)

/-- An unsupported type that is reported stands in the module where generating fails. -/
theorem FailsIn.exists_place {context : String} {typeName : Document}
    (h : schema.FailsIn before entry (.unsupportedType context typeName)) :
    ∃ method ∈ entry.2.methods, ∃ expr, method.Place context expr ∧
      expr.cxxType entry.2.aliases context = .error (.unsupportedType context typeName) := by
  obtain ⟨passed, check, rest, hchecks, hcheck, -⟩ := List.findSome?_eq_some_iff.1 h.failed
  have hmem : check ∈ entry.2.checks := hchecks ▸ List.mem_append_right _ (List.mem_cons_self ..)
  obtain ⟨method, hmethod, hmem⟩ := List.mem_flatMap.1 hmem
  rcases Method.place_of_mem_checks hmem with ⟨place, expr, hplace, rfl⟩ | rfl
  · have herror := fault?_eq_some_iff.1 hcheck
    obtain ⟨rfl, -⟩ := unlisted_of_cxxType herror
    exact ⟨method, hmethod, expr, hplace, herror⟩
  · cases hname : method.name <;> rw [hname] at hcheck <;> cases hcheck

/-- The log of generating a header is that of its classes, after one report. -/
theorem log_generate (schema : Schema) (library moduleSpec : String) :
    (schema.generate library moduleSpec).log =
      .headerBegun "NativeModules.h" library moduleSpec schema.flatten.size ::
        (schema.flatten.entries.mapM fun (entry : String × ModuleSpec) =>
          entry.2.classText entry.1).log := by
  rw [Schema.generate, log_report_bind]
  refine congrArg _ ((log_bind_of _ fun text => .ok (OrderedMap.empty.put _ text)).trans ?_)
  exact log_bind_of _ _

/-- The log of a header that is generated names all modules. -/
theorem log_generate_of_ok {files : OrderedMap String}
    (named : ∀ entry ∈ schema.flatten.entries, entry.2.name = entry.1)
    (h : (schema.generate library moduleSpec).result = .ok files) :
    (schema.generate library moduleSpec).log =
      .headerBegun "NativeModules.h" library moduleSpec schema.flatten.size ::
        schema.flatten.entries.map moduleLine := by
  rw [result_generate, headerText, result_bind] at h
  obtain ⟨header, hheader, -⟩ := map_eq_ok_iff.1 h
  obtain ⟨classes, hclasses, -⟩ := bind_eq_ok_iff.1 hheader
  have hlines := log_mapM_of_ok
    (fun entry hentry _ _ => log_classText_of_name (named entry hentry)) hclasses
  rw [log_generate, hlines]

/-- The log of a header that fails names the modules up to the one where it fails. -/
theorem FailsIn.log_generate (h : schema.FailsIn before entry fault)
    (named : ∀ entry ∈ schema.flatten.entries, entry.2.name = entry.1) :
    (schema.generate library moduleSpec).log =
      .headerBegun "NativeModules.h" library moduleSpec schema.flatten.size ::
        (before ++ [entry]).map moduleLine := by
  obtain ⟨after, hplace⟩ := h.place
  have hlines : ∀ reported ∈ before ++ [entry],
      (reported.2.classText reported.1).log = [moduleLine reported] := by
    intro reported hreported
    refine log_classText_of_name (named reported ?_)
    rw [hplace, List.append_cons]
    exact List.mem_append_left _ hreported
  have hpassed : ∀ earlier ∈ before, Succeeds (earlier.2.classText earlier.1).result := by
    intro earlier hearlier
    by_contra hfails
    obtain ⟨found, hfound⟩ := not_succeeds_iff.1 hfails
    rw [← fault?_eq_some_iff, ModuleSpec.fault?_classText] at hfound
    obtain ⟨check, hcheck, hfault⟩ := List.exists_of_findSome?_eq_some hfound
    cases (h.passed earlier hearlier check hcheck).symm.trans hfault
  have hfailed : (entry.2.classText entry.1).result = .error fault := by
    rw [← fault?_eq_some_iff, ModuleSpec.fault?_classText]
    exact h.failed
  rw [Schema.log_generate, hplace, log_mapM_of_error hlines hpassed hfailed]

end Schema

/-! ## Loading all files -/

/-- Files of which each can be loaded alone can be loaded together. -/
theorem Workspace.succeeds_loadSchema {w : Workspace} {paths : List String}
    (h : ∀ path ∈ paths, Succeeds (w.readDocument path >>= Schema.load)) :
    Succeeds (w.loadSchema paths).result := by
  have hshape : ∀ path ∈ paths, ∃ raw, w.readDocument path = .ok raw ∧ raw.IsSchema := by
    intro path hpath
    obtain ⟨raw, hraw, hload⟩ := succeeds_bind_iff.1 (h path hpath)
    exact ⟨raw, hraw, succeeds_loadSchema_iff.1 hload⟩
  have hread : ∀ path ∈ paths, Succeeds (w.mergedSources path) := by
    intro path hpath
    obtain ⟨raw, hraw, hschema⟩ := hshape path hpath
    exact ⟨_, mergedSources_eq_ok_iff.2 ⟨raw, hraw, hschema.object, rfl⟩⟩
  obtain ⟨lists, hlists⟩ := succeeds_mapM_iff.2 hread
  -- what is merged comes from one of the files, where it has the shape of a source file
  have hmerged : (mergedDocument lists.flatten).IsSchema := by
    refine ⟨trivial, fun entry hentry => ?_⟩
    obtain ⟨path, hpath, source, ⟨raw, hraw, hmem⟩, -⟩ :=
      (mem_flatten_mergedSources_iff hlists).1 (OrderedMap.mem_of_mem_ofList hentry)
    obtain ⟨raw', hraw', hschema⟩ := hshape path hpath
    obtain rfl := Except.ok.inj (hraw.symm.trans hraw')
    exact hschema.files (source, entry.2) hmem
  rw [result_loadSchema, hlists]
  exact succeeds_loadSchema_iff.2 hmerged

namespace CommandLine

variable {w : Workspace} {formatter : Formatter} {a : Arguments} {schema : Schema}
  {header : String} {fault : Fault}

/-- The matched files are in increasing order, each once. -/
theorem matched_pairwise (w : Workspace) (a : Arguments) : (matched w a).Pairwise (· < ·) :=
  Search.files_pairwise _ _

theorem exists_loads (found : matched w a ≠ [])
    (h : ∀ path ∈ matched w a, Succeeds (w.readDocument path >>= Schema.load)) :
    ∃ schema, Loads w a schema := by
  obtain ⟨schema, hschema⟩ := Workspace.succeeds_loadSchema h
  exact ⟨schema, found, hschema⟩

theorem name_of_loads (h : Loads w a schema) :
    ∀ entry ∈ schema.flatten.entries, entry.2.name = entry.1 := by
  have hloaded := h.loaded
  rw [Workspace.result_loadSchema] at hloaded
  obtain ⟨lists, -, hschema⟩ := bind_eq_ok_iff.1 hloaded
  exact fun entry => name_of_mem_flatten hschema

/-! ## The log of a run -/

/-- What a run reports in detail before the first module. -/
def opening (w : Workspace) (a : Arguments) (schema : Schema) : List Event :=
  (matched w a).map .loaded ++
    [.headerBegun "NativeModules.h" (Arguments.shownName a.libraryName)
      (Arguments.shownName a.moduleSpecName) schema.flatten.size]

theorem result_prepare_of_loads (h : Loads w a schema) :
    (prepare w a).result = generated a schema := by
  rw [result_prepare, schemaPaths_of_found h.found]
  show (w.loadSchema (matched w a)).result >>= _ = _
  rw [h.loaded]
  rfl

/-- The preparation reports the files and the modules. -/
theorem log_prepare {entries : List (String × ModuleSpec)} (h : Loads w a schema)
    (hlog : (schema.generate (Arguments.shownName a.libraryName)
      (Arguments.shownName a.moduleSpecName)).log =
        .headerBegun "NativeModules.h" (Arguments.shownName a.libraryName)
          (Arguments.shownName a.moduleSpecName) schema.flatten.size :: entries.map moduleLine) :
    (prepare w a).log =
      .matched (matched w a).length :: (opening w a schema ++ entries.map moduleLine) := by
  have hpaths : (Traced.of (schemaPaths w a)).result = .ok (matched w a) :=
    schemaPaths_of_found h.found
  rw [prepare, log_bind_of_ok hpaths, log_report_bind, log_bind_of_ok h.loaded,
    log_loadSchema h.loaded, hlog, opening, List.append_assoc]
  rfl

/-- Only the troubles of formatting are reported. -/
theorem log_format (formatter : Formatter) (text : String) :
    (formatter.format text).log = match formatter (Formatter.callOn text) with
      | .missing => [.formatterMissing]
      | .failed failure complaint =>
        [.formatterFailed Formatter.command failure,
          .formatterComplained (String.ofList (Utf8.decodeLossy complaint))]
      | .succeeded _ => [] := by
  have hcall : (Traced.act (.format (Formatter.callOn text))).result = .ok () := rfl
  rw [Formatter.format, log_bind_of_ok hcall]
  cases formatter (Formatter.callOn text) <;> rfl

/-- None of these reports is a detail. -/
theorem not_isDetail_of_mem_finish {event : Event} (h : event ∈ (finish formatter a header).log) :
    event.isDetail = false := by
  unfold finish at h
  split at h
  · rw [log_format] at h
    cases houtcome : formatter (Formatter.callOn header) with
    | missing =>
      rw [houtcome] at h
      obtain rfl := List.mem_singleton.1 h
      rfl
    | failed failure complaint =>
      rw [houtcome] at h
      rcases List.mem_pair.1 h with rfl | rfl <;> rfl
    | succeeded output =>
      rw [houtcome] at h
      cases h
  · cases h

theorem exists_finishes_of_decodable
    (h : a.format = true → ∀ output, formatter (Formatter.callOn header) = .succeeded output →
      Succeeds (Utf8.decode output)) :
    ∃ text, Finishes formatter a header (.ok text) := by
  obtain ⟨result, hresult⟩ := exists_finishes formatter a header
  cases result with
  | ok text => exact ⟨text, hresult⟩
  | error fault =>
    cases hresult with
    | undecodable on outcome decoded =>
      obtain ⟨chars, hchars⟩ := h on _ outcome
      cases hchars.symm.trans decoded

theorem log_run (w : Workspace) (formatter : Formatter) (a : Arguments) :
    (run w formatter a).log = .started w.path :: (recover (produce w formatter a)).log :=
  log_report_bind _ _

/-- What is reported of a text that is written: that it was, if the output takes it. -/
def writeReports (w : Workspace) (text : String) : List Event :=
  if w.takes text then [.wrote "NativeModules.h"] else []

theorem log_write (w : Workspace) (text : String) :
    (write w "NativeModules.h" text).log = writeReports w text := by
  unfold write writeReports
  split <;> rfl

/-- The log of a run whose header is generated and finished. -/
theorem log_run_of_completes {text : String} (h : Generates w a header)
    (hfinishes : Finishes formatter a header (.ok text)) :
    (run w formatter a).log =
      .started w.path :: (prepare w a).log ++
        ((finish formatter a header).log ++ writeReports w text) := by
  have hcompletes : Completes w formatter a text := ⟨header, h, hfinishes⟩
  have hwrite : (writeFile w formatter a ("NativeModules.h", header)).log =
      (finish formatter a header).log ++ writeReports w text := by
    rw [writeFile_eq, log_bind_of_ok (gives_finish hfinishes).result, log_write]
  have hproduce : (produce w formatter a).log =
      (prepare w a).log ++ (writeFile w formatter a ("NativeModules.h", header)).log := by
    rw [log, actions_produce_of_generates h]
    exact List.filterMap_append
  have hrecover : (recover (produce w formatter a)).log = (produce w formatter a).log := by
    cases htakes : w.takes text with
    | true => rw [recover, (gives_produce_of_completes hcompletes htakes).result]; rfl
    | false =>
      rw [recover, (gives_produce_of_stageFails (.writing hcompletes htakes)).result]; rfl
  rw [log_run, hrecover, hproduce, hwrite]
  rfl

/-- Where generating fails, nothing is reported but what the preparation reports. -/
theorem produce_of_fault (h : Loads w a schema) (hfault : generated a schema = .error fault)
    (formatter : Formatter) :
    (produce w formatter a).result = .error fault ∧
      (produce w formatter a).log = (prepare w a).log := by
  have hprepare : (prepare w a).result = .error fault := (result_prepare_of_loads h).trans hfault
  rw [produce_eq, andThen_of_error hprepare]
  exact ⟨rfl, rfl⟩

theorem log_run_of_unsupported {context : String} {typeName : Document} (h : Loads w a schema)
    (hfault : generated a schema = .error (.unsupportedType context typeName))
    (formatter : Formatter) :
    (run w formatter a).log = .started w.path :: (prepare w a).log ++
      [.failed ("Unsupported type for " ++ context ++ ". Found: " ++ typeName.text)] := by
  obtain ⟨hresult, hlog⟩ := produce_of_fault h hfault formatter
  rw [log_run, recover, hresult, List.cons_append, ← hlog]
  exact congrArg _ List.filterMap_append

theorem log_run_of_fault (h : Loads w a schema) (hfault : generated a schema = .error fault)
    (other : ¬ IsUnsupported fault) (formatter : Formatter) :
    (run w formatter a).log = .started w.path :: (prepare w a).log := by
  obtain ⟨hresult, hlog⟩ := produce_of_fault h hfault formatter
  rw [log_run, recover, hresult, ← hlog]
  cases fault with
  | unsupportedType context typeName => exact absurd ⟨context, typeName, rfl⟩ other
  | _ => rfl

theorem isDetail_of_mem {entries : List (String × ModuleSpec)} {event : Event}
    (h : event ∈ opening w a schema ++ entries.map moduleLine) : event.isDetail = true := by
  rw [opening, List.mem_append, List.mem_append, List.mem_map, List.mem_map,
    List.mem_singleton] at h
  rcases h with (⟨path, -, rfl⟩ | rfl) | ⟨entry, -, rfl⟩ <;> rfl

section Reports

variable {entries : List (String × ModuleSpec)} {log later : List Event} {n : Nat}

theorem details_of_log
    (h : log = .started w.path ::
      .matched n :: (opening w a schema ++ entries.map moduleLine) ++ later)
    (hlater : ∀ event ∈ later, event.isDetail = false) :
    log.filter (·.level = .debug) = opening w a schema ++ entries.map moduleLine := by
  have hkept : (opening w a schema ++ entries.map moduleLine).filter (·.level = .debug) =
      opening w a schema ++ entries.map moduleLine :=
    List.filter_eq_self.2 fun _ hmem => isDetail_of_mem hmem
  have hdropped : later.filter (·.level = .debug) = [] := by
    refine List.filter_eq_nil_iff.2 fun event hmem hdebug => ?_
    cases (hlater event hmem).symm.trans hdebug
  rw [h, List.filter_append, hdropped, List.append_nil]
  exact hkept

theorem errors_of_log
    (h : log = .started w.path ::
      .matched n :: (opening w a schema ++ entries.map moduleLine) ++ later) :
    log.filter (·.level = .error) = later.filter (·.level = .error) := by
  have hdropped :
      (opening w a schema ++ entries.map moduleLine).filter (·.level = .error) = [] := by
    refine List.filter_eq_nil_iff.2 fun event hmem herror => ?_
    have hdebug : event.level = .debug := of_decide_eq_true (isDetail_of_mem hmem)
    cases hdebug.symm.trans (of_decide_eq_true herror)
  rw [h, List.filter_append]
  show (opening w a schema ++ entries.map moduleLine).filter _ ++ _ = _
  rw [hdropped, List.nil_append]

/-- The last report of the preparation is that of the last module. -/
theorem getLast?_of_log {entry : String × ModuleSpec}
    (h : log = .started w.path ::
      .matched n :: (opening w a schema ++ (entries ++ [entry]).map moduleLine)) :
    log.getLast? = some (moduleLine entry) := by
  rw [h, List.map_append, ← List.append_assoc, List.map_singleton, ← List.cons_append,
    ← List.cons_append, List.getLast?_concat]

end Reports

/-- The log of a run whose header is generated: all modules are reported, and at last that the
header was written, if the output takes it. -/
theorem reports_of_generated {files : OrderedMap String} (h : Loads w a schema)
    (hfiles : generated a schema = .ok files)
    (decodable : a.format = true → ∀ header output, Generates w a header →
      formatter (Formatter.callOn header) = .succeeded output → Succeeds (Utf8.decode output)) :
    (run w formatter a).log.filter (·.level = .debug) =
        opening w a schema ++ schema.flatten.entries.map moduleLine ∧
      ((∀ text, Completes w formatter a text → w.takes text = true) →
        (run w formatter a).log.getLast? = some (.wrote "NativeModules.h")) := by
  obtain ⟨header, hheader⟩ | ⟨fault, hfault⟩ := exists_generated a schema
  · have hgenerates : Generates w a header := ⟨schema, h, hheader⟩
    obtain ⟨text, hfinishes⟩ := exists_finishes_of_decodable
      fun on output => decodable on header output hgenerates
    have hrun := log_run_of_completes hgenerates hfinishes
    rw [log_prepare h (Schema.log_generate_of_ok (name_of_loads h) hfiles)] at hrun
    refine ⟨details_of_log hrun fun event hevent => ?_, fun htaken => ?_⟩
    · rcases List.mem_append.1 hevent with hevent | hevent
      · exact not_isDetail_of_mem_finish hevent
      · unfold writeReports at hevent
        split at hevent
        · obtain rfl := List.mem_singleton.1 hevent
          rfl
        · cases hevent
    · rw [hrun, writeReports, if_pos (htaken text ⟨header, hgenerates, hfinishes⟩),
        ← List.append_assoc, List.getLast?_concat]
  · cases hfiles.symm.trans hfault

/-- The log of a run in which generating fails in a module: this is the last module that is
reported.  A type without a counterpart is an error that is reported after it. -/
theorem reports_of_failsIn {before : List (String × ModuleSpec)} {entry : String × ModuleSpec}
    (h : Loads w a schema) (hfault : generated a schema = .error fault)
    (hfails : schema.FailsIn before entry fault) (formatter : Formatter) :
    (run w formatter a).log.filter (·.level = .debug) =
        opening w a schema ++ (before ++ [entry]).map moduleLine ∧
      (¬ IsUnsupported fault → (run w formatter a).log.getLast? = some (moduleLine entry)) ∧
      ∀ context typeName, fault = .unsupportedType context typeName →
        ∃ event, (run w formatter a).log.getLast? = some event ∧
          (run w formatter a).log.filter (·.level = .error) = [event] ∧
          event.message = "Header generation failed: " ++
            ("Unsupported type for " ++ context ++ ". Found: " ++ typeName.text) := by
  have hprepare := log_prepare h (hfails.log_generate (name_of_loads h))
  by_cases hunsupported : IsUnsupported fault
  · obtain ⟨context, typeName, rfl⟩ := hunsupported
    have hrun := log_run_of_unsupported h hfault formatter
    rw [hprepare] at hrun
    refine ⟨details_of_log hrun (List.forall_mem_singleton.2 rfl),
      fun other => absurd ⟨_, _, rfl⟩ other, fun context typeName heq => ?_⟩
    cases heq
    refine ⟨_, ?_, errors_of_log hrun, rfl⟩
    rw [hrun, List.getLast?_concat]
  · have hrun := log_run_of_fault h hfault hunsupported formatter
    rw [hprepare] at hrun
    refine ⟨details_of_log (hrun.trans (List.append_nil _).symm)
        fun _ hevent => absurd hevent List.not_mem_nil,
      fun _ => getLast?_of_log hrun, fun context typeName heq => ?_⟩
    exact absurd ⟨context, typeName, heq⟩ hunsupported

/-- A verbose log tells where generating fails.  Its details are the schema files, each once and in
increasing order, then the header with the number of modules, and then the modules in the order of
the header, each with the number of its methods.  If the header is generated, all modules are
reported, and at last that the header was written, which it is if the standard output takes it.  If
not, the module where generating fails is the last that is reported; and if a type in it has no
counterpart, the one error that is reported comes last, with the message for that.

The schema files are found and can be loaded, and what a formatter that is asked for writes is text.
Of documents that name half of a pair of code units nothing is said; they are not loaded here. -/
theorem verbose_log_locates_failure (w : Workspace) (formatter : Formatter) (texts : List String)
    (a : Arguments) (request : Request.ofWords w.edition texts = .run a)
    (verbose : a.verbose = true)
    (found : matched w a ≠ [])
    (decodable : a.format = true → ∀ header output, Generates w a header →
      formatter (Formatter.callOn header) = .succeeded output → Succeeds (Utf8.decode output)) :
    (matched w a).Pairwise (· < ·) ∧
    ((∀ path ∈ matched w a, Succeeds (w.readDocument path >>= Schema.load)) →
      ∃ schema, Loads w a schema) ∧
    ∀ schema, Loads w a schema →
      (∀ files, generated a schema = .ok files →
        (outcome w formatter texts).log.filter (·.level = .debug) =
            opening w a schema ++ schema.flatten.entries.map moduleLine ∧
          ((∀ text, Completes w formatter a text → w.takes text = true) →
            (outcome w formatter texts).log.getLast? = some (.wrote "NativeModules.h"))) ∧
      ∀ fault, generated a schema = .error fault →
        ∃ before entry, schema.FailsIn before entry fault ∧
          (outcome w formatter texts).log.filter (·.level = .debug) =
            opening w a schema ++ (before ++ [entry]).map moduleLine ∧
          (¬ IsUnsupported fault →
            (outcome w formatter texts).log.getLast? = some (moduleLine entry)) ∧
          ∀ context typeName, fault = .unsupportedType context typeName →
            (∃ method ∈ entry.2.methods, ∃ expr, method.Place context expr ∧
              expr.cxxType entry.2.aliases context = .error fault) ∧
            ∃ event, (outcome w formatter texts).log.getLast? = some event ∧
              (outcome w formatter texts).log.filter (·.level = .error) = [event] ∧
              event.message = "Header generation failed: " ++
                ("Unsupported type for " ++ context ++ ". Found: " ++ typeName.text) := by
  have hlog : (outcome w formatter texts).log = (run w formatter a).log := by
    rw [outcome_of_run request, Outcome.ofRun, shownLog, verbose]
    exact List.filter_eq_self.2 fun _ _ => rfl
  rw [hlog]
  refine ⟨matched_pairwise w a, exists_loads found, fun schema hloads =>
    ⟨fun files hfiles => reports_of_generated hloads hfiles decodable, fun fault hfault => ?_⟩⟩
  obtain ⟨before, entry, hfails⟩ := Schema.exists_failsIn hfault
  obtain ⟨hdetails, hother, herror⟩ := reports_of_failsIn hloads hfault hfails formatter
  refine ⟨before, entry, hfails, hdetails, hother, fun context typeName heq => ⟨?_, ?_⟩⟩
  · subst heq
    exact hfails.exists_place
  · exact herror context typeName heq

/-- Two schema files with three modules, of which the second has a method without a type for its
result. -/
def brokenWorkspace : Workspace where
  home := ["home".toList]
  files := .directory [("home".toList, .directory
    [("b.json".toList, .file (Utf8.encode ("\x7b\"modules\":\x7b\"s\":\x7b\"nativeModules\":" ++
        "\x7b\"Second\":\x7b\"properties\":[\x7b\"name\":\"stop\",\"typeAnnotation\":" ++
        "\x7b\"params\":[],\"returnTypeAnnotation\":\x7b\"type\":\"Any\"\x7d\x7d\x7d]\x7d," ++
        "\"Third\":\x7b\"properties\":[]\x7d\x7d\x7d\x7d\x7d"))),
      ("a.json".toList, .file (Utf8.encode ("\x7b\"modules\":\x7b\"s\":\x7b\"nativeModules\":" ++
        "\x7b\"First\":\x7b\"properties\":[]\x7d\x7d\x7d\x7d\x7d")))])]
  edition := .newer

def brokenArguments : Arguments where
  paths := ["b.json", "a.json"]
  verbose := true

theorem matched_brokenWorkspace :
    matched brokenWorkspace brokenArguments = ["/home/a.json", "/home/b.json"] := by
  decide +kernel

/-- The place and the tag of a type without a counterpart that a fault reports. -/
def unsupported? : Fault → Option (String × String)
  | .unsupportedType context (.string tag) => some (context, tag)
  | _ => none

theorem eq_of_unsupported? {context tag : String} (h : unsupported? fault = some (context, tag)) :
    fault = .unsupportedType context (.string tag) := by
  unfold unsupported? at h
  split at h
  · cases h
    rfl
  · cases h

theorem brokenWorkspace_loads :
    ∃ schema, Loads brokenWorkspace brokenArguments schema ∧
      schema.flatten.entries.map moduleLine =
        [.moduleBegun "First" 0, .moduleBegun "Second" 1, .moduleBegun "Third" 0] ∧
      generated brokenArguments schema =
        .error (.unsupportedType "return type of stop" (.string "Any")) := by
  have h : (brokenWorkspace.loadSchema ["/home/a.json", "/home/b.json"]).result.toOption.any
      (fun schema => decide (schema.flatten.entries.map moduleLine =
          [.moduleBegun "First" 0, .moduleBegun "Second" 1, .moduleBegun "Third" 0]) &&
        decide ((schema.checks.findSome? Check.fault?).bind unsupported? =
          some ("return type of stop", "Any"))) = true := by decide +kernel
  obtain ⟨schema, hschema, htest⟩ := exists_of_toOption_any h
  obtain ⟨hlines, htest⟩ := Bool.and_eq_true_iff.1 htest
  have hloads : Loads brokenWorkspace brokenArguments schema :=
    ⟨by rw [matched_brokenWorkspace]; decide, by rw [matched_brokenWorkspace]; exact hschema⟩
  refine ⟨schema, hloads, of_decide_eq_true hlines, ?_⟩
  obtain ⟨fault, hfault, htest⟩ := Option.bind_eq_some_iff.1 (of_decide_eq_true htest)
  rw [generated, ← fault?_eq_some_iff, fault?_generate, hfault, eq_of_unsupported? htest]

/-- Of these modules the one that fails is the second, if it has a method. -/
theorem reported_brokenWorkspace {before : List (String × ModuleSpec)} {entry : String × ModuleSpec}
    (hlines : schema.flatten.entries.map moduleLine =
      [.moduleBegun "First" 0, .moduleBegun "Second" 1, .moduleBegun "Third" 0])
    (hfails : schema.FailsIn before entry fault) (hmethods : entry.2.methods.length ≠ 0) :
    (before ++ [entry]).map moduleLine = [.moduleBegun "First" 0, .moduleBegun "Second" 1] := by
  obtain ⟨after, hplace⟩ := hfails.place
  rw [hplace] at hlines
  rcases before with _ | ⟨first, _ | ⟨second, rest⟩⟩
  · simp [moduleLine, hmethods] at hlines
  · obtain ⟨hfirst, hlines⟩ := List.cons.inj hlines
    obtain ⟨hentry, -⟩ := List.cons.inj hlines
    show [moduleLine first, moduleLine entry] = _
    rw [hfirst, hentry]
  · cases rest <;> simp [moduleLine, hmethods] at hlines

/-- The log ends where the second module fails. -/
theorem brokenWorkspace_log :
    (outcome brokenWorkspace (fun _ => .missing) ["-v", "-p", "b.json", "a.json"]).log.filter
        (·.level = .debug) =
      [.loaded "/home/a.json", .loaded "/home/b.json",
        .headerBegun "NativeModules.h" "" "" 3, .moduleBegun "First" 0,
        .moduleBegun "Second" 1] ∧
    ∃ event, (outcome brokenWorkspace (fun _ => .missing)
        ["-v", "-p", "b.json", "a.json"]).log.getLast? = some event ∧
      event.message = "Header generation failed: Unsupported type for return type of stop. " ++
        "Found: Any" := by
  have hrequest : Request.ofWords .newer ["-v", "-p", "b.json", "a.json"] =
      .run brokenArguments := by decide
  obtain ⟨schema, hloads, hlines, hfault⟩ := brokenWorkspace_loads
  obtain ⟨-, -, hall⟩ := verbose_log_locates_failure brokenWorkspace (fun _ => .missing) _
    brokenArguments hrequest rfl hloads.found fun on => absurd on (by decide)
  obtain ⟨before, entry, hfails, hdetails, -, hlast⟩ := (hall schema hloads).2 _ hfault
  obtain ⟨⟨method, hmethod, -⟩, event, hevent, -, hmessage⟩ := hlast _ _ rfl
  refine ⟨?_, event, hevent, hmessage⟩
  have hsize : schema.flatten.size = 3 := by
    have hlength := congrArg List.length hlines
    rwa [List.length_map] at hlength
  have hreported := reported_brokenWorkspace hlines hfails (List.length_pos_of_mem hmethod).ne'
  rw [hdetails, hreported, opening, matched_brokenWorkspace, hsize]
  rfl

end CommandLine

end NativeHeader
