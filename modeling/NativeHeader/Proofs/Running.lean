import NativeHeader.Proofs.Delivery

/-!
# Running a command line

A run first prepares the complete header, and then finishes and writes it (`produce_eq`).  The
preparation only reports; neither the formatter nor the request for it counts there.  If it gives a
header, everything that the run does later comes after it (`actions_run_of_generates`); if not, the
run does nothing but report (`onlyReports_run`).

What can be seen of a command line is its `outcome`: how it ends, what it writes, the reports that
are shown, and the calls of the formatter.
-/

namespace NativeHeader.CommandLine

open Traced

variable {w : Workspace} {formatter : Formatter} {a : Arguments} {header : String}

/-! ## Preparing the header -/

/-- Finds, merges and generates: all of a run up to the complete header. -/
def prepare (w : Workspace) (a : Arguments) : Traced (OrderedMap String) := do
  let paths ← Traced.of (schemaPaths w a)
  Traced.report (.matched paths.length)
  let schema ← w.loadSchema paths
  schema.generate (Arguments.shownName a.libraryName) (Arguments.shownName a.moduleSpecName)

theorem produce_eq (w : Workspace) (formatter : Formatter) (a : Arguments) :
    produce w formatter a =
      prepare w a >>= fun files => files.entries.forM (writeFile w formatter a) := by
  unfold produce prepare
  simp only [bind_assoc]

theorem onlyReports_prepare (w : Workspace) (a : Arguments) : OnlyReports (prepare w a) :=
  (onlyReports_of _).bind fun _ => (onlyReports_report _).bind fun _ =>
    (onlyReports_loadSchema _ _).bind fun _ => onlyReports_generate _ _ _

theorem result_prepare (w : Workspace) (a : Arguments) :
    (prepare w a).result =
      schemaPaths w a >>= fun paths => (w.loadSchema paths).result >>= generated a := by
  unfold prepare
  simp only [result_bind, result_of]
  rfl

theorem result_prepare_eq_ok_iff {files : OrderedMap String} :
    (prepare w a).result = .ok files ↔
      ∃ schema, Loads w a schema ∧ generated a schema = .ok files := by
  rw [result_prepare]
  constructor
  · intro h
    by_cases hfound : matched w a = []
    · rw [schemaPaths_of_none hfound] at h
      cases h
    · rw [schemaPaths_of_found hfound] at h
      obtain ⟨_, hpaths, h⟩ := bind_eq_ok_iff.1 h
      obtain ⟨schema, hloaded, hgenerated⟩ := bind_eq_ok_iff.1 h
      cases hpaths
      exact ⟨schema, ⟨hfound, hloaded⟩, hgenerated⟩
  · rintro ⟨schema, ⟨hfound, hloaded⟩, hgenerated⟩
    rw [schemaPaths_of_found hfound]
    exact bind_eq_ok_iff.2 ⟨_, rfl, bind_eq_ok_iff.2 ⟨schema, hloaded, hgenerated⟩⟩

/-- The preparation gives the complete header, or it fails. -/
theorem prepare_cases (w : Workspace) (a : Arguments) :
    (∃ header, Generates w a header ∧
        (prepare w a).result = .ok (OrderedMap.empty.put "NativeModules.h" header)) ∨
      (∀ header, ¬ Generates w a header) ∧ ∃ fault, (prepare w a).result = .error fault := by
  cases hresult : (prepare w a).result with
  | ok files =>
    obtain ⟨schema, hloads, hfiles⟩ := result_prepare_eq_ok_iff.1 hresult
    rcases exists_generated a schema with ⟨header, hheader⟩ | ⟨fault, hfault⟩
    · rw [← hfiles, hheader]
      exact .inl ⟨header, ⟨schema, hloads, hheader⟩, rfl⟩
    · cases hfiles.symm.trans hfault
  | error fault =>
    refine .inr ⟨fun header ⟨schema, hloads, hheader⟩ => ?_, fault, rfl⟩
    cases hresult.symm.trans (result_prepare_eq_ok_iff.2 ⟨schema, hloads, hheader⟩)

theorem result_prepare_of_generates (h : Generates w a header) :
    (prepare w a).result = .ok (OrderedMap.empty.put "NativeModules.h" header) :=
  result_prepare_eq_ok_iff.2 h

/-! ## Finishing it -/

/-- The exit code is found without doing anything but reporting. -/
theorem actions_recover (t : Traced Unit) :
    ∃ events : List Event, (recover t).actions = t.actions ++ events.map .report := by
  unfold recover
  split
  · exact ⟨[], by simp⟩
  · exact ⟨[_], rfl⟩
  · exact ⟨[], by simp⟩

/-- A complete header is finished and written. -/
theorem actions_produce_of_generates (h : Generates w a header) (formatter : Formatter) :
    (produce w formatter a).actions =
      (prepare w a).actions ++ (writeFile w formatter a ("NativeModules.h", header)).actions := by
  rw [produce_eq, andThen_of_ok (result_prepare_of_generates h)]
  show _ ++ (writeFile w formatter a ("NativeModules.h", header) >>= fun _ => pure ()).actions = _
  rw [bind_pure_unit]

/-- After a complete header a run finishes and writes it. -/
theorem actions_run_of_generates (h : Generates w a header) (formatter : Formatter) :
    ∃ events : List Event, (run w formatter a).actions =
      .report (.started w.path) :: (prepare w a).actions ++
        ((writeFile w formatter a ("NativeModules.h", header)).actions ++ events.map .report) := by
  obtain ⟨events, hevents⟩ := actions_recover (produce w formatter a)
  refine ⟨events, ?_⟩
  show .report (.started w.path) :: (recover (produce w formatter a)).actions = _
  rw [hevents, actions_produce_of_generates h]
  simp

/-- Without a complete header a run does nothing but report. -/
theorem onlyReports_run (h : ∀ header, ¬ Generates w a header) (formatter : Formatter) :
    OnlyReports (run w formatter a) := by
  rcases prepare_cases w a with ⟨header, hheader, -⟩ | ⟨-, fault, hfault⟩
  · exact absurd hheader (h header)
  have hproduce : (produce w formatter a).actions = (prepare w a).actions := by
    rw [produce_eq, andThen_of_error hfault]
  obtain ⟨events, hevents⟩ := actions_recover (produce w formatter a)
  refine (onlyReports_report _).bind fun _ action haction => ?_
  rw [hevents, hproduce] at haction
  rcases List.mem_append.1 haction with haction | haction
  · exact onlyReports_prepare w a action haction
  · obtain ⟨event, -, rfl⟩ := List.mem_map.1 haction
    exact ⟨event, rfl⟩

/-! ## What can be seen of a command line -/

/-- What can be seen of a command line: how it ends, what it writes, the reports that are shown, and
the calls of the formatter.  The texts that explain the usage are left out. -/
structure Outcome where
  ending : Except Fault Nat
  output : String
  log : List Event
  calls : List FormatterCall

/-- What can be seen of a run. -/
def Outcome.ofRun (w : Workspace) (formatter : Formatter) (a : Arguments) : Outcome where
  ending := (run w formatter a).result
  output := (run w formatter a).output
  log := shownLog a.verbose (run w formatter a).log
  calls := (run w formatter a).calls

theorem Outcome.ending_ofRun (w : Workspace) (formatter : Formatter) (a : Arguments) :
    (Outcome.ofRun w formatter a).ending = (run w formatter a).result := rfl

/-- What can be seen of a command line.  One that asks for help ends with exit code 0 and one that
makes no sense with exit code 2, both before anything is searched for. -/
def outcome (w : Workspace) (formatter : Formatter) (texts : List String) : Outcome :=
  match Request.ofWords w.edition texts with
  | .help => { ending := .ok 0, output := "", log := [], calls := [] }
  | .misuse => { ending := .ok 2, output := "", log := [], calls := [] }
  | .run a => .ofRun w formatter a

theorem outcome_of_run {texts : List String} (h : Request.ofWords w.edition texts = .run a) :
    outcome w formatter texts = .ofRun w formatter a := by
  rw [outcome, h]

/-- Two schema files, of which one describes a module and the other none. -/
def unevenWorkspace : Workspace where
  home := ["home".toList]
  files := .directory [("home".toList, .directory
    [("a.json".toList, .file (Utf8.encode ("\x7b\"modules\":\x7b\"index.js\":" ++
        "\x7b\"nativeModules\":\x7b\"First\":\x7b\"properties\":[]\x7d\x7d\x7d\x7d\x7d"))),
      ("b.json".toList, .file (Utf8.encode "\x7b\"modules\":\x7b\x7d\x7d"))])]
  edition := .newer

end NativeHeader.CommandLine
