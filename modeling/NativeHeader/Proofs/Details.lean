import NativeHeader.Proofs.Running

/-!
# What only the details tell

The name of the library and that of the module specification are handed down to the generator, which
reports them as a detail and uses them for nothing else.  Verbosity decides which reports are shown.
So if the details are left out, runs that differ in these arguments only are the same run
(`withoutDetails_run`): they end alike, write the same, call the formatter alike, and their logs
differ in details only (`names_and_verbosity_change_only_details`).

Leaving out the details of a computation is compatible with doing one thing after another
(`withoutDetails_bind`).
-/

namespace NativeHeader

variable {α β : Type}

/-! ## Leaving out details -/

/-- Whether an action is the report of a detail. -/
def Action.isDetail : Action → Bool
  | .report event => event.isDetail
  | _ => false

namespace Traced

/-- The computation without its reports of details. -/
def withoutDetails (t : Traced α) : Traced α :=
  { actions := t.actions.filter (!·.isDetail), result := t.result }

@[simp] theorem result_withoutDetails (t : Traced α) : t.withoutDetails.result = t.result := rfl

theorem withoutDetails_report {event : Event} (h : event.isDetail = true) :
    (report event).withoutDetails = pure () := by
  show Traced.mk ([Action.report event].filter _) _ = _
  rw [List.filter_cons_of_neg (by simp [Action.isDetail, h])]
  rfl

theorem withoutDetails_bind (t : Traced α) (next : α → Traced β) :
    (t >>= next).withoutDetails =
      t.withoutDetails >>= fun value => (next value).withoutDetails := by
  cases hresult : t.result with
  | error fault =>
    rw [andThen_of_error hresult, andThen_of_error (by exact hresult)]
    rfl
  | ok value =>
    rw [andThen_of_ok hresult, andThen_of_ok (by exact hresult)]
    show Traced.mk ((t.actions ++ (next value).actions).filter _) _ = _
    rw [List.filter_append]
    rfl

theorem withoutDetails_congr {t t' : Traced α} {next next' : α → Traced β}
    (h : t.withoutDetails = t'.withoutDetails)
    (hnext : ∀ value, (next value).withoutDetails = (next' value).withoutDetails) :
    (t >>= next).withoutDetails = (t' >>= next').withoutDetails := by
  rw [withoutDetails_bind, withoutDetails_bind, h, funext hnext]

theorem log_withoutDetails (t : Traced α) :
    t.withoutDetails.log = t.log.filter (!·.isDetail) := by
  show (t.actions.filter _).filterMap Action.event? = (t.actions.filterMap Action.event?).filter _
  rw [List.filterMap_filter, List.filter_filterMap]
  refine List.filterMap_congr fun action _ => ?_
  cases action with
  | report event =>
    show _ = Option.filter _ (some event)
    rw [Option.filter_some]
    rfl
  | _ => rfl

/-- What is no report is kept. -/
theorem filterMap_withoutDetails {f : Action → Option β} (h : ∀ event, f (.report event) = none)
    (t : Traced α) : t.withoutDetails.actions.filterMap f = t.actions.filterMap f := by
  show (t.actions.filter _).filterMap f = _
  rw [List.filterMap_filter]
  refine List.filterMap_congr fun action _ => ?_
  cases action with
  | report event => simp [h]
  | _ => rfl

theorem output_withoutDetails (t : Traced α) : t.withoutDetails.output = t.output :=
  congrArg String.join (filterMap_withoutDetails (fun _ => rfl) t)

theorem calls_withoutDetails (t : Traced α) : t.withoutDetails.calls = t.calls :=
  filterMap_withoutDetails (fun _ => rfl) t

end Traced

open Traced

/-- Generating is the same for all names if the details are left out. -/
theorem withoutDetails_generate (schema : Schema)
    (library moduleSpec library' moduleSpec' : String) :
    (schema.generate library moduleSpec).withoutDetails =
      (schema.generate library' moduleSpec').withoutDetails := by
  refine withoutDetails_congr ?_ fun _ => rfl
  rw [withoutDetails_report rfl, withoutDetails_report rfl]

/-- Whether two arguments differ in names and verbosity only. -/
structure Arguments.SameProduct (a b : Arguments) : Prop where
  paths : a.paths = b.paths
  excludes : a.excludes = b.excludes
  recursive : a.recursive = b.recursive
  format : a.format = b.format

namespace CommandLine

variable {a b : Arguments}

theorem schemaPaths_congr (h : a.SameProduct b) (w : Workspace) :
    schemaPaths w a = schemaPaths w b := by
  unfold schemaPaths search
  rw [h.paths, h.excludes, h.recursive]

theorem writeFile_congr (h : a.SameProduct b) (w : Workspace) (formatter : Formatter) :
    writeFile w formatter a = writeFile w formatter b := by
  unfold writeFile
  rw [h.format]

theorem withoutDetails_prepare (h : a.SameProduct b) (w : Workspace) :
    (prepare w a).withoutDetails = (prepare w b).withoutDetails := by
  unfold prepare
  rw [schemaPaths_congr h]
  exact withoutDetails_congr rfl fun _ => withoutDetails_congr rfl fun _ =>
    withoutDetails_congr rfl fun schema => withoutDetails_generate schema _ _ _ _

theorem withoutDetails_produce (h : a.SameProduct b) (w : Workspace) (formatter : Formatter) :
    (produce w formatter a).withoutDetails = (produce w formatter b).withoutDetails := by
  rw [produce_eq, produce_eq, writeFile_congr h]
  exact withoutDetails_congr (withoutDetails_prepare h w) fun _ => rfl

/-- The exit code is found alike, and no detail is reported then. -/
theorem withoutDetails_recover (t : Traced Unit) :
    (recover t).withoutDetails = recover t.withoutDetails := by
  unfold recover
  rw [result_withoutDetails]
  split
  · rfl
  · show Traced.mk ((t.actions ++ _).filter _) _ = _
    rw [List.filter_append]
    rfl
  · rfl

/-- Runs that differ in names and verbosity only are the same if the details are left out. -/
theorem withoutDetails_run (h : a.SameProduct b) (w : Workspace) (formatter : Formatter) :
    (run w formatter a).withoutDetails = (run w formatter b).withoutDetails := by
  refine withoutDetails_congr rfl fun _ => ?_
  rw [withoutDetails_recover, withoutDetails_recover, withoutDetails_produce h]

/-! ## Logs -/

/-- What is shown of a log in any case. -/
theorem filter_shownLog (verbose : Bool) (log : List Event) :
    (shownLog verbose log).filter (!·.isDetail) = log.filter (!·.isDetail) := by
  rw [shownLog, List.filter_filter]
  refine List.filter_congr fun event _ => ?_
  cases event.isDetail <;> simp

theorem shownLog_false (log : List Event) : shownLog false log = log.filter (!·.isDetail) := rfl

theorem not_isDetail_iff (event : Event) : (!event.isDetail) = decide (event.level ≠ .debug) := by
  simp [Event.isDetail]

/-- The names of the library and of the module specification, and verbosity, never influence the
product.  Two command lines that ask for runs which differ in nothing else end alike, write the
same, and call the formatter alike.  Their logs are the same but for debug reports, and a log that
is not verbose is the verbose one without these. -/
theorem names_and_verbosity_change_only_details (w : Workspace) (formatter : Formatter)
    {texts texts' : List String} {a b : Arguments}
    (h : Request.ofWords w.edition texts = .run a) (h' : Request.ofWords w.edition texts' = .run b)
    (same : a.SameProduct b) :
    (outcome w formatter texts).ending = (outcome w formatter texts').ending ∧
    (outcome w formatter texts).output = (outcome w formatter texts').output ∧
    (outcome w formatter texts).calls = (outcome w formatter texts').calls ∧
    ((outcome w formatter texts).log.filter (·.level ≠ .debug) =
      (outcome w formatter texts').log.filter (·.level ≠ .debug)) ∧
    (b.verbose = false → (outcome w formatter texts').log =
      (outcome w formatter texts).log.filter (·.level ≠ .debug)) := by
  have hrun := withoutDetails_run same w formatter
  have hlog : (run w formatter a).log.filter (!·.isDetail) =
      (run w formatter b).log.filter (!·.isDetail) := by
    rw [← log_withoutDetails, ← log_withoutDetails, hrun]
  rw [outcome_of_run h, outcome_of_run h']
  simp only [← not_isDetail_iff, Outcome.ofRun, filter_shownLog]
  refine ⟨?_, ?_, ?_, hlog, fun hquiet => ?_⟩
  · rw [← result_withoutDetails, hrun, result_withoutDetails]
  · rw [← output_withoutDetails, hrun, output_withoutDetails]
  · rw [← calls_withoutDetails, hrun, calls_withoutDetails]
  · rw [hquiet, shownLog_false, hlog]

/-- The library is named in one line, and the module specification in the other. -/
theorem unevenWorkspace_ignores_names :
    (outcome unevenWorkspace (fun _ => .missing)
        ["-v", "-l", "Library", "-p", "a.json", "--clang-format"]).log.filter
          (·.level ≠ .debug) =
      (outcome unevenWorkspace (fun _ => .missing)
        ["--clang-format", "-m", "Specification", "-p", "a.json"]).log := by
  have h : Request.ofWords .newer ["-v", "-l", "Library", "-p", "a.json", "--clang-format"] =
      .run
        { paths := ["a.json"]
          libraryName := some "Library"
          format := true
          verbose := true } := by
    decide
  have h' : Request.ofWords .newer ["--clang-format", "-m", "Specification", "-p", "a.json"] =
      .run { paths := ["a.json"], moduleSpecName := some "Specification", format := true } := by
    decide
  obtain ⟨-, -, -, -, hquiet⟩ := names_and_verbosity_change_only_details unevenWorkspace
    (fun _ => .missing) h h' ⟨rfl, rfl, rfl, rfl⟩
  exact (hquiet rfl).symm

end CommandLine

end NativeHeader
