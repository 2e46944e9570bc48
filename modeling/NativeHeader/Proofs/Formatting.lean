import NativeHeader.Proofs.FormatOption
import NativeHeader.Proofs.Running

/-!
# Formatting is a service

A formatter that is missing or fails changes nothing of what a run delivers: the run ends and writes
as without it (`run_unformatted`).  Only a complete header is ever given to the formatter, once and
as it is (`calls_run`).

For a whole command line the run without the formatter is the one without the words that spell its
option (`failing_formatter_changes_nothing`).  That needs a proviso: a word that stands after the
option and could be a value spoils the line, and without the option it may be a value of the option
before it (`stray_value_spoils_line`).
-/

namespace NativeHeader

/-- Whether the formatter is missing, or fails, when it is called on a text. -/
def Formatter.FailsOn (formatter : Formatter) (text : String) : Prop :=
  formatter (callOn text) = .missing ∨
    ∃ failure complaint, formatter (callOn text) = .failed failure complaint

namespace CommandLine

open Traced (Gives)

variable {w : Workspace} {formatter other : Formatter} {a : Arguments}
  {header text : String} {fault : Fault}

/-! ## A formatter that fails -/

theorem finishes_of_failsOn (a : Arguments) (h : formatter.FailsOn header) :
    Finishes formatter a header (.ok header) := by
  cases hformat : a.format with
  | false => exact .plain hformat
  | true =>
    rcases h with hmissing | ⟨failure, complaint, hfailed⟩
    · exact .missing hformat hmissing
    · exact .failed hformat hfailed

theorem generates_of_unformatted (h : Generates w a.unformatted header) :
    Generates w a header := by
  obtain ⟨schema, ⟨hfound, hloaded⟩, hgenerated⟩ := h
  exact ⟨schema, ⟨hfound, hloaded⟩, hgenerated⟩

theorem completes_of_unformatted
    (hfails : ∀ header, Generates w a header → formatter.FailsOn header)
    (h : Completes w other a.unformatted text) : Completes w formatter a text := by
  obtain ⟨header, hgenerates, hfinishes⟩ := h
  have hgenerates := generates_of_unformatted hgenerates
  cases hfinishes with
  | plain => exact ⟨text, hgenerates, finishes_of_failsOn a (hfails text hgenerates)⟩
  | missing on => cases on
  | failed on => cases on
  | formatted on => cases on

theorem stageFails_of_unformatted
    (hfails : ∀ header, Generates w a header → formatter.FailsOn header)
    (h : StageFails w other a.unformatted fault) :
    StageFails w formatter a fault := by
  cases h with
  | searching none => exact .searching none
  | loading found failed => exact .loading found failed
  | generating loads failed => exact .generating ⟨loads.found, loads.loaded⟩ failed
  | finishing generates failed =>
    cases failed with
    | undecodable on => cases on
  | writing completes refused => exact .writing (completes_of_unformatted hfails completes) refused

/-- If the formatter fails, a run ends and writes as without it, whatever formatter is then at
hand. -/
theorem run_unformatted (hfails : ∀ header, Generates w a header → formatter.FailsOn header)
    (other : Formatter) :
    (run w formatter a).result = (run w other a.unformatted).result ∧
      (run w formatter a).output = (run w other a.unformatted).output := by
  have hsame : ∀ (texts : List String) (code : Except Fault Nat),
      Gives (run w other a.unformatted) texts code → Gives (run w formatter a) texts code →
        (run w formatter a).result = (run w other a.unformatted).result ∧
          (run w formatter a).output = (run w other a.unformatted).output :=
    fun texts code hother h =>
      ⟨h.result.trans hother.result.symm, h.output_eq.trans hother.output_eq.symm⟩
  rcases run_cases w other a.unformatted with
    ⟨text, h, htakes, hgives⟩ | ⟨context, typeName, h, hgives⟩ | ⟨fault, h, hfault, hgives⟩
  · exact hsame _ _ hgives (gives_run_of_completes (completes_of_unformatted hfails h) htakes)
  · exact hsame _ _ hgives (gives_run_of_unsupported (stageFails_of_unformatted hfails h))
  · exact hsame _ _ hgives (gives_run_of_fault (stageFails_of_unformatted hfails h) hfault)

/-! ## Calls of the formatter -/

/-- Formatting calls the formatter on the text, and then only reports. -/
theorem actions_format (formatter : Formatter) (text : String) :
    ∃ events : List Event,
      (formatter.format text).actions = .format (Formatter.callOn text) :: events.map .report := by
  unfold Formatter.format
  cases formatter (Formatter.callOn text) with
  | missing => exact ⟨[.formatterMissing], rfl⟩
  | failed failure complaint => exact ⟨[.formatterFailed _ _, .formatterComplained _], rfl⟩
  | succeeded output => exact ⟨[], rfl⟩

theorem calls_map_report (events : List Event) :
    (events.map Action.report).filterMap Action.call? = [] :=
  List.filterMap_eq_nil_iff.2 fun action haction => by
    obtain ⟨event, -, rfl⟩ := List.mem_map.1 haction
    rfl

theorem calls_write (w : Workspace) (name text : String) : (write w name text).calls = [] := by
  unfold write
  split <;> rfl

/-- Writing a file calls the formatter first of all, and once, if it is asked for. -/
theorem actions_writeFile (on : a.format = true) (w : Workspace) (formatter : Formatter)
    (file : String × String) :
    ∃ after : List Action, after.filterMap Action.call? = [] ∧
      (writeFile w formatter a file).actions = .format (Formatter.callOn file.2) :: after := by
  obtain ⟨events, hevents⟩ := actions_format formatter file.2
  have hfinish : finish formatter a file.2 = formatter.format file.2 := by
    rw [finish, if_pos on]
  rw [writeFile_eq, hfinish]
  cases hresult : (formatter.format file.2).result with
  | error fault =>
    rw [Traced.andThen_of_error hresult, hevents]
    exact ⟨events.map .report, calls_map_report events, rfl⟩
  | ok text =>
    rw [Traced.andThen_of_ok hresult, hevents]
    refine ⟨events.map .report ++ _, ?_, rfl⟩
    rw [List.filterMap_append, calls_map_report]
    exact calls_write w file.1 text

theorem calls_writeFile_of_off (off : a.format = false) (w : Workspace) (formatter : Formatter)
    (file : String × String) : (writeFile w formatter a file).calls = [] := by
  rw [writeFile_eq, finish, off]
  exact calls_write w file.1 file.2

/-- A run calls the formatter once if that is asked for and there is a complete header: on the
header, and after it has been generated.  Otherwise it does not call it. -/
theorem calls_run (w : Workspace) (formatter : Formatter) (a : Arguments) :
    ((run w formatter a).calls = [] ∧ (a.format = true → ∀ header, ¬ Generates w a header)) ∨
      ∃ header after, a.format = true ∧ Generates w a header ∧
        (run w formatter a).calls = [Formatter.callOn header] ∧
        (run w formatter a).actions = .report (.started w.path) :: (prepare w a).actions ++
          .format (Formatter.callOn header) :: after := by
  rcases prepare_cases w a with ⟨header, hgenerates, -⟩ | ⟨hnone, -⟩
  · obtain ⟨events, hactions⟩ := actions_run_of_generates hgenerates formatter
    have hprepare : (prepare w a).actions.filterMap Action.call? = [] :=
      (onlyReports_prepare w a).calls_eq_nil
    have hcalls : (run w formatter a).calls =
        (writeFile w formatter a ("NativeModules.h", header)).calls := by
      rw [Traced.calls, hactions]
      simp only [List.filterMap_append, List.filterMap_cons, hprepare, calls_map_report]
      simp [Action.call?, Traced.calls]
    cases hformat : a.format with
    | false => exact .inl ⟨hcalls.trans (calls_writeFile_of_off hformat w formatter _), nofun⟩
    | true =>
      obtain ⟨after, hafter, hwrite⟩ :=
        actions_writeFile hformat w formatter ("NativeModules.h", header)
      refine .inr ⟨header, after ++ events.map .report, rfl, hgenerates, ?_, ?_⟩
      · rw [hcalls, Traced.calls, hwrite, List.filterMap_cons, hafter]
        rfl
      · rw [hactions, hwrite]
        rfl
  · exact .inl ⟨(onlyReports_run hnone formatter).calls_eq_nil, fun _ => hnone⟩

/-! ## Whole command lines -/

theorem outcome_withoutFormat {texts : List String}
    (h : Request.ofWords w.edition texts ≠ .misuse ∨ Request.NothingFollowsFormat w.edition texts)
    (hfails : ∀ a header, Request.ofWords w.edition texts = .run a → Generates w a header →
      formatter.FailsOn header) (other : Formatter) :
    (outcome w formatter texts).ending =
        (outcome w other (Request.withoutFormat w.edition texts)).ending ∧
      (outcome w formatter texts).output =
        (outcome w other (Request.withoutFormat w.edition texts)).output := by
  unfold outcome
  cases hrequest : Request.ofWords w.edition texts with
  | help =>
    rw [Request.help_withoutFormat hrequest]
    exact ⟨rfl, rfl⟩
  | misuse =>
    have hfollows := h.resolve_left (not_not_intro hrequest)
    rw [Request.ofWords_withoutFormat hfollows, hrequest]
    exact ⟨rfl, rfl⟩
  | run a =>
    rw [Request.ofWords_withoutFormat (Request.nothingFollowsFormat_of_run hrequest), hrequest]
    exact run_unformatted (fun header => hfails a header hrequest) other

/-- Formatting is a service.  A formatter that is missing or fails changes nothing of how a command
line ends and what it writes: both are as without the words that spell the formatter's option,
unless the line is refused and a value directly follows one of these words.  And the formatter is
called in a run only if that is asked for and there is a complete header: once, after the header has
been generated, with exactly its bytes. -/
theorem failing_formatter_changes_nothing (w : Workspace) (formatter other : Formatter)
    (texts : List String) :
    (Request.ofWords w.edition texts ≠ .misuse ∨ Request.NothingFollowsFormat w.edition texts →
      (∀ a header, Request.ofWords w.edition texts = .run a → Generates w a header →
        formatter.FailsOn header) →
      (outcome w formatter texts).ending =
          (outcome w other (Request.withoutFormat w.edition texts)).ending ∧
        (outcome w formatter texts).output =
          (outcome w other (Request.withoutFormat w.edition texts)).output) ∧
    (((outcome w formatter texts).calls = [] ∧
        ∀ a, Request.ofWords w.edition texts = .run a → a.format = true →
          ∀ header, ¬ Generates w a header) ∨
      ∃ a header after, Request.ofWords w.edition texts = .run a ∧ a.format = true ∧
        Generates w a header ∧
        (outcome w formatter texts).calls =
          [{ command := ["clang-format", "--assume-filename", "NativeModules.h"]
             input := header.toUTF8.toList }] ∧
        (run w formatter a).actions = .report (.started w.path) :: (prepare w a).actions ++
          .format (Formatter.callOn header) :: after) ∧
    ∀ a, Request.ofWords w.edition texts = .run a → (∀ header, ¬ Generates w a header) →
      (outcome w formatter texts).calls = [] := by
  refine ⟨fun h hfails => outcome_withoutFormat h hfails other, ?_, fun a hrequest hnone => ?_⟩
  · cases hrequest : Request.ofWords w.edition texts with
    | help =>
      rw [outcome, hrequest]
      refine .inl ⟨rfl, fun a hrun => ?_⟩
      cases hrun
    | misuse =>
      rw [outcome, hrequest]
      refine .inl ⟨rfl, fun a hrun => ?_⟩
      cases hrun
    | run a =>
      rw [outcome_of_run hrequest]
      rcases calls_run w formatter a with
        ⟨hcalls, hnone⟩ | ⟨header, after, on, hgenerates, hcalls, hactions⟩
      · refine .inl ⟨hcalls, fun other hother => ?_⟩
        obtain rfl := Request.run.inj hother
        exact hnone
      · exact .inr ⟨a, header, after, rfl, on, hgenerates, hcalls, hactions⟩
  · rw [outcome_of_run hrequest]
    exact (onlyReports_run hnone formatter).calls_eq_nil

theorem unevenWorkspace_generates :
    Generates unevenWorkspace { paths := ["a.json", "b.json"] }
      (Interface.text [{ name := "First", methods := [] }]) := by
  have hmatched : matched unevenWorkspace { paths := ["a.json", "b.json"] } =
      ["/home/a.json", "/home/b.json"] := by decide +kernel
  have hloads : (unevenWorkspace.loadSchema ["/home/a.json", "/home/b.json"]).result.toOption.any
      (fun schema => schema.outline.map (fun module => (module.name, module.methods.length)) =
        [("First", 0)]) = true := by decide +kernel
  obtain ⟨schema, hschema, houtline⟩ := exists_of_toOption_any hloads
  obtain ⟨module, houtline, hmodule⟩ := List.map_eq_singleton_iff.1 (of_decide_eq_true houtline)
  obtain ⟨hname, hmethods⟩ := Prod.mk.inj hmodule
  refine ⟨schema, ⟨by rw [hmatched]; decide, by rw [hmatched]; exact hschema⟩, ?_⟩
  refine generate_eq_ok_iff.2 ⟨_, ?_, rfl⟩
  rw [houtline]
  refine .cons ⟨hname.symm, ?_⟩ .nil
  rw [List.length_eq_zero_iff.1 hmethods]
  exact .nil

theorem unevenWorkspace_completes (formatter : Formatter) :
    (outcome unevenWorkspace formatter ["-p", "a.json", "b.json"]).ending = .ok 0 := by
  have hrequest : Request.ofWords .newer ["-p", "a.json", "b.json"] =
      .run { paths := ["a.json", "b.json"] } := by decide
  rw [outcome_of_run hrequest, Outcome.ending_ofRun]
  exact run_eq_zero_iff.2 ⟨_, ⟨_, unevenWorkspace_generates, .plain rfl⟩, rfl⟩

/-- A formatter that fails and complains in bytes that are no text. -/
def complainingFormatter : Formatter := fun _ => .failed (.exited 1 (by decide)) [0xff]

/-- Both paths are searched for, and the formatter is called in vain. -/
theorem unevenWorkspace_unformatted :
    (outcome unevenWorkspace complainingFormatter
        ["-p", "a.json", "b.json", "--clang"]).ending = .ok 0 ∧
    (outcome unevenWorkspace complainingFormatter
        ["-p", "a.json", "b.json", "--clang"]).output =
      (outcome unevenWorkspace (fun _ => .missing) ["-p", "a.json", "b.json"]).output := by
  have hrequest : Request.ofWords .newer ["-p", "a.json", "b.json", "--clang"] ≠ .misuse := by
    decide
  have hwithout : Request.withoutFormat unevenWorkspace.edition
      ["-p", "a.json", "b.json", "--clang"] = ["-p", "a.json", "b.json"] := by decide
  have hsame := (failing_formatter_changes_nothing unevenWorkspace complainingFormatter
    (fun _ => .missing) ["-p", "a.json", "b.json", "--clang"]).1 (.inl hrequest)
      fun _ _ _ _ => .inr ⟨_, [0xff], rfl⟩
  rwa [hwithout, unevenWorkspace_completes] at hsame

/-- The second path cannot be a value of the formatter's option, so the line is refused; without the
option it is a value of `-p`. -/
theorem stray_value_spoils_line :
    (∀ text, Formatter.FailsOn (fun _ => .missing) text) ∧
      (outcome unevenWorkspace (fun _ => .missing)
        ["-p", "a.json", "--clang-format", "b.json"]).ending = .ok 2 ∧
      (outcome unevenWorkspace (fun _ => .missing) ["-p", "a.json", "b.json"]).ending = .ok 0 :=
  ⟨fun _ => .inl rfl, rfl, unevenWorkspace_completes _⟩

end CommandLine

end NativeHeader
