import NativeHeader.CommandLine

/-!
# Computations that only report

Reading schema files, merging them and generating the header can be seen from outside by their
reports only: they write nothing and call no formatter (`onlyReports_loadSchema`,
`onlyReports_generate`).
-/

namespace NativeHeader

variable {α β : Type}

namespace Traced

/-- Whether a computation does nothing but report. -/
def OnlyReports (t : Traced α) : Prop := ∀ action ∈ t.actions, ∃ event, action = .report event

theorem onlyReports_pure (value : α) : OnlyReports (pure value : Traced α) := nofun

theorem onlyReports_of (result : Except Fault α) : OnlyReports (of result) := nofun

theorem onlyReports_report (event : Event) : OnlyReports (report event) := by
  intro action haction
  exact ⟨event, by simpa [report, act] using haction⟩

theorem OnlyReports.bind {t : Traced α} {next : α → Traced β} (h : OnlyReports t)
    (hnext : ∀ value, OnlyReports (next value)) : OnlyReports (t >>= next) := by
  cases hresult : t.result with
  | error fault =>
    rw [andThen_of_error hresult]
    exact h
  | ok value =>
    rw [andThen_of_ok hresult]
    intro action haction
    rcases List.mem_append.1 haction with haction | haction
    · exact h action haction
    · exact hnext value action haction

theorem onlyReports_mapM {f : α → Traced β} (h : ∀ x, OnlyReports (f x)) (xs : List α) :
    OnlyReports (xs.mapM f) := by
  induction xs with
  | nil => exact onlyReports_pure _
  | cons x rest ih =>
    rw [List.mapM_cons]
    exact (h x).bind fun _ => ih.bind fun _ => onlyReports_pure _

theorem OnlyReports.calls_eq_nil {t : Traced α} (h : OnlyReports t) : t.calls = [] := by
  refine List.filterMap_eq_nil_iff.2 fun action haction => ?_
  obtain ⟨event, rfl⟩ := h action haction
  rfl

end Traced

open Traced

theorem onlyReports_loadSchema (w : Workspace) (paths : List String) :
    OnlyReports (w.loadSchema paths) := by
  have hsources : ∀ path, OnlyReports (w.readSources path) := fun path =>
    (onlyReports_of _).bind fun _ => (onlyReports_report _).bind fun _ => onlyReports_pure _
  exact (onlyReports_mapM hsources paths).bind fun _ => onlyReports_of _

theorem onlyReports_generate (schema : Schema) (library moduleSpec : String) :
    OnlyReports (schema.generate library moduleSpec) := by
  have hclass : ∀ entry : String × ModuleSpec, OnlyReports (entry.2.classText entry.1) :=
    fun entry => (onlyReports_report _).bind fun _ => onlyReports_of _
  have hheader : OnlyReports (headerText schema.flatten) :=
    (onlyReports_mapM hclass _).bind fun _ => onlyReports_of _
  exact (onlyReports_report _).bind fun _ => hheader.bind fun _ => onlyReports_pure _

end NativeHeader
