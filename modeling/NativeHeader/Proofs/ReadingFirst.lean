import NativeHeader.Proofs.FileFaults
import NativeHeader.Proofs.Merging
import NativeHeader.Proofs.Values

/-!
# Reading before loading

The schema files under a list of paths are merged into one document, and only then is anything of it
loaded.  So there are two phases with faults of their own.  A file fails in the first phase if it
cannot be opened, if it holds no text or no document that can be read, or if that has no table of
source files (`Workspace.FailsAt`), and the first file that fails gives the fault, however malformed
the modules of the files before it are.  If all files can be read, what comes is the schema or the
fault of the merged document, in which each source file stands under its merged name, where that
came first, as the last file describes it: `reading_comes_first`.

Nothing is said about files whose documents name half of a pair of code units
(`Workspace.HaveWholeTexts`): these are no faults of the files, but documents do not describe them.
-/

namespace NativeHeader

open Document

/-! ## What a list of pairs says -/

namespace OrderedMap

variable {α : Type}

/-- The map has the keys of a list of pairs, in the order of their first pairs, each with the value
of its last. -/
structure Collects (m : OrderedMap α) (pairs : List (String × α)) : Prop where
  order : m.keys.Pairwise fun key next =>
    (pairs.map Prod.fst).idxOf key < (pairs.map Prod.fst).idxOf next
  values : ∀ key value, m.get? key = some value ↔
    ∃ before after, pairs = before ++ (key, value) :: after ∧ key ∉ after.map Prod.fst

theorem lookup_reverse_eq_some_iff {pairs : List (String × α)} {key : String} {value : α} :
    pairs.reverse.lookup key = some value ↔
      ∃ before after, pairs = before ++ (key, value) :: after ∧ key ∉ after.map Prod.fst := by
  rw [List.lookup_eq_some_iff]
  constructor
  · rintro ⟨after, before, hpairs, hnone⟩
    refine ⟨before.reverse, after.reverse, ?_, ?_⟩
    · rw [← List.reverse_reverse pairs, hpairs]
      simp
    · rw [List.map_reverse, List.mem_reverse, List.mem_map]
      rintro ⟨pair, hpair, rfl⟩
      exact absurd (hnone pair hpair) (by simp)
  · rintro ⟨before, after, rfl, hnone⟩
    refine ⟨after.reverse, before.reverse, by simp, fun pair hpair => ?_⟩
    rw [bne_iff_ne]
    rintro rfl
    exact hnone (List.mem_map_of_mem (List.mem_reverse.1 hpair))

/-- The map that is built from a list of pairs collects them. -/
theorem collects_ofList (pairs : List (String × α)) : (ofList pairs).Collects pairs where
  order := keys_ofList_pairwise pairs
  values key value := by rw [get?_ofList, lookup_reverse_eq_some_iff]

end OrderedMap

namespace Workspace

variable {w : Workspace} {path : String} {paths : List String} {fault : Fault}

/-! ## Files that cannot be read -/

/-- What is wrong with the file under a path, so that its source files cannot be merged. -/
inductive FailsAt (w : Workspace) (path : String) : Fault → Prop
  /-- The file cannot be opened. -/
  | opening {fault : Fault} (closed : w.read path = .error fault) : FailsAt w path fault
  /-- The bytes are no text. -/
  | encoding {bytes : List UInt8} (opened : w.read path = .ok bytes)
      (noText : ¬ Succeeds (Utf8.decode bytes)) : FailsAt w path .malformedEncoding
  /-- The text is no document. -/
  | text {bytes : List UInt8} {chars : List Char} (opened : w.read path = .ok bytes)
      (decoded : Utf8.decode bytes = .ok chars)
      (noDocument : Document.read chars = .error .malformedDocument) :
      FailsAt w path .malformedDocument
  /-- The text writes a whole number with too many digits. -/
  | number {bytes : List UInt8} {chars : List Char} (opened : w.read path = .ok bytes)
      (decoded : Utf8.decode bytes = .ok chars)
      (tooLong : Document.read chars = .error .numberTooLong) : FailsAt w path .numberTooLong
  /-- The document is no object. -/
  | value {raw : Document} (read : w.readDocument path = .ok raw) (noObject : ¬ raw.IsObject) :
      FailsAt w path .fieldOfNonObject
  /-- There is no table of source files. -/
  | absent {raw : Document} (read : w.readDocument path = .ok raw) (object : raw.IsObject)
      (noModules : ¬ raw.Has "modules") : FailsAt w path (.missingKey "modules")
  /-- What stands for the table of source files is no object. -/
  | table {raw : Document} (read : w.readDocument path = .ok raw) (modules : raw.Has "modules")
      (noTable : ¬ (raw.get "modules").IsObject) : FailsAt w path .membersOfNonObject

/-- Opening a file finds no fault in texts. -/
theorem read_ne_halfPair : w.read path ≠ .error .halfPair := by
  intro h
  cases failsOnly_readFile w path _ h

theorem readDocument_eq (w : Workspace) (path : String) :
    w.readDocument path =
      w.read path >>= fun bytes => Utf8.decode bytes >>= Document.read := rfl

theorem sourcesOf_values (path : String) (raw : Document) :
    sourcesOf path raw = raw.required "modules" >>= fun modules =>
      List.map (fun entry => (mergedName path entry.1, entry.2)) <$> modules.table := by
  simp only [sourcesOf, required, table, map_eq_pure_bind, bind_assoc, pure_bind,
    List.map_map]
  rfl

theorem readDocument_eq_error_iff :
    w.readDocument path = .error fault ↔
      w.read path = .error fault ∨
        ∃ bytes, w.read path = .ok bytes ∧
          (Utf8.decode bytes = .error fault ∨
            ∃ chars, Utf8.decode bytes = .ok chars ∧ Document.read chars = .error fault) := by
  simp only [readDocument_eq, bind_eq_error_iff]

/-- A document has no table of source files because it is no object, has no such field, or has no
object there. -/
theorem sourcesOf_eq_error_iff {raw : Document} :
    sourcesOf path raw = .error fault ↔
      ¬ raw.IsObject ∧ fault = .fieldOfNonObject ∨
        raw.IsObject ∧ ¬ raw.Has "modules" ∧ fault = .missingKey "modules" ∨
          raw.Has "modules" ∧ ¬ (raw.get "modules").IsObject ∧ fault = .membersOfNonObject := by
  rw [sourcesOf_values]
  by_cases hhas : raw.Has "modules"
  · have hobject := hhas.isObject
    rw [required_of_has hhas]
    show _ <$> (raw.get "modules").table = .error fault ↔ _
    by_cases htable : (raw.get "modules").IsObject
    · rw [table_of_isObject htable]
      simp [hobject, hhas, htable, Functor.map, Except.map]
    · rw [table_of_not_isObject htable]
      simp [hobject, hhas, htable, Functor.map, Except.map, eq_comm]
  · by_cases hobject : raw.IsObject
    · rw [required_of_not_has hobject hhas]
      simp [hobject, hhas, bind, Except.bind, eq_comm]
    · rw [required_of_not_isObject hobject]
      simp [hobject, hhas, bind, Except.bind, eq_comm]

/-- Reading a file fails exactly with what is wrong with it, if all its texts are whole. -/
theorem failsAt_iff :
    w.FailsAt path fault ↔ w.mergedSources path = .error fault ∧ fault ≠ .halfPair := by
  rw [mergedSources, bind_eq_error_iff, readDocument_eq_error_iff]
  constructor
  · intro h
    cases h with
    | opening closed => exact ⟨.inl (.inl closed), fun heq => read_ne_halfPair (heq ▸ closed)⟩
    | encoding opened noText =>
      obtain ⟨fault, hfault⟩ := not_succeeds_iff.1 noText
      rw [Utf8.decode_eq_error hfault] at hfault
      exact ⟨.inl (.inr ⟨_, opened, .inl hfault⟩), by simp⟩
    | text opened decoded noDocument =>
      exact ⟨.inl (.inr ⟨_, opened, .inr ⟨_, decoded, noDocument⟩⟩), by simp⟩
    | number opened decoded tooLong =>
      exact ⟨.inl (.inr ⟨_, opened, .inr ⟨_, decoded, tooLong⟩⟩), by simp⟩
    | value read noObject =>
      exact ⟨.inr ⟨_, read, sourcesOf_eq_error_iff.2 (.inl ⟨noObject, rfl⟩)⟩, by simp⟩
    | absent read object noModules =>
      refine ⟨.inr ⟨_, read, ?_⟩, by simp⟩
      exact sourcesOf_eq_error_iff.2 (.inr (.inl ⟨object, noModules, rfl⟩))
    | table read modules noTable =>
      refine ⟨.inr ⟨_, read, ?_⟩, by simp⟩
      exact sourcesOf_eq_error_iff.2 (.inr (.inr ⟨modules, noTable, rfl⟩))
  · rintro ⟨(closed | ⟨bytes, opened, hfault | ⟨chars, decoded, hfault⟩⟩) | ⟨raw, read, hfault⟩,
      hwhole⟩
    · exact .opening closed
    · rw [Utf8.decode_eq_error hfault]
      exact .encoding opened (not_succeeds_iff.2 ⟨_, hfault⟩)
    · cases failsOnly_read chars _ hfault with
      | document => exact .text opened decoded hfault
      | number => exact .number opened decoded hfault
      | pair => exact absurd rfl hwhole
    · rcases sourcesOf_eq_error_iff.1 hfault with
        ⟨noObject, rfl⟩ | ⟨object, noModules, rfl⟩ | ⟨modules, noTable, rfl⟩
      · exact .value read noObject
      · exact .absent read object noModules
      · exact .table read modules noTable

theorem mergedSources_ne_halfPair (whole : w.readDocument path ≠ .error .halfPair) :
    w.mergedSources path ≠ .error .halfPair := by
  intro h
  rcases bind_eq_error_iff.1 h with hread | ⟨raw, -, hsources⟩
  · exact whole hread
  · rcases sourcesOf_eq_error_iff.1 hsources with ⟨-, hfault⟩ | ⟨-, -, hfault⟩ | ⟨-, -, hfault⟩ <;>
      cases hfault

/-! ## The two phases -/

theorem not_failsAt_iff (whole : w.readDocument path ≠ .error .halfPair) :
    (∀ other, ¬ w.FailsAt path other) ↔ Succeeds (w.mergedSources path) := by
  constructor
  · intro h
    by_contra hno
    obtain ⟨fault, hfault⟩ := not_succeeds_iff.1 hno
    refine h fault (failsAt_iff.2 ⟨hfault, ?_⟩)
    rintro rfl
    exact mergedSources_ne_halfPair whole hfault
  · rintro ⟨list, hlist⟩ other hother
    cases hlist.symm.trans (failsAt_iff.1 hother).1

/-- The first file that cannot be read gives the fault. -/
theorem loadSchema_of_failsAt {before after : List String} (whole : w.HaveWholeTexts before)
    (fine : ∀ earlier ∈ before, ∀ other, ¬ w.FailsAt earlier other)
    (fails : w.FailsAt path fault) :
    (w.loadSchema (before ++ path :: after)).result = .error fault := by
  -- reading goes through the files in order, and none before this one has a fault
  have hbefore : before.findSome? (fun path => fault? (w.mergedSources path)) = none := by
    refine List.findSome?_eq_none_iff.2 fun earlier hearlier => ?_
    obtain ⟨list, hlist⟩ := (not_failsAt_iff (whole _ hearlier)).1 (fine earlier hearlier)
    rw [hlist, fault?_ok]
  have hread : (before ++ path :: after).mapM w.mergedSources = .error fault := by
    rw [← fault?_eq_some_iff, fault?_mapM, List.findSome?_append, hbefore, List.findSome?_cons,
      (failsAt_iff.1 fails).1]
    rfl
  rw [result_loadSchema, hread]
  rfl

/-- The source files of schema documents, each under its merged name, in the order of the files. -/
def mergedEntries (files : List (String × Document)) : List (String × Document) :=
  files.flatMap fun file =>
    file.2.sources.entries.map fun entry => (mergedName file.1 entry.1, entry.2)

/-- If no file fails, each holds a document with a table of source files, and these are merged. -/
theorem exists_mergedEntries (whole : w.HaveWholeTexts paths)
    (fine : ∀ path ∈ paths, ∀ other, ¬ w.FailsAt path other) :
    ∃ raws,
      List.Forall₂ (fun path raw => w.readDocument path = .ok raw ∧ (raw.get "modules").IsObject)
        paths raws ∧
      (w.loadSchema paths).result =
        Schema.load (mergedDocument (mergedEntries (paths.zip raws))) := by
  obtain ⟨raws, hraws⟩ := exists_forall₂_iff.2 fun path hpath => by
    obtain ⟨list, hlist⟩ := (not_failsAt_iff (whole _ hpath)).1 (fine path hpath)
    obtain ⟨raw, hread, hobject, -⟩ := mergedSources_eq_ok_iff.1 hlist
    exact (⟨raw, hread, hobject⟩ :
      ∃ raw, w.readDocument path = .ok raw ∧ (raw.get "modules").IsObject)
  have hlists : paths.mapM w.mergedSources = .ok ((paths.zip raws).map fun file =>
      file.2.sources.entries.map fun entry => (mergedName file.1 entry.1, entry.2)) := by
    rw [mapM_eq_ok_iff]
    clear fine whole
    induction hraws with
    | nil => exact .nil
    | cons hraw _ ih => exact .cons (mergedSources_eq_ok_iff.2 ⟨_, hraw.1, hraw.2, rfl⟩) ih
  refine ⟨raws, hraws, ?_⟩
  rw [result_loadSchema, hlists, mergedEntries, List.flatMap_def]
  rfl

/-- A merged document is loaded as the one that has each source file once. -/
theorem load_mergedDocument_entries (pairs : List (String × Document)) :
    Schema.load (mergedDocument (OrderedMap.ofList pairs).entries) =
      Schema.load (mergedDocument pairs) := by
  have hload : ∀ sources, Schema.load (mergedDocument sources) =
      (fun files => { modules := .ofList files }) <$>
        loadEntries (fun _ => Schema.loadFile) (OrderedMap.ofList sources).entries := by
    intro sources
    have htable : (Document.object sources).table = .ok (OrderedMap.ofList sources).entries :=
      table_of_isObject trivial
    rw [Schema.load_values]
    show _ <$> loadMembers _ (.object sources) = _
    rw [loadMembers_values, htable]
    rfl
  rw [hload, hload, OrderedMap.ofList_entries]

end Workspace

/-- All schema files are read before anything is loaded.  The first file that cannot be read, or has
no table of source files, gives the fault, whatever the files before it describe.  If there is no
such file, the outcome is that of loading one document, which has every source file of every file
under its merged name: in the order in which these names come first, with the values that come
last.  The documents in the files are those that have whole texts only. -/
theorem reading_comes_first (w : Workspace) (paths : List String)
    (whole : w.HaveWholeTexts paths) :
    (∀ (before : List String) (path : String) (after : List String) (fault : Fault),
      paths = before ++ path :: after →
        (∀ earlier ∈ before, ∀ other, ¬ w.FailsAt earlier other) → w.FailsAt path fault →
          (w.loadSchema paths).result = .error fault) ∧
    ((∀ path ∈ paths, ∀ other, ¬ w.FailsAt path other) →
      ∃ (raws : List Document) (modules : OrderedMap Document),
        List.Forall₂ (fun path raw => w.readDocument path = .ok raw ∧
          (raw.get "modules").IsObject) paths raws ∧
        modules.Collects (Workspace.mergedEntries (paths.zip raws)) ∧
        (w.loadSchema paths).result =
          Schema.load (.object [("modules", .object modules.entries)])) := by
  constructor
  · rintro before path after fault rfl fine fails
    have hbefore : w.HaveWholeTexts before := fun earlier hearlier =>
      whole earlier (List.mem_append_left _ hearlier)
    exact Workspace.loadSchema_of_failsAt hbefore fine fails
  · intro fine
    obtain ⟨raws, hraws, hload⟩ := Workspace.exists_mergedEntries whole fine
    refine ⟨raws, _, hraws, OrderedMap.collects_ofList _, ?_⟩
    rw [hload, ← Workspace.load_mergedDocument_entries]
    rfl

/-- A workspace with a schema file whose only source file is null. -/
def malformedWorkspace : Workspace where
  home := [['h']]
  files := .directory [(['h'], .directory
    [(['a'], .file (Utf8.encode "\x7b\"modules\":\x7b\"s\":null\x7d\x7d"))])]
  edition := .newer

/-- The document in that file. -/
def malformedDocument : Document := .object [("modules", .object [("s", .null)])]

theorem malformedWorkspace_reads : malformedWorkspace.readDocument "a" = .ok malformedDocument := by
  with_unfolding_all rfl

/-- A file that is not there is at fault before the malformed one.  Without it, and with the
malformed file twice, the source file of that is loaded once. -/
theorem malformedWorkspace_fails :
    (malformedWorkspace.loadSchema ["a", "b"]).result = .error .nothingAtPath ∧
      ∃ modules : OrderedMap Document, modules.get? "a:s" = some .null ∧
        (malformedWorkspace.loadSchema ["a", "a"]).result =
          Schema.load (.object [("modules", .object modules.entries)]) := by
  have hwhole : malformedWorkspace.readDocument "a" ≠ .error .halfPair := by
    rw [malformedWorkspace_reads]
    exact nofun
  have hnothing : malformedWorkspace.readDocument "b" = .error .nothingAtPath := by
    with_unfolding_all rfl
  have hwhole' : malformedWorkspace.readDocument "b" ≠ .error .halfPair := by
    rw [hnothing]
    exact nofun
  have hfine : ∀ path ∈ ["a"], ∀ other, ¬ malformedWorkspace.FailsAt path other := by
    intro path hpath
    obtain rfl := List.mem_singleton.1 hpath
    exact (Workspace.not_failsAt_iff hwhole).2 ⟨_, Workspace.mergedSources_eq_ok_iff.2
      ⟨malformedDocument, malformedWorkspace_reads, trivial, rfl⟩⟩
  have hfails : malformedWorkspace.FailsAt "b" .nothingAtPath :=
    .opening (by with_unfolding_all rfl)
  have hboth : malformedWorkspace.HaveWholeTexts ["a", "b"] := by
    simpa [Workspace.HaveWholeTexts] using ⟨hwhole, hwhole'⟩
  have htwice : malformedWorkspace.HaveWholeTexts ["a", "a"] := by
    simpa [Workspace.HaveWholeTexts] using hwhole
  obtain ⟨hfirst, -⟩ := reading_comes_first malformedWorkspace ["a", "b"] hboth
  obtain ⟨-, hmerged⟩ := reading_comes_first malformedWorkspace ["a", "a"] htwice
  refine ⟨hfirst ["a"] "b" [] _ rfl hfine hfails, ?_⟩
  obtain ⟨raws, modules, hraws, hcollects, hload⟩ := hmerged (by simpa using hfine)
  obtain ⟨first, rest, ⟨hread, -⟩, hrest, rfl⟩ := List.forall₂_cons_left_iff.1 hraws
  obtain ⟨second, none, ⟨hread', -⟩, hnone, rfl⟩ := List.forall₂_cons_left_iff.1 hrest
  obtain rfl := List.forall₂_nil_left_iff.1 hnone
  obtain rfl := Except.ok.inj (malformedWorkspace_reads.symm.trans hread)
  obtain rfl := Except.ok.inj (malformedWorkspace_reads.symm.trans hread')
  exact ⟨modules, (hcollects.values _ _).2 ⟨[("a:s", .null)], [], rfl, List.not_mem_nil⟩, hload⟩

end NativeHeader
