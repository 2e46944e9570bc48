import NativeHeader.Proofs.Interface
import NativeHeader.Proofs.Loading
import NativeHeader.Proofs.Union
import NativeHeader.Search
import NativeHeader.Workspace

/-!
# Merging schema files

What the schema files under a list of paths describe together.  Their source files go into one
object under merged names, and the modules of that object go into one map: two layers of maps, in
which a later entry of the same name takes the place of the earlier.  The layers collapse.  If no
source file of some paths is merged under the name of a source file of others, loading all of them
gives the modules of the first with those of the others put into them (`flattened_append`).

A merged name does not tell where the path ends: a path and a source file with a colon can meet
another pair in the middle.  Then the later source file takes the place of the earlier one, with all
its modules (`merging_loses_modules`).  That cannot happen if no source file has a colon in its name
(`apart_of_no_colon`).
-/

namespace NativeHeader

open Document

/-! ## One schema document -/

namespace Document

/-- The source files that a schema document describes, by name. -/
def sources (d : Document) : OrderedMap Document := (d.get "modules").members

/-- The names of the native modules that a source file declares. -/
def moduleNames (d : Document) : List String := (d.get "nativeModules").members.keys

end Document

/-- The modules that source files declare, put into one map file by file. -/
def Schema.combine (files : List (Option (OrderedMap ModuleSpec))) : OrderedMap ModuleSpec :=
  .ofList (files.flatMap Schema.declared)

theorem combine_append (first second : List (Option (OrderedMap ModuleSpec))) :
    Schema.combine (first ++ second) = (Schema.combine first).putAll (Schema.combine second) := by
  rw [Schema.combine, List.flatMap_append, OrderedMap.ofList_append]
  rfl

/-- The modules of schemas, put into one map schema by schema. -/
def Schema.union (schemas : List Schema) : OrderedMap ModuleSpec :=
  schemas.foldl (fun modules schema => modules.putAll schema.flatten) .empty

theorem Schema.union_cons (schema : Schema) (rest : List Schema) :
    Schema.union (schema :: rest) = schema.flatten.putAll (Schema.union rest) := by
  have hfold : ∀ modules : OrderedMap ModuleSpec,
      rest.foldl (fun modules schema => modules.putAll schema.flatten) modules =
        modules.putAll (Schema.union rest) := by
    intro modules
    rw [Schema.union]
    induction rest generalizing modules with
    | nil => rfl
    | cons next rest ih =>
      rw [List.foldl_cons, List.foldl_cons, ih, ih (OrderedMap.empty.putAll next.flatten),
        OrderedMap.empty_putAll, OrderedMap.putAll_assoc]
  rw [Schema.union, List.foldl_cons, hfold, OrderedMap.empty_putAll]

theorem mem_keys_combine {files : List (Option (OrderedMap ModuleSpec))} {name : String} :
    name ∈ (Schema.combine files).keys ↔
      ∃ file ∈ files, name ∈ (Schema.declared file).map Prod.fst := by
  rw [Schema.combine, OrderedMap.mem_keys_ofList, List.map_flatMap, List.mem_flatMap]

theorem map_fst_declared {raw : Document} {file : Option (OrderedMap ModuleSpec)}
    (h : Schema.loadFile raw = .ok file) :
    (Schema.declared file).map Prod.fst = raw.moduleNames := by
  have hnames := congrArg (List.map Prod.fst) (outline_of_loadFile h)
  rw [List.map_map, List.map_map] at hnames
  exact hnames

theorem loadMembers_eq {α : Type} (load : Document → Except Fault α) {raw : Document}
    (h : raw.IsObject) :
    loadMembers (fun _ => load) raw =
      (fun values => raw.members.keys.zip values) <$> raw.members.values.mapM load := by
  obtain ⟨parts, hparts⟩ := succeeds_entries_iff.2 h
  rw [OrderedMap.keys, OrderedMap.values, ← mapM_keyed, ← (entries_ok hparts).2, List.mapM_map,
    loadMembers, hparts]
  show parts.mapM _ = parts.mapM _
  refine congrArg (parts.mapM ·) (funext fun part => ?_)
  exact (map_eq_pure_bind _ _).symm

theorem flatten_zip (m : OrderedMap Document) {files : List (Option (OrderedMap ModuleSpec))}
    (h : files.length = m.entries.length) :
    Schema.flatten { modules := .ofList (m.keys.zip files) } = Schema.combine files := by
  have hlength : m.keys.length = files.length := by simp [OrderedMap.keys, h]
  have hnames : (m.keys.zip files).map Prod.fst = m.keys := List.map_fst_zip (Nat.le_of_eq hlength)
  have hfiles : (m.keys.zip files).map Prod.snd = files :=
    List.map_snd_zip (Nat.le_of_eq hlength.symm)
  have hnodup : ((m.keys.zip files).map Prod.fst).Nodup := by
    rw [hnames]
    exact m.nodup
  rw [flatten_eq_ofList, OrderedMap.values, OrderedMap.entries_ofList hnodup, hfiles,
    Schema.combine]

/-- The names of the source files do not count for the modules of a document. -/
theorem flatten_load {raw : Document} (h : (raw.get "modules").IsObject) :
    Schema.flatten <$> Schema.load raw =
      Schema.combine <$> raw.sources.values.mapM Schema.loadFile := by
  obtain ⟨modules, hmodules⟩ := succeeds_field_iff.2 (has_of_get_ne_null h.ne_null)
  have hget : raw.get "modules" = modules.1 := get_eq_of_get? (field_ok hmodules)
  rw [Schema.load_eq, hmodules, Document.sources, hget]
  rw [hget] at h
  show Schema.flatten <$> _ <$> loadMembers _ modules.1 = _
  rw [loadMembers_eq Schema.loadFile h]
  cases hfiles : modules.1.members.values.mapM Schema.loadFile with
  | error fault => rfl
  | ok files =>
    have hlength : files.length = modules.1.members.entries.length := by
      rw [length_of_mapM_eq_ok hfiles, OrderedMap.values, List.length_map]
    exact congrArg Except.ok (flatten_zip _ hlength)

namespace Workspace

variable {w : Workspace} {path source key : String} {paths : List String} {entry : Document}
  {list : List (String × Document)} {modules : OrderedMap ModuleSpec}

/-! ## Merged names -/

theorem toList_mergedName (path source : String) :
    (mergedName path source).toList = path.toList ++ ':' :: source.toList := by
  simp [mergedName, String.toList_append]

theorem mergedName_inj {source other : String}
    (h : mergedName path source = mergedName path other) : source = other := by
  have hlist := congrArg String.toList h
  rw [toList_mergedName, toList_mergedName] at hlist
  have htail := List.append_cancel_left hlist
  exact String.toList_inj.1 (List.cons.inj htail).2

/-- What follows the last colon of a merged name is the source file, if that has no colon. -/
theorem reverse_takeWhile_mergedName (h : ':' ∉ source.toList) :
    (mergedName path source).toList.reverse.takeWhile (· ≠ ':') = source.toList.reverse := by
  have hall : ∀ c ∈ source.toList.reverse, decide (c ≠ ':') = true := by
    intro c hc
    rw [decide_eq_true_iff]
    rintro rfl
    exact h (List.mem_reverse.1 hc)
  rw [toList_mergedName, List.reverse_append, List.reverse_cons, List.append_assoc,
    List.takeWhile_append_of_pos hall]
  simp

/-! ## Reading the files -/

/-- The schema file under a path describes a source file, by the given value. -/
def Describes (w : Workspace) (path source : String) (entry : Document) : Prop :=
  ∃ raw, w.readDocument path = .ok raw ∧ (source, entry) ∈ raw.sources.entries

theorem Describes.unique {other : Document} (h : w.Describes path source entry)
    (h' : w.Describes path source other) : entry = other := by
  obtain ⟨raw, hraw, hmem⟩ := h
  obtain ⟨raw', hraw', hmem'⟩ := h'
  obtain rfl := Except.ok.inj (hraw.symm.trans hraw')
  exact OrderedMap.value_unique hmem hmem'

/-- The source files that the schema file under a path describes, each under its merged name. -/
def mergedSources (w : Workspace) (path : String) : Except Fault (List (String × Document)) :=
  w.readDocument path >>= sourcesOf path

theorem sourcesOf_eq_ok_iff {raw : Document} :
    sourcesOf path raw = .ok list ↔ (raw.get "modules").IsObject ∧
      list = raw.sources.entries.map fun entry => (mergedName path entry.1, entry.2) := by
  have hlist : ∀ modules, raw.field "modules" = .ok modules →
      ∀ parts, modules.1.entries = .ok parts →
        parts.map (fun part => (mergedName path part.1, part.2.1)) =
          raw.sources.entries.map fun entry => (mergedName path entry.1, entry.2) := by
    intro modules hmodules parts hparts
    rw [Document.sources, get_eq_of_get? (field_ok hmodules), ← (entries_ok hparts).2, List.map_map]
    rfl
  simp only [sourcesOf, bind_eq_ok_iff]
  constructor
  · rintro ⟨modules, hmodules, parts, hparts, h⟩
    rw [get_eq_of_get? (field_ok hmodules), ← hlist modules hmodules parts hparts]
    exact ⟨(entries_ok hparts).1, (Except.ok.inj h).symm⟩
  · rintro ⟨hobject, rfl⟩
    obtain ⟨modules, hmodules⟩ := succeeds_field_iff.2 (has_of_get_ne_null hobject.ne_null)
    rw [get_eq_of_get? (field_ok hmodules)] at hobject
    obtain ⟨parts, hparts⟩ := succeeds_entries_iff.2 hobject
    refine ⟨modules, hmodules, parts, hparts, ?_⟩
    rw [← hlist modules hmodules parts hparts]
    rfl

theorem mergedSources_eq_ok_iff :
    w.mergedSources path = .ok list ↔
      ∃ raw, w.readDocument path = .ok raw ∧ (raw.get "modules").IsObject ∧
        list = raw.sources.entries.map fun entry => (mergedName path entry.1, entry.2) := by
  rw [mergedSources, bind_eq_ok_iff]
  simp only [sourcesOf_eq_ok_iff]

theorem mem_mergedSources_iff (h : w.mergedSources path = .ok list) :
    (key, entry) ∈ list ↔
      ∃ source, w.Describes path source entry ∧ key = mergedName path source := by
  obtain ⟨raw, hraw, -, rfl⟩ := mergedSources_eq_ok_iff.1 h
  rw [List.mem_map]
  constructor
  · rintro ⟨⟨source, _⟩, hmem, heq⟩
    obtain ⟨rfl, rfl⟩ := Prod.mk.inj heq
    exact ⟨source, ⟨raw, hraw, hmem⟩, rfl⟩
  · rintro ⟨source, ⟨raw', hraw', hmem⟩, rfl⟩
    obtain rfl := Except.ok.inj (hraw.symm.trans hraw')
    exact ⟨(source, entry), hmem, rfl⟩

theorem mem_flatten_mergedSources_iff {lists : List (List (String × Document))}
    (h : paths.mapM w.mergedSources = .ok lists) :
    (key, entry) ∈ lists.flatten ↔
      ∃ path ∈ paths, ∃ source, w.Describes path source entry ∧ key = mergedName path source := by
  rw [List.mem_flatten]
  constructor
  · rintro ⟨list, hlist, hmem⟩
    obtain ⟨path, hpath, hlist⟩ := (mem_iff_of_mapM_eq_ok h).1 hlist
    exact ⟨path, hpath, (mem_mergedSources_iff hlist).1 hmem⟩
  · rintro ⟨path, hpath, hdescribed⟩
    obtain ⟨list, hlist⟩ := succeeds_mapM_iff.1 ⟨lists, h⟩ path hpath
    have hmem : list ∈ lists := (mem_iff_of_mapM_eq_ok h).2 ⟨path, hpath, hlist⟩
    exact ⟨list, hmem, (mem_mergedSources_iff hlist).2 hdescribed⟩

/-! ## The modules of many files -/

/-- The native modules that the schema files under the given paths describe together. -/
def flattened (w : Workspace) (paths : List String) : Except Fault (OrderedMap ModuleSpec) :=
  Schema.flatten <$> (w.loadSchema paths).result

theorem flatten_load_mergedDocument (sources : List (String × Document)) :
    Schema.flatten <$> Schema.load (mergedDocument sources) =
      Schema.combine <$> (OrderedMap.ofList sources).values.mapM Schema.loadFile := by
  have hget : (mergedDocument sources).get "modules" = .object sources := rfl
  have hobject : ((mergedDocument sources).get "modules").IsObject := by
    rw [hget]
    trivial
  rw [flatten_load hobject, Document.sources, hget]
  rfl

/-- All files are read, one after another, before the merged document is loaded. -/
theorem result_loadSchema (w : Workspace) (paths : List String) :
    (w.loadSchema paths).result =
      paths.mapM w.mergedSources >>= fun lists => Schema.load (mergedDocument lists.flatten) := by
  have hread : ∀ path, (w.readSources path).result = w.mergedSources path := by
    intro path
    simp only [readSources, Traced.result_bind, Traced.result_of, Traced.result_report,
      Traced.result_pure, mergedSources]
    exact bind_pure _
  simp only [loadSchema, Traced.result_bind, Traced.result_mapM, Traced.result_of, hread]

theorem flattened_eq_ok_iff :
    w.flattened paths = .ok modules ↔
      ∃ lists, paths.mapM w.mergedSources = .ok lists ∧
        ∃ files, (OrderedMap.ofList lists.flatten).values.mapM Schema.loadFile = .ok files ∧
          Schema.combine files = modules := by
  have hload : w.flattened paths = paths.mapM w.mergedSources >>= fun lists =>
      Schema.flatten <$> Schema.load (mergedDocument lists.flatten) := by
    rw [flattened, result_loadSchema]
    cases paths.mapM w.mergedSources <;> rfl
  rw [hload, bind_eq_ok_iff]
  simp only [flatten_load_mergedDocument, map_eq_ok_iff]

theorem flattened_nil : w.flattened [] = .ok modules ↔ modules = .empty := by
  rw [flattened_eq_ok_iff]
  constructor
  · rintro ⟨lists, hlists, files, hfiles, rfl⟩
    obtain rfl := Except.ok.inj hlists
    obtain rfl := Except.ok.inj hfiles
    rfl
  · rintro rfl
    exact ⟨[], rfl, [], rfl, rfl⟩

/-- A schema file by itself: its path does not count. -/
theorem flattened_singleton :
    w.flattened [path] = .ok modules ↔
      ∃ own, w.readDocument path >>= Schema.load = .ok own ∧ own.flatten = modules := by
  have hvalues : ∀ raw : Document,
      (OrderedMap.ofList (raw.sources.entries.map fun entry =>
        (mergedName path entry.1, entry.2))).values = raw.sources.values := by
    intro raw
    have hnodup : ((raw.sources.entries.map fun entry =>
        (mergedName path entry.1, entry.2)).map Prod.fst).Nodup := by
      have hinjective : Function.Injective (mergedName path) := fun _ _ => mergedName_inj
      have hnames := raw.sources.nodup.map hinjective
      rw [List.map_map] at hnames ⊢
      exact hnames
    rw [OrderedMap.values, OrderedMap.entries_ofList hnodup, List.map_map]
    rfl
  have hlists : [path].mapM w.mergedSources = (fun list => [list]) <$> w.mergedSources path := by
    rw [List.mapM_cons, List.mapM_nil]
    cases w.mergedSources path <;> rfl
  rw [flattened_eq_ok_iff]
  simp only [hlists, map_eq_ok_iff, bind_eq_ok_iff]
  constructor
  · rintro ⟨_, ⟨_, hlist, rfl⟩, files, hfiles, rfl⟩
    obtain ⟨raw, hraw, hobject, rfl⟩ := mergedSources_eq_ok_iff.1 hlist
    rw [List.flatten_singleton, hvalues] at hfiles
    have hflatten : Schema.flatten <$> Schema.load raw = .ok (Schema.combine files) := by
      rw [flatten_load hobject, hfiles]
      rfl
    obtain ⟨own, hown, hmodules⟩ := map_eq_ok_iff.1 hflatten
    exact ⟨own, ⟨raw, hraw, hown⟩, hmodules⟩
  · rintro ⟨own, ⟨raw, hraw, hown⟩, rfl⟩
    have hobject := (succeeds_loadSchema_iff.1 ⟨own, hown⟩).object
    have hflatten : Schema.flatten <$> Schema.load raw = .ok own.flatten := by
      rw [hown]
      rfl
    rw [flatten_load hobject, map_eq_ok_iff] at hflatten
    obtain ⟨files, hfiles, hmodules⟩ := hflatten
    refine ⟨_, ⟨_, mergedSources_eq_ok_iff.2 ⟨raw, hraw, hobject, rfl⟩, rfl⟩, files, ?_, hmodules⟩
    rw [List.flatten_singleton, hvalues]
    exact hfiles

/-! ## Which modules stay -/

/-- No other source file of the given paths is merged under the name of this one. -/
def Uncontested (w : Workspace) (paths : List String) (path source : String) : Prop :=
  ∀ other ∈ paths, ∀ name entry, w.Describes other name entry →
    mergedName other name = mergedName path source → other = path ∧ name = source

/-- The modules of an uncontested source file all stay, and every module that is there comes from
some source file. -/
theorem mem_keys_of_loadSchema {schema : Schema}
    (loaded : (w.loadSchema paths).result = .ok schema) :
    (∀ path ∈ paths, ∀ source entry, w.Describes path source entry →
        w.Uncontested paths path source → ∀ name ∈ entry.moduleNames, name ∈ schema.flatten.keys) ∧
      ∀ name ∈ schema.flatten.keys, ∃ path ∈ paths, ∃ source entry,
        w.Describes path source entry ∧ name ∈ entry.moduleNames := by
  have hflattened : w.flattened paths = .ok schema.flatten := map_eq_ok_iff.2 ⟨schema, loaded, rfl⟩
  obtain ⟨lists, hlists, files, hfiles, hmodules⟩ := flattened_eq_ok_iff.1 hflattened
  rw [← hmodules]
  refine ⟨?_, ?_⟩
  · intro path hpath source entry hdescribed huncontested name hname
    have hmem : (mergedName path source, entry) ∈ (OrderedMap.ofList lists.flatten).entries := by
      refine OrderedMap.mem_entries_ofList
        ((mem_flatten_mergedSources_iff hlists).2 ⟨path, hpath, source, hdescribed, rfl⟩) ?_
      intro found hfound
      obtain ⟨other, hother, otherSource, hdescribed', hmerged⟩ :=
        (mem_flatten_mergedSources_iff hlists).1 hfound
      obtain ⟨rfl, rfl⟩ := huncontested other hother otherSource found hdescribed' hmerged.symm
      exact hdescribed'.unique hdescribed
    have hvalue : entry ∈ (OrderedMap.ofList lists.flatten).values :=
      List.mem_map.2 ⟨_, hmem, rfl⟩
    obtain ⟨file, hfile⟩ := succeeds_mapM_iff.1 ⟨files, hfiles⟩ entry hvalue
    have hmemFile : file ∈ files := (mem_iff_of_mapM_eq_ok hfiles).2 ⟨entry, hvalue, hfile⟩
    rw [← map_fst_declared hfile] at hname
    exact mem_keys_combine.2 ⟨file, hmemFile, hname⟩
  · intro name hname
    obtain ⟨file, hmemFile, hname⟩ := mem_keys_combine.1 hname
    obtain ⟨entry, hvalue, hfile⟩ := (mem_iff_of_mapM_eq_ok hfiles).1 hmemFile
    obtain ⟨⟨key, _⟩, hmem, rfl⟩ := List.mem_map.1 hvalue
    obtain ⟨path, hpath, source, hdescribed, -⟩ :=
      (mem_flatten_mergedSources_iff hlists).1 (OrderedMap.mem_of_mem_ofList hmem)
    rw [map_fst_declared hfile] at hname
    exact ⟨path, hpath, source, _, hdescribed, hname⟩

/-- Two schema files that describe the same source file.  The first describes one more, whose merged
name is that of the second file's: both end in `a.json:b.json:index.js`. -/
def contestedWorkspace : Workspace where
  home := ["home".toList]
  files := .directory [("home".toList, .directory
    [("a.json".toList, .file (Utf8.encode ("\x7b\"modules\":" ++
        "\x7b\"index.js\":\x7b\"nativeModules\":\x7b\"First\":\x7b\"properties\":[]\x7d\x7d\x7d," ++
        "\"b.json:index.js\":\x7b\"nativeModules\":" ++
        "\x7b\"Middle\":\x7b\"properties\":[]\x7d\x7d\x7d\x7d\x7d"))),
      ("a.json:b.json".toList, .file (Utf8.encode ("\x7b\"modules\":" ++
        "\x7b\"index.js\":\x7b\"nativeModules\":" ++
        "\x7b\"Last\":\x7b\"properties\":[]\x7d\x7d\x7d\x7d\x7d")))])]
  edition := .newer

/-- The schema files of that workspace. -/
def contestedPaths : List String := ["/home/a.json", "/home/a.json:b.json"]

theorem contestedWorkspace_loads :
    ∃ schema, (contestedWorkspace.loadSchema contestedPaths).result = .ok schema ∧
      schema.flatten.keys = ["First", "Last"] := by
  have h : (contestedWorkspace.loadSchema contestedPaths).result.toOption.any
      (fun schema => schema.flatten.keys = ["First", "Last"]) = true := by decide +kernel
  obtain ⟨schema, hschema, hkeys⟩ := exists_of_toOption_any h
  exact ⟨schema, hschema, of_decide_eq_true hkeys⟩

theorem contestedWorkspace_describes :
    ∃ first middle,
      contestedWorkspace.Describes "/home/a.json" "index.js" first ∧
        first.moduleNames = ["First"] ∧
      contestedWorkspace.Describes "/home/a.json" "b.json:index.js" middle ∧
        middle.moduleNames = ["Middle"] := by
  have h : (contestedWorkspace.readDocument "/home/a.json").toOption.any (fun raw =>
      raw.sources.entries.map (fun entry => (entry.1, entry.2.moduleNames)) =
        [("index.js", ["First"]), ("b.json:index.js", ["Middle"])]) = true := by decide +kernel
  obtain ⟨raw, hraw, hentries⟩ := exists_of_toOption_any h
  have hentries := of_decide_eq_true hentries
  have hentry : ∀ source names,
      (source, names) ∈ [("index.js", ["First"]), ("b.json:index.js", ["Middle"])] →
        ∃ entry, contestedWorkspace.Describes "/home/a.json" source entry ∧
          entry.moduleNames = names := by
    intro source names hpair
    rw [← hentries] at hpair
    obtain ⟨⟨_, entry⟩, hmem, heq⟩ := List.mem_map.1 hpair
    obtain ⟨rfl, rfl⟩ := Prod.mk.inj heq
    exact ⟨entry, ⟨raw, hraw, hmem⟩, rfl⟩
  obtain ⟨first, hfirst, hfirstNames⟩ := hentry "index.js" ["First"] (by decide)
  obtain ⟨middle, hmiddle, hmiddleNames⟩ := hentry "b.json:index.js" ["Middle"] (by decide)
  exact ⟨first, middle, hfirst, hfirstNames, hmiddle, hmiddleNames⟩

/-- The source file `index.js` of the first schema file is not the contested one. -/
theorem contestedWorkspace_keeps_first :
    ∃ schema, (contestedWorkspace.loadSchema contestedPaths).result = .ok schema ∧
      contestedWorkspace.Uncontested contestedPaths "/home/a.json" "index.js" ∧
        "First" ∈ schema.flatten.keys := by
  obtain ⟨schema, hschema, -⟩ := contestedWorkspace_loads
  obtain ⟨first, -, hfirst, hnames, -⟩ := contestedWorkspace_describes
  have huncontested :
      contestedWorkspace.Uncontested contestedPaths "/home/a.json" "index.js" := by
    intro other hother name entry _ hmerged
    rcases List.mem_cons.1 hother with rfl | hother
    · exact ⟨rfl, mergedName_inj hmerged⟩
    · rw [List.mem_singleton] at hother
      subst hother
      have hlist := congrArg String.toList hmerged
      rw [toList_mergedName, toList_mergedName] at hlist
      simp at hlist
  refine ⟨schema, hschema, huncontested, ?_⟩
  refine (mem_keys_of_loadSchema hschema).1 "/home/a.json" (by decide) "index.js" first hfirst
    huncontested "First" ?_
  rw [hnames]
  decide

/-- Merging the schema files that a search finds can lose modules, though their paths are all
different. -/
theorem merging_loses_modules :
    ¬ ∀ (w : Workspace) (search : Search) (paths : List String) (schema : Schema),
        search.root = w.path → paths = search.files w.files → paths.Nodup →
          (w.loadSchema paths).result = .ok schema →
            ∀ path ∈ paths, ∀ source entry, w.Describes path source entry →
              ∀ name ∈ entry.moduleNames, name ∈ schema.flatten.keys := by
  intro h
  obtain ⟨schema, hschema, hkeys⟩ := contestedWorkspace_loads
  obtain ⟨-, middle, -, -, hmiddle, hnames⟩ := contestedWorkspace_describes
  let search : Search :=
    { root := contestedWorkspace.path, paths := [""], excludes := [], recursive := false,
      edition := .newer }
  have hfound : contestedPaths = search.files contestedWorkspace.files := by
    decide +kernel
  have hname : "Middle" ∈ middle.moduleNames := by
    rw [hnames]
    decide
  have hmem := h contestedWorkspace search contestedPaths schema rfl hfound (by decide) hschema
    "/home/a.json" (by decide) "b.json:index.js" middle hmiddle "Middle" hname
  rw [hkeys] at hmem
  exact absurd hmem (by decide)

/-! ## Paths kept apart -/

/-- No source file of one path is merged under the name of a source file of the other. -/
def Apart (w : Workspace) (path other : String) : Prop :=
  ∀ source entry name document, w.Describes path source entry → w.Describes other name document →
    mergedName path source ≠ mergedName other name

/-- Source files without a colon in their names keep different paths apart. -/
theorem apart_of_no_colon {other : String} (ne : path ≠ other)
    (h : ∀ source entry, w.Describes path source entry → ':' ∉ source.toList)
    (h' : ∀ source entry, w.Describes other source entry → ':' ∉ source.toList) :
    w.Apart path other := by
  intro source entry name document hdescribed hdescribed' hmerged
  have hsource : source = name := by
    have htail := congrArg (fun merged => merged.toList.reverse.takeWhile (· ≠ ':')) hmerged
    simp only [reverse_takeWhile_mergedName (h source entry hdescribed),
      reverse_takeWhile_mergedName (h' name document hdescribed'), List.reverse_inj] at htail
    exact String.toList_inj.1 htail
  have hpath := congrArg String.toList hmerged
  rw [toList_mergedName, toList_mergedName, hsource] at hpath
  exact ne (String.toList_inj.1 (List.append_cancel_right hpath))

section Append

variable {first second : List String} {lists lists' : List (List (String × Document))}

theorem disjoint_of_apart (apart : ∀ path ∈ first, ∀ other ∈ second, w.Apart path other)
    (hlists : first.mapM w.mergedSources = .ok lists)
    (hlists' : second.mapM w.mergedSources = .ok lists') :
    ∀ key ∈ (OrderedMap.ofList lists.flatten).keys,
      key ∉ (OrderedMap.ofList lists'.flatten).keys := by
  intro key hkey hkey'
  obtain ⟨⟨_, entry⟩, hmem, rfl⟩ := List.mem_map.1 (OrderedMap.mem_keys_ofList.1 hkey)
  obtain ⟨⟨_, document⟩, hmem', hsame⟩ := List.mem_map.1 (OrderedMap.mem_keys_ofList.1 hkey')
  obtain ⟨path, hpath, source, hdescribed, hname⟩ := (mem_flatten_mergedSources_iff hlists).1 hmem
  obtain ⟨other, hother, name, hdescribed', hname'⟩ :=
    (mem_flatten_mergedSources_iff hlists').1 hmem'
  have hmerged : mergedName path source = mergedName other name :=
    hname.symm.trans (hsame.symm.trans hname')
  exact apart path hpath other hother source entry name document hdescribed hdescribed' hmerged

/-- The source files of paths kept apart stand one after the other. -/
theorem values_append_of_apart (apart : ∀ path ∈ first, ∀ other ∈ second, w.Apart path other)
    (hlists : first.mapM w.mergedSources = .ok lists)
    (hlists' : second.mapM w.mergedSources = .ok lists') :
    (OrderedMap.ofList (lists ++ lists').flatten).values =
      (OrderedMap.ofList lists.flatten).values ++ (OrderedMap.ofList lists'.flatten).values := by
  have hdisjoint := disjoint_of_apart apart hlists hlists'
  rw [List.flatten_append, OrderedMap.ofList_append, OrderedMap.values,
    OrderedMap.entries_putAll hdisjoint, List.map_append]
  rfl

/-- The modules of some paths and of others kept apart from them are put into one map. -/
theorem flattened_append (apart : ∀ path ∈ first, ∀ other ∈ second, w.Apart path other) :
    w.flattened (first ++ second) = .ok modules ↔
      ∃ before after, w.flattened first = .ok before ∧ w.flattened second = .ok after ∧
        modules = before.putAll after := by
  simp only [flattened_eq_ok_iff, mapM_append_eq_ok_iff]
  constructor
  · rintro ⟨_, ⟨lists, lists', hlists, hlists', rfl⟩, files, hfiles, rfl⟩
    rw [values_append_of_apart apart hlists hlists', mapM_append_eq_ok_iff] at hfiles
    obtain ⟨before, after, hbefore, hafter, rfl⟩ := hfiles
    exact ⟨_, _, ⟨lists, hlists, before, hbefore, rfl⟩, ⟨lists', hlists', after, hafter, rfl⟩,
      combine_append before after⟩
  · rintro ⟨_, _, ⟨lists, hlists, before, hbefore, rfl⟩,
      ⟨lists', hlists', after, hafter, rfl⟩, rfl⟩
    refine ⟨_, ⟨lists, lists', hlists, hlists', rfl⟩, before ++ after, ?_,
      combine_append before after⟩
    rw [values_append_of_apart apart hlists hlists', mapM_append_eq_ok_iff]
    exact ⟨before, after, hbefore, hafter, rfl⟩

end Append

/-- The schema file under a path describes a schema of its own. -/
def Holds (w : Workspace) (path : String) (own : Schema) : Prop :=
  w.readDocument path >>= Schema.load = .ok own

/-- Paths kept apart from each other describe the modules of each file's own schema, put into one
map. -/
theorem flattened_eq_ok_iff_union (apart : paths.Pairwise w.Apart) :
    w.flattened paths = .ok modules ↔
      ∃ owns, List.Forall₂ w.Holds paths owns ∧ modules = Schema.union owns := by
  induction paths generalizing modules with
  | nil => simp [flattened_nil, Schema.union]
  | cons path rest ih =>
    rw [List.pairwise_cons] at apart
    have hapart : ∀ first ∈ [path], ∀ other ∈ rest, w.Apart first other := by
      intro first hfirst other hother
      rw [List.mem_singleton] at hfirst
      rw [hfirst]
      exact apart.1 other hother
    rw [← List.singleton_append, flattened_append hapart]
    simp only [flattened_singleton, ih apart.2, List.singleton_append,
      List.forall₂_cons_left_iff]
    constructor
    · rintro ⟨_, _, ⟨own, hown, rfl⟩, ⟨owns, howns, rfl⟩, rfl⟩
      exact ⟨own :: owns, ⟨own, owns, hown, howns, rfl⟩, (Schema.union_cons own owns).symm⟩
    · rintro ⟨_, ⟨own, owns, hown, howns, rfl⟩, rfl⟩
      exact ⟨_, _, ⟨own, hown, rfl⟩, ⟨owns, howns, rfl⟩, Schema.union_cons own owns⟩

/-- What comes of generating the header of the schema files under the given paths, once they are
loaded. -/
def Outcome (w : Workspace) (paths : List String) (library moduleSpec : String)
    (result : Except Fault (OrderedMap String)) : Prop :=
  ∃ schema, (w.loadSchema paths).result = .ok schema ∧
    (schema.generate library moduleSpec).result = result

theorem outcome_iff {library moduleSpec : String} {result : Except Fault (OrderedMap String)} :
    w.Outcome paths library moduleSpec result ↔
      ∃ modules, w.flattened paths = .ok modules ∧
        OrderedMap.empty.put outputFileName <$> (headerText modules).result = result := by
  simp only [Outcome, flattened, map_eq_ok_iff, result_generate]
  constructor
  · rintro ⟨schema, hschema, hresult⟩
    exact ⟨schema.flatten, ⟨schema, hschema, rfl⟩, hresult⟩
  · rintro ⟨_, ⟨schema, hschema, rfl⟩, hresult⟩
    exact ⟨schema, hschema, hresult⟩

theorem outcome_iff_union (apart : paths.Pairwise w.Apart) {library moduleSpec : String}
    {result : Except Fault (OrderedMap String)} :
    w.Outcome paths library moduleSpec result ↔
      ∃ owns, List.Forall₂ w.Holds paths owns ∧
        OrderedMap.empty.put outputFileName <$> (headerText (Schema.union owns)).result =
          result := by
  simp only [outcome_iff, flattened_eq_ok_iff_union apart]
  constructor
  · rintro ⟨_, ⟨owns, howns, rfl⟩, hresult⟩
    exact ⟨owns, howns, hresult⟩
  · rintro ⟨owns, howns, hresult⟩
    exact ⟨_, ⟨owns, howns, rfl⟩, hresult⟩

theorem forall₂_holds_of_read {w' : Workspace} {paths' : List String} {owns : List Schema}
    (same : List.Forall₂ (fun path path' => w.read path = w'.read path') paths paths') :
    List.Forall₂ w.Holds paths owns ↔ List.Forall₂ w'.Holds paths' owns := by
  induction same generalizing owns with
  | nil => simp
  | @cons path path' rest rest' hread _ ih =>
    have hholds : ∀ own, w.Holds path own ↔ w'.Holds path' own := by
      intro own
      rw [Holds, Holds, readDocument, readDocument, hread]
    simp only [List.forall₂_cons_left_iff, hholds, ih]

/-- Merging is a homomorphism: paths that are kept apart from others give their modules with those
of the others put into them.  So paths kept apart from each other give the header of all the files'
own modules, put into one map in the order of the paths; names without a colon keep different paths
apart; and only what the files hold counts, not what the paths are. -/
theorem merging_is_homomorphic (w : Workspace) :
    (∀ (first second : List String) (before after : Schema),
      (w.loadSchema first).result = .ok before → (w.loadSchema second).result = .ok after →
      (∀ path ∈ first, ∀ other ∈ second, w.Apart path other) →
        ∃ schema, (w.loadSchema (first ++ second)).result = .ok schema ∧
          schema.flatten = before.flatten.putAll after.flatten) ∧
    (∀ paths : List String, paths.Pairwise w.Apart → ∀ library moduleSpec result,
      w.Outcome paths library moduleSpec result ↔
        ∃ owns, List.Forall₂ w.Holds paths owns ∧
          OrderedMap.empty.put outputFileName <$> (headerText (Schema.union owns)).result =
            result) ∧
    (∀ paths : List String, paths.Nodup →
      (∀ path ∈ paths, ∀ source entry, w.Describes path source entry → ':' ∉ source.toList) →
        paths.Pairwise w.Apart) ∧
    ∀ (w' : Workspace) (paths paths' : List String), paths.Pairwise w.Apart →
      paths'.Pairwise w'.Apart →
      List.Forall₂ (fun path path' => w.read path = w'.read path') paths paths' →
      ∀ library moduleSpec result,
        w.Outcome paths library moduleSpec result ↔
          w'.Outcome paths' library moduleSpec result := by
  refine ⟨?_, ?_, ?_, ?_⟩
  · intro first second before after hbefore hafter apart
    have hfirst : w.flattened first = .ok before.flatten := map_eq_ok_iff.2 ⟨before, hbefore, rfl⟩
    have hsecond : w.flattened second = .ok after.flatten := map_eq_ok_iff.2 ⟨after, hafter, rfl⟩
    exact map_eq_ok_iff.1 ((flattened_append apart).2 ⟨_, _, hfirst, hsecond, rfl⟩)
  · intro paths apart library moduleSpec result
    exact outcome_iff_union apart
  · intro paths hnodup hcolon
    refine hnodup.imp_of_mem ?_
    intro path other hpath hother ne
    exact apart_of_no_colon ne (hcolon path hpath) (hcolon other hother)
  · intro w' paths paths' apart apart' same library moduleSpec result
    rw [outcome_iff_union apart, outcome_iff_union apart']
    simp only [forall₂_holds_of_read same]

/-- Two schema files that declare a module of the same name, in source files of the same name. -/
def sharingWorkspace : Workspace where
  home := ["home".toList]
  files := .directory [("home".toList, .directory
    [(['a'], .file (Utf8.encode ("\x7b\"modules\":\x7b\"s\":\x7b\"nativeModules\":" ++
        "\x7b\"A\":\x7b\"properties\":[]\x7d,\"B\":\x7b\"properties\":[]\x7d\x7d\x7d\x7d\x7d"))),
      (['b'], .file (Utf8.encode ("\x7b\"modules\":\x7b\"s\":\x7b\"nativeModules\":" ++
        "\x7b\"B\":\x7b\"properties\":[]\x7d\x7d\x7d,\"t\":\x7b\x7d\x7d\x7d")))])]
  edition := .newer

theorem sharingWorkspace_reads {path : String} (h : path ∈ ["a", "b"]) :
    ∃ raw own, sharingWorkspace.readDocument path = .ok raw ∧ Schema.load raw = .ok own ∧
      ∀ source ∈ raw.sources.keys, ':' ∉ source.toList := by
  have hreads : ∀ path ∈ ["a", "b"], (sharingWorkspace.readDocument path).toOption.any (fun raw =>
      (Schema.load raw).isOk && raw.sources.keys.all fun source => ':' ∉ source.toList) = true := by
    decide +kernel
  obtain ⟨raw, hraw, hboth⟩ := exists_of_toOption_any (hreads path h)
  rw [Bool.and_eq_true, ← succeeds_iff_isOk, List.all_eq_true] at hboth
  obtain ⟨⟨own, hown⟩, hcolon⟩ := hboth
  exact ⟨raw, own, hraw, hown, fun source hsource => of_decide_eq_true (hcolon source hsource)⟩

/-- No source file has a colon in its name, however the paths are spelled. -/
theorem sharingWorkspace_no_colon (path : String) {other : String} (h : path ∈ ["a", "b"])
    (same : sharingWorkspace.readDocument other = sharingWorkspace.readDocument path)
    (source : String) (entry : Document)
    (hdescribed : sharingWorkspace.Describes other source entry) : ':' ∉ source.toList := by
  obtain ⟨raw, -, hraw, -, hsources⟩ := sharingWorkspace_reads h
  obtain ⟨raw', hraw', hmem⟩ := hdescribed
  obtain rfl := Except.ok.inj (hraw.symm.trans (same.symm.trans hraw'))
  exact hsources source (List.mem_map.2 ⟨_, hmem, rfl⟩)

theorem sharingWorkspace_holds (path : String) (h : path ∈ ["a", "b"]) :
    ∃ own, sharingWorkspace.Holds path own := by
  obtain ⟨raw, own, hraw, hown, -⟩ := sharingWorkspace_reads h
  exact ⟨own, bind_eq_ok_iff.2 ⟨raw, hraw, hown⟩⟩

theorem sharingWorkspace_loads (path : String) (h : path ∈ ["a", "b"]) :
    ∃ schema, (sharingWorkspace.loadSchema [path]).result = .ok schema := by
  obtain ⟨own, hown⟩ := sharingWorkspace_holds path h
  obtain ⟨schema, hschema, -⟩ := map_eq_ok_iff.1 (flattened_singleton.2 ⟨own, hown, rfl⟩)
  exact ⟨schema, hschema⟩

theorem sharingWorkspace_merges :
    (∃ before after schema, (sharingWorkspace.loadSchema ["a"]).result = .ok before ∧
      (sharingWorkspace.loadSchema ["b"]).result = .ok after ∧
      (sharingWorkspace.loadSchema ["a", "b"]).result = .ok schema ∧
      schema.flatten = before.flatten.putAll after.flatten) ∧
    (∃ owns, List.Forall₂ sharingWorkspace.Holds ["a", "b"] owns ∧
      sharingWorkspace.Outcome ["a", "b"] "library" "specification"
        (OrderedMap.empty.put outputFileName <$> (headerText (Schema.union owns)).result)) ∧
    ∀ result, sharingWorkspace.Outcome ["a", "b"] "library" "specification" result ↔
      sharingWorkspace.Outcome ["./a", "./b"] "library" "specification" result := by
  obtain ⟨happend, hunion, hcolon, hrename⟩ := merging_is_homomorphic sharingWorkspace
  have hapart : ["a", "b"].Pairwise sharingWorkspace.Apart :=
    hcolon ["a", "b"] (by decide) fun path hpath => sharingWorkspace_no_colon path hpath rfl
  have hapart' : ["./a", "./b"].Pairwise sharingWorkspace.Apart := by
    refine hcolon ["./a", "./b"] (by decide) (List.forall_mem_cons.2 ⟨?_, ?_⟩)
    · exact sharingWorkspace_no_colon "a" (by decide) rfl
    · exact List.forall_mem_singleton.2 (sharingWorkspace_no_colon "b" (by decide) rfl)
  refine ⟨?_, ?_, ?_⟩
  · obtain ⟨before, hbefore⟩ := sharingWorkspace_loads "a" (by decide)
    obtain ⟨after, hafter⟩ := sharingWorkspace_loads "b" (by decide)
    have hab : ∀ path ∈ ["a"], ∀ other ∈ ["b"], sharingWorkspace.Apart path other := by
      rw [List.forall_mem_singleton, List.forall_mem_singleton]
      exact List.pairwise_pair.1 hapart
    obtain ⟨schema, hschema, hflatten⟩ := happend ["a"] ["b"] before after hbefore hafter hab
    exact ⟨before, after, schema, hbefore, hafter, hschema, hflatten⟩
  · obtain ⟨owns, howns⟩ := exists_forall₂_iff.2 sharingWorkspace_holds
    exact ⟨owns, howns, (hunion ["a", "b"] hapart _ _ _).2 ⟨owns, howns, rfl⟩⟩
  · intro result
    have hsame : List.Forall₂ (fun path path' => sharingWorkspace.read path =
        sharingWorkspace.read path') ["a", "b"] ["./a", "./b"] := .cons rfl (.cons rfl .nil)
    exact hrename sharingWorkspace ["a", "b"] ["./a", "./b"] hapart hapart' hsame _ _ result

end Workspace

end NativeHeader
