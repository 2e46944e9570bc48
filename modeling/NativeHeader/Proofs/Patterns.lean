import Mathlib.Data.List.TakeWhile
import NativeHeader.Proofs.Finding
import NativeHeader.Proofs.Following

/-!
# What path patterns find

A pattern is followed as it is spelled up to its first wildcard (`ofText_append`), and from there
name by name (`mem_expandSegments_cons`).  In a well-named tree everything that a name of a pattern
finds is told by what the joined paths lead to: an entry that a wildcard describes
(`mem_wildcardNames_iff`), a row of names that are not hidden (`mem_deepNames_iff`), or the name
itself.  What all ways of looking have in common is `segmentNames_cases`.

A wildcard without sets describes itself (`matchesName_self`), and `*` with a row of plain
characters describes the names that end in these (`matchesName_many`).
-/

namespace NativeHeader.Glob

open NativeHeader.Path (Name IsStep IsProper)
open NativeHeader.FileTree (WellNamed)

variable {edition : Edition} {tree : FileTree} {recursive only : Bool}
  {base path relative : List Char} {name segment : Name}

/-! ## Wildcards -/

theorem mem_suffixes {suffix text : List Char} : suffix ∈ suffixes text ↔ suffix <:+ text := by
  induction text with
  | nil => simp [suffixes]
  | cons c rest ih => rw [suffixes, List.mem_cons, ih, List.suffix_cons_iff]

/-- A wildcard that has no set describes itself. -/
theorem matchesName_self (h : '[' ∉ name) : matchesName name name = true := by
  rw [matchesName]
  induction name with
  | nil => rfl
  | cons c rest ih =>
    rw [List.mem_cons, not_or] at h
    have hrest := ih h.2
    by_cases hmany : c = '*'
    · subst hmany
      rw [Atom.parse, matchesAtoms, List.any_eq_true]
      exact ⟨rest, mem_suffixes.2 (List.suffix_cons '*' rest), hrest⟩
    · by_cases hany : c = '?'
      · subst hany
        simpa [Atom.parse, matchesAtoms, Atom.accepts] using hrest
      · have hset : c ≠ '[' := fun heq => h.1 heq.symm
        simpa [Atom.parse, hmany, hany, hset, matchesAtoms, Atom.accepts] using hrest

/-- A text with a wildcard in it is a name that an entry can have, if it has no slash. -/
theorem isProper_of_isMagic (hmagic : isMagic name = true) (hslash : '/' ∉ name) :
    IsProper name := by
  refine ⟨⟨?_, hslash⟩, ?_, ?_⟩
  all_goals
    rintro rfl
    revert hmagic
    decide

/-! ## What is below a directory and not hidden -/

/-- What is not hidden below a directory is what rows of names lead to that are not hidden. -/
theorem mem_visibleBelow_iff (h : tree.WellNamed) {entry : FileTree} :
    (relative, entry) ∈ visibleBelow tree ↔
      ∃ row, row ≠ [] ∧ tree.descend row = some entry ∧
        (∀ name ∈ row, Path.isHidden name = false) ∧ Path.below [] row = relative := by
  induction tree using FileTree.entries_induction generalizing relative with
  | file content =>
    rw [visibleBelow]
    constructor
    · intro hmem
      cases hmem
    · rintro ⟨row, hne, hentry, -⟩
      obtain ⟨name, rest, rfl⟩ := List.exists_cons_of_ne_nil hne
      cases hentry
  | directory entries ih =>
    rw [mem_visibleBelow]
    constructor
    · rintro ⟨⟨name, child⟩, hchild, hhidden, hfound⟩
      have hlookup := h.lookup_eq_some_iff.2 hchild
      rcases hfound with hfound | ⟨⟨relative', entry'⟩, hbelow, hfound⟩
      · cases hfound
        exact ⟨[relative], List.cons_ne_nil _ _, by simp [hlookup], by simpa using hhidden, by simp⟩
      · cases hfound
        have hwell := h.of_mem_children hchild
        obtain ⟨row, hne, hentry, hrow, rfl⟩ := (ih _ hchild hwell).1 hbelow
        have hsteps := fun other hother => (hwell.proper_of_descend hentry other hother).1
        refine ⟨name :: row, List.cons_ne_nil _ _, by simpa [hlookup] using hentry, ?_, ?_⟩
        · simpa using ⟨hhidden, hrow⟩
        · rw [Path.below_cons, Path.join_nil, Path.join_below name hne hsteps]
    · rintro ⟨row, hne, hentry, hrow, rfl⟩
      obtain ⟨name, rest, rfl⟩ := List.exists_cons_of_ne_nil hne
      obtain ⟨child, hlookup, hentry⟩ := Option.bind_eq_some_iff.1 hentry
      have hchild := FileTree.mem_of_lookup hlookup
      obtain ⟨hhidden, hrest⟩ := List.forall_mem_cons.1 hrow
      refine ⟨(name, child), hchild, hhidden, ?_⟩
      by_cases hempty : rest = []
      · subst hempty
        cases hentry
        exact .inl (by simp)
      · have hwell := h.of_mem_children hchild
        have hsteps := fun other hother => (hwell.proper_of_descend hentry other hother).1
        refine .inr ⟨(Path.below [] rest, entry), ?_, ?_⟩
        · exact (ih _ hchild hwell).2 ⟨rest, hempty, hentry, hrest, rfl⟩
        · rw [Path.below_cons, Path.join_nil, Path.join_below name hempty hsteps]

/-! ## What one name of a pattern finds -/

theorem mem_list_iff (h : tree.WellNamed) {entry : FileTree} :
    (name, entry) ∈ tree.list base ↔
      IsProper name ∧ tree.at? (Path.join base name) = some entry := by
  rw [FileTree.list]
  cases hplace : tree.at? base with
  | some place => exact h.mem_children_iff hplace
  | none =>
    constructor
    · intro hmem
      cases hmem
    · rintro ⟨hname, hentry⟩
      rw [FileTree.at?_join tree base hname, hplace] at hentry
      cases hentry

theorem mem_wildcardNames_iff (h : tree.WellNamed) :
    name ∈ wildcardNames tree only base segment ↔
      (IsProper name ∧ ∃ entry, tree.at? (Path.join base name) = some entry ∧
        (only = true → entry.isDirectory = true)) ∧
      ((Path.isHidden segment || !Path.isHidden name) && matchesName segment name) = true := by
  rw [mem_wildcardNames]
  refine and_congr_left fun _ => ?_
  constructor
  · rintro ⟨⟨name, entry⟩, hmem, honly, rfl⟩
    obtain ⟨hname, hentry⟩ := (mem_list_iff h).1 hmem
    exact ⟨hname, entry, hentry, honly⟩
  · rintro ⟨hname, entry, hentry, honly⟩
    exact ⟨(name, entry), (mem_list_iff h).2 ⟨hname, hentry⟩, honly, rfl⟩

theorem mem_deepNames_iff (h : tree.WellNamed) :
    relative ∈ deepNames edition tree only base ↔
      (relative = [] ∧ (edition = .newer → tree.hasDirectory base = true)) ∨
        ∃ row, row ≠ [] ∧ (∀ name ∈ row, IsProper name ∧ Path.isHidden name = false) ∧
          (∃ entry, tree.at? (Path.below base row) = some entry ∧
            (only = true → entry.isDirectory = true)) ∧
          Path.below [] row = relative := by
  rw [mem_deepNames]
  refine or_congr_right ?_
  constructor
  · rintro ⟨place, hplace, ⟨relative, entry⟩, hfound, honly, rfl⟩
    have hwell := h.at? hplace
    obtain ⟨row, hne, hentry, hhidden, hrow⟩ := (mem_visibleBelow_iff hwell).1 hfound
    have hproper := hwell.proper_of_descend hentry
    refine ⟨row, hne, fun name hname => ⟨hproper name hname, hhidden name hname⟩, ?_, hrow⟩
    rw [FileTree.at?_below tree base hproper, hplace]
    exact ⟨entry, hentry, honly⟩
  · rintro ⟨row, hne, hrow, ⟨entry, hentry, honly⟩, rfl⟩
    rw [FileTree.at?_below tree base fun name hname => (hrow name hname).1] at hentry
    obtain ⟨place, hplace, hentry⟩ := Option.bind_eq_some_iff.1 hentry
    have hfound := (mem_visibleBelow_iff (h.at? hplace)).2
      ⟨row, hne, hentry, fun name hname => (hrow name hname).2, rfl⟩
    exact ⟨place, hplace, _, hfound, honly, rfl⟩

theorem mem_plainNames_iff :
    name ∈ plainNames tree base segment ↔
      name = segment ∧ tree.exists? (Path.join base segment) = true := by
  rw [plainNames]
  by_cases hempty : segment = []
  · subst hempty
    rw [if_pos rfl]
    by_cases hbase : tree.hasDirectory base = true
    · have hfound : tree.exists? (Path.join base []) = true := by
        obtain ⟨entries, hentries⟩ := FileTree.hasDirectory_iff.1 hbase
        exact FileTree.exists?_iff.2 ⟨_, (FileTree.at?_join_nil hbase).trans hentries⟩
      simp [hbase, hfound]
    · have hfound : ¬ tree.exists? (Path.join base []) = true := by
        intro hfound
        obtain ⟨entry, hentry⟩ := FileTree.exists?_iff.1 hfound
        exact hbase (FileTree.hasDirectory_of_join hentry)
      simp [hbase, hfound]
  · rw [if_neg hempty]
    by_cases hfound : tree.exists? (Path.join base segment) = true
    · simp [hfound]
    · simp [hfound]

/-- What a name of a pattern finds: itself, if it is there; the place where `**` stands; or a row of
names that entries have, which leads to something that is there. -/
theorem segmentNames_cases (h : tree.WellNamed)
    (hname : name ∈ segmentNames edition tree recursive only segment base) :
    (name = segment ∧ isMagic segment = false ∧ tree.exists? (Path.join base segment) = true) ∨
      (name = [] ∧ recursive = true ∧ segment = anyDepth ∧
        (edition = .newer → tree.hasDirectory base = true)) ∨
      ∃ row, row ≠ [] ∧ (∀ other ∈ row, IsProper other) ∧
        Path.join base name = Path.below base row ∧
        tree.exists? (Path.join base name) = true := by
  rw [segmentNames] at hname
  split at hname
  · next hplain =>
    obtain ⟨rfl, hfound⟩ := mem_plainNames_iff.1 hname
    exact .inl ⟨rfl, by simpa using hplain, hfound⟩
  · split at hname
    · next hdeep =>
      rw [Bool.and_eq_true, decide_eq_true_eq] at hdeep
      rcases (mem_deepNames_iff h).1 hname with ⟨hempty, hplace⟩ |
        ⟨row, hne, hrow, ⟨entry, hentry, -⟩, rfl⟩
      · exact .inr (.inl ⟨hempty, hdeep.1, hdeep.2, hplace⟩)
      · have hjoin := Path.join_below base hne fun other hother => (hrow other hother).1.1
        refine .inr (.inr ⟨row, hne, fun other hother => (hrow other hother).1, hjoin, ?_⟩)
        exact FileTree.exists?_iff.2 ⟨entry, hjoin ▸ hentry⟩
    · obtain ⟨⟨hproper, entry, hentry, -⟩, -⟩ := (mem_wildcardNames_iff h).1 hname
      refine .inr (.inr ⟨[name], List.cons_ne_nil _ _, by simpa using hproper, rfl, ?_⟩)
      exact FileTree.exists?_iff.2 ⟨entry, hentry⟩

/-! ## One name after another -/

theorem mem_expandSegments {segments : List Name} {found : List (List Char)} :
    path ∈ expandSegments edition tree recursive segments found ↔
      ∃ base ∈ found, path ∈ expandSegments edition tree recursive segments [base] := by
  induction segments generalizing found with
  | nil => simp [expandSegments]
  | cons segment rest ih =>
    simp only [expandSegments]
    rw [ih]
    constructor
    · rintro ⟨next, hnext, hpath⟩
      obtain ⟨base, hbase, hnext⟩ := List.mem_flatMap.1 hnext
      exact ⟨base, hbase, ih.2 ⟨next, by simpa using hnext, hpath⟩⟩
    · rintro ⟨base, hbase, hpath⟩
      obtain ⟨next, hnext, hpath⟩ := ih.1 hpath
      exact ⟨next, List.mem_flatMap.2 ⟨base, hbase, by simpa using hnext⟩, hpath⟩

/-- The first name is looked for in the directory, and the others in what it finds. -/
theorem mem_expandSegments_cons {rest : List Name} :
    path ∈ expandSegments edition tree recursive (segment :: rest) [base] ↔
      ∃ name ∈ segmentNames edition tree recursive (!rest.isEmpty) segment base,
        path ∈ expandSegments edition tree recursive rest [Path.join base name] := by
  rw [expandSegments, mem_expandSegments]
  constructor
  · rintro ⟨next, hnext, hpath⟩
    rw [List.flatMap_singleton, List.mem_map] at hnext
    obtain ⟨name, hname, rfl⟩ := hnext
    exact ⟨name, hname, hpath⟩
  · rintro ⟨name, hname, hpath⟩
    refine ⟨_, ?_, hpath⟩
    rw [List.flatMap_singleton]
    exact List.mem_map_of_mem hname

/-! ## The parts of a pattern -/

theorem isMagic_append (front rest : List Char) :
    isMagic (front ++ rest) = (isMagic front || isMagic rest) := List.any_append

theorem takeWhile_of_plain {front : List Char} (rest : List Char) (h : isMagic front = false) :
    (front ++ rest).takeWhile (fun c => !isMagicChar c) =
      front ++ rest.takeWhile fun c => !isMagicChar c := by
  refine List.takeWhile_append_of_pos fun c hc => ?_
  simpa using List.any_eq_false.1 h c hc

theorem throughLastSlash_append {front start : List Char}
    (hfront : front = [] ∨ front.getLast? = some '/') (hstart : '/' ∉ start) :
    Path.throughLastSlash (front ++ start) = front := by
  have hdrop : ∀ c ∈ start.reverse, decide (c ≠ '/') = true := by
    intro c hc
    rw [decide_eq_true_eq]
    rintro rfl
    exact hstart (List.mem_reverse.1 hc)
  rw [Path.throughLastSlash, List.reverse_append, List.dropWhile_append_of_pos hdrop]
  rcases hfront with rfl | hlast
  · rfl
  · obtain ⟨front, rfl⟩ := List.getLast?_eq_some_iff.1 hlast
    simp

/-- A pattern is followed as it is spelled up to the slash before its first wildcard. -/
theorem ofText_append {front start rest : List Char} {c : Char}
    (hfront : front = [] ∨ front.getLast? = some '/') (hstart : '/' ∉ start)
    (hplain : isMagic (front ++ start) = false) (hc : isMagicChar c = true) :
    Pattern.ofText (front ++ (start ++ c :: rest)) =
      { base := Path.dropTrailingSlashes front
        segments := Pattern.segmentsOf (start ++ c :: rest) } := by
  have htake : (front ++ (start ++ c :: rest)).takeWhile (fun c => !isMagicChar c) =
      front ++ start := by
    rw [← List.append_assoc, takeWhile_of_plain _ hplain, List.takeWhile_cons_of_neg (by simp [hc]),
      List.append_nil]
  have hlength : (front ++ start).length ≠ (front ++ (start ++ c :: rest)).length := by
    simp
  rw [Pattern.ofText, htake, if_neg hlength, Path.parent, throughLastSlash_append hfront hstart,
    List.drop_left]

/-- A text with a wildcard begins with plain characters, after which a magic one comes. -/
theorem exists_plain_append {text : List Char} (h : isMagic text = true) :
    ∃ plain c rest, text = plain ++ c :: rest ∧ isMagic plain = false ∧ isMagicChar c = true := by
  have hplain : isMagic (text.takeWhile fun c => !isMagicChar c) = false := by
    rw [isMagic, List.any_eq_false]
    intro c hc
    simpa using List.mem_takeWhile_imp hc
  have htext : (text.takeWhile fun c => !isMagicChar c) ++
      (text.dropWhile fun c => !isMagicChar c) = text := List.takeWhile_append_dropWhile
  cases hmore : text.dropWhile fun c => !isMagicChar c with
  | nil =>
    rw [hmore, List.append_nil] at htext
    rw [htext] at hplain
    exact absurd (h.symm.trans hplain) (by decide)
  | cons c rest =>
    have hhead := List.head?_dropWhile_not (fun c => !isMagicChar c) text
    rw [hmore] at hhead htext
    exact ⟨_, c, rest, htext.symm, hplain, by simpa using hhead⟩

theorem throughLastSlash_cases (path : List Char) :
    Path.throughLastSlash path = [] ∨ (Path.throughLastSlash path).getLast? = some '/' := by
  rw [Path.throughLastSlash, List.getLast?_reverse, List.reverse_eq_nil_iff]
  cases hdrop : path.reverse.dropWhile (· ≠ '/') with
  | nil => exact .inl rfl
  | cons c rest =>
    have hhead := List.head?_dropWhile_not (fun c => decide (c ≠ '/')) path.reverse
    rw [hdrop] at hhead
    exact .inr (by simpa using hhead)

theorem no_slash_lastName (path : List Char) : '/' ∉ Path.lastName path := by
  rw [Path.lastName, List.mem_reverse]
  intro hslash
  have hne := List.mem_takeWhile_imp hslash
  simp at hne

/-- Every text with a wildcard has such parts. -/
theorem exists_parts {text : List Char} (h : isMagic text = true) :
    ∃ front start c rest, text = front ++ (start ++ c :: rest) ∧
      (front = [] ∨ front.getLast? = some '/') ∧ '/' ∉ start ∧
      isMagic (front ++ start) = false ∧ isMagicChar c = true := by
  obtain ⟨plain, c, rest, rfl, hplain, hc⟩ := exists_plain_append h
  have hparts := Path.throughLastSlash_append_lastName plain
  refine ⟨Path.throughLastSlash plain, Path.lastName plain, c, rest, ?_,
    throughLastSlash_cases plain, no_slash_lastName plain, ?_, hc⟩
  · rw [← List.append_assoc, hparts]
  · rw [hparts, hplain]

/-- Slashes at the end of what is followed as it is spelled are no steps, unless there are more than
one. -/
theorem dropTrailingSlashes_append {front : List Char} (hnil : front ≠ [])
    (hlast : front.getLast? ≠ some '/') : Path.dropTrailingSlashes (front ++ ['/']) = front := by
  have htrim : Path.trimSlashes (front ++ ['/']) = front := by
    obtain ⟨rest, c, rfl⟩ := (List.eq_nil_or_concat' front).resolve_left hnil
    have hc : c ≠ '/' := by simpa using hlast
    simp [Path.trimSlashes, hc]
  rw [Path.dropTrailingSlashes, htrim, if_neg hnil]

theorem steps_dropTrailingSlashes {front : List Char}
    (hfront : front = [] ∨ front.getLast? = some '/') (hempty : [] ∉ (Path.steps front).tail) :
    Path.steps (Path.dropTrailingSlashes front) = Path.steps front := by
  rcases hfront with rfl | hslash
  · rfl
  · obtain ⟨front, rfl⟩ := List.getLast?_eq_some_iff.1 hslash
    rcases Path.spelling_cases front with rfl | ⟨before, rfl⟩ | ⟨hnil, hend, hsteps⟩
    · rfl
    · rw [Path.steps_append_singleton_slash, Path.names_append_singleton_slash,
        List.tail_append_of_ne_nil (Path.names_ne_nil before)] at hempty
      exact absurd (List.mem_append_right _ (List.mem_singleton_self _)) hempty
    · rw [dropTrailingSlashes_append hnil hend, Path.steps_append_singleton_slash, hsteps]

/-- Without two slashes in a row there are none in the parts of a pattern. -/
theorem no_empty_of_join {front rest first : List Char} {others : List Name}
    (hfront : front = [] ∨ front.getLast? = some '/') (hfirst : Path.steps rest = first :: others)
    (hmagic : isMagic first = true) (hempty : [] ∉ (Path.steps (Path.join front rest)).tail) :
    [] ∉ (Path.steps front).tail ∧ [] ∉ Path.steps rest := by
  rw [Path.steps_join] at hempty
  rcases hfront with rfl | hslash
  · have hne : first ≠ [] := by
      rintro rfl
      cases hmagic
    rw [Path.steps_nil, List.nil_append, hfirst, List.tail_cons] at hempty
    rw [hfirst, List.mem_cons, not_or]
    exact ⟨List.not_mem_nil, Ne.symm hne, hempty⟩
  · obtain ⟨front, rfl⟩ := List.getLast?_eq_some_iff.1 hslash
    have hne : Path.steps (front ++ ['/']) ≠ [] := by
      rw [Path.steps_append_singleton_slash]
      exact Path.names_ne_nil front
    rwa [List.tail_append_of_ne_nil hne, List.mem_append, not_or] at hempty

/-- If there are no two slashes in a row, the names that are looked for are those in the text. -/
theorem segmentsOf_eq_names {text : List Char} (hnil : text ≠ [])
    (h : ∀ name ∈ Path.steps text, name ≠ []) : Pattern.segmentsOf text = Path.names text := by
  have hfilter : (Path.steps text).filter (· ≠ []) = Path.steps text := by
    rw [List.filter_eq_self]
    intro name hname
    simpa using h name hname
  rw [Pattern.segmentsOf]
  rcases Path.spelling_cases text with rfl | ⟨front, rfl⟩ | ⟨-, hend, hsteps⟩
  · exact absurd rfl hnil
  · rw [Path.steps_append_singleton_slash] at hfilter
    rw [Path.names_append_singleton_slash, List.filter_append, hfilter]
    simp
  · rw [← hsteps, hfilter, if_neg hend]

/-- The first of the names that are looked for has a wildcard. -/
theorem exists_steps_of_magic {start : List Char} {c : Char} (rest : List Char)
    (hstart : '/' ∉ start) (hc : isMagicChar c = true) :
    ∃ first others, Path.steps (start ++ c :: rest) = first :: others ∧ isMagic first = true := by
  obtain ⟨more, others, hnames⟩ :
      ∃ more others, Path.names (start ++ c :: rest) = (start ++ c :: more) :: others := by
    induction start with
    | nil =>
      have hslash : c ≠ '/' := by
        rintro rfl
        revert hc
        decide
      rw [List.nil_append, Path.names, if_neg hslash]
      cases Path.names rest with
      | nil => exact ⟨[], [], rfl⟩
      | cons first others => exact ⟨first, others, rfl⟩
    | cons d start ih =>
      rw [List.mem_cons, not_or] at hstart
      obtain ⟨more, others, hnames⟩ := ih hstart.2
      refine ⟨more, others, ?_⟩
      rw [List.cons_append, Path.names, if_neg (Ne.symm hstart.1), hnames]
      rfl
  have hmagic : isMagic (start ++ c :: more) = true := by
    rw [isMagic_append, isMagic, isMagic, List.any_cons, hc, Bool.true_or, Bool.or_true]
  rcases Path.names_eq_steps_or (start ++ c :: rest) with hsteps | hsteps
  · exact ⟨_, others, hsteps ▸ hnames, hmagic⟩
  · rw [hnames] at hsteps
    cases hempty : Path.steps (start ++ c :: rest) with
    | nil => simp [hempty] at hsteps
    | cons first others =>
      rw [hempty, List.cons_append, List.cons.injEq] at hsteps
      exact ⟨first, others, rfl, hsteps.1 ▸ hmagic⟩

/-- A text with a wildcard, told by the part that is followed as it is spelled and the part whose
names are looked for. -/
theorem exists_ofText_eq {text : List Char} (h : isMagic text = true) :
    ∃ front rest, text = Path.join front rest ∧ (front = [] ∨ front.getLast? = some '/') ∧
      isMagic front = false ∧ rest ≠ [] ∧
      (∃ first others, Path.steps rest = first :: others ∧ isMagic first = true) ∧
      Pattern.ofText text =
        { base := Path.dropTrailingSlashes front, segments := Pattern.segmentsOf rest } := by
  obtain ⟨front, start, c, rest, rfl, hfront, hstart, hplain, hc⟩ := exists_parts h
  have hjoin : front ++ (start ++ c :: rest) = Path.join front (start ++ c :: rest) := by
    rcases hfront with rfl | hslash
    · simp
    · have hnil : front ≠ [] := by
        rintro rfl
        cases hslash
      rw [Path.join, if_neg hnil, if_pos hslash]
  refine ⟨front, start ++ c :: rest, hjoin, hfront, ?_, by simp,
    exists_steps_of_magic rest hstart hc, ofText_append hfront hstart hplain hc⟩
  rw [isMagic_append, Bool.or_eq_false_iff] at hplain
  exact hplain.1

/-- The first of the names that are looked for, apart from empty ones, has a wildcard. -/
theorem exists_filter_segmentsOf {text first : List Char} {others : List Name}
    (h : Path.steps text = first :: others) (hmagic : isMagic first = true) :
    ∃ more, (Pattern.segmentsOf text).filter (· ≠ []) = first :: more := by
  have hne : first ≠ [] := by
    rintro rfl
    cases hmagic
  obtain ⟨more, hnames⟩ : ∃ more, Path.names text = first :: more := by
    rcases Path.names_eq_steps_or text with hnames | hnames
    · exact ⟨others, hnames.trans h⟩
    · exact ⟨others ++ [[]], by rw [hnames, h, List.cons_append]⟩
  refine ⟨more.filter (· ≠ []), ?_⟩
  unfold Pattern.segmentsOf
  dsimp only
  split <;> simp [hnames, hne]

theorem segmentsOf_ne_nil {text first : List Char} {others : List Name}
    (h : Path.steps text = first :: others) (hmagic : isMagic first = true) :
    Pattern.segmentsOf text ≠ [] := by
  obtain ⟨more, hfilter⟩ := exists_filter_segmentsOf h hmagic
  intro hempty
  simp [hempty] at hfilter

/-- What a text with a wildcard finds, told by its parts. -/
theorem exists_expand_eq {text : List Char} (h : isMagic text = true) :
    ∃ front rest, text = Path.join front rest ∧ (front = [] ∨ front.getLast? = some '/') ∧
      isMagic front = false ∧ rest ≠ [] ∧
      (∃ first others, Path.steps rest = first :: others ∧ isMagic first = true) ∧
      ∀ edition tree recursive, expand edition tree recursive text =
        expandSegments edition tree recursive (Pattern.segmentsOf rest)
          [Path.dropTrailingSlashes front] := by
  obtain ⟨front, rest, hjoin, hfront, hplain, hnil, ⟨first, others, hsteps, hmagic⟩, htext⟩ :=
    exists_ofText_eq h
  refine ⟨front, rest, hjoin, hfront, hplain, hnil, ⟨first, others, hsteps, hmagic⟩,
    fun edition tree recursive => ?_⟩
  have hsegments := segmentsOf_ne_nil hsteps hmagic
  rw [expand, htext]
  simp [hsegments]

theorem ofText_of_plain {text : List Char} (h : isMagic text = false) :
    Pattern.ofText text = { base := text, segments := [] } := by
  have htake : text.takeWhile (fun c => !isMagicChar c) = text := by
    simpa using takeWhile_of_plain [] h
  rw [Pattern.ofText, htake, if_pos rfl]

/-- A path without wildcards finds itself, if it is there. -/
theorem expand_of_plain {text : List Char} (h : isMagic text = false) :
    expand edition tree recursive text = if plainPathExists tree text then [text] else [] := by
  rw [expand, ofText_of_plain h]
  rfl

end NativeHeader.Glob
