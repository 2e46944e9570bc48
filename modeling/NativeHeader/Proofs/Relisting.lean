import Mathlib.Data.List.Forall2
import Mathlib.Data.List.Nodup
import NativeHeader.FileTree

/-!
# The order of directory entries

A directory lists its entries in some order, which says nothing about what it holds.  Two trees that
differ only in these orders, at any depth, are relistings of each other (`Relisted`).  If the names
in every directory are different, as they are in every tree that is built by putting in entries
(`HasDistinctNames.insert`), then a path leads to the same place in a tree and in a relisting of it
(`rel_at?`), and what holds of some entry of a directory does not depend on the order either
(`exists_children_iff`).
-/

namespace NativeHeader.FileTree

open NativeHeader.Path (Name)

variable {tree tree' entry entry' here here' : FileTree} {name other : Name}
  {entries entries' between : List (Name × FileTree)}

/-! ## Trees in which names are different -/

/-- What holds of every file, and of a directory if it holds of all its entries, holds of every
tree. -/
@[elab_as_elim]
theorem entries_induction {motive : FileTree → Prop} (file : ∀ content, motive (file content))
    (directory : ∀ entries, (∀ entry ∈ entries, motive entry.2) → motive (directory entries))
    (tree : FileTree) : motive tree := by
  refine FileTree.rec (motive_1 := motive) (motive_2 := fun entries => ∀ entry ∈ entries,
    motive entry.2) (motive_3 := fun entry => motive entry.2) file directory ?nil ?cons ?mk tree
  case nil => exact fun entry h => absurd h List.not_mem_nil
  case cons =>
    intro first rest hfirst hrest entry h
    rcases List.mem_cons.1 h with rfl | h
    · exact hfirst
    · exact hrest entry h
  case mk => exact fun _ _ h => h

/-- Whether the entries of each directory in a tree have different names. -/
inductive HasDistinctNames : FileTree → Prop
  | file (content : List UInt8) : HasDistinctNames (.file content)
  | directory {entries : List (Name × FileTree)} : (entries.map Prod.fst).Nodup →
      (∀ entry ∈ entries, HasDistinctNames entry.2) → HasDistinctNames (.directory entries)

theorem HasDistinctNames.nodup_children (h : tree.HasDistinctNames) :
    (tree.children.map Prod.fst).Nodup := by
  cases h with
  | file => exact List.nodup_nil
  | directory nodup _ => exact nodup

theorem HasDistinctNames.of_mem_children (h : tree.HasDistinctNames) {child : Name × FileTree}
    (hmem : child ∈ tree.children) : child.2.HasDistinctNames := by
  cases h with
  | file => cases hmem
  | directory _ below => exact below child hmem

theorem mem_of_lookup {entries : List (Name × FileTree)} (h : entries.lookup name = some entry) :
    (name, entry) ∈ entries := by
  obtain ⟨before, after, rfl, -⟩ := List.lookup_eq_some_iff.1 h
  exact List.mem_append_right before (List.mem_cons_self ..)

theorem HasDistinctNames.of_lookup (h : tree.HasDistinctNames)
    (hentry : tree.children.lookup name = some entry) : entry.HasDistinctNames :=
  h.of_mem_children (mem_of_lookup hentry)

/-! ## Putting in entries -/

theorem mem_of_mem_putEntry {child : Name × FileTree}
    (h : child ∈ putEntry name entry entries) : child = (name, entry) ∨ child ∈ entries := by
  induction entries with
  | nil => exact .inl (List.mem_singleton.1 h)
  | cons first rest ih =>
    rw [putEntry] at h
    split at h
    · rcases List.mem_cons.1 h with h | h
      · exact .inl h
      · exact .inr (List.mem_cons_of_mem _ h)
    · rcases List.mem_cons.1 h with h | h
      · exact .inr (h ▸ List.mem_cons_self ..)
      · exact (ih h).imp_right (List.mem_cons_of_mem _)

theorem nodup_putEntry (h : (entries.map Prod.fst).Nodup) :
    ((putEntry name entry entries).map Prod.fst).Nodup := by
  induction entries with
  | nil => exact List.nodup_singleton name
  | cons first rest ih =>
    rw [List.map_cons, List.nodup_cons] at h
    rw [putEntry]
    split
    · next hfirst =>
      rw [List.map_cons, List.nodup_cons]
      exact hfirst ▸ h
    · next hfirst =>
      rw [List.map_cons, List.nodup_cons]
      refine ⟨fun hmem => ?_, ih h.2⟩
      obtain ⟨child, hchild, hname⟩ := List.mem_map.1 hmem
      rcases mem_of_mem_putEntry hchild with rfl | hchild
      · exact hfirst hname.symm
      · exact h.1 (List.mem_map.2 ⟨child, hchild, hname⟩)

theorem HasDistinctNames.putEntry (h : tree.HasDistinctNames) (hentry : entry.HasDistinctNames) :
    (FileTree.directory (FileTree.putEntry name entry tree.children)).HasDistinctNames := by
  refine .directory (nodup_putEntry h.nodup_children) fun child hchild => ?_
  rcases mem_of_mem_putEntry hchild with rfl | hchild
  · exact hentry
  · exact h.of_mem_children hchild

theorem HasDistinctNames.lookup_getD (h : tree.HasDistinctNames) (name : Name) :
    ((tree.children.lookup name).getD (FileTree.directory [])).HasDistinctNames := by
  cases hentry : tree.children.lookup name with
  | none => exact .directory List.nodup_nil nofun
  | some entry => exact h.of_lookup hentry

theorem HasDistinctNames.insert (h : tree.HasDistinctNames) (hentry : entry.HasDistinctNames)
    (names : List Name) : (FileTree.insert entry names tree).HasDistinctNames := by
  induction names generalizing tree with
  | nil => exact hentry
  | cons name rest ih => exact h.putEntry (ih (h.lookup_getD name))

/-! ## Relistings -/

mutual

/-- A tree that holds the same, but in which directories may list their entries in another order. -/
inductive Relisted : FileTree → FileTree → Prop
  | file (content : List UInt8) : Relisted (.file content) (.file content)
  | directory {entries between entries' : List (Name × FileTree)} :
      RelistedEntries entries between → between.Perm entries' →
        Relisted (.directory entries) (.directory entries')

/-- The same names in the same order, each with a relisting of what it had. -/
inductive RelistedEntries : List (Name × FileTree) → List (Name × FileTree) → Prop
  | nil : RelistedEntries [] []
  | cons {name : Name} {entry entry' : FileTree} {rest rest' : List (Name × FileTree)} :
      Relisted entry entry' → RelistedEntries rest rest' →
        RelistedEntries ((name, entry) :: rest) ((name, entry') :: rest')

end

theorem relistedEntries_refl (h : ∀ entry ∈ entries, entry.2.Relisted entry.2) :
    RelistedEntries entries entries := by
  induction entries with
  | nil => exact .nil
  | cons first rest ih =>
    exact .cons (h first (List.mem_cons_self ..)) (ih fun entry hmem =>
      h entry (List.mem_cons_of_mem _ hmem))

theorem Relisted.refl (tree : FileTree) : tree.Relisted tree := by
  induction tree using entries_induction with
  | file content => exact .file content
  | directory entries ih => exact .directory (relistedEntries_refl ih) (.refl _)

/-- The entries of one directory in another order. -/
theorem relisted_of_perm (h : entries.Perm entries') :
    (directory entries).Relisted (directory entries') :=
  .directory (relistedEntries_refl fun entry _ => .refl entry.2) h

theorem Relisted.isFile_eq (h : tree.Relisted tree') : tree.isFile = tree'.isFile := by
  cases h <;> rfl

theorem Relisted.isDirectory_eq (h : tree.Relisted tree') :
    tree.isDirectory = tree'.isDirectory := by
  cases h <;> rfl

/-! ## What holds of some entry -/

section Some

variable {P P' : Name × FileTree → Prop}

theorem RelistedEntries.exists_iff (h : RelistedEntries entries between)
    (agree : ∀ name entry entry', (name, entry) ∈ entries → entry.Relisted entry' →
      (P (name, entry) ↔ P' (name, entry'))) :
    (∃ child ∈ entries, P child) ↔ ∃ child ∈ between, P' child := by
  induction entries generalizing between with
  | nil =>
    cases h
    simp
  | cons first rest ih =>
    cases h with
    | cons hentry hrest =>
      rw [List.exists_mem_cons_iff, List.exists_mem_cons_iff]
      refine or_congr (agree _ _ _ (List.mem_cons_self ..) hentry) (ih hrest ?_)
      exact fun name entry entry' hmem => agree name entry entry' (List.mem_cons_of_mem _ hmem)

/-- What holds of some entry of a directory, and is the same for relistings of it, holds of some
entry of every relisting of the directory. -/
theorem Relisted.exists_children_iff (h : tree.Relisted tree')
    (agree : ∀ name entry entry', (name, entry) ∈ tree.children → entry.Relisted entry' →
      (P (name, entry) ↔ P' (name, entry'))) :
    (∃ child ∈ tree.children, P child) ↔ ∃ child ∈ tree'.children, P' child := by
  cases h with
  | file => simp [children]
  | directory hentries hperm =>
    refine (hentries.exists_iff agree).trans (exists_congr fun child => ?_)
    exact and_congr_left fun _ => hperm.mem_iff

end Some

/-! ## Following a path -/

theorem RelistedEntries.map_fst_eq (h : RelistedEntries entries between) :
    between.map Prod.fst = entries.map Prod.fst := by
  induction entries generalizing between with
  | nil =>
    cases h
    rfl
  | cons first rest ih =>
    cases h with
    | cons _ hrest => rw [List.map_cons, List.map_cons, ih hrest]

theorem RelistedEntries.rel_lookup (h : RelistedEntries entries between) (name : Name) :
    Option.Rel Relisted (entries.lookup name) (between.lookup name) := by
  induction entries generalizing between with
  | nil =>
    cases h
    exact .none
  | cons first rest ih =>
    cases h with
    | @cons key entry entry' _ _ hentry hrest =>
      rw [List.lookup_cons, List.lookup_cons]
      cases name == key with
      | true => exact .some hentry
      | false => exact ih hrest

theorem lookup_eq_of_perm (h : entries.Perm entries') (nodup : (entries.map Prod.fst).Nodup)
    (name : Name) : entries.lookup name = entries'.lookup name := by
  -- of two entries with one name the first is found, so no two may have the same
  induction h with
  | nil => rfl
  | cons first _ ih =>
    rw [List.map_cons, List.nodup_cons] at nodup
    rw [List.lookup_cons, List.lookup_cons, ih nodup.2]
  | swap first second rest =>
    have hne : second.1 ≠ first.1 := by
      rw [List.map_cons, List.map_cons, List.nodup_cons, List.mem_cons, not_or] at nodup
      exact nodup.1.1
    rw [List.lookup_cons, List.lookup_cons, List.lookup_cons, List.lookup_cons]
    cases hsecond : name == second.1 with
    | true =>
      have hfirst : (name == first.1) = false := by simpa [eq_of_beq hsecond] using hne
      rw [hfirst]
    | false => rfl
  | trans hfirst _ ih ih' =>
    rw [ih nodup, ih' ((hfirst.map Prod.fst).nodup_iff.1 nodup)]

theorem Relisted.rel_lookup (h : tree.Relisted tree') (distinct : tree.HasDistinctNames)
    (name : Name) :
    Option.Rel Relisted (tree.children.lookup name) (tree'.children.lookup name) := by
  cases h with
  | file => exact .none
  | directory hentries hperm =>
    have hnodup := hentries.map_fst_eq ▸ distinct.nodup_children
    exact lookup_eq_of_perm hperm hnodup name ▸ hentries.rel_lookup name

theorem follow_directory (above : List FileTree) (entries : List (Name × FileTree)) (name : Name)
    (rest : List Name) :
    follow above (directory entries) (name :: rest) =
      if name = [] ∨ name = ['.'] then follow above (directory entries) rest
      else if name = ['.', '.'] then
        match above with
        | parent :: further => follow further parent rest
        | [] => follow [] (directory entries) rest
      else
        match entries.lookup name with
        | some child => follow (directory entries :: above) child rest
        | none => .error .nothingAtPath :=
  rfl

/-- The names of a path lead to the same place, if the directories above have been relisted too. -/
theorem rel_follow {above above' : List FileTree}
    (habove : List.Forall₂ (fun tree tree' => tree.HasDistinctNames ∧ tree.Relisted tree')
      above above')
    (h : here.Relisted here') (distinct : here.HasDistinctNames) (names : List Name) :
    Option.Rel Relisted (follow above here names).toOption
      (follow above' here' names).toOption := by
  -- a name may lead back to the directory above, so those are compared as well
  induction names generalizing above above' here here' with
  | nil => exact .some h
  | cons name rest ih =>
    have hlookup := h.rel_lookup distinct name
    cases h with
    | file => exact .none
    | @directory entries between entries' hentries hperm =>
      have h := Relisted.directory hentries hperm
      rw [follow_directory, follow_directory]
      split
      · exact ih habove h distinct
      · split
        · cases habove with
          | nil => exact ih .nil h distinct
          | cons hparent hfurther => exact ih hfurther hparent.2 hparent.1
        · rw [children, children] at hlookup
          generalize hchild : entries.lookup name = child at hlookup ⊢
          generalize entries'.lookup name = child' at hlookup ⊢
          cases hlookup with
          | none => exact .none
          | some hrel => exact ih (.cons ⟨distinct, h⟩ habove) hrel (distinct.of_lookup hchild)

/-- A path leads to the same place in a relisted tree. -/
theorem Relisted.rel_at? (h : tree.Relisted tree') (distinct : tree.HasDistinctNames)
    (path : List Char) : Option.Rel Relisted (tree.at? path) (tree'.at? path) := by
  rw [at?, at?, find, find]
  exact rel_follow .nil h distinct (Path.names path)

/-- A path leads nowhere in both trees, or to a place and a relisting of it. -/
theorem Relisted.at?_cases (h : tree.Relisted tree') (distinct : tree.HasDistinctNames)
    (path : List Char) :
    (tree.at? path = none ∧ tree'.at? path = none) ∨
      ∃ place place', tree.at? path = some place ∧ tree'.at? path = some place' ∧
        place.Relisted place' := by
  have hrel := h.rel_at? distinct path
  generalize tree.at? path = found at hrel ⊢
  generalize tree'.at? path = found' at hrel ⊢
  cases hrel with
  | none => exact .inl ⟨rfl, rfl⟩
  | some hrel => exact .inr ⟨_, _, rfl, rfl, hrel⟩

/-! ## What is found under a path -/

section Found

variable {found found' : Option FileTree}

theorem isSome_eq_of_rel (h : Option.Rel Relisted found found') :
    found.isSome = found'.isSome := by
  cases h <;> rfl

theorem any_eq_of_rel {test : FileTree → Bool} (h : Option.Rel Relisted found found')
    (agree : ∀ {tree tree' : FileTree}, tree.Relisted tree' → test tree = test tree') :
    found.any test = found'.any test := by
  cases h with
  | none => rfl
  | some hrel => exact agree hrel

end Found

theorem Relisted.exists?_eq (h : tree.Relisted tree') (distinct : tree.HasDistinctNames)
    (path : List Char) : tree.exists? path = tree'.exists? path :=
  isSome_eq_of_rel (h.rel_at? distinct path)

theorem Relisted.hasFile_eq (h : tree.Relisted tree') (distinct : tree.HasDistinctNames)
    (path : List Char) : tree.hasFile path = tree'.hasFile path :=
  any_eq_of_rel (h.rel_at? distinct path) Relisted.isFile_eq

theorem Relisted.hasDirectory_eq (h : tree.Relisted tree') (distinct : tree.HasDistinctNames)
    (path : List Char) : tree.hasDirectory path = tree'.hasDirectory path :=
  any_eq_of_rel (h.rel_at? distinct path) Relisted.isDirectory_eq

/-- What holds of some entry of the directory under a path holds of some entry of it in a relisted
tree. -/
theorem Relisted.exists_list_iff {P P' : Name × FileTree → Prop} (h : tree.Relisted tree')
    (distinct : tree.HasDistinctNames) (path : List Char)
    (agree : ∀ name entry entry', entry.Relisted entry' → (P (name, entry) ↔ P' (name, entry'))) :
    (∃ child ∈ tree.list path, P child) ↔ ∃ child ∈ tree'.list path, P' child := by
  rw [list, list]
  rcases h.at?_cases distinct path with ⟨hnone, hnone'⟩ | ⟨place, place', hplace, hplace', hrel⟩
  · simp [hnone, hnone']
  · rw [hplace, hplace']
    exact hrel.exists_children_iff fun name entry entry' _ hentry => agree name entry entry' hentry

end NativeHeader.FileTree
