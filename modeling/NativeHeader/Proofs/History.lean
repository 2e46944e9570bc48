import NativeHeader.Session
import NativeHeader.Proofs.Union

/-!
# The history of a session

What a session leaves behind is told by its steps alone (`leaves_modulesAfter`).  A key is there if
a step put it and no later one removed it.  Its place is that of the step that introduced it: the
first that put it since it was removed last, or since the beginning.  Its value is that of the step
that put it last.  So putting a key again keeps its place and replaces its value, and a key that is
removed and put again goes to the end.

Questions and steps that fail are idle: they leave the modules as they are, so they can be left out
of a session without changing any other answer (`record_lasting`).
-/

namespace NativeHeader.Session

variable {m : Modules} {steps : List Step} {s : Step} {key : String} {i : Nat}

/-! ## Questions -/

/-- A question about the modules. -/
inductive Query where
  | classText (key : String) (name : Option String)
  | declaration (key : String) (index : Nat) (aliasesOf : String)
  | cxxType (text aliasesOf context : String)
  | header

namespace Query

/-- The step that asks a question. -/
def toStep : Query → Step
  | classText key name => .classText key name
  | declaration key index aliasesOf => .declaration key index aliasesOf
  | cxxType text aliasesOf context => .cxxType text aliasesOf context
  | header => .header

/-- What the generator answers to a question about some modules, with nothing else at hand. -/
def answer (modules : Modules) : Query → Except Fault Answer
  | classText key name => do
    let spec ← find modules key
    return .text (← (spec.classText (name.getD "")).result)
  | declaration key index aliasesOf => do
    let method ← method (← find modules key) index
    let owner ← find modules aliasesOf
    return .text (← method.declaration owner.aliases)
  | cxxType text aliasesOf context => do
    let expr ← TypeExpr.load (← Document.read text.toList)
    let owner ← find modules aliasesOf
    return .type (← expr.resolve owner.aliases) (← expr.cxxType owner.aliases context)
  | header => do return .text (← (headerText modules).result)

end Query

/-- The modules and the answer that are left when a step has been performed on some modules. -/
def settle (modules : Modules) : Except Fault (Modules × Answer) → Modules × Except Fault Answer
  | .ok (after, answer) => (after, .ok answer)
  | .error fault => (modules, .error fault)

theorem step_eq (m : Modules) (s : Step) : step m s = settle m (perform m s) := rfl

/-- A question leaves the modules as they are, and its answer depends on nothing else. -/
theorem step_query (m : Modules) (q : Query) : step m q.toStep = (m, q.answer m) := by
  have hperform : perform m q.toStep = q.answer m >>= fun answer => .ok (m, answer) := by
    cases q <;> (simp only [Query.toStep, perform, Query.answer, bind_assoc]; rfl)
  rw [step_eq, hperform]
  cases q.answer m <;> rfl

/-! ## What a step changes -/

/-- The modules that a step puts, by key: those of the schema that it loads, or the one that it
registers.  A text that cannot be read or loaded puts nothing. -/
def Step.puts : Step → Modules
  | .load text =>
    match Document.read text.toList >>= Schema.load with
    | .ok schema => schema.flatten
    | .error _ => .empty
  | .register key name text =>
    match Document.read text.toList >>= ModuleSpec.load name with
    | .ok spec => OrderedMap.empty.put key spec
    | .error _ => .empty
  | _ => .empty

/-- What is there after a step, as the step alone tells: it removes one key or puts some. -/
def Step.change (modules : Modules) : Step → Modules
  | .remove key => modules.erase key
  | s => modules.putAll s.puts

theorem change_of_ne_remove (h : ∀ key, s ≠ .remove key) (m : Modules) :
    s.change m = m.putAll s.puts := by
  cases s with
  | remove key => exact absurd rfl (h key)
  | _ => rfl

theorem find_eq_error {fault : Fault} (h : find m key = .error fault) : key ∉ m.keys := by
  unfold find at h
  split at h
  · cases h
  · next hnone => exact OrderedMap.get?_eq_none_iff.1 hnone

/-- The modules after a step are what it changes, whether it fails or not. -/
theorem step_fst (m : Modules) (s : Step) : (step m s).1 = s.change m := by
  cases s with
  | load text =>
    have hperform : perform m (.load text) = (Document.read text.toList >>= Schema.load) >>=
        fun schema => .ok (m.putAll schema.flatten, .modules (m.putAll schema.flatten)) := by
      rw [bind_assoc]
      rfl
    rw [step_eq, hperform]
    unfold Step.change Step.puts
    dsimp only
    cases Document.read text.toList >>= Schema.load <;> rfl
  | register key name text =>
    have hperform : perform m (.register key name text) =
        (Document.read text.toList >>= ModuleSpec.load name) >>=
          fun spec => .ok (m.put key spec, .modules (m.put key spec)) := by
      rw [bind_assoc]
      rfl
    rw [step_eq, hperform]
    unfold Step.change Step.puts
    dsimp only
    cases Document.read text.toList >>= ModuleSpec.load name <;> rfl
  | remove key =>
    have hperform : perform m (.remove key) =
        find m key >>= fun _ => .ok (m.erase key, .modules (m.erase key)) := rfl
    rw [step_eq, hperform]
    cases hfind : find m key with
    | error fault => exact (OrderedMap.erase_of_notMem (find_eq_error hfind)).symm
    | ok spec => rfl
  | classText key name => exact congrArg Prod.fst (step_query m (.classText key name))
  | declaration key index aliasesOf =>
    exact congrArg Prod.fst (step_query m (.declaration key index aliasesOf))
  | cxxType text aliasesOf context =>
    exact congrArg Prod.fst (step_query m (.cxxType text aliasesOf context))
  | header => exact congrArg Prod.fst (step_query m .header)

/-- A step that fails leaves the modules as they are. -/
theorem fst_of_failing {fault : Fault} (h : (step m s).2 = .error fault) : (step m s).1 = m := by
  rw [step_eq] at h ⊢
  cases hperform : perform m s with
  | error fault => rfl
  | ok done =>
    rw [hperform] at h
    cases h

/-! ## Histories -/

theorem getElem?_append_singleton {before : List Step} {found : Step} :
    (before ++ [s])[i]? = some found ↔
      before[i]? = some found ∨ i = before.length ∧ s = found := by
  rcases Nat.lt_trichotomy i before.length with hlt | rfl | hgt
  · rw [List.getElem?_append_left hlt]
    simp [Nat.ne_of_lt hlt]
  · simp
  · rw [List.getElem?_eq_none (by simp; omega), List.getElem?_eq_none (by omega)]
    simp [Nat.ne_of_gt hgt]

/-- The step at a place puts a module under the key. -/
def PutAt (steps : List Step) (key : String) (i : Nat) : Prop :=
  ∃ s, steps[i]? = some s ∧ key ∈ s.puts.keys

/-- The step at a place is to remove the key. -/
def RemovedAt (steps : List Step) (key : String) (i : Nat) : Prop :=
  steps[i]? = some (.remove key)

theorem putAt_append :
    PutAt (steps ++ [s]) key i ↔ PutAt steps key i ∨ i = steps.length ∧ key ∈ s.puts.keys := by
  unfold PutAt
  constructor
  · rintro ⟨found, hfound, hkey⟩
    rcases getElem?_append_singleton.1 hfound with hfound | ⟨rfl, rfl⟩
    · exact .inl ⟨found, hfound, hkey⟩
    · exact .inr ⟨rfl, hkey⟩
  · rintro (⟨found, hfound, hkey⟩ | ⟨rfl, hkey⟩)
    · exact ⟨found, getElem?_append_singleton.2 (.inl hfound), hkey⟩
    · exact ⟨s, getElem?_append_singleton.2 (.inr ⟨rfl, rfl⟩), hkey⟩

theorem removedAt_append :
    RemovedAt (steps ++ [s]) key i ↔
      RemovedAt steps key i ∨ i = steps.length ∧ s = .remove key :=
  getElem?_append_singleton

theorem PutAt.lt (h : PutAt steps key i) : i < steps.length := by
  obtain ⟨s, hs, -⟩ := h
  exact (List.getElem?_eq_some_iff.1 hs).1

theorem RemovedAt.lt (h : RemovedAt steps key i) : i < steps.length :=
  (List.getElem?_eq_some_iff.1 h).1

theorem PutAt.not_removedAt (h : PutAt steps key i) : ¬ RemovedAt steps key i := by
  intro hremoved
  obtain ⟨s, hs, hkey⟩ := h
  obtain rfl := Option.some.inj (hs.symm.trans hremoved)
  cases hkey

/-- The step at a place puts the key, and no later one removes it. -/
structure StandsFrom (steps : List Step) (key : String) (i : Nat) : Prop where
  put : PutAt steps key i
  kept : ∀ j, RemovedAt steps key j → j < i

/-- The step at a place introduces the key: it puts it, no later step removes it, and whatever put
it before was followed by a removal. -/
structure IntroducedAt (steps : List Step) (key : String) (i : Nat) : Prop where
  stands : StandsFrom steps key i
  fresh : ∀ j < i, PutAt steps key j → ∃ l, j < l ∧ l < i ∧ RemovedAt steps key l

/-- The step at a place is the last that puts the key, and no later one removes it. -/
structure LastPutAt (steps : List Step) (key : String) (i : Nat) : Prop where
  stands : StandsFrom steps key i
  last : ∀ j, PutAt steps key j → j ≤ i

theorem PutAt.exists_removedAt (h : PutAt steps key i) (hgone : ¬ StandsFrom steps key i) :
    ∃ l, i < l ∧ RemovedAt steps key l := by
  by_contra hnone
  refine hgone ⟨h, fun j hj => ?_⟩
  have hne : j ≠ i := fun e => h.not_removedAt (e ▸ hj)
  have hle : ¬ i < j := fun hlt => hnone ⟨j, hlt, hj⟩
  omega

/-- A key that stands was introduced: by the first step from which on it stands. -/
theorem exists_introducedAt_iff :
    (∃ i, IntroducedAt steps key i) ↔ ∃ i, StandsFrom steps key i := by
  constructor
  · rintro ⟨i, h⟩
    exact ⟨i, h.stands⟩
  · rintro ⟨i, h⟩
    induction i using Nat.strongRecOn with
    | ind i ih =>
      by_cases hearlier : ∃ j, j < i ∧ StandsFrom steps key j
      · obtain ⟨j, hlt, hj⟩ := hearlier
        exact ih j hlt hj
      · refine ⟨i, h, fun j hlt hput => ?_⟩
        obtain ⟨l, hl, hremoved⟩ :=
          hput.exists_removedAt fun hstands => hearlier ⟨j, hlt, hstands⟩
        exact ⟨l, hl, h.kept l hremoved, hremoved⟩

/-! ## One more step -/

theorem standsFrom_append (h : s ≠ .remove key) :
    StandsFrom (steps ++ [s]) key i ↔
      StandsFrom steps key i ∨ i = steps.length ∧ key ∈ s.puts.keys := by
  constructor
  · rintro ⟨hput, hkept⟩
    have hkept : ∀ j, RemovedAt steps key j → j < i :=
      fun j hj => hkept j (removedAt_append.2 (.inl hj))
    exact (putAt_append.1 hput).imp (fun hput => ⟨hput, hkept⟩) id
  · intro hstands
    have hremoved : ∀ j, RemovedAt (steps ++ [s]) key j → RemovedAt steps key j :=
      fun j hj => (removedAt_append.1 hj).resolve_right fun hlast => h hlast.2
    rcases hstands with ⟨hput, hkept⟩ | ⟨rfl, hkey⟩
    · exact ⟨putAt_append.2 (.inl hput), fun j hj => hkept j (hremoved j hj)⟩
    · exact ⟨putAt_append.2 (.inr ⟨rfl, hkey⟩), fun j hj => (hremoved j hj).lt⟩

theorem not_standsFrom_remove : ¬ StandsFrom (steps ++ [.remove key]) key i := by
  rintro ⟨hput, hkept⟩
  have hlt := hkept steps.length (removedAt_append.2 (.inr ⟨rfl, rfl⟩))
  have hle := hput.lt
  rw [List.length_append, List.length_singleton] at hle
  omega

/-- One more step introduces what it puts and what does not stand yet. -/
theorem introducedAt_append (h : s ≠ .remove key) :
    IntroducedAt (steps ++ [s]) key i ↔
      IntroducedAt steps key i ∨
        i = steps.length ∧ key ∈ s.puts.keys ∧ ∀ j, ¬ StandsFrom steps key j := by
  constructor
  · rintro ⟨hstands, hfresh⟩
    have hfresh : ∀ j < i, PutAt steps key j → ∃ l, j < l ∧ l < i ∧ RemovedAt steps key l := by
      intro j hlt hput
      obtain ⟨l, hl, hli, hremoved⟩ := hfresh j hlt (putAt_append.2 (.inl hput))
      exact ⟨l, hl, hli, (removedAt_append.1 hremoved).resolve_right fun hlast => h hlast.2⟩
    rcases (standsFrom_append h).1 hstands with hstands | ⟨rfl, hkey⟩
    · exact .inl ⟨hstands, hfresh⟩
    · refine .inr ⟨rfl, hkey, fun j hj => ?_⟩
      obtain ⟨l, hl, -, hremoved⟩ := hfresh j hj.put.lt hj.put
      exact absurd (hj.kept l hremoved) (by omega)
  · rintro (⟨hstands, hfresh⟩ | ⟨rfl, hkey, hgone⟩)
    · refine ⟨(standsFrom_append h).2 (.inl hstands), fun j hlt hput => ?_⟩
      have hi := hstands.put.lt
      obtain ⟨l, hl, hli, hremoved⟩ :=
        hfresh j hlt ((putAt_append.1 hput).resolve_right fun hlast => by omega)
      exact ⟨l, hl, hli, removedAt_append.2 (.inl hremoved)⟩
    · refine ⟨(standsFrom_append h).2 (.inr ⟨rfl, hkey⟩), fun j hlt hput => ?_⟩
      have hput : PutAt steps key j :=
        (putAt_append.1 hput).resolve_right fun hlast => by omega
      obtain ⟨l, hl, hremoved⟩ := hput.exists_removedAt (hgone j)
      exact ⟨l, hl, hremoved.lt, removedAt_append.2 (.inl hremoved)⟩

/-- A key is introduced by then if it was before, or if the step puts it. -/
theorem exists_introducedAt_append (h : s ≠ .remove key) :
    (∃ i, IntroducedAt (steps ++ [s]) key i) ↔
      (∃ i, IntroducedAt steps key i) ∨ key ∈ s.puts.keys := by
  rw [exists_introducedAt_iff, exists_introducedAt_iff]
  simp only [standsFrom_append h]
  constructor
  · rintro ⟨i, hi | ⟨-, hkey⟩⟩
    · exact .inl ⟨i, hi⟩
    · exact .inr hkey
  · rintro (⟨i, hi⟩ | hkey)
    · exact ⟨i, .inl hi⟩
    · exact ⟨steps.length, .inr ⟨rfl, hkey⟩⟩

theorem lastPutAt_append_of_put (h : s ≠ .remove key) (hkey : key ∈ s.puts.keys) :
    LastPutAt (steps ++ [s]) key steps.length := by
  refine ⟨(standsFrom_append h).2 (.inr ⟨rfl, hkey⟩), fun j hj => ?_⟩
  have hlt := hj.lt
  rw [List.length_append, List.length_singleton] at hlt
  omega

theorem LastPutAt.append (hlast : LastPutAt steps key i) (h : s ≠ .remove key)
    (hkey : key ∉ s.puts.keys) : LastPutAt (steps ++ [s]) key i :=
  ⟨(standsFrom_append h).2 (.inl hlast.stands),
    fun j hj => hlast.last j ((putAt_append.1 hj).resolve_right fun hput => hkey hput.2)⟩

/-! ## What a history leaves -/

/-- One key was introduced before another: by an earlier step, or by the same step, which puts it
first. -/
def Before (steps : List Step) (key next : String) : Prop :=
  ∃ i j, IntroducedAt steps key i ∧ IntroducedAt steps next j ∧
    (i < j ∨ i = j ∧ ∃ s, steps[i]? = some s ∧
      s.puts.keys.idxOf key < s.puts.keys.idxOf next)

theorem Before.append {next : String} (h : Before steps key next) (hkey : s ≠ .remove key)
    (hnext : s ≠ .remove next) : Before (steps ++ [s]) key next := by
  obtain ⟨i, j, hi, hj, horder⟩ := h
  refine ⟨i, j, (introducedAt_append hkey).2 (.inl hi), (introducedAt_append hnext).2 (.inl hj), ?_⟩
  refine horder.imp_right fun ⟨heq, found, hfound, hlt⟩ => ⟨heq, found, ?_, hlt⟩
  exact getElem?_append_singleton.2 (.inl hfound)

/-- What some steps leave, told by the steps alone. -/
structure Leaves (steps : List Step) (m : Modules) : Prop where
  /-- A key is there if a step introduced it and no later one removed it. -/
  present : ∀ key, key ∈ m.keys ↔ ∃ i, IntroducedAt steps key i
  /-- The keys stand in the order in which they were introduced. -/
  ordered : m.keys.Pairwise (Before steps)
  /-- Each has the value that was put last. -/
  valued : ∀ key spec, m.get? key = some spec →
    ∃ i s, LastPutAt steps key i ∧ steps[i]? = some s ∧ s.puts.get? key = some spec

theorem leaves_nil : Leaves [] .empty := by
  refine ⟨fun key => ?_, .nil, fun key spec h => ?_⟩
  · constructor
    · exact nofun
    · rintro ⟨i, h⟩
      exact absurd h.stands.put.lt (Nat.not_lt_zero i)
  · cases h

theorem Leaves.remove (h : Leaves steps m) (key : String) :
    Leaves (steps ++ [.remove key]) (m.erase key) := by
  have hother : ∀ {other : String}, other ≠ key → Step.remove key ≠ .remove other :=
    fun ne e => ne (Step.remove.inj e).symm
  refine ⟨fun other => ?_, ?_, fun other spec hget => ?_⟩
  · rw [OrderedMap.mem_keys_erase, h.present other]
    by_cases hkey : other = key
    · subst hkey
      constructor
      · exact fun hkeys => absurd rfl hkeys.2
      · rintro ⟨i, hi⟩
        exact absurd hi.stands not_standsFrom_remove
    · rw [exists_introducedAt_append (hother hkey), or_iff_left nofun, and_iff_left hkey]
  · have hkept := h.ordered.sublist (OrderedMap.keys_erase m key ▸ List.filter_sublist)
    refine hkept.imp_of_mem fun {first next} hfirst hnext hbefore => ?_
    exact hbefore.append (hother (OrderedMap.mem_keys_erase.1 hfirst).2)
      (hother (OrderedMap.mem_keys_erase.1 hnext).2)
  · have hkey : other ≠ key := by
      rintro rfl
      rw [OrderedMap.get?_erase_self] at hget
      cases hget
    rw [OrderedMap.get?_erase_of_ne m hkey] at hget
    obtain ⟨i, s, hlast, hs, hspec⟩ := h.valued other spec hget
    exact ⟨i, s, hlast.append (hother hkey) nofun, getElem?_append_singleton.2 (.inl hs), hspec⟩

/-- Keys that a step puts stand in the order in which it puts them. -/
theorem puts_ordered (s : Step) :
    s.puts.keys.Pairwise fun key next => s.puts.keys.idxOf key < s.puts.keys.idxOf next := by
  have h := OrderedMap.keys_ofList_pairwise s.puts.entries
  rwa [OrderedMap.ofList_entries] at h

theorem Leaves.put (h : Leaves steps m) (hput : ∀ key, s ≠ .remove key) :
    Leaves (steps ++ [s]) (m.putAll s.puts) := by
  have hintroduced : ∀ {key : String}, key ∈ s.puts.keys → key ∉ m.keys →
      IntroducedAt (steps ++ [s]) key steps.length := by
    intro key hkey hnew
    rw [h.present key, exists_introducedAt_iff, not_exists] at hnew
    exact (introducedAt_append (hput key)).2 (.inr ⟨rfl, hkey, hnew⟩)
  refine ⟨fun key => ?_, ?_, fun key spec hget => ?_⟩
  · rw [exists_introducedAt_append (hput key), ← h.present key]
    exact OrderedMap.mem_keys_putList s.puts.entries
  · rw [OrderedMap.keys_putAll, List.pairwise_append]
    refine ⟨h.ordered.imp fun hbefore => hbefore.append (hput _) (hput _), ?_, ?_⟩
    · -- what the step introduces, it introduces in its own order
      refine ((puts_ordered s).sublist List.filter_sublist).imp_of_mem
        fun {key next} hkey hnext hlt => ?_
      rw [List.mem_filter, decide_eq_true_eq] at hkey hnext
      exact ⟨_, _, hintroduced hkey.1 hkey.2, hintroduced hnext.1 hnext.2,
        .inr ⟨rfl, s, getElem?_append_singleton.2 (.inr ⟨rfl, rfl⟩), hlt⟩⟩
    · intro key hkey next hnext
      rw [List.mem_filter, decide_eq_true_eq] at hnext
      obtain ⟨i, hi⟩ := (h.present key).1 hkey
      exact ⟨i, _, (introducedAt_append (hput key)).2 (.inl hi), hintroduced hnext.1 hnext.2,
        .inl hi.stands.put.lt⟩
  · rw [OrderedMap.get?_putAll] at hget
    by_cases hkey : key ∈ s.puts.keys
    · refine ⟨steps.length, s, lastPutAt_append_of_put (hput key) hkey,
        getElem?_append_singleton.2 (.inr ⟨rfl, rfl⟩), ?_⟩
      cases hspec : s.puts.get? key with
      | none => exact absurd hkey (OrderedMap.get?_eq_none_iff.1 hspec)
      | some found =>
        rw [hspec] at hget
        exact hget
    · rw [OrderedMap.get?_eq_none_iff.2 hkey, Option.none_or] at hget
      obtain ⟨i, found, hlast, hfound, hspec⟩ := h.valued key spec hget
      exact ⟨i, found, hlast.append (hput key) hkey, getElem?_append_singleton.2 (.inl hfound),
        hspec⟩

/-- One more step leaves what the longer history tells. -/
theorem Leaves.step (h : Leaves steps m) (s : Step) : Leaves (steps ++ [s]) (step m s).1 := by
  rw [step_fst]
  by_cases hremove : ∃ key, s = .remove key
  · obtain ⟨key, rfl⟩ := hremove
    exact h.remove key
  · rw [not_exists] at hremove
    rw [change_of_ne_remove hremove]
    exact h.put hremove

/-! ## Whole sessions -/

theorem run_cons (m : Modules) (s : Step) (rest : List Step) :
    run m (s :: rest) =
      ((run (step m s).1 rest).1, (step m s).2 :: (run (step m s).1 rest).2) := rfl

theorem run_append (m : Modules) (first second : List Step) :
    run m (first ++ second) =
      ((run (run m first).1 second).1, (run m first).2 ++ (run (run m first).1 second).2) := by
  induction first generalizing m with
  | nil => rfl
  | cons s rest ih =>
    rw [List.cons_append, run_cons, ih, run_cons]
    rfl

/-- The modules after some steps, from the beginning. -/
def modulesAfter (steps : List Step) : Modules := (run .empty steps).1

theorem modulesAfter_append (steps : List Step) (s : Step) :
    modulesAfter (steps ++ [s]) = (step (modulesAfter steps) s).1 := by
  rw [modulesAfter, run_append]
  rfl

theorem leaves_modulesAfter (steps : List Step) : Leaves steps (modulesAfter steps) := by
  induction steps using List.reverseRecOn with
  | nil => exact leaves_nil
  | append_singleton before s ih =>
    rw [modulesAfter_append]
    exact ih.step s

theorem modulesAfter_take_succ (h : steps[i]? = some s) :
    modulesAfter (steps.take (i + 1)) = (step (modulesAfter (steps.take i)) s).1 := by
  rw [List.take_add_one, h]
  exact modulesAfter_append _ s

/-- The answer to a step is given over the modules that the steps before it leave. -/
theorem answer_at (h : steps[i]? = some s) :
    (run .empty steps).2[i]? = some (step (modulesAfter (steps.take i)) s).2 := by
  have hgeneral : ∀ (steps : List Step) (i : Nat) (m : Modules), steps[i]? = some s →
      (run m steps).2[i]? = some (step (run m (steps.take i)).1 s).2 := by
    intro steps
    induction steps with
    | nil => exact nofun
    | cons first rest ih =>
      intro i m h
      cases i with
      | zero =>
        obtain rfl := Option.some.inj h
        rfl
      | succ i => exact ih i _ h
  exact hgeneral steps i .empty h

/-! ## Idle steps -/

/-- Whether a step asks a question. -/
def Step.asks : Step → Bool
  | .load _ => false
  | .register .. => false
  | .remove _ => false
  | _ => true

theorem asks_iff : s.asks = true ↔ ∃ q : Query, s = q.toStep := by
  constructor
  · intro h
    cases s with
    | load text => cases h
    | register key name text => cases h
    | remove key => cases h
    | classText key name => exact ⟨.classText key name, rfl⟩
    | declaration key index aliasesOf => exact ⟨.declaration key index aliasesOf, rfl⟩
    | cxxType text aliasesOf context => exact ⟨.cxxType text aliasesOf context, rfl⟩
    | header => exact ⟨.header, rfl⟩
  · rintro ⟨q, rfl⟩
    cases q <;> rfl

/-- Whether a step with its answer is idle: it asks a question, or it has failed. -/
def isIdle (done : Step × Except Fault Answer) : Bool := done.1.asks || !done.2.isOk

/-- An idle step leaves the modules as they are. -/
theorem fst_of_idle (h : isIdle (s, (step m s).2) = true) : (step m s).1 = m := by
  rcases Bool.or_eq_true_iff.1 h with hasks | hfailed
  · obtain ⟨q, rfl⟩ := asks_iff.1 hasks
    rw [step_query]
  · cases hanswer : (step m s).2 with
    | error fault => exact fst_of_failing hanswer
    | ok answer =>
      rw [hanswer] at hfailed
      cases hfailed

/-- The steps of a session, each with its answer. -/
def record (m : Modules) (steps : List Step) : List (Step × Except Fault Answer) :=
  steps.zip (run m steps).2

theorem record_cons (m : Modules) (s : Step) (rest : List Step) :
    record m (s :: rest) = (s, (step m s).2) :: record (step m s).1 rest := rfl

theorem record_append (m : Modules) (first second : List Step) :
    record m (first ++ second) = record m first ++ record (run m first).1 second := by
  induction first generalizing m with
  | nil => rfl
  | cons s rest ih =>
    rw [List.cons_append, record_cons, ih, record_cons]
    rfl

theorem length_record (m : Modules) (steps : List Step) :
    (record m steps).length = steps.length := by
  induction steps generalizing m with
  | nil => rfl
  | cons s rest ih => rw [record_cons, List.length_cons, ih, List.length_cons]

/-- The steps of a session that are not idle. -/
def lasting (m : Modules) (steps : List Step) : List Step :=
  ((record m steps).filter (!isIdle ·)).map Prod.fst

/-- Without the idle steps a session goes on alike. -/
theorem record_lasting (m : Modules) (steps : List Step) :
    record m (lasting m steps) = (record m steps).filter (!isIdle ·) ∧
      (run m (lasting m steps)).1 = (run m steps).1 := by
  induction steps generalizing m with
  | nil => exact ⟨rfl, rfl⟩
  | cons s rest ih =>
    obtain ⟨hrecord, hrun⟩ := ih (step m s).1
    cases hidle : isIdle (s, (step m s).2) with
    | true =>
      have hlasting : lasting m (s :: rest) = lasting (step m s).1 rest := by
        rw [lasting, record_cons, List.filter_cons_of_neg (by simp [hidle])]
        rfl
      rw [fst_of_idle hidle] at hlasting hrecord hrun
      rw [hlasting, record_cons, List.filter_cons_of_neg (by simp [hidle]), run_cons,
        fst_of_idle hidle]
      exact ⟨hrecord, hrun⟩
    | false =>
      have hlasting : lasting m (s :: rest) = s :: lasting (step m s).1 rest := by
        rw [lasting, record_cons, List.filter_cons_of_pos (by simp [hidle])]
        rfl
      rw [hlasting, record_cons, record_cons, List.filter_cons_of_pos (by simp [hidle]), run_cons,
        run_cons, hrecord]
      exact ⟨rfl, hrun⟩

/-- The laws of a session that starts without modules.  Its keys are different, and each stands
where it was introduced last, with the value that was put last (`Leaves`).  A step that puts modules
keeps the keys in their places and replaces the values.  Steps that fail and questions leave the
modules as they are.  A question is answered as the generator answers it over the modules of the
moment.  And if all idle steps are left out, the others have the same answers, and so have all steps
that come later. -/
theorem session_laws (steps : List Step) :
    (modulesAfter steps).keys.Nodup ∧
    Leaves steps (modulesAfter steps) ∧
    (∀ i s, steps[i]? = some s → (∀ key, s ≠ .remove key) →
      (modulesAfter (steps.take i)).keys <+: (modulesAfter (steps.take (i + 1))).keys ∧
        ∀ key spec, s.puts.get? key = some spec →
          (modulesAfter (steps.take (i + 1))).get? key = some spec) ∧
    (∀ i s, steps[i]? = some s →
      (∃ q : Query, s = q.toStep) ∨ (∃ fault, (run .empty steps).2[i]? = some (.error fault)) →
        modulesAfter (steps.take (i + 1)) = modulesAfter (steps.take i)) ∧
    (∀ i, ∀ q : Query, steps[i]? = some q.toStep →
      (run .empty steps).2[i]? = some (q.answer (modulesAfter (steps.take i)))) ∧
    ∀ later, record .empty (lasting .empty steps ++ later) =
      (record .empty steps).filter (!isIdle ·) ++
        (record .empty (steps ++ later)).drop steps.length := by
  refine ⟨OrderedMap.nodup_keys _, leaves_modulesAfter steps, fun i s hs hput => ?_,
    fun i s hs hidle => ?_, fun i q hq => ?_, fun later => ?_⟩
  · rw [modulesAfter_take_succ hs, step_fst, change_of_ne_remove hput, OrderedMap.keys_putAll]
    refine ⟨List.prefix_append .., fun key spec hspec => ?_⟩
    rw [OrderedMap.get?_putAll, hspec]
    rfl
  · rw [modulesAfter_take_succ hs]
    rcases hidle with ⟨q, rfl⟩ | ⟨fault, hfault⟩
    · rw [step_query]
    · rw [answer_at hs] at hfault
      exact fst_of_failing (Option.some.inj hfault)
  · rw [answer_at hq, step_query]
  · obtain ⟨hrecord, hrun⟩ := record_lasting .empty steps
    rw [record_append, record_append, hrecord, hrun, ← length_record .empty steps,
      List.drop_left]

/-- A session that puts two modules, removes the first, and puts it again; then it fails to remove a
third, and asks for the header. -/
def sampleSession : List Step :=
  [.register "First" "First" "\x7b\"properties\": []\x7d",
    .register "Second" "Second" "\x7b\"properties\": []\x7d",
    .remove "First",
    .register "First" "Again" "\x7b\"properties\": []\x7d",
    .remove "Third",
    .header]

theorem sampleSession_laws :
    (modulesAfter sampleSession).keys = ["Second", "First"] ∧
      (run .empty sampleSession).2[5]? =
        some (Query.header.answer (modulesAfter (sampleSession.take 5))) := by
  obtain ⟨-, -, -, hidle, hquery, -⟩ := session_laws sampleSession
  have hkeys : (modulesAfter (sampleSession.take 4)).keys = ["Second", "First"] := by
    decide +kernel
  have hfind : find (modulesAfter (sampleSession.take 4)) "Third" =
      .error (.missingKey "Third") := by
    rw [find, OrderedMap.get?_eq_none_iff.2 (by rw [hkeys]; decide)]
  have hfails : (run .empty sampleSession).2[4]? = some (.error (.missingKey "Third")) := by
    have hstep : sampleSession[4]? = some (.remove "Third") := rfl
    rw [answer_at hstep, step_eq, perform, hfind]
    rfl
  have hheader : modulesAfter (sampleSession.take 6) = modulesAfter (sampleSession.take 5) :=
    hidle 5 .header rfl (.inl ⟨.header, rfl⟩)
  have hremove : modulesAfter (sampleSession.take 5) = modulesAfter (sampleSession.take 4) :=
    hidle 4 (.remove "Third") rfl (.inr ⟨_, hfails⟩)
  refine ⟨?_, hquery 5 .header rfl⟩
  show (modulesAfter (sampleSession.take 6)).keys = _
  rw [hheader, hremove, hkeys]

end NativeHeader.Session
