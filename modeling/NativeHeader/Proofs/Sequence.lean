import Mathlib.Data.List.Forall2

/-!
# Going through lists until something fails

Loading a schema and writing a header both go through lists and end at the first fault.  Here is
what such a walk gives: a list of results, one for each item (`mapM_eq_ok_iff`), or the fault of the
first item that has one (`fault?_mapM`).  The image form `mapM_eq_ok_iff_exists` is for walks whose
results are the texts of some described things: then the walk gives the texts of a list of things
that describe the items one by one.
-/

namespace NativeHeader

variable {ε α β γ δ : Type}

/-! ## Results -/

theorem bind_eq_ok_iff {x : Except ε α} {f : α → Except ε β} {b : β} :
    x >>= f = .ok b ↔ ∃ a, x = .ok a ∧ f a = .ok b := by
  cases x with
  | error e => simp [bind, Except.bind]
  | ok a => simp [bind, Except.bind]

theorem bind_eq_error_iff {x : Except ε α} {f : α → Except ε β} {e : ε} :
    x >>= f = .error e ↔ x = .error e ∨ ∃ a, x = .ok a ∧ f a = .error e := by
  cases x with
  | error e' => simp [bind, Except.bind]
  | ok a => simp [bind, Except.bind]

theorem map_eq_ok_iff {x : Except ε α} {f : α → β} {b : β} :
    f <$> x = .ok b ↔ ∃ a, x = .ok a ∧ f a = b := by
  cases x with
  | error e => simp [Functor.map, Except.map]
  | ok a => simp [Functor.map, Except.map]

theorem mapM_eq_ok_iff {f : α → Except ε β} {xs : List α} {ys : List β} :
    xs.mapM f = .ok ys ↔ List.Forall₂ (fun x y => f x = .ok y) xs ys := by
  induction xs generalizing ys with
  | nil =>
    rw [List.mapM_nil, List.forall₂_nil_left_iff]
    exact ⟨fun h => (Except.ok.inj h).symm, fun h => h ▸ rfl⟩
  | cons x rest ih =>
    rw [List.mapM_cons, bind_eq_ok_iff, List.forall₂_cons_left_iff]
    constructor
    · rintro ⟨y, hy, h⟩
      obtain ⟨others, hothers, h⟩ := bind_eq_ok_iff.1 h
      exact ⟨y, others, hy, ih.1 hothers, (Except.ok.inj h).symm⟩
    · rintro ⟨y, others, hy, hothers, rfl⟩
      exact ⟨y, hy, bind_eq_ok_iff.2 ⟨others, ih.2 hothers, rfl⟩⟩

/-- Some list is related to a list, item by item, exactly if each item is related to something. -/
theorem exists_forall₂_iff {R : α → β → Prop} {xs : List α} :
    (∃ ys, List.Forall₂ R xs ys) ↔ ∀ x ∈ xs, ∃ y, R x y := by
  induction xs with
  | nil => simp
  | cons x rest ih =>
    simp only [List.forall₂_cons_left_iff, List.forall_mem_cons, ← ih]
    constructor
    · rintro ⟨ys, y, others, hy, hothers, -⟩
      exact ⟨⟨y, hy⟩, others, hothers⟩
    · rintro ⟨⟨y, hy⟩, others, hothers⟩
      exact ⟨y :: others, y, others, hy, hothers, rfl⟩

/-- What the items of a list pass on to what they are related to. -/
theorem forall_mem_of_forall₂ {R : α → β → Prop} {P : α → Prop} {Q : β → Prop} {xs : List α}
    {ys : List β} (hpass : ∀ x y, P x → R x y → Q y) (h : List.Forall₂ R xs ys)
    (hxs : ∀ x ∈ xs, P x) : ∀ y ∈ ys, Q y := by
  induction h with
  | nil => exact fun y hy => nomatch hy
  | cons hxy _ ih =>
    rw [List.forall_mem_cons] at hxs ⊢
    exact ⟨hpass _ _ hxs.1 hxy, ih hxs.2⟩

/-- Two lists look the same exactly if they do item by item. -/
theorem map_eq_map_iff_forall₂ {f : α → γ} {g : β → γ} {xs : List α} {ys : List β} :
    xs.map f = ys.map g ↔ List.Forall₂ (fun x y => f x = g y) xs ys := by
  rw [← List.forall₂_eq_eq_eq, List.forall₂_map_left_iff, List.forall₂_map_right_iff]

/-- Two walks give the same if they do item by item. -/
theorem mapM_eq_mapM {f : α → Except ε γ} {g : β → Except ε γ} {xs : List α} {ys : List β}
    (h : List.Forall₂ (fun x y => f x = g y) xs ys) : xs.mapM f = ys.mapM g := by
  have hwalk : (xs.map f).mapM id = (ys.map g).mapM id := by rw [map_eq_map_iff_forall₂.2 h]
  rwa [List.mapM_map, List.mapM_map] at hwalk

theorem forall₂_exists_iff {R : α → γ → Prop} {text : γ → β} {xs : List α} {ys : List β} :
    List.Forall₂ (fun x y => ∃ thing, R x thing ∧ y = text thing) xs ys ↔
      ∃ things, List.Forall₂ R xs things ∧ ys = things.map text := by
  induction xs generalizing ys with
  | nil => simp
  | cons x rest ih =>
    simp only [List.forall₂_cons_left_iff, ih]
    constructor
    · rintro ⟨y, others, ⟨thing, hthing, rfl⟩, ⟨things, hthings, rfl⟩, rfl⟩
      exact ⟨thing :: things, ⟨thing, things, hthing, hthings, rfl⟩, rfl⟩
    · rintro ⟨_, ⟨thing, things, hthing, hthings, rfl⟩, rfl⟩
      exact ⟨text thing, things.map text, ⟨thing, hthing, rfl⟩, ⟨things, hthings, rfl⟩, rfl⟩

/-- A walk whose results are texts gives the texts of things that describe what is seen of the
items. -/
theorem mapM_eq_ok_iff_exists {f : α → Except ε β} {view : α → δ} {R : δ → γ → Prop} {text : γ → β}
    (h : ∀ x y, f x = .ok y ↔ ∃ thing, R (view x) thing ∧ y = text thing) {xs : List α}
    {ys : List β} :
    xs.mapM f = .ok ys ↔
      ∃ things, List.Forall₂ R (xs.map view) things ∧ ys = things.map text := by
  simp only [mapM_eq_ok_iff, h, List.forall₂_map_left_iff]
  exact forall₂_exists_iff

/-- If each result looks as its item does, the results of a walk look as the items do. -/
theorem map_eq_of_mapM_eq_ok {f : α → Except ε β} {look : β → γ} {view : α → γ} {xs : List α}
    {ys : List β} (hf : ∀ x ∈ xs, ∀ y, f x = .ok y → look y = view x) (h : xs.mapM f = .ok ys) :
    ys.map look = xs.map view := by
  have hall := mapM_eq_ok_iff.1 h
  induction hall with
  | nil => rfl
  | @cons x y rest others hy _ ih =>
    rw [List.map_cons, List.map_cons, hf x (List.mem_cons_self ..) y hy,
      ih (fun z hz => hf z (List.mem_cons_of_mem _ hz)) (mapM_eq_ok_iff.2 ‹_›)]

theorem length_of_mapM_eq_ok {f : α → Except ε β} {xs : List α} {ys : List β}
    (h : xs.mapM f = .ok ys) : ys.length = xs.length :=
  (mapM_eq_ok_iff.1 h).length_eq.symm

/-- The results of a walk are the results of the items. -/
theorem mem_iff_of_mapM_eq_ok {f : α → Except ε β} {xs : List α} {ys : List β}
    (h : xs.mapM f = .ok ys) {y : β} : y ∈ ys ↔ ∃ x ∈ xs, f x = .ok y := by
  have hall := mapM_eq_ok_iff.1 h
  clear h
  induction hall with
  | nil => simp
  | @cons x first rest others hfirst _ ih =>
    have hhead : y = first ↔ f x = .ok y := by rw [hfirst, Except.ok.injEq, eq_comm]
    simp only [List.mem_cons, ih, hhead, or_and_right, exists_or, exists_eq_left]

theorem mapM_append_eq_ok_iff {f : α → Except ε β} {xs ys : List α} {zs : List β} :
    (xs ++ ys).mapM f = .ok zs ↔
      ∃ first second, xs.mapM f = .ok first ∧ ys.mapM f = .ok second ∧ zs = first ++ second := by
  rw [List.mapM_append, bind_eq_ok_iff]
  refine exists_congr fun first => ?_
  rw [exists_and_left]
  refine and_congr_right fun _ => ?_
  rw [bind_eq_ok_iff]
  refine exists_congr fun second => and_congr_right fun _ => ?_
  exact ⟨fun h => (Except.ok.inj h).symm, fun h => h ▸ rfl⟩

/-- Going through pairs and keeping their first parts. -/
theorem mapM_keyed (f : β → Except ε γ) (pairs : List (α × β)) :
    pairs.mapM (fun pair => (pair.1, ·) <$> f pair.2) =
      (fun values => (pairs.map Prod.fst).zip values) <$> (pairs.map Prod.snd).mapM f := by
  induction pairs with
  | nil => rfl
  | cons pair rest ih =>
    rw [List.mapM_cons, List.map_cons, List.map_cons, List.mapM_cons, ih]
    cases f pair.2 with
    | error e => rfl
    | ok value => cases (rest.map Prod.snd).mapM f <;> rfl

/-! ## Success -/

/-- Whether a computation gives a value. -/
def Succeeds (x : Except ε α) : Prop := ∃ a, x = .ok a

@[simp] theorem succeeds_ok (a : α) : Succeeds (.ok a : Except ε α) := ⟨a, rfl⟩

@[simp] theorem succeeds_pure (a : α) : Succeeds (pure a : Except ε α) := ⟨a, rfl⟩

@[simp] theorem not_succeeds_error (e : ε) : ¬ Succeeds (.error e : Except ε α) := by
  rintro ⟨a, h⟩
  cases h

theorem not_succeeds_iff {x : Except ε α} : ¬ Succeeds x ↔ ∃ e, x = .error e := by
  cases x <;> simp

theorem succeeds_bind_iff {x : Except ε α} {f : α → Except ε β} :
    Succeeds (x >>= f) ↔ ∃ a, x = .ok a ∧ Succeeds (f a) := by
  simp only [Succeeds, bind_eq_ok_iff]
  constructor
  · rintro ⟨b, a, hx, hf⟩
    exact ⟨a, hx, b, hf⟩
  · rintro ⟨a, hx, b, hf⟩
    exact ⟨b, a, hx, hf⟩

theorem succeeds_iff_isOk {x : Except ε α} : Succeeds x ↔ x.isOk = true := by
  cases x with
  | error e => exact iff_of_false (not_succeeds_error e) nofun
  | ok a => exact iff_of_true (succeeds_ok a) rfl

/-- A value that passes a test, from running the test on the result. -/
theorem exists_of_toOption_any {x : Except ε α} {test : α → Bool}
    (h : x.toOption.any test = true) : ∃ a, x = .ok a ∧ test a = true := by
  cases x with
  | error e => cases h
  | ok a => exact ⟨a, rfl, h⟩

theorem succeeds_map_iff {x : Except ε α} {f : α → β} : Succeeds (f <$> x) ↔ Succeeds x := by
  cases x with
  | error e => simp [Functor.map, Except.map]
  | ok a => simp [Functor.map, Except.map]

theorem succeeds_mapM_iff {f : α → Except ε β} {xs : List α} :
    Succeeds (xs.mapM f) ↔ ∀ x ∈ xs, Succeeds (f x) := by
  simp only [Succeeds, mapM_eq_ok_iff]
  exact exists_forall₂_iff

/-! ## Faults -/

/-- The fault of a computation that fails. -/
def fault? : Except ε α → Option ε
  | .ok _ => none
  | .error e => some e

@[simp] theorem fault?_ok (a : α) : fault? (.ok a : Except ε α) = none := rfl

@[simp] theorem fault?_error (e : ε) : fault? (.error e : Except ε α) = some e := rfl

theorem fault?_eq_some_iff {x : Except ε α} {e : ε} : fault? x = some e ↔ x = .error e := by
  cases x with
  | ok a => simp
  | error e' => simp

/-- Where the fault of what comes next does not depend on the value before it. -/
theorem fault?_bind {x : Except ε α} {f : α → Except ε β} (next : Option ε)
    (h : ∀ a, fault? (f a) = next) : fault? (x >>= f) = (fault? x).or next := by
  cases x with
  | error e => rfl
  | ok a => exact h a

theorem fault?_map (x : Except ε α) (f : α → β) : fault? (f <$> x) = fault? x := by
  cases x <;> rfl

theorem fault?_mapM (f : α → Except ε β) (xs : List α) :
    fault? (xs.mapM f) = xs.findSome? fun x => fault? (f x) := by
  induction xs with
  | nil => rfl
  | cons x rest ih =>
    rw [List.mapM_cons, List.findSome?_cons, fault?_bind (fault? (rest.mapM f)), ih]
    · cases fault? (f x) <;> rfl
    · intro y
      cases rest.mapM f <;> rfl

theorem findSome?_cons_eq_or (f : β → Option γ) (x : β) (xs : List β) :
    (x :: xs).findSome? f = (f x).or (xs.findSome? f) := by
  rw [List.findSome?_cons]
  cases f x <;> rfl

theorem findSome?_flatMap (f : β → Option γ) (parts : α → List β) (xs : List α) :
    (xs.flatMap parts).findSome? f = xs.findSome? fun x => (parts x).findSome? f := by
  induction xs with
  | nil => rfl
  | cons x rest ih =>
    rw [List.flatMap_cons, List.findSome?_append, ih, List.findSome?_cons]
    cases (parts x).findSome? f <;> rfl

end NativeHeader
