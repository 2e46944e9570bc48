/-!
# Sorting without repetition

`Sorted.ofList` lists the elements of a list in strictly increasing order, so each of them once.
-/

namespace NativeHeader.Sorted

variable {α : Type} [LT α] [DecidableLT α] [DecidableEq α]

/-- Adds an element at its place, unless it is there. -/
def insert (x : α) : List α → List α
  | [] => [x]
  | y :: rest => if x < y then x :: y :: rest else if x = y then y :: rest else y :: insert x rest

/-- The elements of a list in increasing order, each once. -/
def ofList (xs : List α) : List α := xs.foldr insert []

@[simp] theorem mem_insert {x y : α} {ys : List α} : y ∈ insert x ys ↔ y = x ∨ y ∈ ys := by
  induction ys with
  | nil => simp [insert]
  | cons z rest ih =>
    unfold insert
    split
    · simp
    · split
      · next h => simp [h]
      · simp only [List.mem_cons, ih]
        constructor
        · rintro (h | h | h)
          · exact .inr (.inl h)
          · exact .inl h
          · exact .inr (.inr h)
        · rintro (h | h | h)
          · exact .inr (.inl h)
          · exact .inl h
          · exact .inr (.inr h)

@[simp] theorem mem_ofList {y : α} {xs : List α} : y ∈ ofList xs ↔ y ∈ xs := by
  induction xs with
  | nil => simp [ofList]
  | cons x rest ih =>
    have h : ofList (x :: rest) = insert x (ofList rest) := rfl
    simp [h, ih]

section Pairwise

variable [Trans (· < · : α → α → Prop) (· < · : α → α → Prop) (· < · : α → α → Prop)]
  [Std.Trichotomous (· < · : α → α → Prop)]

theorem pairwise_insert (x : α) {ys : List α} (h : ys.Pairwise (· < ·)) :
    (insert x ys).Pairwise (· < ·) := by
  induction ys with
  | nil => exact List.pairwise_singleton ..
  | cons y rest ih =>
    obtain ⟨hfirst, hrest⟩ := List.pairwise_cons.1 h
    rw [insert]
    split
    · next hlt =>
      refine List.pairwise_cons.2 ⟨fun z hz => ?_, h⟩
      rcases List.mem_cons.1 hz with rfl | hz
      · exact hlt
      · exact Trans.trans hlt (hfirst z hz)
    · next hnot =>
      split
      · exact h
      · next hne =>
        have hlt : y < x :=
          Decidable.byContradiction fun hgt => hne (Std.Trichotomous.trichotomous x y hnot hgt)
        refine List.pairwise_cons.2 ⟨fun z hz => ?_, ih hrest⟩
        rcases mem_insert.1 hz with rfl | hz
        · exact hlt
        · exact hfirst z hz

theorem pairwise_ofList (xs : List α) : (ofList xs).Pairwise (· < ·) := by
  induction xs with
  | nil => exact .nil
  | cons x rest ih => exact pairwise_insert x ih

end Pairwise

end NativeHeader.Sorted
