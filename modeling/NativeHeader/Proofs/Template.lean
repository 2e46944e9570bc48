import NativeHeader.Template
import NativeHeader.Proofs.Sequence

/-!
# Splitting a template, and filling it

The fragments of a template are texts, put together character by character.  Here the same splitting
is done into pieces, whose texts are still lists of characters (`Fragment.split_eq_map_pieces`); so
the fragments of a known template can be read off its characters (`fragments_ofText`).

Where each value has a slot, rendering is going through the fragments: `render_of_slots`.
-/

namespace NativeHeader

/-! ## Pieces -/

/-- A piece of a template whose text is still a list of characters. -/
inductive Piece where
  | text (content : List Char)
  | slot (name : List Char)

namespace Piece

def consChar (c : Char) : List Piece → List Piece
  | .text content :: rest => .text (c :: content) :: rest
  | pieces => .text [c] :: pieces

/-- Splits a text into pieces after leaving out some characters. -/
def split : (skip : Nat) → List Char → List Piece
  | _, [] => []
  | skip + 1, _ :: rest => split skip rest
  | 0, c :: rest =>
    match Fragment.markerName? (c :: rest) with
    | some name => .slot name :: split (name.length + 5) rest
    | none => consChar c (split 0 rest)

def fragment : Piece → Fragment
  | text content => .text (String.ofList content)
  | slot name => .ofName name

theorem map_fragment_consChar (c : Char) (pieces : List Piece) :
    (consChar c pieces).map fragment = Fragment.consChar c (pieces.map fragment) := by
  have hjoin : ∀ content : List Char,
      String.ofList (c :: content) = String.singleton c ++ String.ofList content := by
    intro content
    apply String.toList_inj.1
    simp
  cases pieces with
  | nil => rfl
  | cons piece rest =>
    cases piece with
    | text content => simp only [consChar, List.map_cons, fragment, Fragment.consChar, hjoin]
    | slot name => rfl

end Piece

theorem Fragment.split_eq_map_pieces (skip : Nat) (chars : List Char) :
    Fragment.split skip chars = (Piece.split skip chars).map Piece.fragment := by
  induction chars generalizing skip with
  | nil => rw [Fragment.split, Piece.split, List.map_nil]
  | cons c rest ih =>
    cases skip with
    | succ skip => rw [Fragment.split, Piece.split, ih]
    | zero =>
      rw [Fragment.split, Piece.split]
      cases Fragment.markerName? (c :: rest) with
      | none => rw [Piece.map_fragment_consChar, ih]
      | some name => simp only [List.map_cons, ih, Piece.fragment]

/-- The fragments of a template whose characters are known. -/
theorem fragments_ofText {source : String} {chars : List Char} {fragments : List Fragment}
    (hsource : source = String.ofList chars)
    (hpieces : (Piece.split 0 chars).map Piece.fragment = fragments) :
    (Template.ofText source).fragments = fragments := by
  rw [Template.ofText, hsource, String.toList_ofList, Fragment.split_eq_map_pieces, hpieces]

/-! ## Rendering -/

theorem unknownNames_eq_nil {template : Template} {values : List (String × Document)}
    (h : ∀ value ∈ values, Fragment.slot value.1 ∈ template.fragments) :
    template.unknownNames values = [] := by
  have hnone : (values.map Prod.fst).filter (· ∉ template.slots) = [] := by
    rw [List.filter_eq_nil_iff]
    intro name hname
    obtain ⟨value, hvalue, rfl⟩ := List.mem_map.1 hname
    have hslot : value.1 ∈ template.slots := List.mem_filterMap.2 ⟨_, h value hvalue, rfl⟩
    simpa using hslot
  rw [Template.unknownNames, hnone]
  rfl

/-- If each value has a slot, rendering goes through the fragments. -/
theorem render_of_slots {template : Template} {values : List (String × Document)}
    (own : values.any (·.1 = Template.ownName) = false)
    (h : ∀ value ∈ values, Fragment.slot value.1 ∈ template.fragments) :
    template.render values =
      template.fragments.mapM (Template.fill values) >>= fun parts =>
        String.join <$> parts.mapM Template.contentOf := by
  simp [Template.render, own, unknownNames_eq_nil h]

end NativeHeader
