import Mathlib.Data.List.Chain
import Mathlib.Data.List.Infix
import Mathlib.Data.List.TakeWhile
import NativeHeader.Proofs.Template

/-!
# How a template is split

A mark is `::_`, a name and `_::`.  A colon is no character of a name, so a text begins with at most
one mark, however far the name is matched, and `markerName?` finds it
(`markerName?_eq_some_iff`).

A splitting of a text (`IsSplitting`) is a row of fragments that gives the text again when each slot
is written as its mark; no literal in it is empty, no two of them are neighbours, and no mark begins
at a place inside one.  A text has one splitting only, and that is how it is split
(`isSplitting_iff`).
-/

namespace NativeHeader

namespace Fragment

/-! ## Marks -/

/-- The name in a mark: a capital letter, then capital letters, digits and underscores. -/
def IsMarkName : List Char → Prop
  | [] => False
  | first :: rest => isCapital first = true ∧ ∀ c ∈ rest, isNameChar c = true

instance : DecidablePred IsMarkName
  | [] => inferInstanceAs (Decidable False)
  | _ :: _ => inferInstanceAs (Decidable (_ ∧ _))

/-- The mark of a name. -/
def mark (name : List Char) : List Char := [':', ':', '_'] ++ name ++ ['_', ':', ':']

/-- The text begins with the mark of the name. -/
def Marks (name chars : List Char) : Prop := IsMarkName name ∧ mark name <+: chars

/-- The text begins with a mark. -/
def BeginsWithMark (chars : List Char) : Prop := ∃ name, Marks name chars

theorem IsMarkName.isNameChar {name : List Char} (h : IsMarkName name) :
    ∀ c ∈ name, isNameChar c = true := by
  cases name with
  | nil => exact h.elim
  | cons first rest =>
    rw [List.forall_mem_cons]
    exact ⟨by simp [Fragment.isNameChar, h.1], h.2⟩

theorem isMarkName_iff {name : List Char} :
    IsMarkName name ↔
      name.head?.any isCapital = true ∧ ∀ c ∈ name, Fragment.isNameChar c = true := by
  refine ⟨fun h => ⟨?_, h.isNameChar⟩, fun h => ?_⟩
  · cases name with
    | nil => exact h.elim
    | cons first rest => exact h.1
  · cases name with
    | nil => cases h.1
    | cons first rest => exact ⟨h.1, (List.forall_mem_cons.1 h.2).2⟩

theorem nameOfRow?_eq_some_iff {row name : List Char} :
    nameOfRow? row = some name ↔ row = name ++ ['_'] ∧ name.head?.any isCapital = true := by
  simp only [nameOfRow?, Option.ite_none_right_eq_some, Option.some.injEq]
  constructor
  · rintro ⟨⟨hlast, hfirst⟩, rfl⟩
    exact ⟨(List.dropLast_append_getLast? '_' hlast).symm, hfirst⟩
  · rintro ⟨rfl, hfirst⟩
    simp [hfirst]

/-- The row of name characters after `::_` is the name with the underscore of the mark. -/
theorem markerName?_mark {name : List Char} (h : IsMarkName name) (rest : List Char) :
    markerName? (mark name ++ rest) = some name := by
  have hrow : ∀ c ∈ name ++ ['_'], isNameChar c = true := by
    simpa [or_imp, forall_and] using And.intro h.isNameChar (by decide : isNameChar '_' = true)
  have hcolon : ¬ isNameChar ':' = true := by decide
  have hchars : mark name ++ rest = ':' :: ':' :: '_' :: (name ++ ['_'] ++ ':' :: ':' :: rest) := by
    simp [mark]
  have htake : (name ++ ['_'] ++ ':' :: ':' :: rest).takeWhile isNameChar = name ++ ['_'] := by
    rw [List.takeWhile_append_of_pos hrow, List.takeWhile_cons_of_neg hcolon, List.append_nil]
  have hdrop : (name ++ ['_'] ++ ':' :: ':' :: rest).dropWhile isNameChar = ':' :: ':' :: rest := by
    rw [List.dropWhile_append_of_pos hrow, List.dropWhile_cons_of_neg hcolon]
  rw [hchars, markerName?]
  simp only [hdrop, htake]
  exact nameOfRow?_eq_some_iff.2 ⟨rfl, (isMarkName_iff.1 h).1⟩

theorem marks_of_markerName? {chars name : List Char} (h : markerName? chars = some name) :
    Marks name chars := by
  unfold markerName? at h
  split at h
  · next rest =>
    split at h
    · next tail hdrop =>
      obtain ⟨hrow, hfirst⟩ := nameOfRow?_eq_some_iff.1 h
      have hrest : rest = name ++ ['_'] ++ ':' :: ':' :: tail := by
        rw [← hrow, ← hdrop, List.takeWhile_append_dropWhile]
      have hname : ∀ c ∈ name, isNameChar c = true := by
        intro c hc
        refine List.mem_takeWhile_imp (l := rest) ?_
        rw [hrow]
        exact List.mem_append_left _ hc
      exact ⟨isMarkName_iff.2 ⟨hfirst, hname⟩, tail, by rw [hrest]; simp [mark]⟩
    · cases h
  · cases h

/-- The name that is found is that of the mark with which the text begins. -/
theorem markerName?_eq_some_iff {chars name : List Char} :
    markerName? chars = some name ↔ Marks name chars := by
  refine ⟨marks_of_markerName?, ?_⟩
  rintro ⟨hname, rest, rfl⟩
  exact markerName?_mark hname rest

theorem markerName?_eq_none_iff {chars : List Char} :
    markerName? chars = none ↔ ¬ BeginsWithMark chars := by
  simp only [BeginsWithMark, ← markerName?_eq_some_iff, ← Option.isSome_iff_exists,
    Option.not_isSome_iff_eq_none]

/-! ## The shortest name and the longest -/

/-- The names of all marks with which a text begins, the shorter ones first. -/
def markNames (chars : List Char) : List (List Char) :=
  (chars.drop 3).inits.filter fun name => IsMarkName name ∧ mark name <+: chars

/-- The name when as little as possible is matched. -/
def shortestName? (chars : List Char) : Option (List Char) := (markNames chars).head?

/-- The name when as much as possible is matched. -/
def longestName? (chars : List Char) : Option (List Char) := (markNames chars).getLast?

theorem mem_markNames {chars name : List Char} : name ∈ markNames chars ↔ Marks name chars := by
  rw [markNames, List.mem_filter, decide_eq_true_iff, List.mem_inits]
  refine ⟨And.right, fun h => ⟨?_, h⟩⟩
  obtain ⟨-, rest, rfl⟩ := h
  exact ⟨['_', ':', ':'] ++ rest, by simp [mark]⟩

/-- A rule that names the mark with which a text begins, if it begins with one. -/
def FindsMarks (find : List Char → Option (List Char)) : Prop :=
  ∀ chars, (∀ name, find chars = some name → Marks name chars) ∧
    (find chars = none → ¬ BeginsWithMark chars)

theorem FindsMarks.eq_markerName? {find : List Char → Option (List Char)} (h : FindsMarks find)
    (chars : List Char) : find chars = markerName? chars := by
  cases hfind : find chars with
  | some name => exact (markerName?_eq_some_iff.2 ((h chars).1 name hfind)).symm
  | none => exact (markerName?_eq_none_iff.2 ((h chars).2 hfind)).symm

theorem findsMarks_shortestName? : FindsMarks shortestName? := by
  refine fun chars => ⟨fun name h => mem_markNames.1 (List.mem_of_mem_head? h), ?_⟩
  rintro h ⟨name, hname⟩
  have hmem := mem_markNames.2 hname
  rw [List.head?_eq_none_iff.1 h] at hmem
  cases hmem

theorem findsMarks_longestName? : FindsMarks longestName? := by
  refine fun chars => ⟨fun name h => mem_markNames.1 (List.mem_of_mem_getLast? h), ?_⟩
  rintro h ⟨name, hname⟩
  have hmem := mem_markNames.2 hname
  rw [List.getLast?_eq_none_iff.1 h] at hmem
  cases hmem

/-- Splits a text at the marks that a rule finds, after leaving out some characters. -/
def splitBy (find : List Char → Option (List Char)) : (skip : Nat) → List Char → List Fragment
  | _, [] => []
  | skip + 1, _ :: rest => splitBy find skip rest
  | 0, c :: rest =>
    match find (c :: rest) with
    | some name => ofName name :: splitBy find (name.length + 5) rest
    | none => consChar c (splitBy find 0 rest)

/-- Whichever name the rule prefers, the text is split in the same way. -/
theorem splitBy_eq_split {find : List Char → Option (List Char)} (h : FindsMarks find) (skip : Nat)
    (chars : List Char) : splitBy find skip chars = split skip chars := by
  induction chars generalizing skip with
  | nil => rw [splitBy, split]
  | cons c rest ih =>
    cases skip with
    | succ skip => rw [splitBy, split, ih]
    | zero =>
      rw [splitBy, split, h.eq_markerName?]
      cases markerName? (c :: rest) with
      | some name => simp only [ih]
      | none => simp only [ih]

/-! ## Splittings -/

/-- The name of the slot that a name marks. -/
def slotNameOf (name : List Char) : String := String.ofList (name.map Char.toLower)

/-- A fragment as it is written in a template. -/
def written : Fragment → List Char
  | text content => content.toList
  | slot name => mark (name.toList.map Char.toUpper)

/-- Whether a fragment is a literal. -/
def isText : Fragment → Bool
  | text _ => true
  | slot _ => false

/-- A place in the text that some fragments write lies inside a literal. -/
def InLiteral : List Fragment → Nat → Prop
  | [], _ => False
  | fragment :: rest, place =>
    if place < fragment.written.length then fragment.isText = true
    else InLiteral rest (place - fragment.written.length)

/-- A splitting of a text. -/
structure IsSplitting (source : List Char) (fragments : List Fragment) : Prop where
  /-- Written one after another, the fragments give the text. -/
  gives : fragments.flatMap written = source
  /-- A slot has a name in small letters, which marks it in capital letters. -/
  named : ∀ name, slot name ∈ fragments →
    ∃ capitals, IsMarkName capitals ∧ name = slotNameOf capitals
  /-- No literal is empty. -/
  nonempty : text "" ∉ fragments
  /-- Of two neighbours one is a slot. -/
  apart : fragments.IsChain fun first second => first.isText = false ∨ second.isText = false
  /-- No mark begins inside a literal. -/
  complete : ∀ place, InLiteral fragments place → ¬ BeginsWithMark (source.drop place)

/-- Capital letters come back from small ones, and the other characters of a name have no case. -/
theorem toUpper_toLower_of_isNameChar {c : Char} (h : isNameChar c = true) :
    c.toLower.toUpper = c := by
  -- all of them are among the first 128 characters, which can be gone through
  have hall : ∀ n < 128, isNameChar (Char.ofNat n) = true →
      (Char.ofNat n).toLower.toUpper = Char.ofNat n := by decide
  have hbound : c.toNat < 128 := by
    have hle : ∀ d : Char, c ≤ d → c.toNat ≤ d.toNat := fun d hd => hd
    simp only [isNameChar, isCapital, Bool.or_eq_true, Bool.decide_and, Bool.and_eq_true,
      decide_eq_true_eq] at h
    rcases h with (⟨-, h⟩ | ⟨-, h⟩) | rfl
    · exact Nat.lt_of_le_of_lt (hle _ h) (by decide)
    · exact Nat.lt_of_le_of_lt (hle _ h) (by decide)
    · decide
  rw [← Char.ofNat_toNat c] at h ⊢
  exact hall _ hbound h

theorem written_slotNameOf {name : List Char} (h : IsMarkName name) :
    (slot (slotNameOf name)).written = mark name := by
  have hback : ∀ c ∈ name, (Char.toUpper ∘ Char.toLower) c = id c := fun c hc =>
    toUpper_toLower_of_isNameChar (h.isNameChar c hc)
  have hname : (name.map Char.toLower).map Char.toUpper = name := by
    rw [List.map_map, List.map_congr_left hback, List.map_id]
  rw [written, slotNameOf, String.toList_ofList, hname]

section Splitting

variable {source rest : List Char} {fragment : Fragment} {fragments : List Fragment}

theorem isSplitting_nil_iff : IsSplitting source [] ↔ source = [] := by
  constructor
  · intro h
    exact h.gives.symm
  · rintro rfl
    exact ⟨rfl, nofun, nofun, .nil, nofun⟩

theorem inLiteral_cons_add (place : Nat) :
    InLiteral (fragment :: fragments) (fragment.written.length + place) ↔
      InLiteral fragments place := by
  rw [InLiteral, if_neg (by omega), Nat.add_sub_cancel_left]

/-- What comes after the first fragment is split by the others. -/
theorem IsSplitting.tail (h : IsSplitting source (fragment :: fragments)) :
    ∃ rest, source = fragment.written ++ rest ∧ IsSplitting rest fragments := by
  refine ⟨fragments.flatMap written, h.gives.symm, rfl, fun name hmem => ?_, fun hmem => ?_, ?_,
    fun place hplace => ?_⟩
  · exact h.named name (List.mem_cons_of_mem _ hmem)
  · exact h.nonempty (List.mem_cons_of_mem _ hmem)
  · exact (List.isChain_cons.1 h.apart).2
  · have hmark := h.complete _ ((inLiteral_cons_add place).2 hplace)
    rwa [← h.gives, List.flatMap_cons, List.drop_length_add_append] at hmark

/-- A slot in front of a splitting. -/
theorem IsSplitting.cons_slot {name : List Char} (h : IsSplitting rest fragments)
    (hname : IsMarkName name) :
    IsSplitting (mark name ++ rest) (slot (slotNameOf name) :: fragments) := by
  have hwritten := written_slotNameOf hname
  refine ⟨?_, fun other hmem => ?_, fun hmem => ?_, ?_, fun place hplace => ?_⟩
  · rw [List.flatMap_cons, hwritten, h.gives]
  · rcases List.mem_cons.1 hmem with hother | hmem
    · exact ⟨name, hname, slot.inj hother⟩
    · exact h.named other hmem
  · rcases List.mem_cons.1 hmem with hempty | hmem
    · cases hempty
    · exact h.nonempty hmem
  · exact List.isChain_cons.2 ⟨fun _ _ => .inl rfl, h.apart⟩
  · rw [InLiteral, hwritten] at hplace
    split at hplace
    · cases hplace
    · rw [List.drop_append, List.drop_of_length_le (by omega), List.nil_append]
      exact h.complete _ hplace

theorem flatMap_written_consChar (c : Char) (fragments : List Fragment) :
    (consChar c fragments).flatMap written = c :: fragments.flatMap written := by
  cases fragments with
  | nil => simp [consChar, written]
  | cons fragment rest => cases fragment <;> simp [consChar, written]

theorem inLiteral_consChar_succ (c : Char) (fragments : List Fragment) (place : Nat) :
    InLiteral (consChar c fragments) (place + 1) ↔ InLiteral fragments place := by
  have hone : (text (String.singleton c)).written.length = 1 := by simp [written]
  cases fragments with
  | nil => simp [consChar, InLiteral, hone]
  | cons fragment rest =>
    cases fragment with
    | slot name =>
      rw [consChar, InLiteral, hone, if_neg (by omega), Nat.add_sub_cancel]
      exact fun _ _ hne => by cases hne
    | text content =>
      have hlength : (text (String.singleton c ++ content)).written.length =
          (text content).written.length + 1 := by
        simp [written]
      rw [consChar, InLiteral, InLiteral, hlength, Nat.add_sub_add_right]
      simp only [Nat.add_lt_add_iff_right, isText]

/-- What a character in front adds is a literal that is not empty. -/
theorem mem_consChar {c : Char} (h : fragment ∈ consChar c fragments) :
    fragment ∈ fragments ∨ ∃ content, fragment = text content ∧ content ≠ "" := by
  have hne : ∀ content, String.singleton c ++ content ≠ "" := by
    intro content hempty
    have hchars := congrArg String.toList hempty
    simp at hchars
  unfold consChar at h
  split at h
  · rcases List.mem_cons.1 h with rfl | h
    · exact .inr ⟨_, rfl, hne _⟩
    · exact .inl (List.mem_cons_of_mem _ h)
  · rcases List.mem_cons.1 h with rfl | h
    · exact .inr ⟨_, rfl, by simp⟩
    · exact .inl h

theorem isChain_consChar {c : Char}
    (h : fragments.IsChain fun first second => first.isText = false ∨ second.isText = false) :
    (consChar c fragments).IsChain fun first second =>
      first.isText = false ∨ second.isText = false := by
  unfold consChar
  split
  · exact List.isChain_cons.2 (List.isChain_cons.1 h)
  · next hno =>
    refine List.isChain_cons.2 ⟨fun second hsecond => .inr ?_, h⟩
    cases second with
    | slot name => rfl
    | text content =>
      obtain ⟨rest, rfl⟩ := List.head?_eq_some_iff.1 hsecond
      exact (hno content rest rfl).elim

/-- A character that begins no mark, in front of a splitting. -/
theorem IsSplitting.consChar {c : Char} (h : IsSplitting rest fragments)
    (hmark : ¬ BeginsWithMark (c :: rest)) :
    IsSplitting (c :: rest) (Fragment.consChar c fragments) := by
  refine ⟨?_, fun name hmem => ?_, fun hmem => ?_, isChain_consChar h.apart, fun place hplace => ?_⟩
  · rw [flatMap_written_consChar, h.gives]
  · rcases mem_consChar hmem with hmem | ⟨content, hcontent, -⟩
    · exact h.named name hmem
    · cases hcontent
  · rcases mem_consChar hmem with hmem | ⟨content, hcontent, hne⟩
    · exact h.nonempty hmem
    · exact hne (text.inj hcontent).symm
  · cases place with
    | zero => exact hmark
    | succ place => exact h.complete place ((inLiteral_consChar_succ c fragments place).1 hplace)

/-! ## There is one splitting -/

theorem split_mark {name : List Char} (h : IsMarkName name) (rest : List Char) :
    split 0 (mark name ++ rest) = slot (slotNameOf name) :: split 0 rest := by
  have hmark : mark name ++ rest = ':' :: (':' :: '_' :: name ++ ['_', ':', ':'] ++ rest) := rfl
  have hname : markerName? (mark name ++ rest) = some name := markerName?_mark h rest
  have hdrop : (':' :: '_' :: name ++ ['_', ':', ':'] ++ rest).drop (name.length + 5) = rest :=
    List.drop_left' (by simp)
  rw [hmark] at hname ⊢
  rw [split_of_markerName? hname, hdrop]
  rfl

/-- The fragments that a text is split into are a splitting of it. -/
theorem isSplitting_split (source : List Char) : IsSplitting source (split 0 source) := by
  cases source with
  | nil => exact isSplitting_nil_iff.2 rfl
  | cons c rest =>
    cases hname : markerName? (c :: rest) with
    | none =>
      rw [split_of_not_marked hname]
      exact (isSplitting_split rest).consChar (markerName?_eq_none_iff.1 hname)
    | some name =>
      -- the mark is passed over whole, so what is split next is no tail of the list but shorter
      obtain ⟨hmark, after, hafter⟩ := markerName?_eq_some_iff.1 hname
      rw [← hafter, split_mark hmark]
      have hshorter : after.length < (c :: rest).length := by
        rw [← hafter, mark, List.length_append, List.length_append]
        simp
      exact (isSplitting_split after).cons_slot hmark
termination_by source.length
decreasing_by
  · exact Nat.lt_succ_self rest.length
  · exact hshorter

/-- Characters at which no mark begins stand in front of what comes after them. -/
theorem split_append_of_unmarked {content rest : List Char}
    (h : ∀ place < content.length, ¬ BeginsWithMark ((content ++ rest).drop place)) :
    split 0 (content ++ rest) = content.foldr consChar (split 0 rest) := by
  induction content with
  | nil => rfl
  | cons c others ih =>
    have hfirst : markerName? (c :: (others ++ rest)) = none :=
      markerName?_eq_none_iff.2 (h 0 (Nat.zero_lt_succ _))
    rw [List.cons_append, split_of_not_marked hfirst, List.foldr_cons, ih]
    exact fun place hplace => h (place + 1) (Nat.succ_lt_succ hplace)

theorem foldr_consChar {content : List Char} (hne : content ≠ [])
    (h : ∀ fragment ∈ fragments.head?, fragment.isText = false) :
    content.foldr consChar fragments = text (String.ofList content) :: fragments := by
  induction content with
  | nil => exact absurd rfl hne
  | cons c others ih =>
    have hjoin : String.singleton c ++ String.ofList others = String.ofList (c :: others) :=
      String.toList_inj.1 (by simp)
    rw [List.foldr_cons]
    by_cases hothers : others = []
    · subst hothers
      cases fragments with
      | nil => rfl
      | cons fragment rest =>
        cases fragment with
        | slot name => rfl
        | text after => cases h _ rfl
    · rw [ih hothers, consChar, hjoin]

theorem eq_split_of_isSplitting (h : IsSplitting source fragments) :
    fragments = split 0 source := by
  induction fragments generalizing source with
  | nil =>
    rw [isSplitting_nil_iff.1 h]
    rfl
  | cons fragment others ih =>
    obtain ⟨rest, hsource, hrest⟩ := h.tail
    cases fragment with
    | slot name =>
      obtain ⟨capitals, hcapitals, rfl⟩ := h.named name (List.mem_cons_self ..)
      rw [hsource, written_slotNameOf hcapitals, split_mark hcapitals, ← ih hrest]
    | text content =>
      have hplaces : ∀ place < content.toList.length,
          ¬ BeginsWithMark ((content.toList ++ rest).drop place) := by
        intro place hplace
        have hliteral : InLiteral (text content :: others) place := by
          rw [InLiteral, written, if_pos hplace]
          rfl
        exact hsource ▸ h.complete place hliteral
      have hne : content.toList ≠ [] := by
        intro hempty
        rw [String.toList_eq_nil_iff.1 hempty] at h
        exact h.nonempty (List.mem_cons_self ..)
      have hothers : ∀ fragment ∈ others.head?, fragment.isText = false := fun fragment hfragment =>
        ((List.isChain_cons.1 h.apart).1 fragment hfragment).resolve_left (by simp [isText])
      rw [hsource, written, split_append_of_unmarked hplaces, ← ih hrest,
        foldr_consChar hne hothers, String.ofList_toList]

/-- A text is split into the one splitting that it has. -/
theorem isSplitting_iff : IsSplitting source fragments ↔ fragments = split 0 source := by
  refine ⟨eq_split_of_isSplitting, ?_⟩
  rintro rfl
  exact isSplitting_split source

end Splitting

end Fragment

end NativeHeader
