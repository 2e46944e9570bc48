import Mathlib.Data.List.Sort
import NativeHeader.Proofs.Splitting
import NativeHeader.Proofs.Union

/-!
# What a template gives

Rendering a template with a map of values puts each value into the slots of its name, all at once,
and leaves the literals as they are (`render_eq_ok_iff`).  It refuses values for which there is no
slot, then slots for which there is no value, then values that are no texts, in this order
(`Template.Refuses`).

The main results join this with the splitting of a text: `splitting_is_exact` and
`rendering_is_simultaneous`.
-/

namespace NativeHeader

open Fragment

/-- What stands in the place of a fragment when the slots are filled. -/
inductive Fragment.FilledBy (values : OrderedMap Document) : Fragment → String → Prop
  | text (content : String) : FilledBy values (.text content) content
  | slot {name content : String} (given : values.get? name = some (.string content)) :
      FilledBy values (.slot name) content

namespace Template

variable {template : Template} {values other : OrderedMap Document}

/-- The fault with which values are refused. -/
inductive Refuses (template : Template) (values : OrderedMap Document) : Fault → Prop
  /-- There are values without a slot: all their names, in increasing order. -/
  | unknown {names : List String} (some : names ≠ []) (increasing : names.Pairwise (· < ·))
      (members : ∀ name, name ∈ names ↔ name ∈ values.keys ∧ name ∉ template.slots) :
      Refuses template values (.unknownSlots names)
  /-- Every value has a slot, but not every slot a value: the first one that has none. -/
  | missing {before after : List String} {name : String}
      (known : ∀ name ∈ values.keys, name ∈ template.slots)
      (place : template.slots = before ++ name :: after)
      (first : ∀ earlier ∈ before, earlier ∈ values.keys) (absent : name ∉ values.keys) :
      Refuses template values (.missingSlotValue name)
  /-- There is a value for every slot and a slot for every value, but some value is no text. -/
  | notText {value : Document} (known : ∀ name, name ∈ values.keys ↔ name ∈ template.slots)
      (given : value ∈ values.values) (kind : ∀ text, value ≠ .string text) :
      Refuses template values .slotValueNotText

theorem mem_slots {name : String} : name ∈ template.slots ↔ .slot name ∈ template.fragments := by
  rw [slots, List.mem_filterMap]
  constructor
  · rintro ⟨fragment, hmem, hname⟩
    cases fragment with
    | text content => cases hname
    | slot other =>
      obtain rfl : other = name := Option.some.inj hname
      exact hmem
  · exact fun h => ⟨_, h, rfl⟩

/-! ## Values without a slot -/

theorem any_ownName_iff : values.entries.any (·.1 = ownName) = true ↔ ownName ∈ values.keys := by
  simp [OrderedMap.keys, List.any_eq_true]

theorem any_ownName_eq_false (own : ownName ∉ values.keys) :
    values.entries.any (·.1 = ownName) = false :=
  Bool.eq_false_iff.2 fun hany => own (any_ownName_iff.1 hany)

/-- A value with the name of the template itself is refused, whatever else is given. -/
theorem render_of_ownName (own : ownName ∈ values.keys) :
    template.render values.entries = .error .valueForTemplate := by
  rw [render, any_ownName_iff.2 own]
  rfl

theorem mem_unknownNames {name : String} :
    name ∈ template.unknownNames values.entries ↔ name ∈ values.keys ∧ name ∉ template.slots := by
  rw [unknownNames, Sorted.mem_ofList, List.mem_filter, decide_eq_true_iff]
  rfl

theorem unknownNames_pairwise (template : Template) (entries : List (String × Document)) :
    (template.unknownNames entries).Pairwise (· < ·) :=
  Sorted.pairwise_ofList _

theorem render_of_unknown (own : ownName ∉ values.keys)
    (h : template.unknownNames values.entries ≠ []) :
    template.render values.entries =
      .error (.unknownSlots (template.unknownNames values.entries)) := by
  rw [render, any_ownName_eq_false own]
  simp [h, throw, throwThe, MonadExceptOf.throw, bind, Except.bind]

theorem render_of_known (own : ownName ∉ values.keys)
    (known : ∀ name ∈ values.keys, name ∈ template.slots) :
    template.render values.entries =
      template.fragments.mapM (fill values.entries) >>= fun parts =>
        String.join <$> parts.mapM contentOf := by
  refine render_of_slots (any_ownName_eq_false own) fun entry hentry => ?_
  exact mem_slots.1 (known _ (List.mem_map_of_mem hentry))

/-! ## Filling the slots -/

theorem fault?_fill (fragment : Fragment) :
    fault? (fill values.entries fragment) =
      fragment.slotName?.bind fun name =>
        if name ∈ values.keys then none else some (.missingSlotValue name) := by
  cases fragment with
  | text content => rfl
  | slot name =>
    show fault? (fill values.entries (.slot name)) = if name ∈ values.keys then none else _
    have hlookup : values.entries.lookup name = values.get? name := rfl
    rw [fill, hlookup]
    cases hget : values.get? name with
    | some value =>
      have hkey : name ∈ values.keys := List.mem_map_of_mem (OrderedMap.mem_of_get? hget)
      rw [if_pos hkey]
      rfl
    | none =>
      rw [if_neg (OrderedMap.get?_eq_none_iff.1 hget)]
      rfl

/-- Going through the fragments ends at the first slot that has no value. -/
theorem fault?_mapM_fill (fragments : List Fragment) :
    fault? (fragments.mapM (fill values.entries)) =
      ((fragments.filterMap slotName?).find? (· ∉ values.keys)).map .missingSlotValue := by
  rw [fault?_mapM]
  induction fragments with
  | nil => rfl
  | cons fragment rest ih =>
    rw [List.findSome?_cons, fault?_fill, ih]
    cases fragment with
    | text content => rfl
    | slot name =>
      by_cases hkey : name ∈ values.keys
      · simp [slotName?, hkey]
      · simp [slotName?, hkey]

theorem render_of_missing {before after : List String} {name : String}
    (own : ownName ∉ values.keys) (known : ∀ name ∈ values.keys, name ∈ template.slots)
    (place : template.slots = before ++ name :: after)
    (first : ∀ earlier ∈ before, earlier ∈ values.keys) (absent : name ∉ values.keys) :
    template.render values.entries = .error (.missingSlotValue name) := by
  have hfind : template.slots.find? (· ∉ values.keys) = some name := by
    rw [place, List.find?_append, List.find?_eq_none.2 (by simpa using first)]
    simp [absent]
  have hfault : fault? (template.fragments.mapM (fill values.entries)) =
      some (.missingSlotValue name) := by
    rw [fault?_mapM_fill]
    exact congrArg (Option.map Fault.missingSlotValue) hfind
  rw [render_of_known own known, fault?_eq_some_iff.1 hfault]
  rfl

theorem filledBy_iff {fragment : Fragment} {content : String} :
    FilledBy values fragment content ↔
      ∃ part, fill values.entries fragment = .ok part ∧ contentOf part = .ok content := by
  have hcontent : ∀ {part : Document}, contentOf part = .ok content ↔ part = .string content := by
    intro part
    cases part <;> simp [contentOf]
  constructor
  · intro h
    cases h with
    | text => exact ⟨_, rfl, rfl⟩
    | @slot name _ given =>
      have hlookup : values.entries.lookup name = some (.string content) := given
      exact ⟨.string content, by rw [fill, hlookup], rfl⟩
  · rintro ⟨part, hfill, hpart⟩
    obtain rfl := hcontent.1 hpart
    cases fragment with
    | text text =>
      obtain rfl : text = content := Document.string.inj (Except.ok.inj hfill)
      exact .text text
    | slot name =>
      rw [fill] at hfill
      split at hfill
      · next hlookup =>
        obtain rfl := Except.ok.inj hfill
        exact .slot hlookup
      · cases hfill

theorem forall₂_filledBy_iff {fragments : List Fragment} {contents : List String} :
    List.Forall₂ (FilledBy values) fragments contents ↔
      ∃ parts, fragments.mapM (fill values.entries) = .ok parts ∧
        parts.mapM contentOf = .ok contents := by
  simp only [mapM_eq_ok_iff]
  induction fragments generalizing contents with
  | nil => simp
  | cons fragment rest ih =>
    simp only [List.forall₂_cons_left_iff, ih, filledBy_iff]
    constructor
    · rintro ⟨content, others, ⟨part, hpart, hcontent⟩, ⟨parts, hparts, hothers⟩, rfl⟩
      exact ⟨part :: parts, ⟨part, parts, hpart, hparts, rfl⟩, .cons hcontent hothers⟩
    · rintro ⟨_, ⟨part, parts, hpart, hparts, rfl⟩, h⟩
      obtain ⟨content, others, hcontent, hothers, rfl⟩ := List.forall₂_cons_left_iff.1 h
      exact ⟨content, others, ⟨part, hpart, hcontent⟩, ⟨parts, hparts, hothers⟩, rfl⟩

/-- The text is that of the fragments with their slots filled. -/
theorem render_eq_ok_iff (own : ownName ∉ values.keys) {text : String} :
    template.render values.entries = .ok text ↔
      (∀ name ∈ values.keys, name ∈ template.slots) ∧
        ∃ contents, List.Forall₂ (FilledBy values) template.fragments contents ∧
          text = String.join contents := by
  by_cases known : ∀ name ∈ values.keys, name ∈ template.slots
  · rw [render_of_known own known]
    simp only [bind_eq_ok_iff, map_eq_ok_iff, forall₂_filledBy_iff]
    constructor
    · rintro ⟨parts, hparts, contents, hcontents, rfl⟩
      exact ⟨known, contents, ⟨parts, hparts, hcontents⟩, rfl⟩
    · rintro ⟨-, contents, ⟨parts, hparts, hcontents⟩, rfl⟩
      exact ⟨parts, hparts, contents, hcontents, rfl⟩
  · refine iff_of_false (fun h => ?_) fun h => known h.1
    obtain ⟨name, hkey, hslot⟩ : ∃ name ∈ values.keys, name ∉ template.slots := by
      simpa using known
    have hne := List.ne_nil_of_mem (mem_unknownNames.2 ⟨hkey, hslot⟩)
    rw [render_of_unknown own hne] at h
    cases h

theorem exists_filledBy_iff {fragment : Fragment} :
    (∃ content, FilledBy values fragment content) ↔
      ∀ name, fragment = .slot name → ∃ text, values.get? name = some (.string text) := by
  constructor
  · rintro ⟨content, h⟩ name rfl
    cases h with
    | slot given => exact ⟨content, given⟩
  · intro h
    cases fragment with
    | text content => exact ⟨content, .text content⟩
    | slot name =>
      obtain ⟨text, htext⟩ := h name rfl
      exact ⟨text, .slot htext⟩

/-- Values fill a template exactly if they are texts, one for each slot and no others. -/
theorem succeeds_render_iff (own : ownName ∉ values.keys) :
    Succeeds (template.render values.entries) ↔
      (∀ name, name ∈ values.keys ↔ name ∈ template.slots) ∧
        ∀ value ∈ values.values, ∃ text, value = .string text := by
  have hfilled : (∃ contents, List.Forall₂ (FilledBy values) template.fragments contents) ↔
      ∀ name ∈ template.slots, ∃ text, values.get? name = some (.string text) := by
    rw [exists_forall₂_iff]
    simp only [exists_filledBy_iff, mem_slots]
    constructor
    · exact fun h name hname => h _ hname name rfl
    · rintro h fragment hmem name rfl
      exact h name hmem
  have hsucceeds : Succeeds (template.render values.entries) ↔
      (∀ name ∈ values.keys, name ∈ template.slots) ∧
        ∀ name ∈ template.slots, ∃ text, values.get? name = some (.string text) := by
    rw [← hfilled]
    simp only [Succeeds, render_eq_ok_iff own]
    constructor
    · rintro ⟨text, known, contents, h, -⟩
      exact ⟨known, contents, h⟩
    · rintro ⟨known, contents, h⟩
      exact ⟨_, known, contents, h, rfl⟩
  rw [hsucceeds]
  constructor
  · rintro ⟨known, given⟩
    refine ⟨fun name => ⟨known name, fun hslot => ?_⟩, fun value hvalue => ?_⟩
    · obtain ⟨text, htext⟩ := given name hslot
      exact List.mem_map_of_mem (OrderedMap.mem_of_get? htext)
    · obtain ⟨entry, hentry, rfl⟩ := List.mem_map.1 hvalue
      obtain ⟨text, htext⟩ := given entry.1 (known _ (List.mem_map_of_mem hentry))
      exact ⟨text, (OrderedMap.value_unique (OrderedMap.mem_of_get? htext) hentry).symm⟩
  · rintro ⟨known, texts⟩
    refine ⟨fun name => (known name).1, fun name hslot => ?_⟩
    obtain ⟨entry, hentry, rfl⟩ := List.mem_map.1 ((known name).2 hslot)
    obtain ⟨text, htext⟩ := texts _ (List.mem_map_of_mem hentry)
    exact ⟨text, htext ▸ OrderedMap.get?_of_mem hentry⟩

/-! ## What is refused -/

theorem fault?_contentOf (parts : List Document) {e : Fault}
    (h : fault? (parts.mapM contentOf) = some e) : e = .slotValueNotText := by
  rw [fault?_mapM] at h
  obtain ⟨part, -, hpart⟩ := List.exists_of_findSome?_eq_some h
  cases part with
  | string text => cases hpart
  | _ => exact (Option.some.inj hpart).symm

theorem render_of_notText {value : Document} (own : ownName ∉ values.keys)
    (known : ∀ name, name ∈ values.keys ↔ name ∈ template.slots) (given : value ∈ values.values)
    (kind : ∀ text, value ≠ .string text) :
    template.render values.entries = .error .slotValueNotText := by
  -- it fails, and not for want of a value, so it fails where the parts are joined
  have hslots : fault? (template.fragments.mapM (fill values.entries)) = none := by
    have hnone : template.slots.find? (· ∉ values.keys) = none := by
      simpa using fun name hname => (known name).2 hname
    rw [fault?_mapM_fill]
    exact congrArg (Option.map Fault.missingSlotValue) hnone
  have hfails : ¬ Succeeds (template.render values.entries) := by
    intro h
    obtain ⟨text, htext⟩ := ((succeeds_render_iff own).1 h).2 value given
    exact kind text htext
  rw [render_of_known own fun name => (known name).1] at hfails ⊢
  cases hparts : template.fragments.mapM (fill values.entries) with
  | error e =>
    rw [hparts] at hslots
    cases hslots
  | ok parts =>
    rw [hparts] at hfails
    show String.join <$> parts.mapM contentOf = _
    cases hcontents : parts.mapM contentOf with
    | ok contents => exact absurd ⟨_, congrArg (String.join <$> ·) hcontents⟩ hfails
    | error e =>
      obtain rfl := fault?_contentOf parts (fault?_eq_some_iff.2 hcontents)
      rfl

theorem Refuses.render_eq {fault : Fault} (own : ownName ∉ values.keys)
    (h : template.Refuses values fault) : template.render values.entries = .error fault := by
  cases h with
  | @unknown names some increasing members =>
    have hnames : names = template.unknownNames values.entries :=
      increasing.eq_of_mem_iff (unknownNames_pairwise template values.entries) fun name =>
        (members name).trans mem_unknownNames.symm
    rw [hnames] at some ⊢
    exact render_of_unknown own some
  | missing known place first absent => exact render_of_missing own known place first absent
  | notText known given kind => exact render_of_notText own known given kind

/-- Values that do not fill the template are refused. -/
theorem exists_refuses_of_not_succeeds (own : ownName ∉ values.keys)
    (h : ¬ Succeeds (template.render values.entries)) : ∃ fault, template.Refuses values fault := by
  by_cases known : ∀ name ∈ values.keys, name ∈ template.slots
  · by_cases given : ∀ name ∈ template.slots, name ∈ values.keys
    · have hexact : ∀ name, name ∈ values.keys ↔ name ∈ template.slots :=
        fun name => ⟨known name, given name⟩
      rw [succeeds_render_iff own] at h
      obtain ⟨value, hvalue, hkind⟩ : ∃ value ∈ values.values, ∀ text, value ≠ .string text := by
        simpa [hexact] using h
      exact ⟨_, .notText hexact hvalue hkind⟩
    · obtain ⟨name, hfind⟩ : ∃ name, template.slots.find? (· ∉ values.keys) = some name := by
        rw [← Option.isSome_iff_exists, List.find?_isSome]
        simpa using given
      obtain ⟨habsent, before, after, hplace, hfirst⟩ := List.find?_eq_some_iff_append.1 hfind
      exact ⟨_, .missing known hplace (by simpa using hfirst) (by simpa using habsent)⟩
  · obtain ⟨name, hkey, hslot⟩ : ∃ name ∈ values.keys, name ∉ template.slots := by
      simpa using known
    have hne := List.ne_nil_of_mem (mem_unknownNames.2 ⟨hkey, hslot⟩)
    exact ⟨_, .unknown hne (unknownNames_pairwise template _) fun _ => mem_unknownNames⟩

theorem render_eq_error_iff (own : ownName ∉ values.keys) {fault : Fault} :
    template.render values.entries = .error fault ↔ template.Refuses values fault := by
  refine ⟨fun h => ?_, fun h => h.render_eq own⟩
  have hfails : ¬ Succeeds (template.render values.entries) := by
    rw [h]
    exact not_succeeds_error fault
  obtain ⟨other, hother⟩ := exists_refuses_of_not_succeeds own hfails
  obtain rfl := Except.error.inj (h.symm.trans (hother.render_eq own))
  exact hother

/-! ## The order of the values -/

/-- The order in which the values are given does not count. -/
theorem render_eq_of_perm (h : other.entries.Perm values.entries) :
    template.render other.entries = template.render values.entries := by
  have hkeys : ∀ name, name ∈ other.keys ↔ name ∈ values.keys := fun _ => (h.map Prod.fst).mem_iff
  have hany : other.entries.any (·.1 = ownName) = values.entries.any (·.1 = ownName) := by
    rw [Bool.eq_iff_iff, any_ownName_iff, any_ownName_iff, hkeys]
  have hunknown : template.unknownNames other.entries = template.unknownNames values.entries :=
    (unknownNames_pairwise template _).eq_of_mem_iff (unknownNames_pairwise template _)
      fun name => by rw [mem_unknownNames, mem_unknownNames, hkeys]
  have hfill : fill other.entries = fill values.entries := by
    funext fragment
    cases fragment with
    | text content => rfl
    | slot name =>
      have hlookup : other.entries.lookup name = values.entries.lookup name :=
        OrderedMap.get?_eq_of_perm h name
      rw [fill, fill, hlookup]
  rw [render, render, hany, hunknown, hfill]

/-! ## Templates from a text -/

/-- For each slot the text of its own mark. -/
def ownMarks (template : Template) : OrderedMap Document :=
  .ofList (template.slots.map fun name => (name, .string (String.ofList (slot name).written)))

theorem mem_keys_ownMarks {name : String} :
    name ∈ template.ownMarks.keys ↔ name ∈ template.slots := by
  rw [ownMarks, OrderedMap.mem_keys_ofList, List.map_map, List.mem_map]
  simp

theorem get?_ownMarks {name : String} (h : name ∈ template.slots) :
    template.ownMarks.get? name = some (.string (String.ofList (slot name).written)) := by
  refine OrderedMap.get?_of_mem (OrderedMap.mem_entries_ofList ?_ fun value hvalue => ?_)
  · exact List.mem_map_of_mem h
  · obtain ⟨other, -, hother⟩ := List.mem_map.1 hvalue
    obtain ⟨rfl, rfl⟩ := Prod.mk.inj hother
    rfl

/-- With their own marks in the slots, a template gives back its text. -/
theorem render_ownMarks {source : String} (own : ownName ∉ (ofText source).slots) :
    (ofText source).render (ofText source).ownMarks.entries = .ok source := by
  have hfilled : List.Forall₂ (FilledBy (ofText source).ownMarks) (ofText source).fragments
      ((ofText source).fragments.map fun fragment => String.ofList fragment.written) := by
    refine List.forall₂_map_right_iff.2 (List.forall₂_same.2 fun fragment hmem => ?_)
    cases fragment with
    | text content =>
      rw [written, String.ofList_toList]
      exact .text content
    | slot name => exact .slot (get?_ownMarks (mem_slots.2 hmem))
  have hsource : source = String.join
      ((ofText source).fragments.map fun fragment => String.ofList fragment.written) := by
    refine String.toList_inj.1 ?_
    rw [String.toList_join, List.flatMap_map]
    simp only [String.toList_ofList]
    exact (isSplitting_split source.toList).gives.symm
  refine (render_eq_ok_iff fun h => own (mem_keys_ownMarks.1 h)).2 ⟨?_, _, hfilled, hsource⟩
  exact fun name => mem_keys_ownMarks.1

/-- A slot with the name of the template itself is the only one that cannot take its own mark. -/
theorem render_ownMarks_iff {source : String} :
    (ofText source).render (ofText source).ownMarks.entries = .ok source ↔
      ownName ∉ (ofText source).slots := by
  refine ⟨fun h own => ?_, render_ownMarks⟩
  rw [render_of_ownName (mem_keys_ownMarks.2 own)] at h
  cases h

/-- The text with the values in the places of its marks, all at once, and everything else as it
is. -/
def FillsIn (source : String) (values : OrderedMap Document) (text : String) : Prop :=
  ∃ fragments contents, IsSplitting source.toList fragments ∧
    List.Forall₂ (FilledBy values) fragments contents ∧ text = String.join contents

theorem fillsIn_iff {source text : String} :
    FillsIn source values text ↔
      ∃ contents, List.Forall₂ (FilledBy values) (ofText source).fragments contents ∧
        text = String.join contents := by
  constructor
  · rintro ⟨fragments, contents, hsplitting, h⟩
    rw [isSplitting_iff.1 hsplitting] at h
    exact ⟨contents, h⟩
  · rintro ⟨contents, h⟩
    exact ⟨_, contents, isSplitting_split source.toList, h⟩

end Template

open Template

/-- A text is split into the one splitting that it has, and it does not count whether as little as
possible or as much as possible is matched for a name.  With their own marks in the slots the text
comes back, unless a slot has the name of the template itself. -/
theorem splitting_is_exact (source : String) :
    (∀ fragments, IsSplitting source.toList fragments ↔
        fragments = (ofText source).fragments) ∧
      splitBy shortestName? 0 source.toList = (ofText source).fragments ∧
      splitBy longestName? 0 source.toList = (ofText source).fragments ∧
      ((ofText source).render (ofText source).ownMarks.entries = .ok source ↔
        ownName ∉ (ofText source).slots) :=
  ⟨fun _ => isSplitting_iff, splitBy_eq_split findsMarks_shortestName? 0 source.toList,
    splitBy_eq_split findsMarks_longestName? 0 source.toList, render_ownMarks_iff⟩

/-- Of two marks that share their colons only the first is one. -/
theorem overlappingMarks_split :
    IsSplitting "::_A_::_B_::".toList [.slot "a", .text "_B_::"] ∧
      ownName ∉ (ofText "::_A_::_B_::").slots ∧
      (ofText "::_A_::_B_::").render (ofText "::_A_::_B_::").ownMarks.entries =
        .ok "::_A_::_B_::" := by
  obtain ⟨hsplitting, -, -, hrender⟩ := splitting_is_exact "::_A_::_B_::"
  have hfragments : (ofText "::_A_::_B_::").fragments = [.slot "a", .text "_B_::"] :=
    fragments_ofText (show _ = String.ofList _ from rfl) rfl
  have hown : ownName ∉ (ofText "::_A_::_B_::").slots := by
    rw [slots, hfragments]
    decide
  exact ⟨(hsplitting _).2 hfragments.symm, hown, hrender.2 hown⟩

/-- A slot with the name of the template itself cannot be filled, be it with its own mark. -/
theorem ownNamed_slot_stays_empty :
    (ofText "::_SELF_::").fragments = [.slot "self"] ∧
      (ofText "::_SELF_::").ownMarks.entries = [("self", .string "::_SELF_::")] ∧
      (ofText "::_SELF_::").render (ofText "::_SELF_::").ownMarks.entries ≠
        .ok "::_SELF_::" := by
  have hfragments : (ofText "::_SELF_::").fragments = [.slot "self"] :=
    fragments_ofText (show _ = String.ofList _ from rfl) rfl
  have hmarks : (ofText "::_SELF_::").ownMarks.entries = [("self", .string "::_SELF_::")] := by
    rw [ownMarks, slots, hfragments]
    rfl
  refine ⟨hfragments, hmarks, ?_⟩
  rw [hmarks]
  nofun

/-- Rendering puts all values in at once: it succeeds exactly if there is one text for each slot and
none for others, and its result is the template's text with these in the places of the marks.  The
order in which the values are given does not count.  Otherwise it refuses the values, first those
without a slot, then a slot without a value, then a value that is no text. -/
theorem rendering_is_simultaneous {values : OrderedMap Document} (own : ownName ∉ values.keys)
    (source : String) :
    (Succeeds ((ofText source).render values.entries) ↔
        (∀ name, name ∈ values.keys ↔ name ∈ (ofText source).slots) ∧
          ∀ value ∈ values.values, ∃ text, value = .string text) ∧
      (∀ text, (ofText source).render values.entries = .ok text ↔
        (∀ name ∈ values.keys, name ∈ (ofText source).slots) ∧ FillsIn source values text) ∧
      (∀ other : OrderedMap Document, other.entries.Perm values.entries →
        (ofText source).render other.entries = (ofText source).render values.entries) ∧
      ∀ fault, (ofText source).render values.entries = .error fault ↔
        (ofText source).Refuses values fault := by
  refine ⟨succeeds_render_iff own, fun text => ?_, fun _ => render_eq_of_perm,
    fun _ => render_eq_error_iff own⟩
  rw [fillsIn_iff]
  exact render_eq_ok_iff own

/-- A value that looks like the mark of another slot is not searched for marks. -/
theorem markValue_is_rendered :
    ownName ∉ (OrderedMap.ofList [("a", Document.string "::_B_::"), ("b", .string "b")]).keys ∧
      (ofText "::_A_::|::_B_::").render
          (OrderedMap.ofList [("a", Document.string "::_B_::"), ("b", .string "b")]).entries =
        .ok "::_B_::|b" := by
  have hown : ownName ∉
      (OrderedMap.ofList [("a", Document.string "::_B_::"), ("b", .string "b")]).keys := by decide
  have hfragments : (ofText "::_A_::|::_B_::").fragments = [.slot "a", .text "|", .slot "b"] :=
    fragments_ofText (show _ = String.ofList _ from rfl) rfl
  obtain ⟨-, hrender, -⟩ := rendering_is_simultaneous hown "::_A_::|::_B_::"
  refine ⟨hown, (hrender _).2 ⟨?_, fillsIn_iff.2 ⟨["::_B_::", "|", "b"], ?_, rfl⟩⟩⟩
  · rw [slots, hfragments]
    decide
  · rw [hfragments]
    exact .cons (.slot rfl) (.cons (.text "|") (.cons (.slot rfl) .nil))

end NativeHeader
