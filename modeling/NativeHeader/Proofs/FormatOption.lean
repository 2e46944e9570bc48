import Mathlib.Data.List.TakeWhile
import NativeHeader.Arguments.Line
import NativeHeader.Proofs.Sequence

/-!
# Command lines without the formatter's option

The option that asks for the formatter has no letter and takes no value, so a word that spells it
spells nothing else (`ofText_eq_or_avoids`).  If no value follows it directly, the words that spell
it can be left out, and the line asks for the same without the formatter (`ofWords_withoutFormat`).
That is so in every line that is accepted, for else it would have a word that nothing takes
(`nothingFollowsFormat_of_run`).  A line that asks for help does so in any case
(`help_withoutFormat`).  One that is refused may be accepted without the option: a word that could
not be its value can be one of the option before it.
-/

namespace NativeHeader

/-- The same arguments without a request for the formatter. -/
def Arguments.unformatted (a : Arguments) : Arguments := { a with format := false }

/-! ## Words that spell the option -/

/-- The option with which a word ends, if it ends with one. -/
def Ending.flag? : Ending → Option Flag
  | .open flag => some flag
  | .attached flag _ => some flag
  | .left => none

/-- Whether none of the options that a word spells asks for the formatter. -/
def Spelling.Avoids (s : Spelling) : Prop := .format ∉ s.leading ∧ s.ending.flag? ≠ some .format

theorem Spelling.avoids_open {flag : Flag} (h : flag ≠ .format) :
    ({ ending := .open flag } : Spelling).Avoids :=
  ⟨List.not_mem_nil, fun heq => h (Option.some.inj heq)⟩

theorem Flag.ofLetter?_ne_format {c : Char} {flag : Flag} (h : Flag.ofLetter? c = some flag) :
    flag ≠ .format := by
  rintro rfl
  have hletter := List.find?_some h
  simp [Flag.letter?] at hletter

namespace Spelling

variable {edition : Edition} {flag : Flag} {text : List Char} {s : Spelling}

theorem avoids_of_withValue? (h : withValue? flag text = some s) : s.Avoids := by
  unfold withValue? at h
  split at h
  · cases h
  · next htakes =>
    cases h
    refine ⟨List.not_mem_nil, fun heq => ?_⟩
    obtain rfl := Option.some.inj heq
    exact htakes rfl

theorem avoids_of_ofLetters? (hflag : flag ≠ .format)
    (h : ofLetters? edition flag text = some s) : s.Avoids := by
  induction text generalizing flag s with
  | nil =>
    cases h
    exact avoids_open hflag
  | cons c rest ih =>
    rw [ofLetters?] at h
    split at h
    · exact avoids_of_withValue? h
    split at h
    · next next hnext =>
      obtain ⟨inner, hinner, rfl⟩ := Option.map_eq_some_iff.1 h
      obtain ⟨hleading, hending⟩ := ih (Flag.ofLetter?_ne_format hnext) hinner
      exact ⟨List.not_mem_cons_of_ne_of_not_mem hflag.symm hleading, hending⟩
    · split at h
      · cases h
      · cases h
        exact ⟨fun hmem => hflag (List.mem_singleton.1 hmem).symm, nofun⟩

theorem avoids_of_afterLetter? (hflag : flag ≠ .format)
    (h : afterLetter? edition flag text = some s) : s.Avoids := by
  unfold afterLetter? at h
  split at h
  · exact avoids_of_withValue? h
  · exact avoids_of_ofLetters? hflag h
  · exact avoids_of_ofLetters? hflag h

end Spelling

namespace Word

/-- A word that spells the formatter's option, in full or cut short. -/
def formatOption : Word := .options (some { ending := .open .format })

/-- Whether a word does not ask for the formatter. -/
def Avoids : Word → Prop
  | .options (some s) => s.Avoids
  | _ => True

theorem avoids_ofOther (text : List Char) : (ofOther text).Avoids := by
  unfold ofOther
  split <;> trivial

theorem avoids_options {spelling : Option Spelling} (h : ∀ s, spelling = some s → s.Avoids) :
    (options spelling).Avoids := by
  cases spelling with
  | none => trivial
  | some s => exact h s rfl

theorem avoids_ofLetter (edition : Edition) (c : Char) (text : List Char) :
    (ofLetter edition c text).Avoids := by
  unfold ofLetter
  split
  · exact avoids_ofOther _
  · next hflag =>
      exact avoids_options fun s => Spelling.avoids_of_afterLetter? (Flag.ofLetter?_ne_format hflag)

theorem ofName_eq_or_avoids (text : List Char) :
    ofName text = formatOption ∨ (ofName text).Avoids := by
  unfold ofName
  dsimp only
  split
  · exact .inr (avoids_ofOther _)
  · next flag _ _ =>
    by_cases hflag : flag = .format
    · subst hflag
      exact .inl rfl
    · exact .inr (Spelling.avoids_open hflag)
  · exact .inr (avoids_options fun s => Spelling.avoids_of_withValue?)
  · exact .inr trivial

/-- A word spells the formatter's option and nothing else, or does not ask for the formatter. -/
theorem ofText_eq_or_avoids (edition : Edition) (text : String) :
    ofText edition text = formatOption ∨ (ofText edition text).Avoids := by
  unfold ofText ofChars
  split
  · exact ofName_eq_or_avoids _
  · exact .inr (avoids_ofLetter _ _ _)
  · exact .inr trivial

end Word

namespace Request

open Word (formatOption)

/-! ## Applying a group -/

namespace Progress

variable {edition : Edition} {p q : Progress} {g : Group} {flag : Flag} {leading : List Flag}
  {values : List String}

/-- The same reading, of a line that does not ask for the formatter. -/
def unformatted (p : Progress) : Progress := { p with arguments := p.arguments.unformatted }

theorem give_unformatted (hflag : flag ≠ .format) :
    p.unformatted.give flag values = unformatted <$> p.give flag values := by
  unfold give
  split
  · rfl
  · cases flag with
    | format => exact absurd rfl hflag
    | _ => rfl

theorem giveAll_unformatted (h : .format ∉ leading) :
    p.unformatted.giveAll leading = unformatted <$> p.giveAll leading := by
  unfold giveAll
  induction leading generalizing p with
  | nil => rfl
  | cons flag rest ih =>
    rw [List.mem_cons, not_or] at h
    obtain ⟨hflag, hrest⟩ := h
    rw [List.foldlM_cons, List.foldlM_cons, give_unformatted (Ne.symm hflag)]
    cases p.give flag [] with
    | error request => rfl
    | ok next => exact ih hrest

theorem leave_unformatted : leave values p.unformatted = (leave values p).unformatted := by
  unfold leave
  split <;> rfl

theorem giveFollowing_unformatted (hleading : .format ∉ leading) (hflag : flag ≠ .format) :
    p.unformatted.giveFollowing leading flag values =
      unformatted <$> p.giveFollowing leading flag values := by
  unfold giveFollowing
  rw [giveAll_unformatted hleading]
  split
  · simp [give_unformatted hflag, leave_unformatted]
  · rfl
  · simp [give_unformatted hflag, leave_unformatted]
  · simp [give_unformatted hflag]

/-- A group that does not ask for the formatter does the same after one that asks. -/
theorem apply_unformatted (h : g.word.Avoids) :
    p.unformatted.apply edition g = unformatted <$> p.apply edition g := by
  unfold apply
  split
  · next hword =>
    rw [hword] at h
    exact giveFollowing_unformatted h.1 fun heq => h.2 (congrArg some heq)
  · next flag text hword =>
    rw [hword] at h
    have hflag : flag ≠ .format := fun heq => h.2 (congrArg some heq)
    simp [giveAll_unformatted h.1, give_unformatted hflag, leave_unformatted]
  · next leading hword =>
    rw [hword] at h
    rw [giveAll_unformatted h.1]
    cases p.giveAll leading <;> rfl
  · rfl
  · rfl

/-- The formatter's option leaves the values that follow it. -/
theorem apply_formatOption (h : g.word = formatOption) :
    p.apply edition g =
      .ok (leave g.values { p with arguments := Flag.format.apply [] p.arguments }) := by
  obtain ⟨word, values⟩ := g
  subst h
  rfl

/-! ## Words that nothing takes -/

theorem give_clean (h : p.give flag values = .ok q) : q.clean = p.clean := by
  unfold give at h
  split at h
  · cases h
  · cases h
    rfl

theorem giveAll_clean (h : p.giveAll leading = .ok q) : q.clean = p.clean := by
  unfold giveAll at h
  induction leading generalizing p with
  | nil =>
    cases h
    rfl
  | cons flag rest ih =>
    rw [List.foldlM_cons] at h
    obtain ⟨next, hgive, h⟩ := bind_eq_ok_iff.1 h
    rw [ih h, give_clean hgive]

theorem clean_of_leave (h : (leave values p).clean = true) : values = [] ∧ p.clean = true := by
  unfold leave at h
  split at h
  · next hempty => exact ⟨List.isEmpty_iff.1 hempty, h⟩
  · cases h

/-- Options that are given leave the line as clean as it was. -/
theorem clean_of_given {change : Progress → Progress}
    (h : (do return change (← (← p.giveAll leading).give flag values)) = .ok q)
    (hchange : ∀ next, (change next).clean = true → next.clean = true) (hclean : q.clean = true) :
    p.clean = true := by
  obtain ⟨first, hfirst, h⟩ := bind_eq_ok_iff.1 h
  obtain ⟨second, hsecond, h⟩ := bind_eq_ok_iff.1 h
  cases h
  rw [← giveAll_clean hfirst, ← give_clean hsecond]
  exact hchange second hclean

theorem clean_of_apply (h : p.apply edition g = .ok q) (hclean : q.clean = true) :
    p.clean = true := by
  have hleave : ∀ (values : List String) (next : Progress),
      (leave values next).clean = true → next.clean = true :=
    fun _ _ hnext => (clean_of_leave hnext).2
  unfold apply at h
  split at h
  · unfold giveFollowing at h
    split at h
    · exact clean_of_given h (hleave _) hclean
    · cases h
    · exact clean_of_given h (hleave _) hclean
    · obtain ⟨next, hnext, h⟩ := bind_eq_ok_iff.1 h
      rw [← giveAll_clean hnext, ← give_clean h]
      exact hclean
  · exact clean_of_given h (hleave _) hclean
  · obtain ⟨next, -, h⟩ := bind_eq_ok_iff.1 h
    cases h
    cases hclean
  · cases h
  · cases h
    cases hclean

theorem clean_of_foldlM {groups : List Group} (h : groups.foldlM (apply edition) p = .ok q)
    (hclean : q.clean = true) : p.clean = true := by
  induction groups generalizing p with
  | nil =>
    cases h
    exact hclean
  | cons g rest ih =>
    rw [List.foldlM_cons] at h
    obtain ⟨next, happly, h⟩ := bind_eq_ok_iff.1 h
    exact clean_of_apply happly (ih h)

/-- In a line that takes all its words no value follows the formatter's option. -/
theorem values_eq_nil_of_foldlM {groups : List Group} (h : groups.foldlM (apply edition) p = .ok q)
    (hclean : q.clean = true) : ∀ g ∈ groups, g.word = formatOption → g.values = [] := by
  induction groups generalizing p with
  | nil => exact nofun
  | cons g rest ih =>
    rw [List.foldlM_cons] at h
    obtain ⟨next, happly, h⟩ := bind_eq_ok_iff.1 h
    refine List.forall_mem_cons.2 ⟨fun hformat => ?_, ih h⟩
    rw [apply_formatOption hformat] at happly
    obtain rfl := Except.ok.inj happly
    exact (clean_of_leave (clean_of_foldlM h hclean)).1

/-- Groups are read alike without the formatter's option if no value follows it. -/
theorem foldlM_unformatted (edition : Edition) {groups : List Group}
    (hwords : ∀ g ∈ groups, g.word = formatOption ∨ g.word.Avoids)
    (hvalues : ∀ g ∈ groups, g.word = formatOption → g.values = []) :
    (groups.filter fun g => g.word ≠ formatOption).foldlM (apply edition) p.unformatted =
      unformatted <$> groups.foldlM (apply edition) p := by
  induction groups generalizing p with
  | nil => rfl
  | cons g rest ih =>
    obtain ⟨hword, hwords⟩ := List.forall_mem_cons.1 hwords
    obtain ⟨hvalue, hvalues⟩ := List.forall_mem_cons.1 hvalues
    rw [List.foldlM_cons]
    by_cases hformat : g.word = formatOption
    · rw [List.filter_cons_of_neg (by simpa using hformat), apply_formatOption hformat,
        hvalue hformat]
      exact ih (p := { p with arguments := Flag.format.apply [] p.arguments }) hwords hvalues
    · rw [List.filter_cons_of_pos (by simpa using hformat), List.foldlM_cons,
        apply_unformatted (hword.resolve_left hformat)]
      cases p.apply edition g with
      | error request => rfl
      | ok next => exact ih hwords hvalues

end Progress

/-! ## How reading fails -/

/-- A reading that fails does not ask for a run. -/
def EndsEarly {α : Type} (x : Except Request α) : Prop := ∀ a, x ≠ .error (.run a)

theorem EndsEarly.bind {α β : Type} {x : Except Request α} {f : α → Except Request β}
    (h : EndsEarly x) (hnext : ∀ y, EndsEarly (f y)) : EndsEarly (x >>= f) := by
  cases x with
  | error request =>
    intro a heq
    exact h a (congrArg Except.error (Except.error.inj heq))
  | ok y => exact hnext y

theorem endsEarly_foldlM {α β : Type} {f : β → α → Except Request β}
    (h : ∀ y x, EndsEarly (f y x)) (xs : List α) (y : β) : EndsEarly (xs.foldlM f y) := by
  induction xs generalizing y with
  | nil => exact nofun
  | cons x rest ih =>
    rw [List.foldlM_cons]
    exact (h y x).bind ih

namespace Progress

theorem endsEarly_give (flag : Flag) (values : List String) (p : Progress) :
    EndsEarly (p.give flag values) := by
  unfold give
  split <;> exact nofun

theorem endsEarly_giveAll (leading : List Flag) (p : Progress) :
    EndsEarly (p.giveAll leading) :=
  endsEarly_foldlM (fun p flag => endsEarly_give flag [] p) leading p

theorem endsEarly_apply (edition : Edition) (p : Progress) (g : Group) :
    EndsEarly (p.apply edition g) := by
  have hgiven : ∀ (leading : List Flag) (flag : Flag) (values : List String)
      (change : Progress → Progress),
      EndsEarly (do return change (← (← p.giveAll leading).give flag values)) :=
    fun leading flag values change => (endsEarly_giveAll leading p).bind fun next =>
      (endsEarly_give flag values next).bind fun _ => nofun
  unfold apply
  split
  · unfold giveFollowing
    split
    · exact hgiven _ _ _ _
    · exact nofun
    · exact hgiven _ _ _ _
    · exact (endsEarly_giveAll _ p).bind (endsEarly_give _ _)
  · exact hgiven _ _ _ _
  · exact (endsEarly_giveAll _ p).bind fun _ => nofun
  · exact nofun
  · exact nofun

end Progress

/-! ## Whole lines -/

theorem group_cons (word : Word) (words : List Word) :
    group (word :: words) = (group words).cons word := rfl

theorem mem_groups {words : List Word} {g : Group} (h : g ∈ (group words).groups) :
    g.word ∈ words := by
  induction words with
  | nil => cases h
  | cons word rest ih =>
    rw [group_cons] at h
    unfold Grouped.cons at h
    split at h
    · exact List.mem_cons_of_mem _ (ih h)
    · rcases List.mem_cons.1 h with rfl | h
      · exact List.mem_cons_self ..
      · exact List.mem_cons_of_mem _ (ih h)

theorem cons_of_not_value {word : Word} (h : ∀ text, word ≠ .value text) (g : Grouped) :
    g.cons word = { before := [], groups := { word, values := g.before } :: g.groups } := by
  cases word with
  | value text => exact absurd rfl (h text)
  | _ => rfl

/-- Words that spell the formatter's option, if no value follows them, can be left out before the
words are grouped or after. -/
theorem group_filter {words : List Word}
    (h : ∀ g ∈ (group words).groups, g.word = formatOption → g.values = []) :
    group (words.filter (· ≠ formatOption)) =
      { before := (group words).before
        groups := (group words).groups.filter fun g => g.word ≠ formatOption } := by
  induction words with
  | nil => rfl
  | cons word rest ih =>
    by_cases hvalue : ∃ text, word = .value text
    · obtain ⟨text, rfl⟩ := hvalue
      rw [List.filter_cons_of_pos (by simp [formatOption]), group_cons, group_cons, ih h]
      rfl
    · rw [not_exists] at hvalue
      rw [group_cons, cons_of_not_value hvalue] at h ⊢
      obtain ⟨hword, hrest⟩ := List.forall_mem_cons.1 h
      by_cases hformat : word = formatOption
      · have hnone : (group rest).before = [] := hword hformat
        rw [List.filter_cons_of_neg (by simpa using hformat), ih hrest, hnone,
          List.filter_cons_of_neg (by simpa using hformat)]
      · rw [List.filter_cons_of_pos (by simpa using hformat), group_cons,
          cons_of_not_value hvalue, ih hrest, List.filter_cons_of_pos (by simpa using hformat)]

section Lines

variable {edition : Edition} {texts : List String} {a : Arguments}

/-- The words of a line that are read: those before `--`. -/
def wordsOf (edition : Edition) (texts : List String) : List Word :=
  (texts.takeWhile (· ≠ "--")).map (Word.ofText edition)

theorem ofWords_eq (edition : Edition) (texts : List String) :
    ofWords edition texts =
      if .ambiguous ∈ wordsOf edition texts then .misuse
      else ofGroups edition (group (wordsOf edition texts)).groups
        ((group (wordsOf edition texts)).before.isEmpty && !texts.contains "--") := by
  unfold ofWords
  simp only [List.contains_iff_mem]
  rfl

/-- The groups of a line that asks for a run can be applied in turn, and no word is left. -/
theorem foldlM_of_ofWords_eq_run (h : ofWords edition texts = .run a) :
    ∃ p q : Progress,
      (group (wordsOf edition texts)).groups.foldlM (Progress.apply edition) p = .ok q ∧
        q.clean = true := by
  rw [ofWords_eq] at h
  split at h
  · cases h
  unfold ofGroups at h
  split at h
  · next progress hfold =>
    split at h
    · next hclean => exact ⟨_, progress, hfold, hclean⟩
    · cases h
  · next request hfold =>
    subst h
    exact absurd hfold (endsEarly_foldlM (Progress.endsEarly_apply edition) _ _ a)

/-- A line without the words that spell the formatter's option. -/
def withoutFormat (edition : Edition) (texts : List String) : List String :=
  texts.filter fun text => Word.ofText edition text ≠ formatOption

theorem map_withoutFormat (edition : Edition) (texts : List String) :
    (withoutFormat edition texts).map (Word.ofText edition) =
      (texts.map (Word.ofText edition)).filter (· ≠ formatOption) := by
  rw [withoutFormat, List.filter_map]
  rfl

theorem ofText_dashes_ne (edition : Edition) : Word.ofText edition "--" ≠ formatOption := by
  cases edition <;> decide

theorem takeWhile_withoutFormat (edition : Edition) (texts : List String) :
    (withoutFormat edition texts).takeWhile (· ≠ "--") =
      withoutFormat edition (texts.takeWhile (· ≠ "--")) := by
  have hdashes := ofText_dashes_ne edition
  unfold withoutFormat
  induction texts with
  | nil => rfl
  | cons text rest ih =>
    by_cases htext : text = "--"
    · subst htext
      rw [List.filter_cons_of_pos (by simpa using hdashes), List.takeWhile_cons_of_neg (by simp),
        List.takeWhile_cons_of_neg (by simp), List.filter_nil]
    · rw [List.takeWhile_cons_of_pos (by simpa using htext)]
      by_cases hformat : Word.ofText edition text = formatOption
      · rw [List.filter_cons_of_neg (by simpa using hformat),
          List.filter_cons_of_neg (by simpa using hformat), ih]
      · rw [List.filter_cons_of_pos (by simpa using hformat),
          List.filter_cons_of_pos (by simpa using hformat),
          List.takeWhile_cons_of_pos (by simpa using htext), ih]

theorem dashes_mem_withoutFormat : "--" ∈ withoutFormat edition texts ↔ "--" ∈ texts := by
  rw [withoutFormat, List.mem_filter, decide_eq_true_eq]
  exact and_iff_left (ofText_dashes_ne edition)

theorem wordsOf_withoutFormat (edition : Edition) (texts : List String) :
    wordsOf edition (withoutFormat edition texts) =
      (wordsOf edition texts).filter (· ≠ formatOption) := by
  rw [wordsOf, takeWhile_withoutFormat, map_withoutFormat]
  rfl

/-- Whether no value directly follows a word that spells the formatter's option. -/
def NothingFollowsFormat (edition : Edition) (texts : List String) : Prop :=
  ∀ g ∈ (group (wordsOf edition texts)).groups, g.word = formatOption → g.values = []

theorem nothingFollowsFormat_of_run (h : ofWords edition texts = .run a) :
    NothingFollowsFormat edition texts := by
  obtain ⟨p, q, hfold, hclean⟩ := foldlM_of_ofWords_eq_run h
  exact Progress.values_eq_nil_of_foldlM hfold hclean

/-- The same request, for a run without the formatter if it asks for a run. -/
def unformatted : Request → Request
  | .run a => .run a.unformatted
  | request => request

theorem EndsEarly.unformatted_eq {α : Type} {request : Request}
    (h : EndsEarly (.error request : Except Request α)) : request.unformatted = request := by
  cases request with
  | run a => exact absurd rfl (h a)
  | _ => rfl

theorem ofGroups_filter {groups : List Group} (clean : Bool)
    (hwords : ∀ g ∈ groups, g.word = formatOption ∨ g.word.Avoids)
    (hvalues : ∀ g ∈ groups, g.word = formatOption → g.values = []) :
    ofGroups edition (groups.filter fun g => g.word ≠ formatOption) clean =
      (ofGroups edition groups clean).unformatted := by
  have hfold := Progress.foldlM_unformatted edition (p := { clean }) hwords hvalues
  have hearly := endsEarly_foldlM (Progress.endsEarly_apply edition) groups { clean }
  have hstart : ({ clean } : Progress).unformatted = { clean } := rfl
  rw [hstart] at hfold
  unfold ofGroups
  rw [hfold]
  cases hresult : groups.foldlM (Progress.apply edition) { clean } with
  | error request =>
    rw [hresult] at hearly
    exact hearly.unformatted_eq.symm
  | ok progress =>
    show (if progress.clean then _ else _) = unformatted (if progress.clean then _ else _)
    split <;> rfl

/-- A line in which no value follows the formatter's option asks for the same without the words that
spell it; only the formatter is not asked for. -/
theorem ofWords_withoutFormat (h : NothingFollowsFormat edition texts) :
    ofWords edition (withoutFormat edition texts) = (ofWords edition texts).unformatted := by
  have hwords : ∀ g ∈ (group (wordsOf edition texts)).groups,
      g.word = formatOption ∨ g.word.Avoids := by
    intro g hg
    obtain ⟨text, -, hword⟩ := List.mem_map.1 (mem_groups hg)
    rw [← hword]
    exact Word.ofText_eq_or_avoids edition text
  have hambiguous : .ambiguous ∈ wordsOf edition (withoutFormat edition texts) ↔
      .ambiguous ∈ wordsOf edition texts := by
    rw [wordsOf_withoutFormat, List.mem_filter]
    exact and_iff_left (by decide)
  have hdashes : (withoutFormat edition texts).contains "--" = texts.contains "--" := by
    rw [Bool.eq_iff_iff, List.contains_iff_mem, List.contains_iff_mem, dashes_mem_withoutFormat]
  rw [ofWords_eq, ofWords_eq]
  by_cases hclear : .ambiguous ∈ wordsOf edition texts
  · rw [if_pos (hambiguous.2 hclear), if_pos hclear]
    rfl
  · rw [if_neg (mt hambiguous.1 hclear), if_neg hclear, hdashes, wordsOf_withoutFormat,
      group_filter h]
    exact ofGroups_filter _ hwords h

end Lines

/-! ## Lines that ask for help -/

/-- How a reading ends: whether something else than a run is asked for, and what. -/
def verdict {α : Type} (x : Except Request α) : Except Request Unit := (fun _ => ()) <$> x

theorem verdict_bind {α β : Type} {x x' : Except Request α} {f f' : α → Except Request β}
    (h : verdict x = verdict x') (hnext : ∀ y y', verdict (f y) = verdict (f' y')) :
    verdict (x >>= f) = verdict (x' >>= f') := by
  cases x with
  | error request =>
    cases x' with
    | error request' => exact congrArg Except.error (Except.error.inj h)
    | ok y' => cases h
  | ok y =>
    cases x' with
    | error request' => cases h
    | ok y' => exact hnext y y'

theorem verdict_bind_of_error {α β : Type} {x : Except Request α} {request : Request}
    (h : verdict x = .error request) (f : α → Except Request β) :
    verdict (x >>= f) = .error request := by
  cases x with
  | error refused => exact congrArg Except.error (Except.error.inj h)
  | ok y => cases h

namespace Progress

variable {edition : Edition}

/-- How options are given does not depend on what was read before them. -/
theorem verdict_giveAll (leading : List Flag) (p q : Progress) :
    verdict (p.giveAll leading) = verdict (q.giveAll leading) := by
  unfold giveAll
  induction leading generalizing p q with
  | nil => rfl
  | cons flag rest ih =>
    rw [List.foldlM_cons, List.foldlM_cons]
    refine verdict_bind ?_ ih
    unfold give
    split <;> rfl

theorem verdict_give (flag : Flag) (values more : List String) (p q : Progress) :
    verdict (p.give flag values) = verdict (q.give flag more) := by
  unfold give
  split <;> rfl

theorem verdict_given (leading : List Flag) (flag : Flag) {values more : List String}
    {change change' : Progress → Progress} (p q : Progress) :
    verdict (do return change (← (← p.giveAll leading).give flag values)) =
      verdict (do return change' (← (← q.giveAll leading).give flag more)) :=
  verdict_bind (verdict_giveAll leading p q) fun _ _ =>
    verdict_bind (verdict_give flag values more _ _) fun _ _ => rfl

/-- A group that is not refused as misuse ends alike with more values, wherever it stands. -/
theorem verdict_apply {word : Word} {values : List String} {p : Progress}
    (h : verdict (p.apply edition { word, values }) ≠ .error .misuse) (more : List String)
    (q : Progress) :
    verdict (q.apply edition { word, values := values ++ more }) =
      verdict (p.apply edition { word, values }) := by
  unfold apply at h ⊢
  dsimp only at h ⊢
  split at h
  · next leading flag =>
    unfold giveFollowing at h ⊢
    cases harity : flag.arity with
    | none => exact verdict_given leading flag q p
    | one =>
      cases values with
      | nil =>
        rw [harity] at h
        exact absurd rfl h
      | cons first rest => exact verdict_given leading flag q p
    | oneOrMore =>
      cases values with
      | nil =>
        rw [harity] at h
        exact absurd rfl h
      | cons first rest =>
        exact verdict_bind (verdict_giveAll leading q p) (verdict_give flag _ _)
  · next leading flag text => exact verdict_given leading flag q p
  · next leading => exact verdict_bind (verdict_giveAll leading q p) fun _ _ => rfl
  · exact absurd rfl h
  · rfl

end Progress

/-- Without the formatter's option a line that is not refused as misuse ends alike: the values that
followed the option are left to the one before it. -/
theorem verdict_filter (edition : Edition) (words : List Word) :
    (∃ more, (group (words.filter (· ≠ formatOption))).before = (group words).before ++ more) ∧
      ∀ p q : Progress,
        verdict ((group words).groups.foldlM (Progress.apply edition) p) ≠ .error .misuse →
          verdict ((group (words.filter (· ≠ formatOption))).groups.foldlM
              (Progress.apply edition) q) =
            verdict ((group words).groups.foldlM (Progress.apply edition) p) := by
  induction words with
  | nil => exact ⟨⟨[], rfl⟩, fun p q _ => rfl⟩
  | cons word rest ih =>
    obtain ⟨⟨more, hmore⟩, hrest⟩ := ih
    by_cases hvalue : ∃ text, word = .value text
    · obtain ⟨text, rfl⟩ := hvalue
      rw [List.filter_cons_of_pos (by simp [formatOption]), group_cons, group_cons]
      exact ⟨⟨more, congrArg (text :: ·) hmore⟩, hrest⟩
    rw [not_exists] at hvalue
    rw [group_cons, cons_of_not_value hvalue]
    by_cases hformat : word = formatOption
    · rw [List.filter_cons_of_neg (by simpa using hformat)]
      refine ⟨⟨_, rfl⟩, fun p q h => ?_⟩
      rw [List.foldlM_cons, Progress.apply_formatOption hformat] at h ⊢
      exact hrest _ q h
    · rw [List.filter_cons_of_pos (by simpa using hformat), group_cons, cons_of_not_value hvalue]
      refine ⟨⟨[], rfl⟩, fun p q h => ?_⟩
      dsimp only at h ⊢
      rw [List.foldlM_cons] at h ⊢
      rw [List.foldlM_cons, hmore]
      cases hp : p.apply edition { word, values := (group rest).before } with
      | error request =>
        rw [hp] at h
        have hsame := Progress.verdict_apply (by rwa [hp]) more q
        rw [hp] at hsame
        exact verdict_bind_of_error hsame _
      | ok next =>
        rw [hp] at h
        have hsame := Progress.verdict_apply (by rw [hp]; nofun) more q
        rw [hp] at hsame
        cases hq : q.apply edition { word, values := (group rest).before ++ more } with
        | error request =>
          rw [hq] at hsame
          cases hsame
        | ok next' => exact hrest next next' h

theorem ofGroups_eq_help_iff {edition : Edition} {groups : List Group} {clean : Bool} :
    ofGroups edition groups clean = .help ↔
      verdict (groups.foldlM (Progress.apply edition) { clean }) = .error .help := by
  unfold ofGroups
  cases groups.foldlM (Progress.apply edition) { clean } with
  | error request =>
    constructor
    · intro h
      exact congrArg Except.error h
    · intro h
      exact Except.error.inj h
  | ok progress =>
    constructor
    · intro h
      dsimp only at h
      split at h <;> cases h
    · intro h
      cases h

/-- A line that asks for help still does if the words that spell the formatter's option are left
out. -/
theorem help_withoutFormat {edition : Edition} {texts : List String}
    (h : ofWords edition texts = .help) :
    ofWords edition (withoutFormat edition texts) = .help := by
  obtain ⟨-, hfilter⟩ := verdict_filter edition (wordsOf edition texts)
  rw [ofWords_eq] at h ⊢
  rw [wordsOf_withoutFormat]
  split at h
  · cases h
  next hclear =>
  rw [ofGroups_eq_help_iff] at h
  rw [if_neg (mt List.mem_of_mem_filter hclear), ofGroups_eq_help_iff,
    hfilter _ _ (by rw [h]; nofun), h]

end Request

end NativeHeader
