import Mathlib.Data.List.Induction
import Mathlib.Data.List.Nodup
import Mathlib.Logic.Function.Basic
import NativeHeader.Proofs.FormatOption

/-!
# Command lines that are written option by option

A setting is an option with the values that are given to it.  It is written as a word that spells
the option, followed by the values: by its letter, or by a beginning of its name, since no two names
begin alike.  A value that does not begin with a hyphen is never taken for an option, so the words
of a row of settings are read as these settings again (`group_of_writes`).

What a row of settings asks for is told option by option: the last setting of an option counts, and
an option that is never given has its default (`ofWords_of_writes`).  So arguments can be written in
any order, settings can be left out, and repeated ones replace those before them
(`arguments_round_trip`).
-/

namespace NativeHeader

/-! ## Spelling an option -/

namespace Flag

variable {flag : Flag} {front : List Char}

/-- Whether a word spells an option and nothing else: by its letter, or by its name, which may be
cut short. -/
inductive Spells (flag : Flag) (word : String) : Prop
  | letter {c : Char} (hword : word.toList = ['-', c]) (h : flag.letter? = some c) :
      Spells flag word
  | name {front : List Char} (hword : word.toList = '-' :: '-' :: front) (hne : front ≠ [])
      (h : front <+: flag.name.toList) : Spells flag word

theorem eq_of_head?_name {other : Flag}
    (h : flag.name.toList.head? = other.name.toList.head?) : flag = other := by
  revert h
  cases flag <;> cases other <;> decide

theorem eq_of_prefix_name {other : Flag} (hne : front ≠ []) (h : front <+: flag.name.toList)
    (hother : front <+: other.name.toList) : other = flag := by
  obtain ⟨c, rest, rfl⟩ := List.exists_cons_of_ne_nil hne
  obtain ⟨more, hmore⟩ := h
  obtain ⟨more', hmore'⟩ := hother
  refine eq_of_head?_name ?_
  rw [← hmore, ← hmore']
  rfl

/-- No other option's name begins alike. -/
theorem withBeginning_eq (hne : front ≠ []) (h : front <+: flag.name.toList) :
    withBeginning front = [flag] := by
  have hfilter : withBeginning front = all.filter (· = flag) := by
    refine List.filter_congr fun other _ => ?_
    rw [Bool.eq_iff_iff, List.isPrefixOf_iff_prefix, decide_eq_true_eq]
    exact ⟨eq_of_prefix_name hne h, fun heq => heq ▸ h⟩
  rw [hfilter]
  cases flag <;> rfl

theorem eq_of_ofName? {other : Flag} (hne : front ≠ []) (h : front <+: flag.name.toList)
    (hother : ofName? front = some other) : other = flag := by
  have hname : other.name.toList = front := by
    simpa using List.find?_some (p := fun flag : Flag => decide (flag.name.toList = front)) hother
  exact eq_of_prefix_name hne h (hname ▸ List.prefix_refl _)

theorem equals_notMem_name (flag : Flag) : '=' ∉ flag.name.toList := by
  cases flag <;> decide

end Flag

/-! ## Words -/

namespace Word

/-- Whether a text does not begin with a hyphen. -/
def IsPlain (text : String) : Prop := text.toList.head? ≠ some '-'

instance : DecidablePred IsPlain := fun text =>
  inferInstanceAs (Decidable (text.toList.head? ≠ some '-'))

variable {edition : Edition}

theorem ofText_of_isPlain {text : String} (h : IsPlain text) :
    ofText edition text = .value text := by
  unfold IsPlain at h
  unfold ofText ofChars
  split
  · next hchars => exact absurd (by rw [hchars]; rfl) h
  · next hchars => exact absurd (by rw [hchars]; rfl) h
  · rw [String.ofList_toList]

theorem ofName_of_prefix {flag : Flag} {front : List Char} (hne : front ≠ [])
    (h : front <+: flag.name.toList) :
    ofName front = .options (some { ending := .open flag }) := by
  have hequals : ∀ c ∈ front, c ≠ '=' := by
    rintro c hc rfl
    exact flag.equals_notMem_name (h.subset hc)
  have htake : front.takeWhile (· ≠ '=') = front :=
    List.takeWhile_eq_self_iff.2 fun c hc => by simpa using hequals c hc
  have hdrop : front.dropWhile (· ≠ '=') = [] :=
    List.dropWhile_eq_nil_iff.2 fun c hc => by simpa using hequals c hc
  unfold ofName
  dsimp only
  rw [htake, hdrop]
  cases hname : Flag.ofName? front with
  | none => rw [Flag.withBeginning_eq hne h]
  | some other => rw [Flag.eq_of_ofName? hne h hname]

/-- A word that spells an option is read as this option. -/
theorem ofText_of_spells {flag : Flag} {word : String} (h : flag.Spells word) :
    ofText edition word = .options (some { ending := .open flag }) := by
  cases h with
  | letter hword hletter =>
    rw [ofText, hword]
    revert hletter
    cases edition <;> cases flag <;> rintro ⟨⟩ <;> decide
  | name hword hne hfront =>
    rw [ofText, hword]
    exact ofName_of_prefix hne hfront

end Word

/-! ## Settings -/

/-- An option with the values that are given to it. -/
structure Setting where
  flag : Flag
  values : List String
  deriving DecidableEq

/-- Whether so many values can follow an option. -/
def Arity.Takes : Arity → List String → Prop
  | none, values => values = []
  | one, values => ∃ value, values = [value]
  | oneOrMore, values => values ≠ []

/-- Whether an option of a run can be given these values, as words of their own. -/
structure Setting.Fits (s : Setting) : Prop where
  not_help : s.flag ≠ .help
  taken : s.flag.arity.Takes s.values
  plain : ∀ text ∈ s.values, Word.IsPlain text

/-- The words that write a row of settings: for each of them a word that spells the option, and the
values. -/
inductive Writes : List Setting → List String → Prop
  | nil : Writes [] []
  | cons {s : Setting} {rest : List Setting} {word : String} {words : List String} :
      s.flag.Spells word → Writes rest words → Writes (s :: rest) (word :: (s.values ++ words))

/-- The group as which a setting is read. -/
def Setting.group (s : Setting) : Request.Group where
  word := .options (some { ending := .open s.flag })
  values := s.values

/-- The values that the last setting of an option gives to it. -/
def lastValues (settings : List Setting) (flag : Flag) : Option (List String) :=
  (settings.reverse.find? (·.flag = flag)).map Setting.values

namespace Arguments

/-- The arguments that are told by the values given to each option.  An option that is not given has
its default. -/
def ofValues (values : Flag → Option (List String)) : Arguments where
  paths := (values .paths).getD ["**/*.json"]
  excludes := (values .excludes).getD []
  recursive := (values .recursive).isSome
  libraryName := (values .libraryName).elim (some "") List.head?
  moduleSpecName := (values .moduleSpecName).elim (some "") List.head?
  format := (values .format).isSome
  verbose := (values .verbose).isSome

/-- The arguments with the default of one option. -/
def reset (flag : Flag) (a : Arguments) : Arguments :=
  match flag with
  | .help => a
  | .paths => { a with paths := ["**/*.json"] }
  | .excludes => { a with excludes := [] }
  | .recursive => { a with recursive := false }
  | .libraryName => { a with libraryName := some "" }
  | .moduleSpecName => { a with moduleSpecName := some "" }
  | .format => { a with format := false }
  | .verbose => { a with verbose := false }

variable {values : Flag → Option (List String)} {flag : Flag}

theorem apply_ofValues (h : flag ≠ .help) (given : List String) :
    flag.apply given (ofValues values) = ofValues (Function.update values flag (some given)) := by
  cases flag with
  | help => exact absurd rfl h
  | _ => simp [Flag.apply, ofValues]

theorem reset_ofValues (flag : Flag) :
    reset flag (ofValues values) = ofValues (Function.update values flag none) := by
  cases flag <;> simp [reset, ofValues]

end Arguments

/-! ## The last setting of each option -/

section LastValues

variable {settings front back : List Setting} {s : Setting} {flag : Flag} {values : List String}

theorem lastValues_append_singleton (settings : List Setting) (s : Setting) :
    lastValues (settings ++ [s]) =
      Function.update (lastValues settings) s.flag (some s.values) := by
  funext flag
  rw [lastValues, List.reverse_concat, List.find?_cons]
  by_cases hflag : s.flag = flag
  · subst hflag
    simp
  · rw [Function.update_of_ne (Ne.symm hflag), decide_eq_false hflag]
    rfl

/-- Settings that are applied in turn leave the last values of each option. -/
theorem foldl_apply_eq (h : ∀ s ∈ settings, s.flag ≠ .help) :
    settings.foldl (fun a s => s.flag.apply s.values a) {} = .ofValues (lastValues settings) := by
  induction settings using List.reverseRecOn with
  | nil => rfl
  | append_singleton rest s ih =>
    obtain ⟨hrest, hlast⟩ := List.forall_mem_append.1 h
    rw [List.foldl_concat, ih hrest, lastValues_append_singleton,
      Arguments.apply_ofValues (hlast s (List.mem_singleton_self s))]

theorem lastValues_filter (settings : List Setting) (flag : Flag) :
    lastValues (settings.filter (·.flag ≠ flag)) =
      Function.update (lastValues settings) flag none := by
  induction settings using List.reverseRecOn with
  | nil =>
    funext other
    by_cases hother : other = flag
    · subst hother
      simp [lastValues]
    · rw [Function.update_of_ne hother]
      rfl
  | append_singleton rest s ih =>
    rw [List.filter_append, lastValues_append_singleton]
    by_cases hflag : s.flag = flag
    · rw [List.filter_cons_of_neg (by simpa using hflag), List.filter_nil, List.append_nil, ih,
        hflag, Function.update_idem]
    · rw [List.filter_cons_of_pos (by simpa using hflag), List.filter_nil,
        lastValues_append_singleton, ih, Function.update_comm (Ne.symm hflag)]

/-- A setting that is repeated later does not count. -/
theorem lastValues_of_repeated (h : ∃ later ∈ back, later.flag = s.flag) :
    lastValues (front ++ s :: back) = lastValues (front ++ back) := by
  funext flag
  rw [lastValues, lastValues, List.reverse_append, List.reverse_append, List.reverse_cons,
    List.find?_append, List.find?_append, List.find?_append]
  by_cases hflag : s.flag = flag
  · -- the search from the end stops before it
    obtain ⟨later, hlater, hsame⟩ := h
    have hfound : (back.reverse.find? (·.flag = flag)).isSome = true := by
      rw [List.find?_isSome]
      exact ⟨later, List.mem_reverse.2 hlater, by simp [hsame, hflag]⟩
    obtain ⟨found, hfound⟩ := Option.isSome_iff_exists.1 hfound
    rw [hfound]
    rfl
  · have hnone : [s].find? (·.flag = flag) = none := by simp [hflag]
    rw [hnone, Option.or_none]

/-- If each option is given once at most, its values do not depend on the order. -/
theorem lastValues_eq_some_iff (h : (settings.map Setting.flag).Nodup) :
    lastValues settings flag = some values ↔ ⟨flag, values⟩ ∈ settings := by
  rw [lastValues, Option.map_eq_some_iff]
  constructor
  · rintro ⟨s, hfound, rfl⟩
    have hflag : s.flag = flag := by simpa using List.find?_some hfound
    subst hflag
    exact List.mem_reverse.1 (List.mem_of_find?_eq_some hfound)
  · intro hmem
    have hsome : (settings.reverse.find? (·.flag = flag)).isSome = true := by
      rw [List.find?_isSome]
      exact ⟨_, List.mem_reverse.2 hmem, by simp⟩
    obtain ⟨s, hfound⟩ := Option.isSome_iff_exists.1 hsome
    have hflag : s.flag = flag := by simpa using List.find?_some hfound
    have hs := List.mem_reverse.1 (List.mem_of_find?_eq_some hfound)
    exact ⟨s, hfound, congrArg Setting.values (List.inj_on_of_nodup_map h hs hmem hflag)⟩

end LastValues

/-! ## Reading the words again -/

namespace Request

open Word (IsPlain)

variable {edition : Edition} {settings : List Setting} {words : List String} {s : Setting}

theorem group_map_value (values : List String) (words : List Word) :
    group (values.map .value ++ words) =
      { group words with before := values ++ (group words).before } := by
  induction values with
  | nil => rfl
  | cons value rest ih =>
    rw [List.map_cons, List.cons_append, group_cons, ih]
    rfl

theorem map_ofText_of_isPlain {values : List String} (h : ∀ text ∈ values, IsPlain text) :
    values.map (Word.ofText edition) = values.map .value :=
  List.map_congr_left fun text htext => Word.ofText_of_isPlain (h text htext)

/-- The words of a row of settings are read as these settings. -/
theorem group_of_writes (h : Writes settings words) (hfits : ∀ s ∈ settings, s.Fits) :
    group (words.map (Word.ofText edition)) =
      { before := [], groups := settings.map Setting.group } := by
  induction h with
  | nil => rfl
  | @cons s rest word words hword _ ih =>
    obtain ⟨hs, hrest⟩ := List.forall_mem_cons.1 hfits
    rw [List.map_cons, List.map_append, map_ofText_of_isPlain hs.plain, group_cons,
      group_map_value, ih hrest, Word.ofText_of_spells hword, List.append_nil]
    rfl

theorem ofText_of_writes (edition : Edition) (h : Writes settings words)
    (hfits : ∀ s ∈ settings, s.Fits) :
    ∀ word ∈ words, (∃ text, Word.ofText edition word = .value text) ∨
      ∃ flag, Word.ofText edition word = .options (some { ending := .open flag }) := by
  induction h with
  | nil => exact nofun
  | @cons s rest word words hword _ ih =>
    obtain ⟨hs, hrest⟩ := List.forall_mem_cons.1 hfits
    refine List.forall_mem_cons.2 ⟨.inr ⟨s.flag, Word.ofText_of_spells hword⟩, ?_⟩
    refine List.forall_mem_append.2 ⟨fun text htext => ?_, ih hrest⟩
    exact .inl ⟨text, Word.ofText_of_isPlain (hs.plain text htext)⟩

/-- A setting that fits is taken with all its values. -/
theorem Progress.apply_group (p : Progress) (h : s.Fits) :
    p.apply edition s.group = .ok { p with arguments := s.flag.apply s.values p.arguments } := by
  obtain ⟨flag, values⟩ := s
  obtain ⟨hhelp, htaken, -⟩ := h
  have hgive : ∀ values, p.give flag values =
      .ok { p with arguments := flag.apply values p.arguments } := fun values => by
    rw [Progress.give, if_neg hhelp]
  show p.giveFollowing [] flag values = _
  unfold Progress.giveFollowing
  cases harity : flag.arity with
  | none =>
    rw [harity] at htaken
    obtain rfl : values = [] := htaken
    show (do return Progress.leave [] (← p.give flag [])) = _
    rw [hgive]
    rfl
  | one =>
    rw [harity] at htaken
    obtain ⟨value, rfl⟩ : ∃ value, values = [value] := htaken
    show (do return Progress.leave [] (← p.give flag [value])) = _
    rw [hgive]
    rfl
  | oneOrMore =>
    rw [harity] at htaken
    obtain ⟨value, rest, rfl⟩ := List.exists_cons_of_ne_nil (show values ≠ [] from htaken)
    exact hgive _

theorem foldlM_apply_groups (p : Progress) (hfits : ∀ s ∈ settings, s.Fits) :
    (settings.map Setting.group).foldlM (Progress.apply edition) p =
      .ok { p with
        arguments := settings.foldl (fun a s => s.flag.apply s.values a) p.arguments } := by
  induction settings generalizing p with
  | nil => rfl
  | cons s rest ih =>
    obtain ⟨hs, hrest⟩ := List.forall_mem_cons.1 hfits
    rw [List.map_cons, List.foldlM_cons, Progress.apply_group p hs]
    exact ih _ hrest

/-- The words of settings ask for a run with the last values that are given to each option. -/
theorem ofWords_of_writes (edition : Edition) (h : Writes settings words)
    (hfits : ∀ s ∈ settings, s.Fits) :
    ofWords edition words = .run (.ofValues (lastValues settings)) := by
  have hread := ofText_of_writes edition h hfits
  have hdashes : "--" ∉ words := by
    intro hmem
    have hword : Word.ofText edition "--" = .ambiguous := by cases edition <;> decide
    rcases hread _ hmem with ⟨text, htext⟩ | ⟨flag, hflag⟩
    · cases hword.symm.trans htext
    · cases hword.symm.trans hflag
  have htake : words.takeWhile (· ≠ "--") = words :=
    List.takeWhile_eq_self_iff.2 fun word hword => by
      simpa using fun heq : word = "--" => hdashes (heq ▸ hword)
  have hwords : wordsOf edition words = words.map (Word.ofText edition) := by
    rw [wordsOf, htake]
  have hambiguous : .ambiguous ∉ wordsOf edition words := by
    rw [hwords, List.mem_map]
    rintro ⟨word, hmem, hword⟩
    rcases hread _ hmem with ⟨text, htext⟩ | ⟨flag, hflag⟩
    · cases hword.symm.trans htext
    · cases hword.symm.trans hflag
  have hcontains : words.contains "--" = false := by simpa using hdashes
  rw [ofWords_eq, if_neg hambiguous, hwords, group_of_writes h hfits, hcontains, ofGroups,
    foldlM_apply_groups _ hfits, foldl_apply_eq fun s hs => (hfits s hs).not_help]
  rfl

end Request

/-! ## Writing arguments -/

namespace Arguments

/-- The values that are given to an option where arguments are written out.  What stays off, and a
list of excludes that is empty, is not written. -/
def valuesFor (a : Arguments) : Flag → Option (List String)
  | .help => none
  | .paths => some a.paths
  | .excludes => if a.excludes = [] then none else some a.excludes
  | .recursive => if a.recursive then some [] else none
  | .libraryName => a.libraryName.map fun name => [name]
  | .moduleSpecName => a.moduleSpecName.map fun name => [name]
  | .format => if a.format then some [] else none
  | .verbose => if a.verbose then some [] else none

/-- The settings that write arguments out, each option once at most. -/
def settings (a : Arguments) : List Setting :=
  Flag.all.filterMap fun flag => (a.valuesFor flag).map (Setting.mk flag)

/-- Whether arguments can be written out: both names are given, some path is, and no text begins
with a hyphen. -/
structure IsWritable (a : Arguments) : Prop where
  paths_ne_nil : a.paths ≠ []
  paths : ∀ text ∈ a.paths, Word.IsPlain text
  excludes : ∀ text ∈ a.excludes, Word.IsPlain text
  libraryName : ∃ name, a.libraryName = some name ∧ Word.IsPlain name
  moduleSpecName : ∃ name, a.moduleSpecName = some name ∧ Word.IsPlain name

variable {a : Arguments}

theorem mem_settings {flag : Flag} {values : List String} :
    ⟨flag, values⟩ ∈ a.settings ↔ a.valuesFor flag = some values := by
  rw [settings, List.mem_filterMap]
  constructor
  · rintro ⟨other, -, hother⟩
    obtain ⟨given, hgiven, heq⟩ := Option.map_eq_some_iff.1 hother
    cases heq
    exact hgiven
  · intro h
    exact ⟨flag, Flag.mem_all flag, by rw [h]; rfl⟩

theorem nodup_settings (a : Arguments) : (a.settings.map Setting.flag).Nodup := by
  have hall : Flag.all.Nodup := by decide
  rw [settings, List.map_filterMap]
  refine hall.filterMap fun flag other found hfound hother => ?_
  rw [Option.map_map] at hfound hother
  obtain ⟨values, -, hflag⟩ := Option.map_eq_some_iff.1 hfound
  obtain ⟨values', -, hflag'⟩ := Option.map_eq_some_iff.1 hother
  exact hflag.trans hflag'.symm

theorem ofValues_valuesFor (h : a.IsWritable) : ofValues a.valuesFor = a := by
  obtain ⟨paths, excludes, recursive, library, moduleSpec, format, verbose⟩ := a
  obtain ⟨library, rfl, -⟩ := h.libraryName
  obtain ⟨moduleSpec, rfl, -⟩ := h.moduleSpecName
  have hexcludes : (if excludes = [] then none else some excludes).getD [] = excludes := by
    split <;> simp_all
  have hflag : ∀ on : Bool, (if on then some ([] : List String) else none).isSome = on := by decide
  simp [ofValues, valuesFor, hexcludes, hflag]

theorem fits_of_mem_settings (h : a.IsWritable) : ∀ s ∈ a.settings, s.Fits := by
  rintro ⟨flag, values⟩ hs
  have hvalues := mem_settings.1 hs
  cases flag with
  | help => cases hvalues
  | paths =>
    cases hvalues
    exact ⟨nofun, h.paths_ne_nil, h.paths⟩
  | excludes =>
    obtain ⟨hne, heq⟩ := Option.ite_none_left_eq_some.1 hvalues
    cases heq
    exact ⟨nofun, hne, h.excludes⟩
  | libraryName =>
    obtain ⟨name, hname, hplain⟩ := h.libraryName
    rw [valuesFor, hname] at hvalues
    cases hvalues
    exact ⟨nofun, ⟨name, rfl⟩, by simpa using hplain⟩
  | moduleSpecName =>
    obtain ⟨name, hname, hplain⟩ := h.moduleSpecName
    rw [valuesFor, hname] at hvalues
    cases hvalues
    exact ⟨nofun, ⟨name, rfl⟩, by simpa using hplain⟩
  | recursive | format | verbose =>
    obtain ⟨-, heq⟩ := Option.ite_none_right_eq_some.1 hvalues
    cases heq
    exact ⟨nofun, rfl, nofun⟩

/-- The settings that write arguments out give just these arguments, in every order. -/
theorem ofValues_of_perm_settings (h : a.IsWritable) {row : List Setting}
    (hrow : row.Perm a.settings) : ofValues (lastValues row) = a := by
  have hnodup : (row.map Setting.flag).Nodup := (hrow.map _).nodup_iff.2 (nodup_settings a)
  have hvalues : lastValues row = a.valuesFor := by
    funext flag
    refine Option.ext fun values => ?_
    rw [lastValues_eq_some_iff hnodup, hrow.mem_iff, mem_settings]
  rw [hvalues, ofValues_valuesFor h]

end Arguments

/-- Arguments that are written out, option by option and in any order, are read again.  In a line of
settings, leaving out an option gives it its default and leaves the others as they are; and leaving
out a setting of an option that is given again later changes nothing. -/
theorem arguments_round_trip (edition : Edition) :
    (∀ (a : Arguments) (row : List Setting) (words : List String), a.IsWritable →
      row.Perm a.settings → Writes row words → Request.ofWords edition words = .run a) ∧
    ∀ (row : List Setting) (words : List String), (∀ s ∈ row, s.Fits) → Writes row words →
      ∃ a, Request.ofWords edition words = .run a ∧
        (∀ flag fewer, Writes (row.filter (·.flag ≠ flag)) fewer →
          Request.ofWords edition fewer = .run (a.reset flag)) ∧
        ∀ front s back fewer, row = front ++ s :: back → (∃ later ∈ back, later.flag = s.flag) →
          Writes (front ++ back) fewer → Request.ofWords edition fewer = .run a := by
  constructor
  · intro a row words ha hrow hwords
    have hfits : ∀ s ∈ row, s.Fits := fun s hs =>
      Arguments.fits_of_mem_settings ha s (hrow.mem_iff.1 hs)
    rw [Request.ofWords_of_writes edition hwords hfits, Arguments.ofValues_of_perm_settings ha hrow]
  · intro row words hfits hwords
    refine ⟨_, Request.ofWords_of_writes edition hwords hfits, fun flag fewer hfewer => ?_, ?_⟩
    · have hfits' : ∀ s ∈ row.filter (·.flag ≠ flag), s.Fits := fun s hs =>
        hfits s (List.mem_of_mem_filter hs)
      rw [Request.ofWords_of_writes edition hfewer hfits', lastValues_filter,
        Arguments.reset_ofValues]
    · rintro front s back fewer rfl hlater hfewer
      obtain ⟨hfront, hback⟩ := List.forall_mem_append.1 hfits
      have hfits' : ∀ s ∈ front ++ back, s.Fits :=
        List.forall_mem_append.2 ⟨hfront, (List.forall_mem_cons.1 hback).2⟩
      rw [Request.ofWords_of_writes edition hfewer hfits', lastValues_of_repeated hlater]

/-- Arguments in which nothing is left at its default but one name. -/
def sampleArguments : Arguments where
  paths := ["a.json", "lib"]
  excludes := ["b.json"]
  recursive := true
  libraryName := some "Library"
  format := true
  verbose := true

/-- Their settings in another order. -/
def sampleSettings : List Setting :=
  [⟨.verbose, []⟩, ⟨.excludes, ["b.json"]⟩, ⟨.moduleSpecName, [""]⟩, ⟨.paths, ["a.json", "lib"]⟩,
    ⟨.format, []⟩, ⟨.libraryName, ["Library"]⟩, ⟨.recursive, []⟩]

theorem sampleArguments_isWritable : sampleArguments.IsWritable where
  paths_ne_nil := by decide
  paths := by decide
  excludes := by decide
  libraryName := ⟨_, rfl, by decide⟩
  moduleSpecName := ⟨_, rfl, by decide⟩

/-- A line in which an option is given twice. -/
def repeatingSettings : List Setting :=
  [⟨.paths, ["b.json"]⟩, ⟨.recursive, []⟩, ⟨.paths, ["a.json"]⟩]

theorem repeatingSettings_fit : ∀ s ∈ repeatingSettings, s.Fits := by
  simp only [repeatingSettings, List.forall_mem_cons, List.not_mem_nil, false_imp_iff, implies_true,
    and_true]
  exact ⟨⟨nofun, List.cons_ne_nil _ _, by decide⟩, ⟨nofun, rfl, nofun⟩,
    ⟨nofun, List.cons_ne_nil _ _, by decide⟩⟩

theorem sampleArguments_read_again :
    (sampleArguments.IsWritable ∧ sampleSettings.Perm sampleArguments.settings ∧
      Request.ofWords .newer ["--ver", "-e", "b.json", "--module-spec", "", "-p", "a.json", "lib",
        "--c", "--library-name", "Library", "--r"] = .run sampleArguments) ∧
    (∀ s ∈ repeatingSettings, s.Fits) ∧
    ∃ a, Request.ofWords .newer ["-p", "b.json", "-r", "--p", "a.json"] = .run a ∧
      Request.ofWords .newer ["-r", "--p", "a.json"] = .run a ∧
      Request.ofWords .newer ["-r"] = .run (a.reset .paths) := by
  obtain ⟨hwritten, hsettings⟩ := arguments_round_trip .newer
  have hperm : sampleSettings.Perm sampleArguments.settings := by decide
  have hwrites : Writes sampleSettings ["--ver", "-e", "b.json", "--module-spec", "", "-p",
      "a.json", "lib", "--c", "--library-name", "Library", "--r"] :=
    .cons (.name rfl (by decide) (by decide)) <| .cons (.letter rfl rfl) <|
      .cons (.name rfl (by decide) (by decide)) <| .cons (.letter rfl rfl) <|
      .cons (.name rfl (by decide) (by decide)) <| .cons (.name rfl (by decide) (by decide)) <|
      .cons (.name rfl (by decide) (by decide)) .nil
  have hrepeats : Writes repeatingSettings ["-p", "b.json", "-r", "--p", "a.json"] :=
    .cons (.letter rfl rfl) <| .cons (.letter rfl rfl) <|
      .cons (.name rfl (by decide) (by decide)) .nil
  have hlast : Writes [⟨.recursive, []⟩, ⟨.paths, ["a.json"]⟩] ["-r", "--p", "a.json"] :=
    .cons (.letter rfl rfl) <| .cons (.name rfl (by decide) (by decide)) .nil
  have hnone : Writes (repeatingSettings.filter (·.flag ≠ .paths)) ["-r"] :=
    .cons (.letter rfl rfl) .nil
  obtain ⟨a, ha, homits, hrepeated⟩ := hsettings _ _ repeatingSettings_fit hrepeats
  refine ⟨⟨sampleArguments_isWritable, hperm, ?_⟩, repeatingSettings_fit, a, ha, ?_, ?_⟩
  · exact hwritten _ _ _ sampleArguments_isWritable hperm hwrites
  · exact hrepeated [] _ _ _ rfl ⟨⟨.paths, ["a.json"]⟩, by decide, rfl⟩ hlast
  · exact homits .paths _ hnone

end NativeHeader
