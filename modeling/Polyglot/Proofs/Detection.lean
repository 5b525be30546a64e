import Polyglot.Proofs.Matching

/-!
Which locale the surroundings ask for. They offer candidates, the most important variable first and
the locale of the process last, and the first candidate that means a registered locale decides.
Leaving out the candidates that name no language saves work but changes nothing, because none of
them is a locale code. What stands behind the deciding candidate does not matter.
-/

namespace Polyglot

open Text

/-! ### Pieces between marks -/

theorem Text.split_eq_splitOn (mark : Char) (text : List Char) :
    split mark text = text.splitOn mark := by
  induction text with
  | nil => rw [split, List.splitOn_nil]
  | cons c rest ih =>
      rw [split, ih, List.splitOn_cons_eq_if_modifyHead]
      by_cases hmark : c = mark
      · rw [if_pos hmark, if_pos (beq_iff_eq.mpr hmark)]
      · rw [if_neg hmark, if_neg (by simpa using hmark)]
        cases hparts : rest.splitOn mark with
        | nil => exact absurd hparts (List.splitOn_ne_nil mark rest)
        | cons part parts => rfl

theorem Text.not_mem_of_mem_split {mark : Char} {text part : List Char}
    (h : part ∈ split mark text) : mark ∉ part := by
  induction text generalizing part with
  | nil =>
      rw [List.mem_singleton.mp h]
      exact List.not_mem_nil
  | cons c rest ih =>
      rw [split] at h
      by_cases hmark : c = mark
      · rw [if_pos hmark] at h
        rcases List.mem_cons.mp h with rfl | hpart
        · exact List.not_mem_nil
        · exact ih hpart
      · rw [if_neg hmark] at h
        cases hparts : split mark rest with
        | nil =>
            rw [hparts] at h
            rw [List.mem_singleton.mp h]
            simpa using Ne.symm hmark
        | cons first others =>
            rw [hparts] at h ih
            rcases List.mem_cons.mp h with rfl | hpart
            · exact List.not_mem_cons_of_ne_of_not_mem (Ne.symm hmark) (ih List.mem_cons_self)
            · exact ih (List.mem_cons_of_mem first hpart)

namespace Surroundings

/-- The pieces of a text that lie between its colons. -/
structure Pieces (text : String) (pieces : List String) : Prop where
  nonempty : pieces ≠ []
  joined : ":".intercalate pieces = text
  apart : ∀ piece ∈ pieces, ':' ∉ piece.toList

theorem exists_pieces (text : String) : ∃ pieces, Pieces text pieces := by
  refine ⟨(split ':' text.toList).map String.ofList, ?_, ?_, fun piece hpiece => ?_⟩
  · simp [split_eq_splitOn]
  · rw [← String.toList_inj, String.toList_intercalate, List.map_map, split_eq_splitOn]
    simp [Function.comp_def, List.intercalate_splitOn]
  · obtain ⟨part, hpart, rfl⟩ := List.mem_map.mp hpiece
    rw [String.toList_ofList]
    exact not_mem_of_mem_split hpart

/-- A text has only one list of pieces, and the parts are those that are not empty. -/
theorem Pieces.filter_eq {text : String} {pieces : List String} (h : Pieces text pieces) :
    pieces.filter (· ≠ "") = parts text := by
  have hsplit : split ':' text.toList = pieces.map String.toList := by
    rw [split_eq_splitOn, ← h.joined, String.toList_intercalate]
    refine List.splitOn_intercalate ':' (fun piece hpiece => ?_) (by simpa using h.nonempty)
    obtain ⟨part, hpart, rfl⟩ := List.mem_map.mp hpiece
    exact h.apart part hpart
  have hempty : ((!·.isEmpty) : List Char → Bool) ∘ String.toList = (decide <| · ≠ "") := by
    funext piece
    rw [Bool.eq_iff_iff]
    simp
  rw [parts, hsplit, List.filter_map, List.map_map, hempty]
  simp [Function.comp_def]

/-- What surroundings offer: the pieces of the variables that are not empty, from the most important
variable to the least, and after them the locale of the process, if it can be told. -/
def Offered (surroundings : Surroundings) (candidates : List String) : Prop :=
  ∃ all messages lang language,
    Pieces (surroundings.value "LC_ALL") all ∧
    Pieces (surroundings.value "LC_MESSAGES") messages ∧
    Pieces (surroundings.value "LANG") lang ∧ Pieces (surroundings.value "LANGUAGE") language ∧
    candidates = (all ++ messages ++ lang ++ language ++ surroundings.locale.toList).filter (· ≠ "")

theorem offered_iff {surroundings : Surroundings} {candidates : List String} :
    surroundings.Offered candidates ↔ candidates = surroundings.candidates := by
  have hlocale : surroundings.locale.toList.filter (· ≠ "") =
      (surroundings.locale.filter (· != "")).toList := by
    cases surroundings.locale with
    | none => rfl
    | some code => by_cases hcode : code = "" <;> simp [hcode, Option.filter]
  have hcandidates {all messages lang language : List String}
      (hall : Pieces (surroundings.value "LC_ALL") all)
      (hmessages : Pieces (surroundings.value "LC_MESSAGES") messages)
      (hlang : Pieces (surroundings.value "LANG") lang)
      (hlanguage : Pieces (surroundings.value "LANGUAGE") language) :
      (all ++ messages ++ lang ++ language ++ surroundings.locale.toList).filter (· ≠ "") =
        surroundings.candidates := by
    simp only [List.filter_append, hall.filter_eq, hmessages.filter_eq, hlang.filter_eq,
      hlanguage.filter_eq, hlocale]
    simp [Surroundings.candidates, languageVariables]
  constructor
  · rintro ⟨all, messages, lang, language, hall, hmessages, hlang, hlanguage, rfl⟩
    exact hcandidates hall hmessages hlang hlanguage
  · rintro rfl
    obtain ⟨all, hall⟩ := exists_pieces (surroundings.value "LC_ALL")
    obtain ⟨messages, hmessages⟩ := exists_pieces (surroundings.value "LC_MESSAGES")
    obtain ⟨lang, hlang⟩ := exists_pieces (surroundings.value "LANG")
    obtain ⟨language, hlanguage⟩ := exists_pieces (surroundings.value "LANGUAGE")
    exact ⟨all, messages, lang, language, hall, hmessages, hlang, hlanguage,
      (hcandidates hall hmessages hlang hlanguage).symm⟩

/-- Two surroundings have the same variables for languages, and the same locale of the process. -/
def SameLanguages (surroundings other : Surroundings) : Prop :=
  (∀ name ∈ languageVariables, other.value name = surroundings.value name) ∧
    other.locale = surroundings.locale

theorem SameLanguages.candidates_eq {surroundings other : Surroundings}
    (h : surroundings.SameLanguages other) : other.candidates = surroundings.candidates := by
  rw [candidates, candidates, h.2]
  refine congrArg (· ++ _) (List.flatMap_congr fun name hname => ?_)
  rw [h.1 name hname]

end Surroundings

/-! ### Neutral candidates -/

namespace Registry

variable {registry : Registry} {candidate : String}

/-- A code does not begin with a single letter and a dot. -/
theorem match?_of_dot {rest : List Char} (h : candidate.toList = 'C' :: '.' :: rest) :
    registry.match? candidate = none := by
  cases hnormal : normalizeCode candidate with
  | error error => exact match?_of_error hnormal
  | ok normal =>
      obtain ⟨spelling, ⟨front, back, hcode, hfront, -⟩, -⟩ := exists_spells hnormal
      obtain ⟨hlength, hletters⟩ := spelling.isLanguage
      rw [h] at hcode
      cases front with
      | cons c others =>
          have hblank := hfront c List.mem_cons_self
          rw [← (List.cons.inj hcode).1] at hblank
          exact absurd hblank (by decide)
      | nil =>
          rw [Spelling.text, List.nil_append] at hcode
          obtain ⟨a, b, others, hlanguage⟩ :
              ∃ a b others, spelling.language = a :: b :: others := by
            rcases hlanguage : spelling.language with _ | ⟨a, _ | ⟨b, others⟩⟩
            · simp [hlanguage] at hlength
            · simp [hlanguage] at hlength
            · exact ⟨a, b, others, rfl⟩
          rw [hlanguage] at hcode hletters
          obtain ⟨-, hsecond⟩ := List.cons.inj hcode
          have hletter := hletters b (by simp)
          rw [← (List.cons.inj hsecond).1] at hletter
          exact absurd hletter (by decide)

/-- A candidate that names no language means nothing to any registry. -/
theorem match?_of_isNeutral (h : isNeutral candidate = true) :
    registry.match? candidate = none := by
  simp only [isNeutral, Bool.or_eq_true, beq_iff_eq] at h
  rcases h with (rfl | rfl) | hdot
  · exact match?_of_error (show normalizeCode "C" = .error (.malformed "C") by decide +kernel)
  · exact match?_of_error
      (show normalizeCode "POSIX" = .error (.malformed "POSIX") by decide +kernel)
  · obtain ⟨rest, hrest⟩ := List.isPrefixOf_iff_prefix.mp hdot
    exact match?_of_dot hrest.symm

/-! ### The first that matches -/

theorem findSome?_filter_of_none {α β : Type} {f : α → Option β} {keep : α → Bool}
    (items : List α) (h : ∀ item, keep item = false → f item = none) :
    (items.filter keep).findSome? f = items.findSome? f := by
  induction items with
  | nil => rfl
  | cons item rest ih =>
      cases hkeep : keep item with
      | true => rw [List.filter_cons_of_pos hkeep, List.findSome?_cons, List.findSome?_cons, ih]
      | false =>
          rw [List.filter_cons_of_neg (by simp [hkeep]), List.findSome?_cons, h item hkeep, ih]

/-- The first candidate that means a registered locale, with this locale. -/
def firstMatch? (registry : Registry) (candidates : List String) : Option (Locale × String) :=
  candidates.findSome? fun candidate => (registry.match? candidate).map (·, candidate)

def detectedRecord (locale : Locale) (candidate : String) : Record :=
  ⟨.debug, .registry, s!"Detected system locale {locale.code} from {quoted candidate}"⟩

theorem detect_eq (registry : Registry) (surroundings : Surroundings) :
    registry.detect surroundings =
      ((registry.firstMatch? surroundings.candidates).map (·.1),
        ((registry.firstMatch? surroundings.candidates).map fun (locale, candidate) =>
          detectedRecord locale candidate).toList) := by
  have hfilter : (surroundings.candidates.filter (!isNeutral ·)).findSome?
      (fun candidate => (registry.match? candidate).map (·, candidate)) =
      registry.firstMatch? surroundings.candidates :=
    findSome?_filter_of_none _ fun candidate hneutral => by
      rw [match?_of_isNeutral (by simpa using hneutral), Option.map_none]
  rw [detect, hfilter]
  cases registry.firstMatch? surroundings.candidates with
  | none => rfl
  | some found => rfl

theorem firstMatch?_append_cons {before after : List String} {candidate : String} {locale : Locale}
    (hbefore : ∀ other ∈ before, registry.match? other = none)
    (h : registry.match? candidate = some locale) :
    registry.firstMatch? (before ++ candidate :: after) = some (locale, candidate) :=
  List.findSome?_eq_some_iff.mpr ⟨before, candidate, after, rfl, by rw [h, Option.map_some],
    fun other hother => by rw [hbefore other hother, Option.map_none]⟩

theorem firstMatch?_eq_none_iff {candidates : List String} :
    registry.firstMatch? candidates = none ↔
      ∀ candidate ∈ candidates, registry.match? candidate = none := by
  simp [firstMatch?]

/-- What a registry detects in surroundings that offer certain candidates. -/
structure Detects (registry : Registry) (surroundings : Surroundings) (candidates : List String) :
    Prop where
  found : ∀ locale, (registry.detect surroundings).1 = some locale ↔
    ∃ before candidate after, candidates = before ++ candidate :: after ∧
      (∀ other ∈ before, registry.match? other = none) ∧ registry.match? candidate = some locale
  missing : (registry.detect surroundings).1 = none ↔
    ∀ candidate ∈ candidates, registry.match? candidate = none
  /-- The candidates that are skipped could not have been found. -/
  skipped : ∀ candidate,
    candidate = "C" ∨ candidate = "POSIX" ∨ (∃ rest, candidate = "C." ++ rest) →
    registry.match? candidate = none
  /-- Other variables do not matter. -/
  elsewhere : ∀ other, surroundings.SameLanguages other →
    registry.detect other = registry.detect surroundings
  /-- What is offered behind a candidate that matches does not matter. -/
  behind : ∀ before candidate after after' other, candidates = before ++ candidate :: after →
    (registry.match? candidate).isSome = true →
    Surroundings.Offered other (before ++ candidate :: after') →
    registry.detect other = registry.detect surroundings

theorem firstMatch?_eq_some_iff {candidates : List String} {locale : Locale} :
    (registry.firstMatch? candidates).map (·.1) = some locale ↔
      ∃ before candidate after, candidates = before ++ candidate :: after ∧
        (∀ other ∈ before, registry.match? other = none) ∧
        registry.match? candidate = some locale := by
  constructor
  · intro h
    obtain ⟨⟨found, candidate⟩, hfirst, rfl⟩ := Option.map_eq_some_iff.mp h
    obtain ⟨before, other, after, rfl, hother, hbefore⟩ := List.findSome?_eq_some_iff.mp hfirst
    obtain ⟨found', hfound, heq⟩ := Option.map_eq_some_iff.mp hother
    cases heq
    exact ⟨before, candidate, after, rfl,
      fun other hmem => Option.map_eq_none_iff.mp (hbefore other hmem), hfound⟩
  · rintro ⟨before, candidate, after, rfl, hbefore, hcandidate⟩
    rw [firstMatch?_append_cons hbefore hcandidate, Option.map_some]

theorem firstMatch?_append_congr {before after after' : List String} {candidate : String}
    (h : (registry.match? candidate).isSome = true) :
    registry.firstMatch? (before ++ candidate :: after') =
      registry.firstMatch? (before ++ candidate :: after) := by
  obtain ⟨locale, hlocale⟩ := Option.isSome_iff_exists.mp h
  simp only [firstMatch?, List.findSome?_append, List.findSome?_cons, hlocale, Option.map_some]

/-- The first candidate decides that means a registered locale, whatever else is offered. -/
theorem detect_first (registry : Registry) (surroundings : Surroundings) :
    ∃ candidates, (∀ offered, surroundings.Offered offered ↔ offered = candidates) ∧
      registry.Detects surroundings candidates := by
  refine ⟨surroundings.candidates, fun offered => Surroundings.offered_iff, ?_, ?_, ?_, ?_, ?_⟩
  · intro locale
    rw [detect_eq]
    exact firstMatch?_eq_some_iff
  · rw [detect_eq, ← firstMatch?_eq_none_iff, Option.map_eq_none_iff]
  · rintro candidate (rfl | rfl | ⟨rest, rfl⟩)
    · exact match?_of_isNeutral rfl
    · exact match?_of_isNeutral rfl
    · exact match?_of_dot (String.toList_append ..)
  · intro other hsame
    rw [detect_eq, detect_eq, hsame.candidates_eq]
  · intro before candidate after after' other hcandidates hcandidate hoffered
    rw [detect_eq, detect_eq, ← Surroundings.offered_iff.mp hoffered, hcandidates,
      firstMatch?_append_congr hcandidate]

example : (regional.detect
    { environment := [("LC_ALL", "C.UTF-8"), ("LANG", "de_DE"), ("LANGUAGE", "fr::ru_RU:en")]
      locale := some "en_GB" }).1 = some ⟨"ru_RU", ""⟩ := by decide +kernel

end Registry
end Polyglot
