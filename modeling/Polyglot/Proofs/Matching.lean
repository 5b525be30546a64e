import Polyglot.Proofs.Discovery
import Polyglot.Proofs.Spelling

/-!
What a loosely spelled code means. A locale with the normal form of the code comes first, wherever
it is registered; without one, the first locale with the language of the code does. So nothing that
could be meant is missed, and the spelling of the code makes no difference. A discovered locale is
found under every spelling of its code, because its code is in normal form.
-/

namespace Polyglot.Registry

variable {registry : Registry} {code normal : String}

/-- The first locale that is registered with a language. -/
def FirstWith (registry : Registry) (language : String) (locale : Locale) : Prop :=
  ∃ before after, registry.locales = before ++ locale :: after ∧ locale.language = language ∧
    ∀ other ∈ before, other.language ≠ language

/-- Some locale is registered with a language. -/
def Speaks (registry : Registry) (language : String) : Prop :=
  ∃ locale ∈ registry.locales, locale.language = language

theorem find?_language_eq_some_iff {language : String} {locale : Locale} :
    registry.locales.find? (·.language == language) = some locale ↔
      registry.FirstWith language locale := by
  simp only [List.find?_eq_some_iff_append, FirstWith, beq_iff_eq, Bool.not_eq_true',
    beq_eq_false_iff_ne]
  constructor
  · rintro ⟨hlanguage, before, after, hlocales, hbefore⟩
    exact ⟨before, after, hlocales, hlanguage, hbefore⟩
  · rintro ⟨before, after, hlocales, hlanguage, hbefore⟩
    exact ⟨hlanguage, before, after, hlocales, hbefore⟩

theorem find?_language_eq_none_iff {language : String} :
    registry.locales.find? (·.language == language) = none ↔ ¬registry.Speaks language := by
  simp [List.find?_eq_none, Speaks]

theorem locale?_eq_some_iff {locale : Locale} :
    registry.locale? code = some locale ↔ locale ∈ registry.locales ∧ locale.code = code := by
  constructor
  · intro h
    obtain ⟨registration, hfind, rfl⟩ := Option.map_eq_some_iff.mp h
    exact ⟨mem_locales_of_locale? h, code_of_find? hfind⟩
  · rintro ⟨hmem, rfl⟩
    exact locale?_of_mem hmem

/-! ### The order of preference -/

theorem match?_of_error {error : CodeError} (h : normalizeCode code = .error error) :
    registry.match? code = none := by
  simp only [match?, h]

theorem match?_of_ok (h : normalizeCode code = .ok normal) :
    registry.match? code =
      (registry.locale? normal).or (registry.locales.find? (·.language == languageOf normal)) := by
  simp only [match?, h]
  cases registry.locale? normal <;> rfl

theorem match?_of_registered {locale : Locale} (h : normalizeCode code = .ok normal)
    (hlocale : locale ∈ registry.locales) (hcode : locale.code = normal) :
    registry.match? code = some locale := by
  rw [match?_of_ok h, locale?_eq_some_iff.mpr ⟨hlocale, hcode⟩, Option.some_or]

theorem match?_of_unregistered (h : normalizeCode code = .ok normal)
    (hnone : ∀ locale ∈ registry.locales, locale.code ≠ normal) :
    registry.match? code = registry.locales.find? (·.language == languageOf normal) := by
  have hlocale : registry.locale? normal = none := by
    refine Option.eq_none_iff_forall_ne_some.mpr fun locale hlocale => ?_
    obtain ⟨hmem, hcode⟩ := locale?_eq_some_iff.mp hlocale
    exact hnone locale hmem hcode
  rw [match?_of_ok h, hlocale, Option.none_or]

/-- A locale with the normal form has its language too. -/
theorem match?_eq_none_iff (h : normalizeCode code = .ok normal) :
    registry.match? code = none ↔ ¬registry.Speaks (languageOf normal) := by
  by_cases hregistered : ∃ locale ∈ registry.locales, locale.code = normal
  · obtain ⟨locale, hlocale, hcode⟩ := hregistered
    rw [match?_of_registered h hlocale hcode]
    have hspeaks : registry.Speaks (languageOf normal) :=
      ⟨locale, hlocale, congrArg languageOf hcode⟩
    simp [hspeaks]
  · rw [match?_of_unregistered h fun locale hlocale hcode => hregistered ⟨locale, hlocale, hcode⟩]
    exact find?_language_eq_none_iff

/-- The code of a discovered locale is in normal form, so the locale is found under every spelling
of it. -/
theorem match?_of_discovered {config : Config} {disk : Disk} {directory : String} {locale : Locale}
    (hlocale : locale ∈ (discover config disk directory).1.locales) :
    normalizeCode locale.code = .ok locale.code ∧
      ∀ code, normalizeCode code = .ok locale.code →
        (discover config disk directory).1.match? code = some locale := by
  obtain ⟨registration, hfind, -⟩ := mem_locales_iff.mp hlocale
  obtain ⟨declared, hdeclared⟩ :=
    normalizeCode_of_discover (Option.isSome_of_eq_some hfind)
  exact ⟨normalizeCode_normal hdeclared, fun code hcode => match?_of_registered hcode hlocale rfl⟩

/-- What a registry makes of a code. -/
structure Picks (registry : Registry) (code : String) : Prop where
  none_iff : registry.match? code = none ↔
    (∃ error, normalizeCode code = .error error) ∨
      ∃ normal, normalizeCode code = .ok normal ∧
        ∀ locale ∈ registry.locales, locale.language ≠ languageOf normal
  registered : ∀ normal locale, normalizeCode code = .ok normal → locale ∈ registry.locales →
    locale.code = normal → registry.match? code = some locale
  unregistered : ∀ normal, normalizeCode code = .ok normal →
    (∀ locale ∈ registry.locales, locale.code ≠ normal) →
    ∀ locale, registry.match? code = some locale ↔ registry.FirstWith (languageOf normal) locale
  alike : ∀ other normal, normalizeCode code = .ok normal → normalizeCode other = .ok normal →
    registry.match? other = registry.match? code

theorem picks (registry : Registry) (code : String) : registry.Picks code where
  none_iff := by
    cases hnormal : normalizeCode code with
    | error error => simp [match?_of_error hnormal]
    | ok normal => simp [match?_eq_none_iff hnormal, Speaks]
  registered := fun _ _ hnormal hlocale hcode => match?_of_registered hnormal hlocale hcode
  unregistered := fun _ hnormal hnone _ => by
    rw [match?_of_unregistered hnormal hnone, find?_language_eq_some_iff]
  alike := fun _ _ hnormal hother => by rw [match?_of_ok hnormal, match?_of_ok hother]

/-- In every registry a code means the locale with its normal form, or else the first with its
language; and what has been discovered is found under all spellings. -/
theorem picks_and_finds :
    (∀ (registry : Registry) (code : String), registry.Picks code) ∧
      ∀ (config : Config) (disk : Disk) (directory : String),
        ∀ locale ∈ (discover config disk directory).1.locales,
          normalizeCode locale.code = .ok locale.code ∧
            ∀ code, normalizeCode code = .ok locale.code →
              (discover config disk directory).1.match? code = some locale :=
  ⟨picks, fun _ _ _ _ => match?_of_discovered⟩

/-! ### Several regions of a language -/

/-- Two regions of Russian, the smaller one first, and English without a region. -/
def regional : Registry where
  entries := [⟨⟨"ru_UA", ""⟩, "lang/veil_ua.ts"⟩, ⟨⟨"en", ""⟩, "lang/veil_en.ts"⟩,
    ⟨⟨"ru_RU", ""⟩, "lang/veil_ru.ts"⟩]
  nodup := by decide

theorem picks_and_finds_regional :
    regional.match? " RU-ru.UTF-8" = some ⟨"ru_RU", ""⟩ ∧
      regional.match? "ru_BY@euro" = some ⟨"ru_UA", ""⟩ ∧
      regional.match? "russian" = none ∧ regional.match? "de-DE" = none ∧
      unfinishedLibrary.store.registry.match? "DE_de.1251" = some ⟨"de_DE", "de_DE"⟩ := by
  have hpicks := picks_and_finds.1 regional
  refine ⟨?_, ?_, ?_, ?_, ?_⟩
  · exact (hpicks _).registered "ru_RU" _ (by decide +kernel) (by decide) rfl
  · exact ((hpicks _).unregistered "ru_BY" (by decide +kernel) (by decide) _).mpr
      ⟨[], [⟨"en", ""⟩, ⟨"ru_RU", ""⟩], rfl, by decide +kernel, fun _ hother => nomatch hother⟩
  · exact (hpicks _).none_iff.mpr (Or.inl ⟨.malformed "russian", by decide +kernel⟩)
  · exact (hpicks _).none_iff.mpr (Or.inr ⟨"de_DE", by decide +kernel, by decide +kernel⟩)
  · refine (picks_and_finds.2 .standard unfinishedDirectory "lang" ⟨"de_DE", "de_DE"⟩ ?_).2 _
      (by decide +kernel)
    have hlocales : unfinishedLibrary.store.registry.locales =
        [⟨"de_DE", "de_DE"⟩, ⟨"ru", "ru"⟩] := by
      rw [locales, entries_unfinished]
      rfl
    exact hlocales ▸ List.mem_cons_self

end Polyglot.Registry
