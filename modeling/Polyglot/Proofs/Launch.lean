import Polyglot.Launch
import Polyglot.Proofs.Preference
import Polyglot.Proofs.Startup
import Polyglot.Shipped

/-!
Launching from a stored preference. Over the shipped catalogs there is always a host, and it always
finds a locale; only the preference itself can keep it from looking for one. It does so when the
language that counts is neither a text nor one of the values that stand for none, as a number would
be. Before that the settings have to be loaded, which they are from every value within the limits.
-/

namespace Polyglot

/-! ### The shipped catalogs -/

namespace Shipped

/-- The shipped catalogs are in a directory. -/
def Present (directory : String) (disk : Disk) : Prop :=
  ∀ code text, (code, text) ∈ documents → disk.read (path directory code) = .ok text.toUTF8

/-- A text is its own translation if it begins with a character that can be seen. -/
theorem writablePhrase_self {c : Char} {rest : List Char}
    (hvisible : c ≠ ' ' ∧ c ≠ '\t' ∧ c ≠ '\n') (hadmissible : Xml.Admissible (c :: rest))
    (hzero : 0 ∉ Placeholder.scan (c :: rest)) :
    WritablePhrase (String.ofList (c :: rest), String.ofList (c :: rest)) := by
  have hwritable : Writable (String.ofList (c :: rest)) := by
    refine ⟨hadmissible.ofList, Or.inr ⟨c, ?_, hvisible⟩⟩
    rw [String.toList_ofList]
    exact List.mem_cons_self
  have hpositions : 0 ∉ Placeholder.positions (String.ofList (c :: rest)) := by
    rw [Placeholder.positions, String.toList_ofList]
    exact fun hmem => hzero (List.contains_iff_mem.mp (List.mem_filter.mp hmem).2)
  exact ⟨hwritable, hwritable, hpositions, hpositions, fun _ hposition => hposition⟩

theorem writable_english : WritableSections (sections Phrase.english) := by
  have hphrases : ∀ part ∈ phrasebook, ∀ phrase ∈ part.2,
      WritablePhrase (phrase.english, phrase.english) := by
    simp only [phrasebook, List.forall_mem_cons, List.not_mem_nil, false_imp_iff, implies_true,
      and_true]
    and_intros
    -- A literal is given by its characters, so that the kernel has nothing to decode.
    all_goals exact writablePhrase_self (by decide) (by decide) (by decide)
  have hnames : ∀ part ∈ phrasebook, normalizeName part.1 = .ok part.1 ∧
      (part.2.map Phrase.english).Nodup := by decide +kernel
  refine ⟨by decide +kernel, fun part hpart => ?_⟩
  obtain ⟨⟨name, phrases⟩, hbook, rfl⟩ := List.mem_map.mp hpart
  obtain ⟨hnormal, hdistinct⟩ := hnames _ hbook
  refine ⟨hnormal, by rwa [List.map_map], fun phrase hphrase => ?_⟩
  obtain ⟨entry, hentry, rfl⟩ := List.mem_map.mp hphrase
  exact hphrases _ hbook entry hentry

/-- The shipped catalogs may have something next to them. -/
theorem present_cons {name : String}
    (h : ∀ code ∈ documents.keys, path "translations" code ≠ name) (entry : Entry) :
    Present "translations" ((name, entry) :: disk "translations") := by
  intro code text hdocument
  have hne : path "translations" code ≠ name := h code (List.mem_map_of_mem hdocument)
  have hread : (disk "translations").read (path "translations" code) = .ok text.toUTF8 := by
    simp only [documents, List.mem_cons, List.not_mem_nil, or_false, Prod.mk.injEq] at hdocument
    rcases hdocument with ⟨rfl, rfl⟩ | ⟨rfl, rfl⟩ | ⟨rfl, rfl⟩ <;> rfl
  rw [← hread, Disk.read, Disk.read, Table.get?_cons, if_neg hne]

/-- A shipped catalog is a written one with a line break after it, and is read back as such. -/
theorem ofBytes_document {locale : Locale} {language : Phrase → String}
    (hcode : normalizeCode locale.code = .ok locale.code)
    (h : WritableSections (sections language)) :
    Catalog.ofBytes .standard locale (document locale.code language).toUTF8 =
      ⟨.ok ⟨locale, (sections language).map fun part => (part.name, part.messages)⟩, []⟩ :=
  ofBytes_of_parse?
    (parse?_write_append hcode (admissible_rootContent h.admissible) (by decide) rfl)
    (checkVersion_standard locale.code) hcode h

theorem find?_listed (directory : String) :
    (Registry.listed .standard directory).1.find? "en_US" =
      some ⟨⟨"en_US", "English"⟩, path directory "en_US"⟩ := by
  rw [Registry.listed, Registry.find?_ofList]
  rfl

theorem found_english {library : Library} {directory : String}
    (h : Present directory library.disk)
    (hregistry : library.store.registry = (Registry.listed .standard directory).1)
    (hconfig : library.store.config = .standard) :
    ∃ catalog, library.found "en_US" = .ok catalog := by
  have hread := h "en_US" (document "en_US" Phrase.english) List.mem_cons_self
  simp only [Library.found, Store.fetch, hregistry, hconfig, find?_listed, hread]
  rw [@ofBytes_document ⟨"en_US", "English"⟩ _ Host.normalizeCode_english writable_english]
  exact ⟨_, rfl⟩

theorem admissible_phrasebook : ∀ part ∈ phrasebook, ∀ phrase ∈ part.2,
    Xml.Admissible phrase.russian.toList ∧ Xml.Admissible phrase.chinese.toList := by
  simp only [phrasebook, List.forall_mem_cons, List.not_mem_nil, false_imp_iff, implies_true,
    and_true]
  and_intros
  all_goals exact .ofList (by decide)

/-- Names and sources are the same in all languages. -/
theorem admissible_sections {language : Phrase → String}
    (h : ∀ part ∈ phrasebook, ∀ phrase ∈ part.2, Xml.Admissible (language phrase).toList) :
    AdmissibleSections (sections language) := by
  intro part hpart
  obtain ⟨⟨name, phrases⟩, hbook, rfl⟩ := List.mem_map.mp hpart
  obtain ⟨hname, hsources⟩ := writable_english.admissible _ (List.mem_map_of_mem hbook)
  refine ⟨hname, fun phrase hphrase => ?_⟩
  obtain ⟨entry, hentry, rfl⟩ := List.mem_map.mp hphrase
  exact ⟨(hsources _ (List.mem_map_of_mem hentry)).1, h _ hbook entry hentry⟩

/-- A shipped catalog declares no version that is too long. -/
theorem not_overlong_document {code : String} {language : Phrase → String}
    (hcode : normalizeCode code = .ok code) (h : AdmissibleSections (sections language))
    (digits : Nat) : ¬Catalog.Overlong (document code language).toUTF8 digits :=
  Catalog.not_overlong_of_parse?
    (parse?_write_append hcode (admissible_rootContent h) (by decide) rfl) digits

theorem not_overlong_of_mem {code text : String} (h : (code, text) ∈ documents) (digits : Nat) :
    ¬Catalog.Overlong text.toUTF8 digits := by
  simp only [documents, List.mem_cons, List.not_mem_nil, or_false, Prod.mk.injEq] at h
  rcases h with ⟨rfl, rfl⟩ | ⟨rfl, rfl⟩ | ⟨rfl, rfl⟩
  · exact not_overlong_document Host.normalizeCode_english writable_english.admissible digits
  · refine not_overlong_document Host.normalizeCode_russian (admissible_sections ?_) digits
    exact fun part hpart phrase hphrase => (admissible_phrasebook part hpart phrase hphrase).1
  · refine not_overlong_document (by decide +kernel) (admissible_sections ?_) digits
    exact fun part hpart phrase hphrase => (admissible_phrasebook part hpart phrase hphrase).2

theorem auditable_of_present {library : Library} {directory : String}
    (h : Present directory library.disk)
    (hregistry : library.store.registry = (Registry.listed .standard directory).1) :
    library.Auditable := by
  intro code digits hoverlong
  obtain ⟨registration, bytes, hfind, hread, hlong⟩ := hoverlong
  rw [hregistry, Registry.listed, Registry.find?_ofList] at hfind
  have hmem := List.mem_of_find?_eq_some hfind
  have hdocument : ∃ text, (registration.code, text) ∈ documents ∧
      registration.path = path directory registration.code := by
    simp only [Config.standard, List.map_cons, List.map_nil, List.mem_cons, List.not_mem_nil,
      or_false] at hmem
    rcases hmem with rfl | rfl | rfl
    · exact ⟨_, .head _, rfl⟩
    · exact ⟨_, .tail _ (.head _), rfl⟩
    · exact ⟨_, .tail _ (.tail _ (.head _)), rfl⟩
  obtain ⟨text, htext, hpath⟩ := hdocument
  rw [hpath, h _ _ htext] at hread
  cases hread
  exact not_overlong_of_mem htext digits hlong

end Shipped

/-! ### Preferences -/

/-- A value that can be asked for as a language: a text, or a value that stands for none. -/
def Json.IsLanguage (value : Json) : Prop := (∃ text, value = .text text) ∨ value.isVoid = true

namespace Settings

theorem preference_cases (settings : Settings) :
    (settings.language.IsLanguage ∧ ∃ preferred, settings.preference = .ok preferred) ∨
      (¬settings.language.IsLanguage ∧ settings.preference = .error .notText) := by
  obtain ⟨language⟩ := settings
  by_cases hvoid : language.isVoid = true
  · refine Or.inl ⟨Or.inr hvoid, ?_⟩
    cases language with
    | text value => exact ⟨_, rfl⟩
    | _ => exact ⟨none, by simp only [preference, hvoid, if_true]⟩
  · cases language with
    | text value => exact Or.inl ⟨Or.inl ⟨value, rfl⟩, _, rfl⟩
    | _ => exact Or.inr ⟨by simpa [Json.IsLanguage] using hvoid, by simp [preference, hvoid]⟩

theorem isLanguage_iff_preference (settings : Settings) :
    settings.language.IsLanguage ↔ settings.preference ≠ .error .notText := by
  rcases settings.preference_cases with ⟨hlanguage, preferred, hok⟩ | ⟨hlanguage, herror⟩
  · exact iff_of_true hlanguage fun herror => nomatch hok.symm.trans herror
  · exact iff_of_false hlanguage fun hne => hne herror

/-- A language can be asked for after settings are loaded from a value: that of the variable, or
the one that the value gives, if it gives any. -/
def Usable (json : Json) (system : Surroundings) : Prop :=
  system.value languageVariable ≠ "" ∨
    ∀ language, json.field? "language" = some language → language.IsLanguage

section Document

variable {disk : Disk} {path text : String} {bytes : ByteArray} {json : Json}
  (hread : disk.read path = .ok bytes) (htext : String.fromUTF8? bytes = some text)
  (hjson : Json.IsDocument text.toList json)

include hread htext hjson

/-- Settings are loaded from every JSON value that is within the limits. -/
theorem load_isOk_iff_within (room : Nat) (system : Surroundings) :
    (∃ settings, (load room disk path system).1 = .ok settings) ↔
      json.Within { depth := room } := by
  have hlimits := exceeds_iff_not_within hread htext hjson room
  rcases load_cases room disk path system with
    ⟨hfatal, error, herror⟩ | ⟨hsound, settings, hok, -⟩
  · have hexceeds := hfatal.resolve_left (not_undecodable hread htext)
    rw [herror]
    exact iff_of_false (fun h => nomatch h.choose_spec) (hlimits.mp hexceeds)
  · have hwithin : ¬¬json.Within { depth := room } := fun hbeyond =>
      hsound (Or.inr (hlimits.mpr hbeyond))
    exact iff_of_true ⟨settings, hok⟩ (not_not.mp hwithin)

theorem isLanguage_iff_usable {room : Nat} {system : Surroundings} {settings : Settings}
    (h : (load room disk path system).1 = .ok settings) :
    settings.language.IsLanguage ↔ Usable json system := by
  rcases load_cases room disk path system with
    ⟨-, error, herror⟩ | ⟨-, other, hok, hset, hunset⟩
  · cases herror.symm.trans h
  · cases hok.symm.trans h
    by_cases hvalue : system.value languageVariable = ""
    · obtain ⟨hgiven, hdefault⟩ := hunset hvalue
      simp only [gives_iff hread htext hjson] at hgiven hdefault
      rw [Usable, hvalue]
      cases hfield : json.field? "language" with
      | none =>
          rw [hdefault fun language => by simp [hfield]]
          simp [Json.IsLanguage]
      | some language => simp [hgiven language hfield]
    · rw [hset hvalue]
      exact iff_of_true (Or.inl ⟨_, rfl⟩) (Or.inl hvalue)

end Document

end Settings

/-! ### Launching -/

namespace Host

variable {σ : Type}

/-- Over the shipped catalogs there is a host that can always start. -/
theorem open?_of_present {directory : String} {disk : Disk} (h : Shipped.Present directory disk)
    (memory : σ) : ∃ host journal,
      open? .empty .standard directory disk [] memory = (.ok host, journal) ∧ host.Ready ∧
        host.registry = (Registry.listed .standard directory).1 ∧ host.library.Auditable := by
  let library : Library :=
    { store := { registry := (Registry.listed .standard directory).1, config := .standard }
      disk, journal := (Registry.listed .standard directory).2 }
  obtain ⟨catalog, hfound⟩ := @Shipped.found_english library directory h rfl rfl
  have hload := @Library.load_of_ok library "en_US" catalog rfl hfound
  have hcontains : library.store.registry.contains "en_US" = true :=
    congrArg Option.isSome (Shipped.find?_listed directory)
  have hstart := start_of_loaded memory (by decide) hcontains hload
  have hvalid : library.store.Valid := .of_cached_nil rfl
  have hauditable := @Shipped.auditable_of_present library directory h rfl
  exact ⟨_, _, Prod.ext hstart rfl,
    ⟨valid_of_start hvalid hstart, held_of_start hvalid hstart, rfl,
      Config.isSome_parse?_minVersion⟩, rfl, hauditable⟩

theorem launch_of_preferred {directory : String} {disk : Disk} {settings : Settings}
    {preferred : Option String} (h : Shipped.Present directory disk)
    (hpreference : settings.preference = .ok preferred) (behaviour : Behaviour σ) (depth : Nat)
    (system : Surroundings) (memory : σ) : ∃ host journal,
      launch (switch behaviour (depth + 1)) settings system directory disk memory =
        some (.ok host, journal) ∧
      host.registry = (Registry.listed .standard directory).1 ∧
      host.snapshot.locale ∈ host.registry.locales := by
  obtain ⟨opened, journal, hopen, hready, hregistry, hauditable⟩ := open?_of_present h memory
  obtain ⟨outcome, host, hstartup, htried⟩ := hready.startup behaviour depth preferred system
  obtain ⟨rfl, -⟩ := htried.found fun digits => not_stumbles_of_auditable hauditable digits _
  have hperform : opened.perform (switch behaviour (depth + 1)) (.startup preferred system) =
      some host := by rw [perform, hstartup, Option.map_some]
  refine ⟨host, host.library.journal, ?_, (registry_of_perform hperform).trans hregistry,
    Registry.mem_locales_of_locale? (hready.valid.perform hperform).activeRegistered⟩
  simp only [launch, hopen, activate, hpreference, hstartup, Option.map_some]

theorem launch_of_notText {directory : String} {disk : Disk} {settings : Settings}
    (h : Shipped.Present directory disk) (hpreference : settings.preference = .error .notText)
    (switch : Switching σ) (system : Surroundings) (memory : σ) : ∃ journal,
      launch switch settings system directory disk memory =
        some (.error (.settings .notText), journal) := by
  obtain ⟨opened, journal, hopen, -, -, -⟩ := open?_of_present h memory
  exact ⟨opened.library.journal, by simp only [launch, hopen, activate, hpreference]⟩

/-- What launching comes to, whatever JSON value is stored. The settings are loaded if the value is
within the limits, and only then. If the language that counts can then be asked for, there is a host
with a registered locale active. Otherwise the language is refused, and there is none. -/
theorem launch_of_parsed {directory path text : String} {disk : Disk} {bytes : ByteArray}
    {json : Json} (hpresent : Shipped.Present directory disk) (hread : disk.read path = .ok bytes)
    (htext : String.fromUTF8? bytes = some text) (hjson : Json.IsDocument text.toList json)
    (room : Nat) (system later : Surroundings) (behaviour : Behaviour σ) (depth : Nat)
    (memory : σ) :
    ((∃ settings, (Settings.load room disk path system).1 = .ok settings) ↔
      json.Within { depth := room }) ∧
    ∀ settings, (Settings.load room disk path system).1 = .ok settings →
      (Settings.Usable json system → ∃ host journal,
        launch (switch behaviour (depth + 1)) settings later directory disk memory =
          some (.ok host, journal) ∧
        host.registry = (Registry.listed .standard directory).1 ∧
        host.snapshot.locale ∈ host.registry.locales) ∧
      (¬Settings.Usable json system → ∃ journal,
        launch (switch behaviour (depth + 1)) settings later directory disk memory =
          some (.error (.settings .notText), journal)) := by
  refine ⟨Settings.load_isOk_iff_within hread htext hjson room system, fun settings hload => ?_⟩
  have hiff := Settings.isLanguage_iff_usable hread htext hjson hload
  rcases settings.preference_cases with ⟨hlanguage, preferred, hok⟩ | ⟨hlanguage, herror⟩
  · exact ⟨fun _ => launch_of_preferred hpresent hok behaviour depth later memory,
      fun hunusable => absurd (hiff.mp hlanguage) hunusable⟩
  · exact ⟨fun husable => absurd (hiff.mpr husable) hlanguage,
      fun _ => launch_of_notText hpresent herror _ later memory⟩

/-! ### A number for a language -/

/-- The shipped catalogs next to a file of settings. -/
def settingsDisk (text : String) : Disk :=
  ("settings.json", .file text.toUTF8) :: Shipped.disk "translations"

theorem present_settingsDisk (text : String) :
    Shipped.Present "translations" (settingsDisk text) :=
  Shipped.present_cons (by decide) _

theorem read_settingsDisk (text : String) :
    (settingsDisk text).read "settings.json" = .ok text.toUTF8 := rfl

theorem fromUTF8?_toUTF8 (text : String) : String.fromUTF8? text.toUTF8 = some text := by
  rw [String.toUTF8_eq_toByteArray, String.fromUTF8?, dif_pos text.isValidUTF8]
  rfl

def textSettings : String := "\x7b\"language\": \"zh\"\x7d"

def numberSettings : String := "\x7b\"language\": 5\x7d"

/-- Equality of JSON values is not decidable here, so what is evaluated is whether a text can be
read, and which preference is loaded from it. -/
theorem exists_load {text : String} {preference : Except SettingsError (Option String)}
    (hread : (Json.parse { depth := 1 } text.toList).isOk = true)
    (hpreference : (Settings.load 1 (settingsDisk text) "settings.json" {}).1.map
      Settings.preference = .ok preference) :
    ∃ json settings, Json.parse { depth := 1 } text.toList = .ok json ∧
      (Settings.load 1 (settingsDisk text) "settings.json" {}).1 = .ok settings ∧
      settings.preference = preference := by
  cases hparse : Json.parse { depth := 1 } text.toList with
  | error fault =>
      rw [hparse] at hread
      cases hread
  | ok json =>
      cases hload : (Settings.load 1 (settingsDisk text) "settings.json" {}).1 with
      | error error =>
          rw [hload] at hpreference
          cases hpreference
      | ok settings =>
          rw [hload] at hpreference
          exact ⟨json, settings, rfl, rfl, Except.ok.inj hpreference⟩

theorem load_text : ∃ json settings, Json.parse { depth := 1 } textSettings.toList = .ok json ∧
    (Settings.load 1 (settingsDisk textSettings) "settings.json" {}).1 = .ok settings ∧
    settings.preference = .ok (some "zh") :=
  exists_load (by decide +kernel) (by decide +kernel)

theorem load_number : ∃ json settings, Json.parse { depth := 1 } numberSettings.toList = .ok json ∧
    (Settings.load 1 (settingsDisk numberSettings) "settings.json" {}).1 = .ok settings ∧
    settings.preference = .error .notText :=
  exists_load (by decide +kernel) (by decide +kernel)

theorem launch_of_parsed_number :
    (∃ settings host journal,
      (Settings.load 1 (settingsDisk textSettings) "settings.json" {}).1 = .ok settings ∧
      launch (switch (fun _ _ => .done) 1) settings {} "translations" (settingsDisk textSettings)
        () = some (.ok host, journal) ∧
      host.snapshot.locale ∈ host.registry.locales) ∧
    ∃ settings journal,
      (Settings.load 1 (settingsDisk numberSettings) "settings.json" {}).1 = .ok settings ∧
      launch (switch (fun _ _ => .done) 1) settings {} "translations" (settingsDisk numberSettings)
        () = some (.error (.settings .notText), journal) := by
  obtain ⟨json, settings, hjson, hload, hpreference⟩ := load_text
  obtain ⟨json', settings', hjson', hload', herror⟩ := load_number
  have husable : Settings.Usable json {} := by
    rw [← Settings.isLanguage_iff_usable (read_settingsDisk _) (fromUTF8?_toUTF8 _) ⟨_, hjson⟩
      hload, Settings.isLanguage_iff_preference, hpreference]
    decide
  have hunusable : ¬Settings.Usable json' {} := by
    rw [← Settings.isLanguage_iff_usable (read_settingsDisk _) (fromUTF8?_toUTF8 _) ⟨_, hjson'⟩
      hload', Settings.isLanguage_iff_preference, herror]
    decide
  obtain ⟨-, hlaunches⟩ := launch_of_parsed (present_settingsDisk _) (read_settingsDisk _)
    (fromUTF8?_toUTF8 _) ⟨_, hjson⟩ 1 {} {} (fun _ _ => .done) 0 ()
  obtain ⟨-, hlaunches'⟩ := launch_of_parsed (present_settingsDisk _) (read_settingsDisk _)
    (fromUTF8?_toUTF8 _) ⟨_, hjson'⟩ 1 {} {} (fun _ _ => .done) 0 ()
  obtain ⟨host, journal, hlaunch, -, hmem⟩ := (hlaunches settings hload).1 husable
  obtain ⟨last, hlast⟩ := (hlaunches' settings' hload').2 hunusable
  exact ⟨⟨settings, host, journal, hload, hlaunch, hmem⟩, settings', last, hload', hlast⟩

/-- A stored number keeps an application from being launched, although the settings are loaded. -/
theorem not_launch_of_number : ¬∀ (room : Nat) (disk : Disk) (path directory text : String)
    (bytes : ByteArray) (json : Json) (system later : Surroundings),
    Shipped.Present directory disk → disk.read path = .ok bytes →
    String.fromUTF8? bytes = some text → Json.parse { depth := room } text.toList = .ok json →
    ∃ settings, (Settings.load room disk path system).1 = .ok settings ∧
      ∃ depth host journal, launch (switch (fun _ _ => .done) depth) settings later directory disk
        () = some (.ok host, journal) ∧ host.snapshot.locale ∈ host.registry.locales := by
  intro h
  obtain ⟨json, settings, hjson, hload, herror⟩ := load_number
  obtain ⟨other, hother, depth, host, journal, hlaunch, -⟩ := h _ _ _ _ _ _ _ {} {}
    (present_settingsDisk _) (read_settingsDisk _) (fromUTF8?_toUTF8 _) hjson
  obtain rfl := Except.ok.inj (hload.symm.trans hother)
  obtain ⟨last, hlast⟩ := launch_of_notText (present_settingsDisk _) herror
    (switch (fun _ _ => .done) depth) {} ()
  cases hlaunch.symm.trans hlast

end Host
end Polyglot
