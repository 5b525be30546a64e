import Polyglot.Proofs.Limits
import Polyglot.Proofs.Table
import Polyglot.Settings

/-!
What settings come to. A file that is text in UTF-8 and keeps to the limits of reading never keeps
settings from being loaded: the variable of the environment goes before it, and otherwise only the
language counts that the file gives as a field of a JSON object. Bytes that are no text are refused,
and so is what goes beyond a limit, even if the variable is set.
-/

namespace Polyglot

/-- Of the fields of a name the last one counts, whatever the others are. -/
theorem Json.field?_object_eq_some_iff {fields : List (String × Json)} {name : String}
    {value : Json} : (Json.object fields).field? name = some value ↔
      ∃ before after, fields = before ++ (name, value) :: after ∧
        ∀ field ∈ after, field.1 ≠ name := by
  rw [field?, lookup_reverse_eq_some_iff]

namespace Settings

/-! ### What a file gives -/

/-- The file holds bytes that are no text in UTF-8. -/
def Undecodable (disk : Disk) (path : String) : Prop :=
  ∃ bytes, disk.read path = .ok bytes ∧ String.fromUTF8? bytes = none

/-- The file is text in UTF-8, but reading it comes to a limit, before it has been read and before
anything malformed. -/
def Exceeds (depth : Nat) (disk : Disk) (path : String) : Prop :=
  ∃ bytes text fault, disk.read path = .ok bytes ∧ String.fromUTF8? bytes = some text ∧
    Json.parse { depth } text.toList = .error fault ∧ fault ≠ .malformed

/-- The file is a JSON object in UTF-8 that gives a language. -/
def Gives (disk : Disk) (path : String) (language : Json) : Prop :=
  ∃ bytes text before after, disk.read path = .ok bytes ∧ String.fromUTF8? bytes = some text ∧
    Json.IsDocument text.toList (.object (before ++ ("language", language) :: after)) ∧
    ∀ field ∈ after, field.1 ≠ "language"

section Document

variable {disk : Disk} {path text : String} {bytes : ByteArray} {json : Json}
  (hread : disk.read path = .ok bytes) (htext : String.fromUTF8? bytes = some text)
  (hjson : Json.IsDocument text.toList json)

include hread htext

theorem not_undecodable : ¬Undecodable disk path := by
  intro hundecodable
  obtain ⟨other, hother, hnone⟩ := hundecodable
  cases hread.symm.trans hother
  cases htext.symm.trans hnone

theorem exceeds_iff (depth : Nat) : Exceeds depth disk path ↔
    ∃ fault, Json.parse { depth } text.toList = .error fault ∧ fault ≠ .malformed := by
  constructor
  · intro h
    obtain ⟨other, decoded, fault, hother, hdecoded, hfault⟩ := h
    cases hread.symm.trans hother
    cases htext.symm.trans hdecoded
    exact ⟨fault, hfault⟩
  · intro h
    obtain ⟨fault, hfault⟩ := h
    exact ⟨bytes, text, fault, hread, htext, hfault⟩

include hjson

/-- A document comes to a limit just when its value is not within the limits. -/
theorem exceeds_iff_not_within (depth : Nat) :
    Exceeds depth disk path ↔ ¬json.Within { depth } := by
  rw [exceeds_iff hread htext]
  rcases Json.parse_of_isDocument hjson { depth } with ⟨hwithin, hparse⟩ | ⟨hwithin, hfault⟩
  · refine iff_of_false (fun h => ?_) (not_not_intro hwithin)
    obtain ⟨fault, hfault, -⟩ := h
    cases hparse.symm.trans hfault
  · exact iff_of_true hfault hwithin

theorem gives_iff {language : Json} :
    Gives disk path language ↔ json.field? "language" = some language := by
  constructor
  · intro h
    obtain ⟨other, decoded, before, after, hother, hdecoded, hobject, hafter⟩ := h
    cases hread.symm.trans hother
    cases htext.symm.trans hdecoded
    cases hjson.unique hobject
    exact Json.field?_object_eq_some_iff.mpr ⟨before, after, rfl, hafter⟩
  · intro hfield
    cases json with
    | object fields =>
        obtain ⟨before, after, rfl, hafter⟩ := Json.field?_object_eq_some_iff.mp hfield
        exact ⟨bytes, text, before, after, hread, htext, hjson, hafter⟩
    | _ => cases hfield

end Document

/-- What settings say that hold because of a file. -/
structure Stated (disk : Disk) (path : String) (settings : Settings) : Prop where
  given : ∀ language, Gives disk path language → settings.language = language
  default : (∀ language, ¬Gives disk path language) → settings = {}

/-- A file that gives no language leaves the settings as they are by default. -/
theorem stated_default {disk : Disk} {path : String} (h : ∀ language, ¬Gives disk path language) :
    Stated disk path {} :=
  ⟨fun language hgives => absurd hgives (h language), fun _ => rfl⟩

theorem stated_ofJson {disk : Disk} {path text : String} {bytes : ByteArray} {json : Json}
    (hread : disk.read path = .ok bytes) (htext : String.fromUTF8? bytes = some text)
    (hjson : Json.IsDocument text.toList json) : Stated disk path (ofJson json) := by
  constructor
  · intro language hgives
    rw [ofJson, (gives_iff hread htext hjson).mp hgives, Option.getD_some]
  · intro hnone
    have hfield : json.field? "language" = none :=
      Option.eq_none_iff_forall_ne_some.mpr fun language hfield =>
        hnone language ((gives_iff hread htext hjson).mpr hfield)
    rw [ofJson, hfield, Option.getD_none]

/-- The settings that a text gives, if reading it comes to no limit. A text that is taken for
malformed is no document under any limits. -/
theorem ofText_cases {disk : Disk} {path text : String} {bytes : ByteArray}
    (hread : disk.read path = .ok bytes) (htext : String.fromUTF8? bytes = some text)
    (depth : Nat) :
    (Exceeds depth disk path ∧ ∃ error, ofText depth text = .error (.fatal error)) ∨
    (¬Exceeds depth disk path ∧ ofText depth text = .error .unreadable ∧ Stated disk path {}) ∨
    (¬Exceeds depth disk path ∧ ∃ settings, ofText depth text = .ok settings ∧
      Stated disk path settings) := by
  rw [exceeds_iff hread htext, ofText]
  match hparse : Json.parse { depth } text.toList with
  | .ok json =>
      exact Or.inr (Or.inr ⟨by simp, ofJson json, rfl,
        stated_ofJson hread htext ⟨{ depth }, hparse⟩⟩)
  | .error (.oversized digits) => exact Or.inl ⟨⟨_, rfl, by simp⟩, _, rfl⟩
  | .error .tooDeep => exact Or.inl ⟨⟨_, rfl, by simp⟩, _, rfl⟩
  | .error .malformed =>
      refine Or.inr (Or.inl ⟨by simp, rfl, stated_default fun language hgives => ?_⟩)
      obtain ⟨other, decoded, before, after, hother, hdecoded, hobject, -⟩ := hgives
      cases hread.symm.trans hother
      cases htext.symm.trans hdecoded
      rcases Json.parse_of_isDocument hobject { depth } with ⟨-, hok⟩ | ⟨-, fault, hfault, hne⟩
      · cases hparse.symm.trans hok
      · cases hparse.symm.trans hfault
        exact hne rfl

/-- Reading the file is fatal just when it is no text or comes to a limit; whatever else is wrong
with it, it gives no language. -/
theorem ofFile_cases (depth : Nat) (disk : Disk) (path : String) :
    ((Undecodable disk path ∨ Exceeds depth disk path) ∧
      ∃ error, ofFile depth disk path = .error (.fatal error)) ∨
    (¬(Undecodable disk path ∨ Exceeds depth disk path) ∧
      ofFile depth disk path = .error .unreadable ∧ Stated disk path {}) ∨
    (¬(Undecodable disk path ∨ Exceeds depth disk path) ∧
      ∃ settings, ofFile depth disk path = .ok settings ∧ Stated disk path settings) := by
  unfold ofFile
  cases hread : disk.read path with
  | error cause =>
      have hnone {bytes : ByteArray} : disk.read path ≠ .ok bytes := by simp [hread]
      have hsound : ¬(Undecodable disk path ∨ Exceeds depth disk path) := by
        intro h
        rcases h with ⟨bytes, hbytes, -⟩ | ⟨bytes, text, fault, hbytes, -⟩
        · exact hnone hbytes
        · exact hnone hbytes
      have hstated : Stated disk path {} := stated_default fun language hgives => by
        obtain ⟨bytes, text, before, after, hbytes, -⟩ := hgives
        exact hnone hbytes
      cases cause with
      | missing => exact Or.inr (Or.inr ⟨hsound, {}, rfl, hstated⟩)
      | isDirectory => exact Or.inr (Or.inl ⟨hsound, rfl, hstated⟩)
  | ok bytes =>
      cases htext : String.fromUTF8? bytes with
      | none => exact Or.inl ⟨Or.inl ⟨bytes, hread, htext⟩, .undecodable, by simp only [htext]⟩
      | some text =>
          have hdecodable := not_undecodable hread htext
          simp only [htext, hdecodable, false_or]
          exact ofText_cases hread htext depth

/-! ### What is loaded -/

theorem override_of_unset {system : Surroundings} (h : system.value languageVariable = "")
    (settings : Settings) : settings.override system = settings := by
  simp only [override, h]

theorem override_of_set {system : Surroundings} (h : system.value languageVariable ≠ "")
    (settings : Settings) :
    settings.override system = ⟨.text (system.value languageVariable)⟩ := by
  rw [override]
  split
  · rename_i hempty
    exact absurd hempty h
  · rfl

/-- What loaded settings say: the variable goes before the file, and the file before the default. -/
structure Loaded (disk : Disk) (path : String) (system : Surroundings) (settings : Settings) :
    Prop where
  set : system.value languageVariable ≠ "" →
    settings = ⟨.text (system.value languageVariable)⟩
  unset : system.value languageVariable = "" → Stated disk path settings

theorem loaded_override {disk : Disk} {path : String} {settings : Settings}
    (h : Stated disk path settings) (system : Surroundings) :
    Loaded disk path system (settings.override system) where
  set hset := override_of_set hset settings
  unset hunset := (override_of_unset hunset settings).symm ▸ h

/-- What loading comes to, whatever is in the file. -/
theorem load_cases (depth : Nat) (disk : Disk) (path : String) (system : Surroundings) :
    ((Undecodable disk path ∨ Exceeds depth disk path) ∧
      ∃ error, (load depth disk path system).1 = .error error) ∨
    (¬(Undecodable disk path ∨ Exceeds depth disk path) ∧
      ∃ settings, (load depth disk path system).1 = .ok settings ∧
        Loaded disk path system settings) := by
  simp only [load]
  rcases ofFile_cases depth disk path with
    ⟨hfatal, error, hfile⟩ | ⟨hsound, hfile, hstated⟩ | ⟨hsound, settings, hfile, hstated⟩
  · rw [hfile]
    exact Or.inl ⟨hfatal, error, rfl⟩
  · rw [hfile]
    exact Or.inr ⟨hsound, _, rfl, loaded_override hstated system⟩
  · rw [hfile]
    exact Or.inr ⟨hsound, _, rfl, loaded_override hstated system⟩

/-- Loading is refused just when the file holds bytes that are no text, or reading it comes to a
limit, as it does for a document that is not within the limits, whatever the variable says.
Otherwise the settings are what the variable says, if it is set, or else what the file gives. -/
theorem load_ok_iff (depth : Nat) (disk : Disk) (path : String) (system : Surroundings) :
    ((∃ settings, (load depth disk path system).1 = .ok settings) ↔
      ¬(Undecodable disk path ∨ Exceeds depth disk path)) ∧
    (∀ bytes text json, disk.read path = .ok bytes → String.fromUTF8? bytes = some text →
      Json.IsDocument text.toList json →
      (Exceeds depth disk path ↔ ¬json.Within { depth })) ∧
    ∀ settings, (load depth disk path system).1 = .ok settings →
      Loaded disk path system settings := by
  have hlimits (bytes : ByteArray) (text : String) (json : Json)
      (hread : disk.read path = .ok bytes) (htext : String.fromUTF8? bytes = some text)
      (hjson : Json.IsDocument text.toList json) :
      Exceeds depth disk path ↔ ¬json.Within { depth } :=
    exceeds_iff_not_within hread htext hjson depth
  rcases load_cases depth disk path system with
    ⟨hfatal, error, herror⟩ | ⟨hsound, settings, hok, hloaded⟩
  · rw [herror]
    exact ⟨iff_of_false (fun h => nomatch h.choose_spec) (not_not_intro hfatal), hlimits,
      fun settings h => nomatch h⟩
  · rw [hok]
    refine ⟨iff_of_true ⟨settings, rfl⟩ hsound, hlimits, fun other h => ?_⟩
    cases h
    exact hloaded

/-- A file of settings with a single byte that no text in UTF-8 holds. -/
def strayDisk : Disk := [("settings.json", .file ⟨#[0xff]⟩)]

theorem undecodable_stray : Undecodable strayDisk "settings.json" :=
  ⟨⟨#[0xff]⟩, rfl, by decide +kernel⟩

/-- A stray byte keeps the settings from being loaded, although the variable is set. -/
theorem not_load_ok_of_byte : ¬∀ (depth : Nat) (disk : Disk) (path : String)
    (system : Surroundings), ∃ settings, (load depth disk path system).1 = .ok settings ∧
      (system.value languageVariable ≠ "" →
        settings.language = .text (system.value languageVariable)) := by
  intro h
  obtain ⟨settings, hload, -⟩ := h 1 strayDisk "settings.json"
    { environment := [("VEIL_LANGUAGE", "ru")] }
  rcases load_cases 1 strayDisk "settings.json" { environment := [("VEIL_LANGUAGE", "ru")] } with
    ⟨-, error, herror⟩ | ⟨hsound, -⟩
  · cases herror.symm.trans hload
  · exact hsound (Or.inl undecodable_stray)

end Settings
end Polyglot
