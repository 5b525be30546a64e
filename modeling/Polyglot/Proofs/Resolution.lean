import Polyglot.Proofs.Host
import Polyglot.Proofs.RoundTrip
import Polyglot.Resolution

/-!
What a resolution serves and what it asks for. The text comes from the first catalog that has a
translation, or is the key itself, and the resolution says which; it is blank only if the key or an
argument is. Whichever catalog serves a text, the text has no slot that its key does not have, so a
caller who knows the key knows which arguments to bring.
-/

namespace Polyglot

/-! ### Templates -/

namespace Snapshot

/-- A text that a catalog gives for a key. An empty text counts for nothing. -/
def Translates (catalog : Catalog) (context key text : String) : Prop :=
  text ≠ "" ∧ ∃ message, catalog.lookup context key = some message ∧ message.text = text

theorem translation?_eq_some_iff {catalog : Catalog} {context key text : String} :
    translation? catalog context key = some text ↔ Translates catalog context key text := by
  rw [translation?, Option.filter_eq_some_iff, Option.map_eq_some_iff, and_comm, bne_iff_ne,
    Translates]

theorem not_translates_of_translation? {catalog : Catalog} {context key : String}
    (h : translation? catalog context key = none) (text : String) :
    ¬ Translates catalog context key text := by
  intro htext
  rw [← translation?_eq_some_iff, h] at htext
  cases htext

/-- Where the text for a key has to come from: the active catalog goes before the one to fall back
to, and that before the key. Each has its tier and its locale. -/
inductive Serves (snapshot : Snapshot) (context key : String) : Tier → Locale → String → Prop where
  | active {text : String} (h : Translates snapshot.catalog context key text) :
      Serves snapshot context key .active snapshot.locale text
  | fallback {text : String} (hactive : ∀ other, ¬ Translates snapshot.catalog context key other)
      (h : Translates snapshot.fallback context key text) :
      Serves snapshot context key .fallback snapshot.fallback.locale text
  | source (hactive : ∀ other, ¬ Translates snapshot.catalog context key other)
      (hfallback : ∀ other, ¬ Translates snapshot.fallback context key other) :
      Serves snapshot context key .source snapshot.fallback.locale key

theorem serves_template (snapshot : Snapshot) (context key : String) :
    Serves snapshot context key (snapshot.template context key).2.1
      (snapshot.template context key).2.2 (snapshot.template context key).1 := by
  unfold template
  split
  · rename_i text hactive
    exact .active (translation?_eq_some_iff.mp hactive)
  · rename_i hactive
    have hnone := not_translates_of_translation? hactive
    split
    · rename_i text hfallback
      exact .fallback hnone (translation?_eq_some_iff.mp hfallback)
    · rename_i hfallback
      exact .source hnone (not_translates_of_translation? hfallback)

section Serves

variable {snapshot : Snapshot} {context key text : String} {tier : Tier} {locale : Locale}

/-- No catalog serves a blank text. -/
theorem Serves.ne_empty (h : Serves snapshot context key tier locale text) (hkey : key ≠ "") :
    text ≠ "" := by
  cases h with
  | active htext => exact htext.1
  | fallback _ htext => exact htext.1
  | source => exact hkey

theorem Translates.positions {catalog : Catalog} (h : Translates catalog context key text)
    (hvalid : catalog.Valid) {position : Nat} (hposition : position ∈ Placeholder.positions text) :
    position ∈ Placeholder.positions key := by
  obtain ⟨-, message, hlookup, rfl⟩ := h
  exact (hvalid.fits_of_lookup hlookup).within position hposition

theorem Serves.positions (h : Serves snapshot context key tier locale text)
    (hactive : snapshot.catalog.Valid) (hfallback : snapshot.fallback.Valid) {position : Nat}
    (hposition : position ∈ Placeholder.positions text) :
    position ∈ Placeholder.positions key := by
  cases h with
  | active htext => exact htext.positions hactive hposition
  | fallback _ htext => exact htext.positions hfallback hposition
  | source => exact hposition

end Serves

end Snapshot

/-! ### Resolutions -/

namespace Host

variable {σ : Type} {behaviour : Behaviour σ} {host : Host σ}

theorem mem_missing_resolve (h : host.Valid) {context key : String} {arguments : List String}
    {position : Nat} (hmissing : position ∈ (host.resolve context key arguments).1.missing) :
    position ∈ Placeholder.positions key ∧ arguments.length < position := by
  obtain ⟨hposition, hlength⟩ := Placeholder.mem_positions_of_mem_missing hmissing
  have hserves := Snapshot.serves_template host.snapshot context key
  exact ⟨hserves.positions h.active h.fallback hposition, hlength⟩

/-- Arity safety: at any time, a resolution lacks only positions of its key that no argument was
given for, each once. With an argument for every position of the key it lacks nothing. -/
theorem missing_of_reachable (h : host.Reachable behaviour) (context key : String)
    (arguments : List String) :
    (∀ position ∈ (host.resolve context key arguments).1.missing,
      position ∈ Placeholder.positions key ∧ arguments.length < position) ∧
    (host.resolve context key arguments).1.missing.Nodup ∧
    ((∀ position ∈ Placeholder.positions key, position ≤ arguments.length) →
      (host.resolve context key arguments).1.complete = true) := by
  have hmissing : ∀ position ∈ (host.resolve context key arguments).1.missing,
      position ∈ Placeholder.positions key ∧ arguments.length < position :=
    fun position hposition => mem_missing_resolve h.valid hposition
  refine ⟨hmissing, Placeholder.nodup_missing _ _, fun henough => ?_⟩
  rw [Resolution.complete, List.isEmpty_iff, List.eq_nil_iff_forall_not_mem]
  intro position hposition
  obtain ⟨hkey, hlength⟩ := hmissing position hposition
  have hle := henough position hkey
  omega

/-! ### A host with two locales -/

def english : Locale := ⟨"en_US", "English"⟩

def russian : Locale := ⟨"ru_RU", "Русский"⟩

theorem normalizeCode_english : normalizeCode "en_US" = .ok "en_US" := by decide +kernel

theorem normalizeCode_russian : normalizeCode "ru_RU" = .ok "ru_RU" := by decide +kernel

def englishSections : List Section := [⟨"Ui", [("Page %1 of %2", "Page %1 of %2")]⟩]

def russianSections : List Section := [⟨"Ui", [("Page %1 of %2", "%2: %1")]⟩]

theorem writable_englishSections : WritableSections englishSections := by decide +kernel

theorem writable_russianSections : WritableSections russianSections := by decide +kernel

def bilingualRegistry : Registry where
  entries := [⟨english, "veil_en.ts"⟩, ⟨russian, "veil_ru.ts"⟩]
  nodup := by decide

/-- Both catalogs are on the disk, and none has been loaded. -/
def bilingual : Library where
  store := { registry := bilingualRegistry, config := .standard }
  disk := [("veil_en.ts", .file (Catalog.write "en_US" englishSections).toUTF8),
    ("veil_ru.ts", .file (Catalog.write "ru_RU" russianSections).toUTF8)]

def englishCatalog : Catalog where
  locale := english
  contexts := englishSections.map fun part => (part.name, part.messages)

/-- The host that begins over them, with the English catalog in the cache. -/
def bilingualHost : Host Unit where
  library :=
    { bilingual with
      store.cached := [("en_US", englishCatalog)]
      journal := [bilingual.store.loadRecord "en_US" englishCatalog] }
  snapshot := ⟨0, englishCatalog, englishCatalog⟩
  memory := ()

theorem fetch_bilingual : bilingual.store.fetch bilingual.disk "en_US" = ⟨.ok englishCatalog, []⟩ :=
  @Store.fetch_written bilingual.store bilingual.disk "en_US" ⟨english, "veil_en.ts"⟩
    englishSections rfl rfl (checkVersion_standard "en_US") normalizeCode_english
    writable_englishSections

theorem load_bilingual : bilingual.load "en_US" = (.ok englishCatalog, bilingualHost.library) := by
  rw [Library.load_of_ok rfl (by rw [fetch_bilingual]), fetch_bilingual]
  rfl

theorem start_bilingual : (Host.start bilingual "en_US" ()).1 = .ok bilingualHost :=
  start_of_loaded () (by decide) (by decide) load_bilingual

theorem atRest_bilingual (behaviour : Behaviour Unit) : AtRest behaviour bilingualHost :=
  AtRest.start (Library.Reachable.fresh rfl) start_bilingual

/-- A Russian catalog whose version is too long. -/
def overlongBytes : ByteArray := (Catalog.bare (Version.zeros 4301) "ru_RU").toUTF8

theorem overlong_overlongBytes : Catalog.Overlong overlongBytes 4301 :=
  Catalog.overlong_bare normalizeCode_russian (by decide)

/-- The bilingual host after its Russian catalog has been replaced by that one. -/
def overlongHost : Host Unit :=
  { bilingualHost with
    library := bilingualHost.library.perform (.write "veil_ru.ts" (.file overlongBytes)) }

theorem overlong_overlongHost :
    overlongHost.library.store.Overlong overlongHost.library.disk "ru_RU" 4301 :=
  ⟨⟨russian, "veil_ru.ts"⟩, overlongBytes, rfl, rfl, overlong_overlongBytes⟩

theorem atRest_overlong (behaviour : Behaviour Unit) : AtRest behaviour overlongHost :=
  .perform 0 (.library (.write "veil_ru.ts" (.file overlongBytes))) (atRest_bilingual behaviour) rfl

theorem missing_of_reachable_bilingual :
    bilingualHost.Reachable (fun _ _ => .done) ∧
      (bilingualHost.resolve "Ui" "Page %1 of %2" ["7"]).1.missing = [2] ∧
      (bilingualHost.resolve "Ui" "Page %1 of %2" ["7", "9"]).1.complete = true := by
  have hreachable : bilingualHost.Reachable (fun _ _ => .done) := .rest (atRest_bilingual _)
  obtain ⟨-, -, hcomplete⟩ := missing_of_reachable hreachable "Ui" "Page %1 of %2" ["7", "9"]
  exact ⟨hreachable, by decide +kernel, hcomplete (by decide +kernel)⟩

/-! ### Honesty -/

/-- Resolutions are honest and never blank. In any host, so at any time, the text is what the
reported tier has for the key, with the arguments filled in, and a key and arguments that are not
empty do not make an empty text. -/
theorem serves_resolve (host : Host σ) (context key : String) (arguments : List String) :
    ∃ template,
      Snapshot.Serves host.snapshot context key (host.resolve context key arguments).1.tier
        (host.resolve context key arguments).1.locale template ∧
      Placeholder.substitute template arguments = ((host.resolve context key arguments).1.text,
        (host.resolve context key arguments).1.missing) ∧
      (key ≠ "" → (∀ argument ∈ arguments, argument ≠ "") →
        (host.resolve context key arguments).1.text ≠ "") := by
  have hserves := Snapshot.serves_template host.snapshot context key
  refine ⟨_, hserves, rfl, fun hkey harguments => ?_⟩
  exact Placeholder.substitute_ne_empty (hserves.ne_empty hkey) harguments

theorem serves_resolve_bilingual :
    bilingualHost.Reachable (fun _ _ => .done) ∧ "Page %1 of %2" ≠ "" ∧
      (∀ argument ∈ ["7"], argument ≠ "") ∧
      (bilingualHost.resolve "Ui" "Page %1 of %2" ["7"]).1 =
        ⟨"Page 7 of %2", .active, english, [2]⟩ ∧
      (bilingualHost.resolve "Ui" "Page %1 of %2" ["7"]).1.text ≠ "" := by
  have hkey : "Page %1 of %2" ≠ "" := by decide
  have harguments : ∀ argument ∈ ["7"], argument ≠ "" := by decide
  obtain ⟨-, -, -, hnonempty⟩ := serves_resolve bilingualHost "Ui" "Page %1 of %2" ["7"]
  exact ⟨.rest (atRest_bilingual _), hkey, harguments, by decide +kernel,
    hnonempty hkey harguments⟩

end Host
end Polyglot
