import Polyglot.Proofs.RoundTrip
import Polyglot.Proofs.Share

/-!
The views of a catalog. Its keys, its messages, what it lacks and what is looked up in it are
different readings of one list of entries. In a catalog that has been read from a document they
agree: every key is there once, finds its own message, and counts as untranslated when that message
has no text.
-/

namespace Polyglot.Catalog

/-! ### Entries -/

/-- Every message of a catalog, with the context and the key that it stands under. -/
def entries (catalog : Catalog) : List ((String × String) × Message) :=
  catalog.contexts.flatMap fun (context, messages) =>
    messages.map fun (key, message) => ((context, key), message)

theorem mem_entries_iff {catalog : Catalog} {context key : String} {message : Message} :
    ((context, key), message) ∈ catalog.entries ↔
      ∃ messages, (context, messages) ∈ catalog.contexts ∧ (key, message) ∈ messages := by
  simp only [entries, List.mem_flatMap, List.mem_map, Prod.exists, Prod.mk.injEq]
  constructor
  · rintro ⟨name, messages, hmessages, other, found, hfound, ⟨rfl, rfl⟩, rfl⟩
    exact ⟨messages, hmessages, hfound⟩
  · rintro ⟨messages, hmessages, hfound⟩
    exact ⟨context, messages, hmessages, key, message, hfound, ⟨rfl, rfl⟩, rfl⟩

theorem keys_eq (catalog : Catalog) : catalog.keys = catalog.entries.map (·.1) := by
  simp only [keys, entries, Table.keys, List.map_flatMap, List.map_map, Function.comp_def]

theorem messages_eq (catalog : Catalog) : catalog.messages = catalog.entries.map (·.2) := by
  simp only [messages, entries, Table.values, List.map_flatMap, List.map_map, Function.comp_def]

theorem untranslated_eq (catalog : Catalog) :
    catalog.untranslated = (catalog.entries.filter (!·.2.isTranslated)).map fun entry =>
      (entry.1.1, entry.2.source) := by
  simp only [untranslated, entries, Table.values, List.filter_flatMap, List.map_flatMap,
    List.filter_map, List.map_map, Function.comp_def]

theorem untranslated_eq_nil_iff {catalog : Catalog} :
    catalog.untranslated = [] ↔ ∀ message ∈ catalog.messages, message.text ≠ "" := by
  rw [untranslated_eq, messages_eq, List.map_eq_nil_iff, List.filter_eq_nil_iff,
    List.forall_mem_map]
  simp [Message.isTranslated]

theorem size_eq_length_keys (catalog : Catalog) : catalog.size = catalog.keys.length := by
  rw [size, messages_eq, keys_eq, List.length_map, List.length_map]

theorem length_untranslated_le (catalog : Catalog) :
    catalog.untranslated.length ≤ catalog.size := by
  rw [untranslated_eq, size, messages_eq, List.length_map, List.length_map]
  exact List.length_filter_le _ _

/-! ### Valid catalogs -/

namespace Valid

variable {catalog : Catalog} (h : catalog.Valid)

include h

theorem nodup_keys : catalog.keys.Nodup := by
  rw [keys, List.nodup_flatMap]
  constructor
  · intro entry hentry
    have hdistinct := (h.messages entry.1 entry.2 hentry).distinct
    exact hdistinct.map fun _ _ heq => congrArg Prod.snd heq
  · -- Places in different contexts differ by the context.
    refine (List.pairwise_map.mp h.distinct).imp fun {entry other} hne => ?_
    intro place hplace hother
    obtain ⟨_, -, rfl⟩ := List.mem_map.mp hplace
    obtain ⟨_, -, heq⟩ := List.mem_map.mp hother
    exact hne (congrArg Prod.fst heq).symm

/-- What is looked up is what stands there. -/
theorem mem_entries_iff_lookup {context key : String} {message : Message} :
    ((context, key), message) ∈ catalog.entries ↔
      catalog.lookup context key = some message := by
  rw [mem_entries_iff, lookup, Option.bind_eq_some_iff]
  constructor
  · rintro ⟨messages, hmessages, hmessage⟩
    have hdistinct := (h.messages context messages hmessages).distinct
    exact ⟨messages, Table.get?_of_mem h.distinct hmessages, Table.get?_of_mem hdistinct hmessage⟩
  · rintro ⟨messages, hmessages, hmessage⟩
    exact ⟨messages, Table.mem_of_get? hmessages, Table.mem_of_get? hmessage⟩

theorem lookup_of_mem {entry : (String × String) × Message} (hentry : entry ∈ catalog.entries) :
    catalog.lookup entry.1.1 entry.1.2 = some entry.2 :=
  h.mem_entries_iff_lookup.mp hentry

theorem source_of_mem {entry : (String × String) × Message} (hentry : entry ∈ catalog.entries) :
    entry.2.source = entry.1.2 :=
  (h.fits_of_lookup (h.lookup_of_mem hentry)).source

theorem mem_keys_iff_lookup {context key : String} :
    (context, key) ∈ catalog.keys ↔ ∃ message, catalog.lookup context key = some message := by
  rw [keys_eq, List.mem_map]
  constructor
  · intro hkey
    obtain ⟨entry, hentry, heq⟩ := hkey
    have hlookup := h.lookup_of_mem hentry
    rw [heq] at hlookup
    exact ⟨entry.2, hlookup⟩
  · intro hlookup
    obtain ⟨message, hmessage⟩ := hlookup
    exact ⟨_, h.mem_entries_iff_lookup.mpr hmessage, rfl⟩

theorem mem_keys_iff_contains {context key : String} :
    (context, key) ∈ catalog.keys ↔ catalog.contains context key = true := by
  rw [h.mem_keys_iff_lookup, contains, Option.isSome_iff_exists]

theorem map_messages : catalog.messages.map some =
    catalog.keys.map fun (context, key) => catalog.lookup context key := by
  rw [messages_eq, keys_eq, List.map_map, List.map_map]
  apply List.map_congr_left
  intro entry hentry
  exact (h.lookup_of_mem hentry).symm

/-- A message is reported by its source, which is the key that it stands under. -/
theorem untranslated_eq_filter : catalog.untranslated =
    catalog.keys.filter fun (context, key) => (catalog.lookup context key).any (·.text == "") := by
  have htext (entry : (String × String) × Message) (hentry : entry ∈ catalog.entries) :
      (!entry.2.isTranslated) =
        (catalog.lookup entry.1.1 entry.1.2).any (·.text == "") := by
    rw [h.lookup_of_mem hentry, Message.isTranslated, Option.any_some, bne, Bool.not_not]
  calc catalog.untranslated
      = (catalog.entries.filter (!·.2.isTranslated)).map fun entry =>
          (entry.1.1, entry.2.source) := untranslated_eq catalog
    _ = (catalog.entries.filter (!·.2.isTranslated)).map (·.1) := by
        apply List.map_congr_left
        intro entry hentry
        rw [h.source_of_mem (List.mem_of_mem_filter hentry)]
    _ = (catalog.entries.filter fun entry =>
          (catalog.lookup entry.1.1 entry.1.2).any (·.text == "")).map (·.1) := by
        rw [List.filter_congr htext]
    _ = catalog.keys.filter fun (context, key) =>
          (catalog.lookup context key).any (·.text == "") := by
        rw [keys_eq, List.filter_map]
        rfl

end Valid

/-! ### Coverage -/

theorem isShare_coverage (catalog : Catalog) : catalog.coverage.IsShare := by
  unfold coverage
  split
  · exact ⟨by decide, by decide⟩
  · rename_i hsize
    exact ⟨Nat.pos_of_ne_zero hsize, Nat.sub_le _ _⟩

theorem coverage_complete_iff (catalog : Catalog) :
    catalog.coverage.part = catalog.coverage.whole ↔ catalog.untranslated = [] := by
  have hle := length_untranslated_le catalog
  rw [← List.length_eq_zero_iff]
  unfold coverage
  split
  · exact iff_of_true rfl (by omega)
  · show catalog.size - catalog.untranslated.length = catalog.size ↔ _
    omega

/-- A catalog that has been read from a document, which is given in bytes or as a text. -/
inductive Parsed (config : Config) (locale : Locale) (catalog : Catalog) : Prop where
  | bytes (bytes : ByteArray) (h : (ofBytes config locale bytes).outcome = .ok catalog)
  | text (text : String) (h : (ofText config locale text).outcome = .ok catalog)

theorem Parsed.valid {config : Config} {locale : Locale} {catalog : Catalog}
    (h : Parsed config locale catalog) : catalog.Valid := by
  cases h with
  | bytes bytes h => exact (ofBytes_ok h).2
  | text text h => exact (ofBytes_ok h).2

/-- All ways to look at a catalog agree. -/
structure Views (catalog : Catalog) : Prop where
  keys : catalog.keys.Nodup
  lookup : ∀ context key, (∃ message, catalog.lookup context key = some message) ↔
    (context, key) ∈ catalog.keys
  contains : ∀ context key, catalog.contains context key = true ↔ (context, key) ∈ catalog.keys
  source : ∀ context key message, catalog.lookup context key = some message →
    message.source = key
  messages : catalog.messages.map some =
    catalog.keys.map fun (context, key) => catalog.lookup context key
  size : catalog.size = catalog.keys.length
  untranslated : catalog.untranslated =
    catalog.keys.filter fun (context, key) => (catalog.lookup context key).any (·.text == "")
  covered : catalog.coverage.value = 1 ↔ catalog.untranslated = []
  coverage : 0 ≤ catalog.coverage.value ∧ catalog.coverage.value ≤ 1
  /-- Rounding does not lead out of these limits, and not to one before the catalog is very big. -/
  rounded : 0 ≤ catalog.coverage.toDouble.value ∧ catalog.coverage.toDouble.value ≤ 1 ∧
    (catalog.size < 2 ^ 54 → (catalog.coverage.toDouble.value = 1 ↔ catalog.untranslated = []))

/-- Whatever document a catalog has been read from, its views agree. -/
theorem views_of_parsed {config : Config} {locale : Locale} {catalog : Catalog}
    (h : Parsed config locale catalog) : Views catalog := by
  have hvalid := h.valid
  have hshare := isShare_coverage catalog
  constructor
  case keys => exact hvalid.nodup_keys
  case lookup => exact fun context key => hvalid.mem_keys_iff_lookup.symm
  case contains => exact fun context key => hvalid.mem_keys_iff_contains.symm
  case source => exact fun context key message hlookup => (hvalid.fits_of_lookup hlookup).source
  case messages => exact hvalid.map_messages
  case size => exact size_eq_length_keys catalog
  case untranslated => exact hvalid.untranslated_eq_filter
  case covered => rw [hshare.value_eq_one_iff, coverage_complete_iff]
  case coverage => exact ⟨catalog.coverage.value_nonneg, hshare.value_le_one⟩
  case rounded =>
    refine ⟨Double.value_nonneg _, hshare.toDouble_le_one, fun hsize => ?_⟩
    have hwhole : catalog.coverage.whole < 2 ^ 54 := by
      unfold Catalog.coverage
      split
      · decide
      · exact hsize
    rw [hshare.toDouble_eq_one_iff hwhole, coverage_complete_iff]

/-- In the hard sections one of the keys is empty, and two of them have no translation. -/
theorem views_of_parsed_hardSections : ∃ catalog,
    (ofText .standard ⟨"zh_419", "中文"⟩ (write "zh_419" hardSections)).outcome = .ok catalog ∧
      catalog.untranslated = [("Ui::Main.Window", ""), ("Dialog", "OK")] ∧
      catalog.keys.length = 4 ∧ Views catalog := by
  have hsections : WritableSections hardSections := by decide +kernel
  have hparsed := @ofText_write .standard ⟨"zh_419", "中文"⟩ hardSections
    (checkVersion_standard "zh_419") (by decide +kernel) hsections
  exact ⟨_, by rw [hparsed], by decide +kernel, by decide +kernel,
    views_of_parsed (.text _ (by rw [hparsed]))⟩

end Polyglot.Catalog
