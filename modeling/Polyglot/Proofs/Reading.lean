import Polyglot.Catalog.Reading
import Polyglot.Proofs.Names
import Polyglot.Proofs.Numeral
import Polyglot.Proofs.Placeholder
import Polyglot.Proofs.Table

/-!
What a catalog that has been read is sure of. Every message stands under its own source, its
placeholders are those of the source, and every context has a normal name. A reading starts with
nothing, and every element that it takes in keeps this up.
-/

namespace Polyglot

open Xml

/-- A message as it may stand under a key: the key is its source, and what it asks for is asked for
by the key. -/
structure Message.Fits (message : Message) (key : String) : Prop where
  source : message.source = key
  zero : 0 ∉ Placeholder.positions key
  zeroText : 0 ∉ Placeholder.positions message.text
  within : ∀ position ∈ Placeholder.positions message.text, position ∈ Placeholder.positions key
  slots : message.slots = (Placeholder.positions key).length

/-- The messages of one context. -/
structure ValidMessages (messages : Table Message) : Prop where
  distinct : messages.keys.Nodup
  fits : ∀ key message, (key, message) ∈ messages → message.Fits key

/-- The contexts of a catalog. -/
structure ValidContexts (contexts : Table (Table Message)) : Prop where
  distinct : contexts.keys.Nodup
  normal : ∀ context ∈ contexts.keys, normalizeName context = .ok context
  messages : ∀ context messages, (context, messages) ∈ contexts → ValidMessages messages

def Catalog.Valid (catalog : Catalog) : Prop := ValidContexts catalog.contexts

theorem ValidMessages.nil : ValidMessages [] where
  distinct := List.nodup_nil
  fits _ _ h := nomatch h

theorem ValidMessages.put {messages : Table Message} (h : ValidMessages messages)
    {key : String} {message : Message} (hfits : message.Fits key) :
    ValidMessages (messages.put key message) where
  distinct := Table.nodup_keys_put h.distinct key message
  fits other entry hmem := by
    rcases Table.mem_put hmem with heq | hold
    · cases heq
      exact hfits
    · exact h.fits other entry hold

theorem ValidContexts.nil : ValidContexts [] where
  distinct := List.nodup_nil
  normal _ h := nomatch h
  messages _ _ h := nomatch h

theorem ValidContexts.put {contexts : Table (Table Message)} (h : ValidContexts contexts)
    {context : String} (hnormal : normalizeName context = .ok context)
    {messages : Table Message} (hmessages : ValidMessages messages) :
    ValidContexts (contexts.put context messages) where
  distinct := Table.nodup_keys_put h.distinct context messages
  normal other hother := by
    rw [Table.keys_put] at hother
    split at hother
    · exact h.normal other hother
    · rcases List.mem_append.mp hother with hold | hnew
      · exact h.normal other hold
      · exact List.mem_singleton.mp hnew ▸ hnormal
  messages other entry hmem := by
    rcases Table.mem_put hmem with heq | hold
    · cases heq
      exact hmessages
    · exact h.messages other entry hold

/-- A context that is not there yet has no messages, which is as valid. -/
theorem ValidContexts.get {contexts : Table (Table Message)} (h : ValidContexts contexts)
    (context : String) : ValidMessages ((contexts.get? context).getD []) := by
  cases hget : contexts.get? context with
  | none => exact ValidMessages.nil
  | some messages => exact h.messages context messages (Table.mem_of_get? hget)

theorem Catalog.Valid.fits_of_lookup {catalog : Catalog} (h : catalog.Valid) {context key : String}
    {message : Message} (hlookup : catalog.lookup context key = some message) :
    message.Fits key := by
  obtain ⟨messages, hmessages, hmessage⟩ := Option.bind_eq_some_iff.mp hlookup
  exact (h.messages context messages (Table.mem_of_get? hmessages)).fits key message
    (Table.mem_of_get? hmessage)

/-- An error of the catalog of a locale, which it names. -/
def LoadError.Names (error : LoadError) (locale : String) : Prop :=
  ∃ cause, error = .catalog cause ∧ cause.locale = locale

/-- A fault in the version, a context or a message of a document. -/
def CatalogFault.IsInner : CatalogFault → Prop
  | .noVersion | .invalidVersion _ | .unsupportedVersion _ | .invalidContext _ | .noSource
  | .zeroPosition | .strayPositions _ | .duplicate => True
  | _ => False

/-- An error of the catalog of a locale with a fault of that kind. -/
def LoadError.Inner (error : LoadError) (locale : String) : Prop :=
  ∃ cause, error = .catalog cause ∧ cause.locale = locale ∧ cause.fault.IsInner

theorem LoadError.Inner.names {error : LoadError} {locale : String} (h : error.Inner locale) :
    error.Names locale := by
  obtain ⟨cause, hcause, hlocale, -⟩ := h
  exact ⟨cause, hcause, hlocale⟩

/-- The lowest version of the standard configuration is one. -/
theorem Config.isSome_parse?_minVersion :
    (Version.parse? Config.standard.minVersion).isSome = true := by
  decide +kernel

namespace Catalog

/-! ### One message -/

theorem fits_of_placeholderFault? {item : Item}
    (h : placeholderFault? item.source item.translation = none) :
    item.message.Fits item.source := by
  simp only [placeholderFault?, List.contains_iff_mem] at h
  split at h
  · cases h
  · rename_i hzero
    split at h
    · rename_i hstray
      rw [not_or] at hzero
      refine ⟨rfl, hzero.1, hzero.2, fun position hposition => ?_, rfl⟩
      have hin := List.filter_eq_nil_iff.mp hstray position hposition
      simpa using hin
    · cases h

/-- What a message element that is taken in does to the draft. It has a source; if it is live, it is
without fault and new to its context, and it is put there; otherwise the contexts stay. -/
theorem readMessage_ok {locale context : String} {draft next : Draft} {element : Node}
    (h : readMessage locale context draft element = .ok next) :
    ∃ item, item? element = some item ∧
      ((item.isLive = false ∧ next.contexts = draft.contexts) ∨
        (item.isLive = true ∧ placeholderFault? item.source item.translation = none ∧
          item.source ∉ ((draft.contexts.get? context).getD []).keys ∧
          next.contexts = draft.contexts.put context
            (((draft.contexts.get? context).getD []).put item.source item.message))) := by
  simp only [readMessage] at h
  split at h
  · cases h
  · rename_i item hitem
    refine ⟨item, hitem, ?_⟩
    split at h
    · rename_i hplural
      cases h
      exact Or.inl ⟨by simp [Item.isLive, hplural], rfl⟩
    · split at h
      · rename_i hdead
        cases h
        exact Or.inl ⟨by simpa using hdead, rfl⟩
      · rename_i hlive
        split at h
        · cases h
        · rename_i hfault
          split at h
          · cases h
          · rename_i hnew
            cases h
            exact Or.inr ⟨by simpa using hlive, hfault,
              Table.contains_eq_false_iff.mp (by simpa using hnew), rfl⟩

theorem readMessage_valid {locale context : String} {draft next : Draft} {element : Node}
    (hnormal : normalizeName context = .ok context) (hvalid : ValidContexts draft.contexts)
    (h : readMessage locale context draft element = .ok next) : ValidContexts next.contexts := by
  obtain ⟨item, -, ⟨-, heq⟩ | ⟨-, hfault, -, heq⟩⟩ := readMessage_ok h
  · rw [heq]
    exact hvalid
  · rw [heq]
    exact hvalid.put hnormal ((hvalid.get context).put (fits_of_placeholderFault? hfault))

/-! ### Contexts and the root -/

/-- What every element keeps up holds at the end of a run over elements. -/
theorem foldlM_invariant {step : Draft → Node → Except Stop Draft} {P : Draft → Prop}
    (hstep : ∀ draft element next, P draft → step draft element = .ok next → P next)
    {elements : List Node} {draft last : Draft} (hstart : P draft)
    (h : elements.foldlM step draft = .ok last) : P last := by
  induction elements generalizing draft with
  | nil =>
      cases h
      exact hstart
  | cons element rest ih =>
      rw [List.foldlM_cons] at h
      cases hnext : step draft element with
      | error stop => rw [hnext] at h; cases h
      | ok next =>
          rw [hnext] at h
          exact ih (hstep draft element next hstart hnext) h

/-- A context element that is taken in has a name; its context is there even if none of its messages
is live, and then the messages are taken in one after the other. -/
theorem readContext_ok {locale : String} {draft next : Draft} {element : Node}
    (h : readContext locale draft element = .ok next) :
    ∃ context, normalizeName (contextText element) = .ok context ∧
      (element.children "message").foldlM (readMessage locale context)
        { draft with contexts :=
            draft.contexts.put context ((draft.contexts.get? context).getD []) } = .ok next := by
  simp only [readContext] at h
  split at h
  · cases h
  · rename_i context hcontext
    exact ⟨context, hcontext, h⟩

theorem readContext_valid {locale : String} {draft next : Draft} {element : Node}
    (hvalid : ValidContexts draft.contexts) (h : readContext locale draft element = .ok next) :
    ValidContexts next.contexts := by
  obtain ⟨context, hcontext, hrun⟩ := readContext_ok h
  have hnormal := normalizeName_normal hcontext
  refine foldlM_invariant (P := fun draft => ValidContexts draft.contexts) ?_ ?_ hrun
  · intro draft element next hdraft hnext
    exact readMessage_valid hnormal hdraft hnext
  · exact hvalid.put hnormal (hvalid.get context)

theorem readRoot_valid {config : Config} {locale : String} {root : Node} {draft : Draft}
    (h : readRoot config locale root = .ok draft) : ValidContexts draft.contexts := by
  simp only [readRoot] at h
  cases hversion : checkVersion config locale (root.attribute? "version") with
  | error error => rw [hversion] at h; cases h
  | ok _ =>
      cases hlanguage : checkLanguage locale (root.attribute? "language") with
      | error error => rw [hversion, hlanguage] at h; cases h
      | ok _ =>
          rw [hversion, hlanguage] at h
          refine foldlM_invariant (P := fun draft => ValidContexts draft.contexts) ?_ ?_ h
          · intro draft element next hdraft hnext
            exact readContext_valid hdraft hnext
          · exact ValidContexts.nil

/-! ### Errors -/

/-- A schema version with a number that has too many digits, more than are converted. -/
def OverlongVersion (declared : Option String) (digits : Nat) : Prop :=
  ∃ text, declared = some text ∧ Version.parse text = .error (.oversized digits)

/-- A document in whose root such a version is declared. -/
def Overlong (bytes : ByteArray) (digits : Nat) : Prop :=
  ∃ document root, Document.parse? bytes = some document ∧ rootOf? document = some root ∧
    OverlongVersion (root.attribute? "version") digits

theorem checkVersion_of_overlong {declared : Option String} {digits : Nat}
    (h : OverlongVersion declared digits) (config : Config) (locale : String) :
    checkVersion config locale declared = .error (.version (.oversized digits)) := by
  obtain ⟨text, rfl, htext⟩ := h
  have hne : text ≠ "" := by
    intro hempty
    have hmalformed : Version.parse "" = .error (.malformed "") := rfl
    cases (hempty ▸ htext).symm.trans hmalformed
  simp only [checkVersion, Option.getD_some, htext]

/-- A version that is refused is at fault itself, outside every context, or too long. -/
theorem checkVersion_error {config : Config} {locale : String} {declared : Option String}
    {error : LoadError} (hminimum : (Version.parse? config.minVersion).isSome = true)
    (h : checkVersion config locale declared = .error error) :
    (∃ fault, error = .catalog ⟨fault, locale, none, none⟩ ∧ fault.IsInner) ∨
      ∃ digits, error = .version (.oversized digits) ∧ OverlongVersion declared digits := by
  unfold checkVersion at h
  split at h
  · cases h
    exact Or.inl ⟨_, rfl, trivial⟩
  · rename_i hne
    split at h
    · cases h
      exact Or.inl ⟨_, rfl, trivial⟩
    · rename_i digits hoversized
      cases h
      cases declared with
      | none => exact absurd rfl hne
      | some text => exact Or.inr ⟨digits, rfl, text, rfl, hoversized⟩
    · split at h
      · rename_i fault hfault
        rw [Version.parse?, hfault] at hminimum
        cases hminimum
      · split at h
        · cases h
          exact Or.inl ⟨_, rfl, trivial⟩
        · cases h

/-- The check of a version fails with a version just when it is too long. -/
theorem checkVersion_eq_version_iff {config : Config} {locale : String} {declared : Option String}
    {fault : VersionFault} (hminimum : (Version.parse? config.minVersion).isSome = true) :
    checkVersion config locale declared = .error (.version fault) ↔
      ∃ digits, fault = .oversized digits ∧ OverlongVersion declared digits := by
  constructor
  · intro h
    rcases checkVersion_error hminimum h with ⟨other, heq, -⟩ | ⟨digits, heq, hoverlong⟩
    · cases heq
    · cases heq
      exact ⟨digits, rfl, hoverlong⟩
  · intro h
    obtain ⟨digits, rfl, hoverlong⟩ := h
    exact checkVersion_of_overlong hoverlong config locale

theorem checkLanguage_error {locale : String} {declared : Option String} {error : LoadError}
    (h : checkLanguage locale declared = .error error) :
    ∃ fault, error = .catalog ⟨fault, locale, none, none⟩ := by
  unfold checkLanguage at h
  split at h
  · cases h
  · split at h
    · cases h
      exact ⟨_, rfl⟩
    · split at h
      · cases h
      · cases h
        exact ⟨_, rfl⟩

/-- A language that is the code of the locale in some spelling is in order. -/
theorem checkLanguage_of_normalizeCode {locale declared : String}
    (h : normalizeCode declared = .ok locale) : checkLanguage locale (some declared) = .ok () := by
  simp only [checkLanguage, Option.getD_some]
  split
  · rfl
  · simp only [h, if_true]

theorem isInner_of_placeholderFault? {source translation : String} {fault : CatalogFault}
    (h : placeholderFault? source translation = some fault) : fault.IsInner := by
  simp only [placeholderFault?] at h
  split at h
  · cases h
    trivial
  · split at h
    · cases h
    · cases h
      trivial

theorem readMessage_error {locale context : String} {draft : Draft} {element : Node} {stop : Stop}
    (h : readMessage locale context draft element = .error stop) : stop.error.Inner locale := by
  simp only [readMessage] at h
  split at h
  · cases h
    exact ⟨_, rfl, rfl, trivial⟩
  · split at h
    · cases h
    · split at h
      · cases h
      · split at h
        · rename_i fault hfault
          cases h
          exact ⟨_, rfl, rfl, isInner_of_placeholderFault? hfault⟩
        · split at h
          · cases h
            exact ⟨_, rfl, rfl, trivial⟩
          · cases h

/-- A run that fails has refused one element, after it has taken in those before it. -/
theorem foldlM_eq_error {ε α β : Type} {step : α → β → Except ε α} {elements : List β} {state : α}
    {error : ε} (h : elements.foldlM step state = .error error) :
    ∃ before element after middle, elements = before ++ element :: after ∧
      before.foldlM step state = .ok middle ∧ step middle element = .error error := by
  induction elements generalizing state with
  | nil => cases h
  | cons first rest ih =>
      rw [List.foldlM_cons] at h
      cases hnext : step state first with
      | error reason =>
          rw [hnext] at h
          cases h
          exact ⟨[], first, rest, state, rfl, rfl, hnext⟩
      | ok next =>
          rw [hnext] at h
          obtain ⟨before, element, after, middle, rfl, hbefore, hrefused⟩ := ih h
          refine ⟨first :: before, element, after, middle, rfl, ?_, hrefused⟩
          rw [List.foldlM_cons, hnext]
          exact hbefore

theorem readContext_error {locale : String} {draft : Draft} {element : Node} {stop : Stop}
    (h : readContext locale draft element = .error stop) : stop.error.Inner locale := by
  simp only [readContext] at h
  split at h
  · cases h
    exact ⟨_, rfl, rfl, trivial⟩
  · obtain ⟨_, _, _, _, -, -, hmessage⟩ := foldlM_eq_error h
    exact readMessage_error hmessage

/-- What stops the reading of a root is its language, a fault inside, or a version that is too
long. -/
theorem readRoot_error {config : Config} {locale : String} {root : Node} {stop : Stop}
    (hminimum : (Version.parse? config.minVersion).isSome = true)
    (h : readRoot config locale root = .error stop) :
    checkLanguage locale (root.attribute? "language") = .error stop.error ∨
      stop.error.Inner locale ∨ ∃ digits, stop.error = .version (.oversized digits) ∧
        OverlongVersion (root.attribute? "version") digits := by
  simp only [readRoot] at h
  cases hversion : checkVersion config locale (root.attribute? "version") with
  | error error =>
      rw [hversion] at h
      cases h
      rcases checkVersion_error hminimum hversion with ⟨fault, heq, hinner⟩ | hoverlong
      · exact Or.inr (Or.inl ⟨_, heq, rfl, hinner⟩)
      · exact Or.inr (Or.inr hoverlong)
  | ok _ =>
      cases hlanguage : checkLanguage locale (root.attribute? "language") with
      | error error =>
          rw [hversion, hlanguage] at h
          cases h
          exact Or.inl rfl
      | ok _ =>
          rw [hversion, hlanguage] at h
          obtain ⟨_, _, _, _, -, -, hcontext⟩ := foldlM_eq_error h
          exact Or.inr (Or.inl (readContext_error hcontext))

/-! ### Documents -/

/-- A catalog that is read is one of the locale that it is read for, and valid. -/
theorem ofDocument_ok {config : Config} {locale : Locale} {document : Document} {catalog : Catalog}
    (h : (ofDocument config locale document).outcome = .ok catalog) :
    catalog.locale = locale ∧ catalog.Valid := by
  simp only [ofDocument] at h
  split at h
  · cases h
  · split at h
    · rename_i draft hdraft
      cases h
      exact ⟨rfl, readRoot_valid hdraft⟩
    · cases h

theorem ofBytes_ok {config : Config} {locale : Locale} {bytes : ByteArray} {catalog : Catalog}
    (h : (ofBytes config locale bytes).outcome = .ok catalog) :
    catalog.locale = locale ∧ catalog.Valid := by
  simp only [ofBytes] at h
  split at h
  · cases h
  · exact ofDocument_ok h

/-- Reading ends at a version that is too long, whatever is configured. -/
theorem outcome_of_overlong {bytes : ByteArray} {digits : Nat} (h : Overlong bytes digits)
    (config : Config) (locale : Locale) :
    (ofBytes config locale bytes).outcome = .error (.version (.oversized digits)) := by
  obtain ⟨document, root, hparse, hroot, hoverlong⟩ := h
  simp only [ofBytes, hparse, ofDocument, hroot, readRoot,
    checkVersion_of_overlong hoverlong config locale.code]
  rfl

/-- If the configured minimum is a version, every other error of reading names the locale that the
catalog was read for. -/
theorem ofBytes_error {config : Config} {locale : Locale} {bytes : ByteArray} {error : LoadError}
    (hminimum : (Version.parse? config.minVersion).isSome = true)
    (h : (ofBytes config locale bytes).outcome = .error error) :
    error.Names locale.code ∨
      ∃ digits, error = .version (.oversized digits) ∧ Overlong bytes digits := by
  simp only [ofBytes] at h
  split at h
  · cases h
    exact Or.inl ⟨_, rfl, rfl⟩
  · rename_i document hparse
    simp only [ofDocument] at h
    split at h
    · cases h
      exact Or.inl ⟨_, rfl, rfl⟩
    · rename_i root hroot
      split at h
      · cases h
      · rename_i stop hstop
        cases h
        rcases readRoot_error hminimum hstop with hlanguage | hinner | ⟨digits, heq, hoverlong⟩
        · obtain ⟨fault, heq⟩ := checkLanguage_error hlanguage
          exact Or.inl ⟨_, heq, rfl⟩
        · exact Or.inl hinner.names
        · exact Or.inr ⟨digits, heq, document, root, hparse, hroot, hoverlong⟩

/-- Of a document whose root declares the locale that it is read for, only what is inside can be at
fault. -/
theorem ofBytes_error_of_declared {config : Config} {locale : Locale} {bytes : ByteArray}
    {document : Document} {root : Node} {declared : String} {error : LoadError}
    (hminimum : (Version.parse? config.minVersion).isSome = true)
    (hparse : Document.parse? bytes = some document) (hroot : rootOf? document = some root)
    (hdeclared : root.attribute? "language" = some declared)
    (hcode : normalizeCode declared = .ok locale.code)
    (h : (ofBytes config locale bytes).outcome = .error error) :
    error.Inner locale.code ∨
      ∃ digits, error = .version (.oversized digits) ∧ Overlong bytes digits := by
  simp only [ofBytes, hparse, ofDocument, hroot] at h
  split at h
  · cases h
  · rename_i stop hstop
    cases h
    rcases readRoot_error hminimum hstop with hlanguage | hinner | ⟨digits, heq, hoverlong⟩
    · rw [hdeclared, checkLanguage_of_normalizeCode hcode] at hlanguage
      cases hlanguage
    · exact Or.inl hinner
    · exact Or.inr ⟨digits, heq, document, root, hparse, hroot, hoverlong⟩

end Catalog
end Polyglot
