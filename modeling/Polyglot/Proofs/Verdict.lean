import Polyglot.Proofs.Description
import Polyglot.Proofs.RoundTrip

/-!
Readings without their records. What a reading comes to, contexts or an error, depends on the
contexts that have been read before, but not on the records made on the way. So a reading is a run
of checks over elements, and it ends in an error just when one of the elements is refused after all
those before it have been taken in.
-/

namespace Polyglot.Catalog

open Xml

/-- What a reading comes to. -/
abbrev Verdict := Except LoadError (Table (Table Message))

def verdict : Except Stop Draft → Verdict
  | .ok draft => .ok draft.contexts
  | .error stop => .error stop.error

/-! ### Runs of checks -/

section Runs

variable {ε α β : Type} {check : α → β → Except ε α} {elements : List β} {state last : α}

/-- A run goes on where a part of it has ended. -/
theorem foldlM_append_of_ok (h : elements.foldlM check state = .ok last) (rest : List β) :
    (elements ++ rest).foldlM check state = rest.foldlM check last := by
  rw [List.foldlM_append, h]
  rfl

/-- An element that changes nothing can be left out. -/
theorem foldlM_append_of_idle {element : β} (h : ∀ state, check state element = .ok state)
    (rest : List β) :
    (elements ++ element :: rest).foldlM check state = (elements ++ rest).foldlM check state := by
  rw [List.foldlM_append, List.foldlM_append]
  congr 1
  funext middle
  rw [List.foldlM_cons, h]
  rfl

/-- An element can be replaced by one that is judged as it is. -/
theorem foldlM_append_congr {element other : β}
    (h : ∀ state, check state other = check state element) (rest : List β) :
    (elements ++ other :: rest).foldlM check state =
      (elements ++ element :: rest).foldlM check state := by
  simp only [List.foldlM_append, List.foldlM_cons, h]

end Runs

/-- If every element is judged by the contexts alone, so is a run over elements. -/
theorem verdict_foldlM {step : Draft → Node → Except Stop Draft}
    {judge : Table (Table Message) → Node → Verdict}
    (h : ∀ draft element, verdict (step draft element) = judge draft.contexts element)
    (elements : List Node) (draft : Draft) :
    verdict (elements.foldlM step draft) = elements.foldlM judge draft.contexts := by
  induction elements generalizing draft with
  | nil => rfl
  | cons element rest ih =>
      rw [List.foldlM_cons, List.foldlM_cons, ← h]
      cases step draft element with
      | error stop => rfl
      | ok next => exact ih next

/-! ### Judging messages and contexts -/

/-- What a message element comes to, in a context of a draft with certain contexts. -/
def judgeMessage (locale context : String) (contexts : Table (Table Message)) (element : Node) :
    Verdict :=
  verdict (readMessage locale context ⟨contexts, []⟩ element)

/-- What a context element comes to. -/
def judgeContext (locale : String) (contexts : Table (Table Message)) (element : Node) : Verdict :=
  verdict (readContext locale ⟨contexts, []⟩ element)

/-- What the root of a catalog comes to. -/
def judgeRoot (config : Config) (locale : String) (root : Node) : Verdict := do
  checkVersion config locale (root.attribute? "version")
  checkLanguage locale (root.attribute? "language")
  (root.children "context").foldlM (judgeContext locale) []

theorem verdict_readMessage (locale context : String) (draft : Draft) (element : Node) :
    verdict (readMessage locale context draft element) =
      judgeMessage locale context draft.contexts element := by
  simp only [judgeMessage, readMessage]
  cases item? element with
  | none => rfl
  | some item =>
      simp only
      split
      · rfl
      · split
        · rfl
        · split
          · rfl
          · split <;> rfl

theorem verdict_readMessages (locale context : String) (draft : Draft) (elements : List Node) :
    verdict (elements.foldlM (readMessage locale context) draft) =
      elements.foldlM (judgeMessage locale context) draft.contexts :=
  verdict_foldlM (verdict_readMessage locale context) elements draft

/-- A context element without a valid name is refused; another one makes room for its context and
has its messages judged. -/
theorem judgeContext_eq (locale : String) (contexts : Table (Table Message)) (element : Node) :
    judgeContext locale contexts element =
      match normalizeName (contextText element) with
      | .error cause => .error (.catalog ⟨.invalidContext cause, locale, none, none⟩)
      | .ok context => (element.children "message").foldlM (judgeMessage locale context)
          (contexts.put context ((contexts.get? context).getD [])) := by
  simp only [judgeContext, readContext]
  cases normalizeName (contextText element) with
  | error cause => rfl
  | ok context => exact verdict_readMessages _ _ _ _

theorem verdict_readContext (locale : String) (draft : Draft) (element : Node) :
    verdict (readContext locale draft element) = judgeContext locale draft.contexts element := by
  rw [judgeContext_eq, readContext]
  cases normalizeName (contextText element) with
  | error cause => rfl
  | ok context => exact verdict_readMessages _ _ _ _

theorem verdict_readRoot (config : Config) (locale : String) (root : Node) :
    verdict (readRoot config locale root) = judgeRoot config locale root := by
  rw [readRoot, judgeRoot]
  cases checkVersion config locale (root.attribute? "version") with
  | error error => rfl
  | ok _ =>
      cases checkLanguage locale (root.attribute? "language") with
      | error error => rfl
      | ok _ => exact verdict_foldlM (verdict_readContext locale) _ _

/-! ### What is accepted -/

theorem verdict_eq_ok_iff {result : Except Stop Draft} {contexts : Table (Table Message)} :
    verdict result = .ok contexts ↔ ∃ draft, result = .ok draft ∧ draft.contexts = contexts := by
  cases result with
  | error stop => simp [verdict]
  | ok draft => simp [verdict]

theorem judgeMessages_eq_ok_iff {locale context : String} {before : Table (Table Message)}
    {old : Table Message} (hold : old.keys.Nodup) (elements : List Node)
    (contexts : Table (Table Message)) :
    elements.foldlM (judgeMessage locale context) (before.put context old) = .ok contexts ↔
      SoundMessages elements ∧ (old.keys ++ (liveItems elements).map Item.source).Nodup ∧
        contexts = before.put context (old ++ (liveItems elements).map Item.entry) := by
  have hrun := verdict_readMessages locale context ⟨before.put context old, []⟩ elements
  rw [← hrun, verdict_eq_ok_iff]
  exact readMessages_iff rfl hold elements contexts

theorem judgeContexts_eq_ok_iff (locale : String) (elements : List Node)
    (contexts : Table (Table Message)) :
    elements.foldlM (judgeContext locale) [] = .ok contexts ↔
      Acceptable elements ∧ contexts = described elements := by
  have hrun := verdict_foldlM (verdict_readContext locale) elements {}
  rw [← readContexts_iff locale, ← verdict_eq_ok_iff, hrun]

theorem judgeRoot_eq_ok_iff (config : Config) (locale : String) (root : Node)
    (contexts : Table (Table Message)) :
    judgeRoot config locale root = .ok contexts ↔
      AcceptsVersion config (root.attribute? "version") ∧
        AcceptsLanguage locale (root.attribute? "language") ∧
        Acceptable (root.children "context") ∧
        contexts = described (root.children "context") := by
  rw [← verdict_readRoot, verdict_eq_ok_iff, readRoot_iff]

/-! ### Documents -/

/-- The root element of the catalog that bytes stand for, if they are well-formed. -/
def rootIn? (bytes : ByteArray) : Option Node := (Document.parse? bytes).bind rootOf?

/-- The root of a written catalog is the one that was meant. -/
theorem rootIn?_write {code : String} {parts : List Section} (hcode : normalizeCode code = .ok code)
    (h : Admissible (rootContent parts)) :
    rootIn? (Catalog.write code parts).toUTF8 = some (rootNode code parts) := by
  rw [rootIn?, parse?_write hcode h]
  rfl

theorem outcome_ofDocument {config : Config} {locale : Locale} {document : Document} {root : Node}
    (hroot : rootOf? document = some root) :
    (ofDocument config locale document).outcome =
      (judgeRoot config locale.code root).map (Catalog.mk locale) := by
  simp only [← verdict_readRoot, ofDocument, hroot]
  cases readRoot config locale.code root <;> rfl

theorem outcome_ofBytes {config : Config} {locale : Locale} {bytes : ByteArray} {root : Node}
    (hroot : rootIn? bytes = some root) :
    (ofBytes config locale bytes).outcome =
      (judgeRoot config locale.code root).map (Catalog.mk locale) := by
  obtain ⟨document, hparse, hdocument⟩ := Option.bind_eq_some_iff.mp hroot
  rw [ofBytes, hparse]
  exact outcome_ofDocument hdocument

/-- Without a root there is nothing inside that could be at fault. -/
theorem outcome_of_rootless {bytes : ByteArray} (h : rootIn? bytes = none) (config : Config)
    (locale : Locale) : ∃ fault, (ofBytes config locale bytes).outcome =
      .error (.catalog ⟨fault, locale.code, none, none⟩) := by
  rw [ofBytes]
  cases hparse : Document.parse? bytes with
  | none => exact ⟨_, rfl⟩
  | some document =>
      have hroot : rootOf? document = none := by rwa [rootIn?, hparse] at h
      simp only [ofDocument, hroot]
      exact ⟨_, rfl⟩

/-- The catalog that is read from bytes is the one that their contexts describe, if these are
acceptable and the version and the language are accepted. -/
theorem outcome_eq_ok_iff {config : Config} {locale : Locale} {bytes : ByteArray} {root : Node}
    (hroot : rootIn? bytes = some root) (catalog : Catalog) :
    (ofBytes config locale bytes).outcome = .ok catalog ↔
      AcceptsVersion config (root.attribute? "version") ∧
        AcceptsLanguage locale.code (root.attribute? "language") ∧
        Acceptable (root.children "context") ∧
        catalog = ⟨locale, described (root.children "context")⟩ := by
  have hjudge := judgeRoot_eq_ok_iff config locale.code root
  rw [outcome_ofBytes hroot]
  cases hverdict : judgeRoot config locale.code root with
  | error error =>
      rw [hverdict] at hjudge
      constructor
      · intro h
        cases h
      · rintro ⟨hversion, hlanguage, hacceptable, -⟩
        cases (hjudge _).mpr ⟨hversion, hlanguage, hacceptable, rfl⟩
  | ok contexts =>
      obtain ⟨hversion, hlanguage, hacceptable, rfl⟩ := (hjudge contexts).mp hverdict
      constructor
      · intro h
        cases h
        exact ⟨hversion, hlanguage, hacceptable, rfl⟩
      · rintro ⟨-, -, -, rfl⟩
        rfl

end Polyglot.Catalog
