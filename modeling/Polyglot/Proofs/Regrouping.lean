import Mathlib.Data.List.Perm.Basic
import Mathlib.Logic.Relation
import Polyglot.Proofs.Verdict

/-!
Order and grouping. The context elements of a root may come in another order, and so may the
messages inside a context, and a context may be split into several of its name or joined from them.
All this leaves the messages of every name the same up to their order, and nothing else decides
whether a document is accepted and what is found in its catalog.
-/

namespace Polyglot

/-- What is found in a table with distinct keys does not depend on the order of its entries. -/
theorem Table.get?_perm {α : Type} {table other : Table α} (h : table.Perm other)
    (hnodup : table.keys.Nodup) (key : String) : table.get? key = other.get? key := by
  have hkeys : other.keys.Perm table.keys := (h.map Prod.fst).symm
  cases hget : table.get? key with
  | some value =>
      have hmem := h.subset (mem_of_get? hget)
      exact (get?_of_mem (hkeys.nodup_iff.mpr hnodup) hmem).symm
  | none =>
      rw [get?_eq_none_iff] at hget
      exact (get?_eq_none_iff.mpr fun hmem => hget (hkeys.subset hmem)).symm

namespace Catalog

open Xml

/-! ### Regrouping -/

/-- The context elements of a root are put into another order, or one of them has its messages put
into another order, or is split into some of its name. -/
inductive Regrouped : List Node → List Node → Prop where
  | permute {elements other : List Node} (h : elements.Perm other) : Regrouped elements other
  | shuffle {element other : Node} (before after : List Node)
      (hname : contextName? other = contextName? element)
      (hmessages : (other.children "message").Perm (element.children "message")) :
      Regrouped (before ++ element :: after) (before ++ other :: after)
  | split {element : Node} {parts : List Node} (before after : List Node) (hparts : parts ≠ [])
      (hname : ∀ part ∈ parts, contextName? part = contextName? element)
      (hmessages : parts.flatMap (Node.children "message") = element.children "message") :
      Regrouped (before ++ element :: after) (before ++ parts ++ after)

/-- The message elements of all context elements of a name, or of those without a valid name. -/
def messagesNamed (elements : List Node) (name : Option String) : List Node :=
  (elements.filter fun element => contextName? element == name).flatMap (Node.children "message")

/-- Context elements of the same names, and with the same messages under each name. -/
structure SameMessages (elements other : List Node) : Prop where
  names : ∀ name, name ∈ other.map contextName? ↔ name ∈ elements.map contextName?
  messages : ∀ name, (messagesNamed other name).Perm (messagesNamed elements name)

theorem SameMessages.refl (elements : List Node) : SameMessages elements elements where
  names _ := Iff.rfl
  messages _ := List.Perm.refl _

theorem SameMessages.symm {elements other : List Node} (h : SameMessages elements other) :
    SameMessages other elements where
  names name := (h.names name).symm
  messages name := (h.messages name).symm

theorem SameMessages.trans {first second third : List Node} (h : SameMessages first second)
    (h' : SameMessages second third) : SameMessages first third where
  names name := (h'.names name).trans (h.names name)
  messages name := (h'.messages name).trans (h.messages name)

theorem messagesNamed_append (first second : List Node) (name : Option String) :
    messagesNamed (first ++ second) name =
      messagesNamed first name ++ messagesNamed second name := by
  rw [messagesNamed, List.filter_append, List.flatMap_append, messagesNamed, messagesNamed]

/-- What stands around stays as it is. -/
theorem SameMessages.within {elements other : List Node} (h : SameMessages elements other)
    (before after : List Node) :
    SameMessages (before ++ elements ++ after) (before ++ other ++ after) where
  names name := by simp only [List.map_append, List.mem_append, h.names]
  messages name := by
    simp only [messagesNamed_append]
    exact ((h.messages name).append_left _).append_right _

theorem SameMessages.of_perm {elements other : List Node} (h : elements.Perm other) :
    SameMessages elements other where
  names _ := (h.map contextName?).symm.mem_iff
  messages _ := ((h.filter _).flatMap_right _).symm

/-- One context element, and some of its name that have its messages between them. -/
theorem SameMessages.of_parts {element : Node} {parts : List Node} (hparts : parts ≠ [])
    (hname : ∀ part ∈ parts, contextName? part = contextName? element)
    (hmessages : (parts.flatMap (Node.children "message")).Perm (element.children "message")) :
    SameMessages [element] parts where
  names name := by
    rw [List.map_singleton, List.mem_singleton, List.mem_map]
    constructor
    · rintro ⟨part, hpart, rfl⟩
      exact hname part hpart
    · rintro rfl
      obtain ⟨part, hpart⟩ := List.exists_mem_of_ne_nil parts hparts
      exact ⟨part, hpart, hname part hpart⟩
  messages name := by
    by_cases h : contextName? element = name
    · have hall : (parts.filter fun part => contextName? part == name) = parts :=
        List.filter_eq_self.mpr fun part hpart => by simp [hname part hpart, h]
      simpa [messagesNamed, hall, h] using hmessages
    · have hnone : (parts.filter fun part => contextName? part == name) = [] :=
        List.filter_eq_nil_iff.mpr fun part hpart => by simp [hname part hpart, h]
      simp [messagesNamed, hnone, h]

theorem SameMessages.of_regrouped {elements other : List Node} (h : Regrouped elements other) :
    SameMessages elements other := by
  cases h with
  | permute h => exact .of_perm h
  | @shuffle element other before after hname hmessages =>
      have hone : SameMessages [element] [other] := by
        refine .of_parts (List.cons_ne_nil _ _) ?_ (by simpa using hmessages)
        simpa using hname
      simpa using hone.within before after
  | @split element parts before after hparts hname hmessages =>
      have hparts' : SameMessages [element] parts := .of_parts hparts hname (.of_eq hmessages)
      simpa using hparts'.within before after

/-! ### Acceptance -/

theorem liveItems_flatMap (elements : List Node) :
    liveItems (elements.flatMap (Node.children "message")) =
      elements.flatMap fun element => liveItems (element.children "message") := by
  induction elements with
  | nil => rfl
  | cons element rest ih => rw [List.flatMap_cons, List.flatMap_cons, liveItems_append, ih]

theorem itemsNamed_eq (elements : List Node) (name : String) :
    itemsNamed elements name = liveItems (messagesNamed elements (some name)) := by
  rw [messagesNamed, liveItems_flatMap, itemsNamed]

theorem liveItems_perm {elements other : List Node} (h : elements.Perm other) :
    (liveItems elements).Perm (liveItems other) :=
  (h.filterMap _).filter _

theorem SoundMessages.of_perm {elements other : List Node} (h : elements.Perm other)
    (hsound : SoundMessages elements) : SoundMessages other where
  sources element helement := hsound.sources element (h.symm.subset helement)
  sound item hitem := hsound.sound item ((liveItems_perm h).symm.subset hitem)

theorem soundMessages_flatMap {elements : List Node} :
    SoundMessages (elements.flatMap (Node.children "message")) ↔
      ∀ element ∈ elements, SoundMessages (element.children "message") := by
  induction elements with
  | nil => simp [SoundMessages.nil]
  | cons element rest ih => rw [List.flatMap_cons, soundMessages_append, ih, List.forall_mem_cons]

/-- Whether context elements are acceptable is a matter of their names and of the messages under
each name. -/
theorem acceptable_iff {elements : List Node} :
    Acceptable elements ↔ none ∉ elements.map contextName? ∧
      (∀ name, SoundMessages (messagesNamed elements name)) ∧
      ∀ name, ((liveItems (messagesNamed elements (some name))).map Item.source).Nodup := by
  have hnames : none ∉ elements.map contextName? ↔
      ∀ element ∈ elements, (contextName? element).isSome = true := by
    simp only [List.mem_map, not_exists, not_and, ← ne_eq, Option.isSome_iff_ne_none]
  have hmessages : (∀ name, SoundMessages (messagesNamed elements name)) ↔
      ∀ element ∈ elements, SoundMessages (element.children "message") := by
    simp only [messagesNamed, soundMessages_flatMap, List.mem_filter, beq_iff_eq, and_imp]
    exact ⟨fun h element helement => h _ element helement rfl,
      fun h name element helement _ => h element helement⟩
  rw [hnames, hmessages]
  simp only [← itemsNamed_eq]
  exact ⟨fun h => ⟨h.names, h.messages, h.distinct⟩, fun ⟨h, h', h''⟩ => ⟨h, h', h''⟩⟩

theorem SameMessages.itemsNamed {elements other : List Node} (h : SameMessages elements other)
    (name : String) : (itemsNamed other name).Perm (itemsNamed elements name) := by
  rw [itemsNamed_eq, itemsNamed_eq]
  exact liveItems_perm (h.messages (some name))

theorem SameMessages.acceptable {elements other : List Node} (h : SameMessages elements other)
    (hacceptable : Acceptable elements) : Acceptable other := by
  obtain ⟨hnames, hsound, hdistinct⟩ := acceptable_iff.mp hacceptable
  refine acceptable_iff.mpr ⟨fun hmem => hnames ((h.names none).mp hmem), fun name => ?_,
    fun name => ?_⟩
  · exact (hsound name).of_perm (h.messages name).symm
  · have hperm := (liveItems_perm (h.messages (some name))).map Item.source
    exact hperm.nodup_iff.mpr (hdistinct name)

/-! ### Catalogs -/

/-- Two catalogs that differ at most in the order of their contexts and messages. -/
structure SameEntries (catalog other : Catalog) : Prop where
  lookup : ∀ context key, other.lookup context key = catalog.lookup context key
  size : other.size = catalog.size
  names : ∀ name, name ∈ other.contextNames ↔ name ∈ catalog.contextNames
  untranslated : ∀ place, place ∈ other.untranslated ↔ place ∈ catalog.untranslated
  coverage : other.coverage = catalog.coverage

theorem lookup_eq (catalog : Catalog) (context key : String) :
    catalog.lookup context key = ((catalog.contexts.get? context).getD []).get? key := by
  rw [lookup]
  cases catalog.contexts.get? context <;> rfl

/-- The names of context elements, each once. -/
def namesOf (elements : List Node) : List String := (elements.filterMap contextName?).eraseDups

theorem SameMessages.namesOf {elements other : List Node} (h : SameMessages elements other) :
    (namesOf other).Perm (namesOf elements) := by
  refine (List.perm_ext_iff_of_nodup (nodup_eraseDups _) (nodup_eraseDups _)).mpr fun name => ?_
  have hname := h.names (some name)
  simp only [List.mem_map] at hname
  simp only [List.mem_eraseDups, List.mem_filterMap, hname]

/-- What is gathered from the items of every name is the same up to its order. -/
theorem SameMessages.gathered {α : Type} {elements other : List Node}
    (h : SameMessages elements other) (gather : String → List Item → List α)
    (hgather : ∀ name (items items' : List Item), items.Perm items' →
      (gather name items).Perm (gather name items')) :
    ((Catalog.namesOf other).flatMap fun name => gather name (Catalog.itemsNamed other name)).Perm
      ((Catalog.namesOf elements).flatMap fun name =>
        gather name (Catalog.itemsNamed elements name)) :=
  h.namesOf.flatMap fun name _ => hgather name _ _ (h.itemsNamed name)

variable {elements other : List Node}

theorem keys_described (elements : List Node) : (described elements).keys = namesOf elements := by
  rw [described, Table.keys, List.map_map]
  exact List.map_id _

theorem messages_described (locale : Locale) (elements : List Node) :
    (Catalog.mk locale (described elements)).messages =
      (namesOf elements).flatMap fun name => (itemsNamed elements name).map Item.message := by
  simp only [messages, described, List.flatMap_map, Table.values, List.map_map]
  rfl

theorem untranslated_described (locale : Locale) (elements : List Node) :
    (Catalog.mk locale (described elements)).untranslated =
      (namesOf elements).flatMap fun name =>
        (((itemsNamed elements name).map Item.message).filter (!·.isTranslated)).map
          fun message => (name, message.source) := by
  simp only [untranslated, described, List.flatMap_map, Table.values, List.map_map]
  rfl

theorem SameMessages.sameEntries (h : SameMessages elements other)
    (hacceptable : Acceptable elements) (locale : Locale) :
    SameEntries ⟨locale, described elements⟩ ⟨locale, described other⟩ := by
  have hmessages : (Catalog.mk locale (described other)).messages.Perm
      (Catalog.mk locale (described elements)).messages := by
    rw [messages_described, messages_described]
    exact h.gathered (fun _ items => items.map Item.message) fun _ _ _ hitems => hitems.map _
  have huntranslated : (Catalog.mk locale (described other)).untranslated.Perm
      (Catalog.mk locale (described elements)).untranslated := by
    rw [untranslated_described, untranslated_described]
    exact h.gathered
      (fun name items => ((items.map Item.message).filter (!·.isTranslated)).map
        fun message => (name, message.source))
      fun _ _ _ hitems => ((hitems.map _).filter _).map _
  have hsize : (Catalog.mk locale (described other)).size =
      (Catalog.mk locale (described elements)).size := hmessages.length_eq
  refine ⟨fun context key => ?_, hsize, fun name => ?_, fun _ => huntranslated.mem_iff, ?_⟩
  · have hkeys := ((h.itemsNamed context).map Item.source).nodup_iff.mpr
      (hacceptable.distinct context)
    rw [← keys_entries] at hkeys
    rw [lookup_eq, lookup_eq, get?_described, get?_described]
    exact Table.get?_perm ((h.itemsNamed context).map Item.entry) hkeys key
  · rw [contextNames, contextNames, keys_described, keys_described, h.namesOf.mem_iff]
  · rw [coverage, coverage, hsize, huntranslated.length_eq]

/-! ### Documents -/

/-- Order and grouping do not matter: of two documents with the same version and language, whose
contexts are regroupings of each other, both are accepted or none is, and the catalogs have the same
entries. -/
theorem sameEntries_of_regrouped (config : Config) (locale : Locale) {bytes regrouped : ByteArray}
    {root root' : Node} (hroot : rootIn? bytes = some root)
    (hroot' : rootIn? regrouped = some root')
    (hversion : root'.attribute? "version" = root.attribute? "version")
    (hlanguage : root'.attribute? "language" = root.attribute? "language")
    (h : Relation.EqvGen Regrouped (root.children "context") (root'.children "context")) :
    ((∃ catalog, (ofBytes config locale regrouped).outcome = .ok catalog) ↔
      ∃ catalog, (ofBytes config locale bytes).outcome = .ok catalog) ∧
    ∀ catalog other, (ofBytes config locale bytes).outcome = .ok catalog →
      (ofBytes config locale regrouped).outcome = .ok other → SameEntries catalog other := by
  have hsame : SameMessages (root.children "context") (root'.children "context") := by
    generalize root.children "context" = elements at h
    generalize root'.children "context" = other at h
    induction h with
    | rel _ _ h => exact .of_regrouped h
    | refl elements => exact .refl elements
    | symm _ _ _ ih => exact ih.symm
    | trans _ _ _ _ _ ih ih' => exact ih.trans ih'
  have hiff := @outcome_eq_ok_iff config locale bytes root hroot
  have hiff' := @outcome_eq_ok_iff config locale regrouped root' hroot'
  rw [hversion, hlanguage] at hiff'
  refine ⟨⟨?_, ?_⟩, fun catalog other hcatalog hother => ?_⟩
  · rintro ⟨other, hother⟩
    obtain ⟨hversion, hlanguage, hacceptable, -⟩ := (hiff' other).mp hother
    exact ⟨_, (hiff _).mpr ⟨hversion, hlanguage, hsame.symm.acceptable hacceptable, rfl⟩⟩
  · rintro ⟨catalog, hcatalog⟩
    obtain ⟨hversion, hlanguage, hacceptable, -⟩ := (hiff catalog).mp hcatalog
    exact ⟨_, (hiff' _).mpr ⟨hversion, hlanguage, hsame.acceptable hacceptable, rfl⟩⟩
  · obtain ⟨-, -, hacceptable, rfl⟩ := (hiff catalog).mp hcatalog
    obtain ⟨-, -, -, rfl⟩ := (hiff' other).mp hother
    exact hsame.sameEntries hacceptable locale

/-! ### A context that is split -/

/-- A context with two messages, and another one. -/
def joinedSections : List Section := [⟨"Ui", [("Open", "Öffnen"), ("Close", "")]⟩, ⟨"Tray", []⟩]

/-- The same in another order, with a context for each message. -/
def splitSections : List Section :=
  [⟨"Tray", []⟩, ⟨"Ui", [("Close", "")]⟩, ⟨"Ui", [("Open", "Öffnen")]⟩]

theorem regrouped_split : Relation.EqvGen Regrouped (joinedSections.map sectionNode)
    (splitSections.map sectionNode) := by
  let opening : String × String := ("Open", "Öffnen")
  let closing : String × String := ("Close", "")
  have hpermute : Regrouped [sectionNode ⟨"Ui", [opening, closing]⟩, sectionNode ⟨"Tray", []⟩]
      [sectionNode ⟨"Tray", []⟩, sectionNode ⟨"Ui", [opening, closing]⟩] :=
    .permute (.swap _ _ _)
  have hshuffle : Regrouped [sectionNode ⟨"Tray", []⟩, sectionNode ⟨"Ui", [opening, closing]⟩]
      [sectionNode ⟨"Tray", []⟩, sectionNode ⟨"Ui", [closing, opening]⟩] :=
    .shuffle [sectionNode ⟨"Tray", []⟩] [] rfl (.swap _ _ _)
  have hsplit : Regrouped [sectionNode ⟨"Tray", []⟩, sectionNode ⟨"Ui", [closing, opening]⟩]
      [sectionNode ⟨"Tray", []⟩, sectionNode ⟨"Ui", [closing]⟩, sectionNode ⟨"Ui", [opening]⟩] := by
    refine @Regrouped.split _ [sectionNode ⟨"Ui", [closing]⟩, sectionNode ⟨"Ui", [opening]⟩]
      [sectionNode ⟨"Tray", []⟩] [] (by simp) (fun part hpart => ?_) rfl
    rcases List.mem_cons.mp hpart with rfl | hpart
    · rfl
    · rw [List.mem_singleton.mp hpart]
      rfl
  exact (Relation.EqvGen.rel _ _ hpermute).trans _ _ _
    ((Relation.EqvGen.rel _ _ hshuffle).trans _ _ _ (.rel _ _ hsplit))

theorem sameEntries_of_regrouped_split :
    rootIn? (write "de_DE" joinedSections).toUTF8 = some (rootNode "de_DE" joinedSections) ∧
      rootIn? (write "de_DE" splitSections).toUTF8 = some (rootNode "de_DE" splitSections) ∧
      Relation.EqvGen Regrouped ((rootNode "de_DE" joinedSections).children "context")
        ((rootNode "de_DE" splitSections).children "context") ∧
      (ofBytes .standard ⟨"de_DE", ""⟩ (write "de_DE" joinedSections).toUTF8).outcome.map keys =
        .ok [("Ui", "Open"), ("Ui", "Close")] ∧
      (ofBytes .standard ⟨"de_DE", ""⟩ (write "de_DE" splitSections).toUTF8).outcome.map keys =
        .ok [("Ui", "Close"), ("Ui", "Open")] ∧
      ∀ catalog other,
        (ofBytes .standard ⟨"de_DE", ""⟩ (write "de_DE" joinedSections).toUTF8).outcome =
          .ok catalog →
        (ofBytes .standard ⟨"de_DE", ""⟩ (write "de_DE" splitSections).toUTF8).outcome =
          .ok other → SameEntries catalog other := by
  have hcode : normalizeCode "de_DE" = .ok "de_DE" := by decide +kernel
  have hjoined :=
    rootIn?_write hcode (show Admissible (rootContent joinedSections) by decide +kernel)
  have hsplit := rootIn?_write hcode (show Admissible (rootContent splitSections) by decide +kernel)
  have hregrouped : Relation.EqvGen Regrouped
      ((rootNode "de_DE" joinedSections).children "context")
      ((rootNode "de_DE" splitSections).children "context") := by
    rw [children_rootNode, children_rootNode]
    exact regrouped_split
  refine ⟨hjoined, hsplit, hregrouped, ?_, ?_,
    (sameEntries_of_regrouped .standard ⟨"de_DE", ""⟩ hjoined hsplit rfl rfl hregrouped).2⟩
  · rw [outcome_ofBytes hjoined]
    decide +kernel
  · rw [outcome_ofBytes hsplit]
    decide +kernel

end Catalog
end Polyglot
