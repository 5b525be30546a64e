import Mathlib.Data.List.Induction
import Polyglot.Proofs.Reading

/-!
What a document describes. The catalog that is read from the context elements of a root is given in
closed form: the names in the order in which they are first met, and under each name the live
messages of all elements of that name. Reading succeeds on exactly those elements that are
acceptable, and then it arrives at this catalog.
-/

namespace Polyglot.Catalog

open Xml

/-! ### Descriptions -/

/-- The name of a context element, if it has a valid one. -/
def contextName? (element : Node) : Option String := (normalizeName (contextText element)).toOption

/-- What the live ones among message elements say. -/
def liveItems (elements : List Node) : List Item := (elements.filterMap item?).filter Item.isLive

/-- The live messages of all context elements of a name, in the order of the document. -/
def itemsNamed (elements : List Node) (name : String) : List Item :=
  (elements.filter fun element => contextName? element == some name).flatMap fun element =>
    liveItems (element.children "message")

/-- A message under its own source. -/
def Item.entry (item : Item) : String × Message := (item.source, item.message)

/-- The contexts that context elements describe. -/
def described (elements : List Node) : Table (Table Message) :=
  (elements.filterMap contextName?).eraseDups.map fun name =>
    (name, (itemsNamed elements name).map Item.entry)

/-- The placeholders of a message are in order: there is no position zero, and the translation has
no position that the source does not have. -/
structure Item.Sound (item : Item) : Prop where
  zero : 0 ∉ Placeholder.positions item.source
  zeroText : 0 ∉ Placeholder.positions item.translation
  within : ∀ position ∈ Placeholder.positions item.translation,
    position ∈ Placeholder.positions item.source

/-- Every message element has a source, also if it is not live, and the live ones are sound. -/
structure SoundMessages (elements : List Node) : Prop where
  sources : ∀ element ∈ elements, (element.child? "source").isSome = true
  sound : ∀ item ∈ liveItems elements, item.Sound

/-- Context elements with valid names and sound messages, in which no two live messages of one name
have the same source. -/
structure Acceptable (elements : List Node) : Prop where
  names : ∀ element ∈ elements, (contextName? element).isSome = true
  messages : ∀ element ∈ elements, SoundMessages (element.children "message")
  distinct : ∀ name, ((itemsNamed elements name).map Item.source).Nodup

/-! ### One message -/

theorem placeholderFault?_eq_none_iff {item : Item} :
    placeholderFault? item.source item.translation = none ↔ item.Sound := by
  constructor
  · intro h
    have hfits := fits_of_placeholderFault? h
    exact ⟨hfits.zero, hfits.zeroText, hfits.within⟩
  · intro h
    have hzero : ¬ ((Placeholder.positions item.source).contains 0 = true ∨
        (Placeholder.positions item.translation).contains 0 = true) := by
      simpa only [List.contains_iff_mem, not_or] using And.intro h.zero h.zeroText
    have hstray : (Placeholder.positions item.translation).filter
        (!(Placeholder.positions item.source).contains ·) = [] :=
      List.filter_eq_nil_iff.mpr fun position hposition => by
        simpa using h.within position hposition
    simp only [placeholderFault?, if_neg hzero, hstray]

theorem liveItems_append (first second : List Node) :
    liveItems (first ++ second) = liveItems first ++ liveItems second := by
  rw [liveItems, List.filterMap_append, List.filter_append, liveItems, liveItems]

theorem liveItems_singleton {element : Node} {item : Item} (h : item? element = some item) :
    liveItems [element] = if item.isLive then [item] else [] := by
  cases hlive : item.isLive <;> simp [liveItems, h, hlive]

theorem liveItems_of_dead {element : Node} {item : Item} (h : item? element = some item)
    (hdead : item.isLive = false) : liveItems [element] = [] := by
  rw [liveItems_singleton h, hdead]
  rfl

theorem liveItems_of_live {element : Node} {item : Item} (h : item? element = some item)
    (hlive : item.isLive = true) : liveItems [element] = [item] := by
  rw [liveItems_singleton h, if_pos hlive]

theorem isSome_item? (element : Node) :
    (item? element).isSome = (element.child? "source").isSome := by
  rw [item?, Option.isSome_map]

theorem SoundMessages.nil : SoundMessages [] where
  sources _ h := nomatch h
  sound _ h := nomatch h

theorem soundMessages_append {first second : List Node} :
    SoundMessages (first ++ second) ↔ SoundMessages first ∧ SoundMessages second := by
  constructor
  · rintro ⟨hsources, hsound⟩
    simp only [liveItems_append, List.mem_append] at hsources hsound
    exact ⟨⟨fun element h => hsources element (Or.inl h), fun item h => hsound item (Or.inl h)⟩,
      ⟨fun element h => hsources element (Or.inr h), fun item h => hsound item (Or.inr h)⟩⟩
  · rintro ⟨hfirst, hsecond⟩
    constructor
    · intro element h
      exact (List.mem_append.mp h).elim (hfirst.sources element) (hsecond.sources element)
    · intro item h
      rw [liveItems_append] at h
      exact (List.mem_append.mp h).elim (hfirst.sound item) (hsecond.sound item)

theorem soundMessages_singleton {element : Node} :
    SoundMessages [element] ↔
      ∃ item, item? element = some item ∧ (item.isLive = true → item.Sound) := by
  constructor
  · rintro ⟨hsources, hsound⟩
    have hsome : (item? element).isSome = true :=
      (isSome_item? element).trans (hsources element List.mem_cons_self)
    obtain ⟨item, hitem⟩ := Option.isSome_iff_exists.mp hsome
    refine ⟨item, hitem, fun hlive => hsound item ?_⟩
    rw [liveItems_of_live hitem hlive]
    exact List.mem_cons_self
  · rintro ⟨item, hitem, hsound⟩
    constructor
    · intro other hother
      rw [List.mem_singleton.mp hother, ← isSome_item?, hitem]
      rfl
    · intro other hother
      rw [liveItems_singleton hitem] at hother
      split at hother
      · rename_i hlive
        rw [List.mem_singleton.mp hother]
        exact hsound hlive
      · cases hother

theorem readMessage_of_dead {locale context : String} {draft : Draft} {element : Node} {item : Item}
    (hitem : item? element = some item) (hdead : item.isLive = false) :
    ∃ journal, readMessage locale context draft element = .ok ⟨draft.contexts, journal⟩ := by
  simp only [readMessage, hitem]
  split
  · exact ⟨_, rfl⟩
  · simp only [hdead, Bool.not_false, if_true]
    exact ⟨_, rfl⟩

theorem readMessage_of_live {locale context : String} {draft : Draft} {element : Node} {item : Item}
    (hitem : item? element = some item) (hlive : item.isLive = true) (hsound : item.Sound)
    (hnew : item.source ∉ ((draft.contexts.get? context).getD []).keys) :
    readMessage locale context draft element = .ok ⟨draft.contexts.put context
      (((draft.contexts.get? context).getD []).put item.source item.message), draft.journal⟩ := by
  have hplural : item.plural = false := by
    simp only [Item.isLive, Bool.and_eq_true, Bool.not_eq_true'] at hlive
    exact hlive.1
  simp only [readMessage, hitem, hplural, hlive, placeholderFault?_eq_none_iff.mpr hsound,
    Table.contains_eq_false_iff.mpr hnew, Bool.not_true, Bool.false_eq_true, if_false]

/-! ### Runs over elements -/

/-- A run over elements that goes well goes well up to the last one, and then with that one. -/
theorem foldlM_concat_ok {step : Draft → Node → Except Stop Draft} {elements : List Node}
    {element : Node} {draft next : Draft} :
    (elements ++ [element]).foldlM step draft = .ok next ↔
      ∃ middle, elements.foldlM step draft = .ok middle ∧ step middle element = .ok next := by
  rw [List.foldlM_append]
  cases hmiddle : elements.foldlM step draft with
  | error stop =>
      constructor
      · intro h
        cases h
      · rintro ⟨middle, h, -⟩
        cases h
  | ok middle =>
      have hlast : (Except.ok middle >>= fun draft => [element].foldlM step draft) =
          step middle element := by
        change [element].foldlM step middle = _
        rw [List.foldlM_cons]
        cases step middle element <;> rfl
      rw [hlast]
      constructor
      · exact fun h => ⟨middle, rfl, h⟩
      · rintro ⟨_, heq, h⟩
        cases heq
        exact h

section Messages

variable {locale context : String} {before : Table (Table Message)} {old : Table Message}

/-- One more message element, in a context that has some messages. -/
theorem readMessage_iff {draft : Draft} (hdraft : draft.contexts = before.put context old)
    (element : Node) (contexts : Table (Table Message)) :
    (∃ next, readMessage locale context draft element = .ok next ∧ next.contexts = contexts) ↔
      SoundMessages [element] ∧ (∀ item ∈ liveItems [element], item.source ∉ old.keys) ∧
        contexts = before.put context (old ++ (liveItems [element]).map Item.entry) := by
  have hold : (draft.contexts.get? context).getD [] = old := by
    rw [hdraft, Table.get?_put_self, Option.getD_some]
  rw [soundMessages_singleton]
  constructor
  · rintro ⟨next, h, rfl⟩
    obtain ⟨item, hitem, ⟨hdead, hnext⟩ | ⟨hlive, hfault, hnew, hnext⟩⟩ := readMessage_ok h
    · have hitems := liveItems_of_dead hitem hdead
      refine ⟨⟨item, hitem, fun hlive => ?_⟩, ?_, ?_⟩
      · rw [hdead] at hlive
        cases hlive
      · rw [hitems]
        exact fun _ h => nomatch h
      · rw [hnext, hdraft, hitems, List.map_nil, List.append_nil]
    · have hitems := liveItems_of_live hitem hlive
      rw [hold] at hnew hnext
      refine ⟨⟨item, hitem, fun _ => placeholderFault?_eq_none_iff.mp hfault⟩, ?_, ?_⟩
      · rw [hitems]
        exact fun other hother => List.mem_singleton.mp hother ▸ hnew
      · rw [hnext, hdraft, Table.put_put, Table.put_of_not_mem hnew, hitems]
        rfl
  · rintro ⟨⟨item, hitem, hsound⟩, hnew, rfl⟩
    cases hlive : item.isLive with
    | false =>
        have hitems := liveItems_of_dead hitem hlive
        obtain ⟨journal, h⟩ := @readMessage_of_dead locale context draft _ _ hitem hlive
        refine ⟨_, h, ?_⟩
        rw [hitems, List.map_nil, List.append_nil, hdraft]
    | true =>
        have hitems := liveItems_of_live hitem hlive
        rw [hitems] at hnew ⊢
        have hsource := hnew item List.mem_cons_self
        refine ⟨_, readMessage_of_live hitem hlive (hsound hlive) (by rwa [hold]), ?_⟩
        rw [hold, hdraft, Table.put_put, Table.put_of_not_mem hsource]
        rfl

theorem keys_entries (items : List Item) :
    Table.keys (items.map Item.entry) = items.map Item.source := by
  rw [Table.keys, List.map_map]
  rfl

theorem keys_append_entries (messages : Table Message) (items : List Item) :
    Table.keys (messages ++ items.map Item.entry) = messages.keys ++ items.map Item.source := by
  rw [← keys_entries, Table.keys, List.map_append, Table.keys, Table.keys]

/-- A message element holds one live message at most. -/
theorem nodup_append_singleton {keys : List String} (hkeys : keys.Nodup) (element : Node) :
    (keys ++ (liveItems [element]).map Item.source).Nodup ↔
      ∀ item ∈ liveItems [element], item.source ∉ keys := by
  have hone : ((liveItems [element]).map Item.source).Nodup := by
    cases hitem : item? element with
    | none => simp [liveItems, hitem]
    | some item => cases hlive : item.isLive <;> simp [liveItems_singleton hitem, hlive]
  rw [List.nodup_append]
  constructor
  · rintro ⟨-, -, hdisjoint⟩ item hitem hmem
    exact hdisjoint _ hmem _ (List.mem_map_of_mem hitem) rfl
  · intro h
    refine ⟨hkeys, hone, ?_⟩
    rintro _ hmem source hsource rfl
    obtain ⟨item, hitem, heq⟩ := List.mem_map.mp hsource
    exact h item hitem (heq ▸ hmem)

/-- All message elements of a context element, in a context that has some messages. -/
theorem readMessages_iff {draft : Draft} (hdraft : draft.contexts = before.put context old)
    (hold : old.keys.Nodup) (elements : List Node) (contexts : Table (Table Message)) :
    (∃ next, elements.foldlM (readMessage locale context) draft = .ok next ∧
        next.contexts = contexts) ↔
      SoundMessages elements ∧ (old.keys ++ (liveItems elements).map Item.source).Nodup ∧
        contexts = before.put context (old ++ (liveItems elements).map Item.entry) := by
  -- From the end, since what an element is checked against are the elements before it.
  induction elements using List.reverseRecOn generalizing contexts with
  | nil =>
      have hitems : liveItems [] = [] := rfl
      simp only [List.foldlM_nil, hitems, List.map_nil, List.append_nil, SoundMessages.nil, hold,
        true_and, ← hdraft]
      constructor
      · rintro ⟨next, hnext, rfl⟩
        cases hnext
        rfl
      · rintro rfl
        exact ⟨draft, rfl, rfl⟩
  | append_singleton elements element ih =>
      simp only [foldlM_concat_ok, soundMessages_append, liveItems_append, List.map_append,
        ← List.append_assoc]
      constructor
      · rintro ⟨next, ⟨middle, hmiddle, hnext⟩, hcontexts⟩
        obtain ⟨hsound, hnodup, hbefore⟩ := (ih middle.contexts).mp ⟨middle, hmiddle, rfl⟩
        obtain ⟨hlast, hnew, heq⟩ :=
          (readMessage_iff hbefore element contexts).mp ⟨next, hnext, hcontexts⟩
        rw [keys_append_entries] at hnew
        exact ⟨⟨hsound, hlast⟩, (nodup_append_singleton hnodup element).mpr hnew, heq⟩
      · rintro ⟨⟨hsound, hlast⟩, hnodup, heq⟩
        have hfirst := (List.nodup_append.mp hnodup).1
        obtain ⟨middle, hmiddle, hbefore⟩ := (ih _).mpr ⟨hsound, hfirst, rfl⟩
        have hnew := (nodup_append_singleton hfirst element).mp hnodup
        rw [← keys_append_entries] at hnew
        obtain ⟨next, hnext, hcontexts⟩ :=
          (readMessage_iff hbefore element contexts).mpr ⟨hlast, hnew, heq⟩
        exact ⟨next, ⟨middle, hmiddle, hnext⟩, hcontexts⟩

end Messages

/-! ### Contexts -/

theorem contextName?_eq_some_iff {element : Node} {name : String} :
    contextName? element = some name ↔ normalizeName (contextText element) = .ok name := by
  rw [contextName?]
  cases normalizeName (contextText element) with
  | error cause => simp [Except.toOption]
  | ok normal => simp [Except.toOption]

theorem itemsNamed_append (first second : List Node) (name : String) :
    itemsNamed (first ++ second) name = itemsNamed first name ++ itemsNamed second name := by
  rw [itemsNamed, List.filter_append, List.flatMap_append, itemsNamed, itemsNamed]

theorem itemsNamed_singleton {element : Node} {name : String}
    (hname : contextName? element = some name) (other : String) :
    itemsNamed [element] other =
      if other = name then liveItems (element.children "message") else [] := by
  by_cases h : other = name
  · subst h
    simp [itemsNamed, hname]
  · have hne : (some name == some other) = false := by simpa using Ne.symm h
    simp [itemsNamed, hname, hne, h]

theorem itemsNamed_concat {element : Node} {name : String}
    (hname : contextName? element = some name) (elements : List Node) (other : String) :
    itemsNamed (elements ++ [element]) other =
      if other = name then itemsNamed elements name ++ liveItems (element.children "message")
      else itemsNamed elements other := by
  rw [itemsNamed_append, itemsNamed_singleton hname]
  split
  · rename_i heq
    rw [heq]
  · rw [List.append_nil]

/-- Under a name that no element has there are no messages. -/
theorem itemsNamed_of_not_mem {elements : List Node} {name : String}
    (h : name ∉ elements.filterMap contextName?) : itemsNamed elements name = [] := by
  have hnone : (elements.filter fun element => contextName? element == some name) = [] :=
    List.filter_eq_nil_iff.mpr fun element helement heq =>
      h (List.mem_filterMap.mpr ⟨element, helement, eq_of_beq heq⟩)
  rw [itemsNamed, hnone, List.flatMap_nil]

theorem get?_described (elements : List Node) (name : String) :
    ((described elements).get? name).getD [] = (itemsNamed elements name).map Item.entry := by
  rw [described, Table.get?_map]
  split
  · rfl
  · rename_i h
    rw [itemsNamed_of_not_mem (by rwa [List.mem_eraseDups] at h)]
    rfl

/-- One more context element adds its live messages to those of its name. -/
theorem described_concat {element : Node} {name : String}
    (hname : contextName? element = some name) (elements : List Node) :
    described (elements ++ [element]) = (described elements).put name
      ((itemsNamed elements name ++ liveItems (element.children "message")).map Item.entry) := by
  have hnames : (elements ++ [element]).filterMap contextName? =
      elements.filterMap contextName? ++ [name] := by
    rw [List.filterMap_append, List.filterMap_cons_some hname, List.filterMap_nil]
  rw [described, hnames, eraseDups_concat]
  simp only [itemsNamed_concat hname]
  split
  · -- The name has been met before: its context keeps its place.
    rename_i hmem
    rw [described, Table.put_map_of_mem (nodup_eraseDups _) (List.mem_eraseDups.mpr hmem)]
    refine List.map_congr_left fun other _ => ?_
    split <;> rfl
  · -- The name is new: its context goes to the end, and nothing else is changed.
    rename_i hnew
    have hkeys : name ∉ (described elements).keys := by
      rw [described, Table.keys, List.map_map, List.mem_map]
      rintro ⟨other, hother, rfl⟩
      exact hnew (List.mem_eraseDups.mp hother)
    rw [Table.put_of_not_mem hkeys, List.map_append, List.map_singleton, if_pos rfl, described]
    congr 1
    refine List.map_congr_left fun other hother => ?_
    have hne : other ≠ name := fun heq => hnew (heq ▸ List.mem_eraseDups.mp hother)
    rw [if_neg hne]

theorem acceptable_concat {elements : List Node} {element : Node} :
    Acceptable (elements ++ [element]) ↔ Acceptable elements ∧
      ∃ name, contextName? element = some name ∧ SoundMessages (element.children "message") ∧
        ((itemsNamed elements name ++ liveItems (element.children "message")).map
          Item.source).Nodup := by
  constructor
  · rintro ⟨hnames, hmessages, hdistinct⟩
    obtain ⟨name, hname⟩ := Option.isSome_iff_exists.mp (hnames element (by simp))
    have hmem {other : Node} (h : other ∈ elements) : other ∈ elements ++ [element] :=
      List.mem_append_left _ h
    refine ⟨⟨fun other h => hnames other (hmem h), fun other h => hmessages other (hmem h),
      fun other => ?_⟩, name, hname, hmessages element (by simp), ?_⟩
    · have hboth := hdistinct other
      rw [itemsNamed_append, List.map_append] at hboth
      exact (List.nodup_append.mp hboth).1
    · have hboth := hdistinct name
      rwa [itemsNamed_concat hname, if_pos rfl] at hboth
  · rintro ⟨⟨hnames, hmessages, hdistinct⟩, name, hname, hlast, hnodup⟩
    have hmem {other : Node} (h : other ∈ elements ++ [element]) :
        other ∈ elements ∨ other = element := by
      simpa using h
    refine ⟨fun other h => ?_, fun other h => ?_, fun other => ?_⟩
    · rcases hmem h with hother | rfl
      · exact hnames other hother
      · rw [hname]
        rfl
    · rcases hmem h with hother | rfl
      · exact hmessages other hother
      · exact hlast
    · rw [itemsNamed_concat hname]
      split
      · exact hnodup
      · exact hdistinct other

theorem Acceptable.nil : Acceptable [] where
  names _ h := nomatch h
  messages _ h := nomatch h
  distinct _ := List.nodup_nil

/-- One more context element, after acceptable ones. -/
theorem readContext_iff {locale : String} {draft : Draft} {elements : List Node}
    (hacceptable : Acceptable elements) (hdraft : draft.contexts = described elements)
    (element : Node) (contexts : Table (Table Message)) :
    (∃ next, readContext locale draft element = .ok next ∧ next.contexts = contexts) ↔
      Acceptable (elements ++ [element]) ∧ contexts = described (elements ++ [element]) := by
  have hrun {name : String} (hname : contextName? element = some name) :
      (∃ next, (element.children "message").foldlM (readMessage locale name)
          ⟨(described elements).put name (((described elements).get? name).getD []),
            draft.journal⟩ = .ok next ∧ next.contexts = contexts) ↔
        SoundMessages (element.children "message") ∧
          ((itemsNamed elements name ++ liveItems (element.children "message")).map
            Item.source).Nodup ∧
          contexts = described (elements ++ [element]) := by
    have hold := hacceptable.distinct name
    rw [← keys_entries] at hold
    rw [get?_described, readMessages_iff rfl hold, keys_entries, described_concat hname,
      List.map_append, List.map_append]
  rw [acceptable_concat]
  constructor
  · rintro ⟨next, h, hcontexts⟩
    obtain ⟨name, hname, hnext⟩ := readContext_ok h
    rw [← contextName?_eq_some_iff] at hname
    rw [hdraft] at hnext
    obtain ⟨hsound, hnodup, heq⟩ := (hrun hname).mp ⟨next, hnext, hcontexts⟩
    exact ⟨⟨hacceptable, name, hname, hsound, hnodup⟩, heq⟩
  · rintro ⟨⟨-, name, hname, hsound, hnodup⟩, heq⟩
    obtain ⟨next, hnext, hcontexts⟩ := (hrun hname).mpr ⟨hsound, hnodup, heq⟩
    refine ⟨next, ?_, hcontexts⟩
    rw [readContext, contextName?_eq_some_iff.mp hname]
    simpa only [hdraft] using hnext

/-- All context elements of a root. -/
theorem readContexts_iff (locale : String) (elements : List Node)
    (contexts : Table (Table Message)) :
    (∃ next, elements.foldlM (readContext locale) {} = .ok next ∧ next.contexts = contexts) ↔
      Acceptable elements ∧ contexts = described elements := by
  induction elements using List.reverseRecOn generalizing contexts with
  | nil =>
      simp only [List.foldlM_nil, Acceptable.nil, true_and]
      constructor
      · rintro ⟨next, hnext, rfl⟩
        cases hnext
        rfl
      · rintro rfl
        exact ⟨{}, rfl, rfl⟩
  | append_singleton elements element ih =>
      simp only [foldlM_concat_ok]
      constructor
      · rintro ⟨next, ⟨middle, hmiddle, hnext⟩, hcontexts⟩
        obtain ⟨hacceptable, hbefore⟩ := (ih middle.contexts).mp ⟨middle, hmiddle, rfl⟩
        exact (readContext_iff hacceptable hbefore element contexts).mp ⟨next, hnext, hcontexts⟩
      · rintro ⟨hacceptable, heq⟩
        have hfirst := (acceptable_concat.mp hacceptable).1
        obtain ⟨middle, hmiddle, hbefore⟩ := (ih _).mpr ⟨hfirst, rfl⟩
        obtain ⟨next, hnext, hcontexts⟩ :=
          (readContext_iff hfirst hbefore element contexts).mpr ⟨hacceptable, heq⟩
        exact ⟨next, ⟨middle, hmiddle, hnext⟩, hcontexts⟩

/-! ### Roots and documents -/

/-- A schema version that is declared, not before the configured minimum, and of a major number that
is not above the configured maximum. -/
def AcceptsVersion (config : Config) (declared : Option String) : Prop :=
  ∃ text version minimum, declared = some text ∧ Version.parse? text = some version ∧
    Version.parse? config.minVersion = some minimum ∧ version.before minimum = false ∧
    (version.major : Int) ≤ config.maxMajor

/-- A language that is not declared, or empty, or the code of the locale in some spelling. -/
def AcceptsLanguage (locale : String) (declared : Option String) : Prop :=
  declared = none ∨ declared = some "" ∨
    ∃ text, declared = some text ∧ normalizeCode text = .ok locale

theorem checkVersion_eq_ok_iff {config : Config} {locale : String} {declared : Option String} :
    checkVersion config locale declared = .ok () ↔ AcceptsVersion config declared := by
  constructor
  · intro h
    unfold checkVersion at h
    split at h
    · cases h
    · rename_i hne
      split at h
      · cases h
      · cases h
      · rename_i version hversion
        split at h
        · cases h
        · rename_i minimum hminimum
          split at h
          · cases h
          · rename_i hrange
            simp only [not_or, Bool.not_eq_true, Int.not_lt] at hrange
            cases declared with
            | none => exact absurd rfl hne
            | some text =>
                exact ⟨text, version, minimum, rfl, Version.parse?_eq_some_iff.mpr hversion,
                  Version.parse?_eq_some_iff.mpr hminimum, hrange⟩
  · rintro ⟨text, version, minimum, rfl, hversion, hminimum, hbefore, hmajor⟩
    have hne : text ≠ "" := by
      rintro rfl
      cases (show Version.parse? "" = none by decide +kernel).symm.trans hversion
    rw [Version.parse?_eq_some_iff] at hversion hminimum
    simp only [checkVersion, Option.getD_some, hversion, hminimum, hbefore, Bool.false_eq_true,
      false_or, Int.not_lt.mpr hmajor, if_false]

theorem checkLanguage_eq_ok_iff {locale : String} {declared : Option String} :
    checkLanguage locale declared = .ok () ↔ AcceptsLanguage locale declared := by
  constructor
  · intro h
    unfold checkLanguage at h
    cases declared with
    | none => exact Or.inl rfl
    | some text =>
        split at h
        · rename_i hempty
          exact Or.inr (Or.inl (congrArg some hempty))
        · split at h
          · cases h
          · rename_i code hcode
            split at h
            · rename_i heq
              exact Or.inr (Or.inr ⟨text, rfl, heq ▸ hcode⟩)
            · cases h
  · rintro (rfl | rfl | ⟨text, rfl, hcode⟩)
    · rfl
    · rfl
    · exact checkLanguage_of_normalizeCode hcode

theorem readRoot_iff (config : Config) (locale : String) (root : Node)
    (contexts : Table (Table Message)) :
    (∃ draft, readRoot config locale root = .ok draft ∧ draft.contexts = contexts) ↔
      AcceptsVersion config (root.attribute? "version") ∧
        AcceptsLanguage locale (root.attribute? "language") ∧
        Acceptable (root.children "context") ∧
        contexts = described (root.children "context") := by
  rw [← readContexts_iff locale, ← @checkVersion_eq_ok_iff config locale,
    ← checkLanguage_eq_ok_iff, readRoot]
  cases checkVersion config locale (root.attribute? "version") with
  | error error =>
      constructor
      · rintro ⟨draft, h, -⟩
        cases h
      · rintro ⟨h, -⟩
        cases h
  | ok _ =>
      cases checkLanguage locale (root.attribute? "language") with
      | error error =>
          constructor
          · rintro ⟨draft, h, -⟩
            cases h
          · rintro ⟨-, h, -⟩
            cases h
      | ok _ =>
          constructor
          · exact fun h => ⟨rfl, rfl, h⟩
          · exact fun h => h.2.2

/-- Reading accepts exactly the valid documents, and loses or invents nothing: the catalog is the
one that the context elements of the root describe. -/
theorem outcome_ofBytes_iff (config : Config) (locale : Locale) (bytes : ByteArray)
    (catalog : Catalog) :
    (ofBytes config locale bytes).outcome = .ok catalog ↔
      ∃ document root, Document.parse? bytes = some document ∧ rootOf? document = some root ∧
        AcceptsVersion config (root.attribute? "version") ∧
        AcceptsLanguage locale.code (root.attribute? "language") ∧
        Acceptable (root.children "context") ∧
        catalog = ⟨locale, described (root.children "context")⟩ := by
  simp only [ofBytes]
  cases Document.parse? bytes with
  | none => simp
  | some document =>
      cases hroot : rootOf? document with
      | none => simp [ofDocument, hroot]
      | some root =>
          have hcontexts := readRoot_iff config locale.code root
          simp only [ofDocument, hroot, Option.some.injEq, exists_eq_left', exists_and_left]
          constructor
          · intro h
            split at h
            · rename_i draft hdraft
              cases h
              obtain ⟨hversion, hlanguage, hacceptable, heq⟩ :=
                (hcontexts draft.contexts).mp ⟨draft, hdraft, rfl⟩
              exact ⟨hversion, hlanguage, hacceptable, by rw [heq]⟩
            · cases h
          · rintro ⟨hversion, hlanguage, hacceptable, rfl⟩
            obtain ⟨draft, hdraft, heq⟩ :=
              (hcontexts _).mpr ⟨hversion, hlanguage, hacceptable, rfl⟩
            rw [hdraft, ← heq]

end Polyglot.Catalog
