import Polyglot.Proofs.Writing
import Polyglot.Store

/-!
Writing and reading back. A catalog that is written and read again has the contexts and messages
that were written, in their order, as long as the texts can be seen in a document and their
placeholders pass validation.
-/

namespace Polyglot

open Xml

/-! ### What can be written -/

/-- A source and its translation that can be written, and whose placeholders are in order. -/
structure WritablePhrase (phrase : String × String) : Prop where
  source : Writable phrase.1
  translation : Writable phrase.2
  zero : 0 ∉ Placeholder.positions phrase.1
  zeroText : 0 ∉ Placeholder.positions phrase.2
  within : ∀ position ∈ Placeholder.positions phrase.2, position ∈ Placeholder.positions phrase.1

/-- A section with a normal name and distinct sources. -/
structure WritableSection (part : Section) : Prop where
  normal : normalizeName part.name = .ok part.name
  distinct : (part.phrases.map (·.1)).Nodup
  phrases : ∀ phrase ∈ part.phrases, WritablePhrase phrase

/-- Sections of distinct names. -/
structure WritableSections (parts : List Section) : Prop where
  distinct : (parts.map Section.name).Nodup
  sections : ∀ part ∈ parts, WritableSection part

instance decidableEqOk {ε α : Type} [DecidableEq α] (outcome : Except ε α) (value : α) :
    Decidable (outcome = .ok value) :=
  match outcome with
  | .ok found => decidable_of_iff (found = value) ⟨congrArg _, Except.ok.inj⟩
  | .error _ => isFalse fun h => nomatch h

instance (text : String) : Decidable (Writable text) :=
  have := List.decidableBEx (fun c => c ≠ ' ' ∧ c ≠ '\t' ∧ c ≠ '\n') text.toList
  decidable_of_iff (Admissible text.toList ∧
    (text = "" ∨ ∃ c ∈ text.toList, c ≠ ' ' ∧ c ≠ '\t' ∧ c ≠ '\n'))
    ⟨fun h => ⟨h.1, h.2⟩, fun h => ⟨h.1, h.2⟩⟩

instance (phrase : String × String) : Decidable (WritablePhrase phrase) :=
  decidable_of_iff (Writable phrase.1 ∧ Writable phrase.2 ∧ 0 ∉ Placeholder.positions phrase.1 ∧
    0 ∉ Placeholder.positions phrase.2 ∧
    ∀ position ∈ Placeholder.positions phrase.2, position ∈ Placeholder.positions phrase.1)
    ⟨fun h => ⟨h.1, h.2.1, h.2.2.1, h.2.2.2.1, h.2.2.2.2⟩,
      fun h => ⟨h.source, h.translation, h.zero, h.zeroText, h.within⟩⟩

instance (part : Section) : Decidable (WritableSection part) :=
  decidable_of_iff (normalizeName part.name = .ok part.name ∧ (part.phrases.map (·.1)).Nodup ∧
    ∀ phrase ∈ part.phrases, WritablePhrase phrase)
    ⟨fun h => ⟨h.1, h.2.1, h.2.2⟩, fun h => ⟨h.normal, h.distinct, h.phrases⟩⟩

instance (parts : List Section) : Decidable (WritableSections parts) :=
  decidable_of_iff ((parts.map Section.name).Nodup ∧ ∀ part ∈ parts, WritableSection part)
    ⟨fun h => ⟨h.1, h.2⟩, fun h => ⟨h.distinct, h.sections⟩⟩

/-- The message of a phrase. -/
def Message.ofPhrase : String × String → Message
  | (source, translation) =>
    { source, text := translation, slots := (Placeholder.positions source).length
      finished := true }

def Section.messages (part : Section) : Table Message :=
  part.phrases.map fun phrase => (phrase.1, Message.ofPhrase phrase)

/-! ### Texts -/

theorem collapse_of_visible {text : String} (h : Writable text) (hne : text ≠ "") :
    Node.collapse text = text := by
  obtain ⟨c, hc, hspace, htab, hline⟩ := h.visible.resolve_left hne
  have hcharacter := h.characters c hc
  have hfeed : c ≠ '\x0c' := by
    rintro rfl
    exact absurd hcharacter.1 (by decide)
  have hblank : ¬text.toList.all Node.isBlankCharacter = true := by
    intro hall
    have hthis := List.all_eq_true.mp hall c hc
    simp [Node.isBlankCharacter, hspace, htab, hline, hfeed, hcharacter.2] at hthis
  rw [Node.collapse, if_neg hblank]

theorem innerText_leaf (name : String) {text : String} (h : Writable text) :
    (Node.element name [] (textNodes text)).innerText = text := by
  by_cases hne : text = ""
  · subst hne
    rfl
  · rw [textNodes, if_neg hne, Node.innerText, Node.innerTexts, Node.innerText, Node.innerTexts,
      collapse_of_visible h hne, String.append_empty]

/-! ### Drafts -/

/-- Elements that are each put at the end of a draft, under keys that are new to it, are put there
in their order. -/
theorem foldlM_appended {α β : Type}
    {step : Catalog.Draft → Node → Except Catalog.Stop Catalog.Draft}
    {items : List α} {node : α → Node} {key : α → String} {value : α → β}
    {draft : Table β → Catalog.Draft}
    (hstep : ∀ item ∈ items, ∀ table : Table β, key item ∉ table.keys →
      step (draft table) (node item) = .ok (draft (table ++ [(key item, value item)])))
    (hdistinct : (items.map key).Nodup) {table : Table β}
    (hnew : ∀ item ∈ items, key item ∉ table.keys) :
    (items.map node).foldlM step (draft table) =
      .ok (draft (table ++ items.map fun item => (key item, value item))) := by
  induction items generalizing table with
  | nil =>
      rw [List.map_nil, List.map_nil, List.append_nil]
      rfl
  | cons item others ih =>
      rw [List.map_cons, List.nodup_cons] at hdistinct
      have hothers : ∀ other ∈ others,
          key other ∉ Table.keys (table ++ [(key item, value item)]) := by
        intro other hother
        apply Table.not_mem_keys_append (hnew other (List.mem_cons_of_mem _ hother))
        intro heq
        exact hdistinct.1 (heq ▸ List.mem_map_of_mem hother)
      have hrest := ih (fun other hother => hstep other (List.mem_cons_of_mem _ hother)) hdistinct.2
        hothers
      rw [List.append_assoc, List.singleton_append] at hrest
      rw [List.map_cons, List.foldlM_cons, hstep item List.mem_cons_self table
        (hnew item List.mem_cons_self)]
      exact hrest

/-! ### Messages -/

theorem item?_phraseNode {phrase : String × String} (h : WritablePhrase phrase) :
    Catalog.item? (phraseNode phrase) = some ⟨phrase.1, false, none, phrase.2⟩ := by
  obtain ⟨source, translation⟩ := phrase
  have hsource : (phraseNode (source, translation)).child? "source" =
      some (.element "source" [] (textNodes source)) := rfl
  have htranslation : (phraseNode (source, translation)).child? "translation" =
      some (.element "translation" [] (textNodes translation)) := rfl
  simp only [Catalog.item?, hsource, htranslation, Option.map_some, Option.elim_some,
    innerText_leaf "source" h.source, innerText_leaf "translation" h.translation]
  rfl

theorem placeholderFault?_phrase {phrase : String × String} (h : WritablePhrase phrase) :
    Catalog.placeholderFault? phrase.1 phrase.2 = none := by
  have hzero : ¬((Placeholder.positions phrase.1).contains 0 = true ∨
      (Placeholder.positions phrase.2).contains 0 = true) := by
    rw [List.contains_iff_mem, List.contains_iff_mem, not_or]
    exact ⟨h.zero, h.zeroText⟩
  have hstray : (Placeholder.positions phrase.2).filter
      (!(Placeholder.positions phrase.1).contains ·) = [] := by
    refine List.filter_eq_nil_iff.mpr fun position hposition => ?_
    simpa using Placeholder.mem_positions.mp (h.within position hposition)
  simp only [Catalog.placeholderFault?, if_neg hzero, hstray]

/-- A context that has been put last and takes in one more message. -/
theorem readMessage_phrase (locale : String) {context : String} {phrase : String × String}
    (h : WritablePhrase phrase) {before : Table (Table Message)} (hnew : context ∉ before.keys)
    {messages : Table Message} (hsource : phrase.1 ∉ messages.keys) (journal : Journal) :
    Catalog.readMessage locale context ⟨before ++ [(context, messages)], journal⟩
        (phraseNode phrase) =
      .ok ⟨before ++ [(context, messages ++ [(phrase.1, Message.ofPhrase phrase)])], journal⟩ := by
  have hget : Table.get? (before ++ [(context, messages)]) context = some messages := by
    rw [← Table.put_of_not_mem hnew, Table.get?_put_self]
  have hcontains : Table.contains messages phrase.1 = false :=
    Table.contains_eq_false_iff.mpr hsource
  simp only [Catalog.readMessage, item?_phraseNode h, placeholderFault?_phrase h, hget,
    Option.getD_some, hcontains, Table.put_of_not_mem hsource, Table.put_append_singleton hnew]
  rfl

/-! ### Contexts -/

theorem children_lines {α : Type} {name indentation : String} {node : α → Node} {items : List α}
    (h : ∀ item ∈ items, (node item).isElement name = true) :
    ((items.flatMap fun item => [Node.text indentation, node item]) ++
      [Node.text "\n"]).filter (Node.isElement name) = items.map node := by
  induction items with
  | nil => rfl
  | cons item others ih =>
      have hitem := h item List.mem_cons_self
      rw [List.flatMap_cons, List.append_assoc, List.cons_append, List.singleton_append,
        List.filter_cons_of_neg (by simp [Node.isElement]), List.filter_cons_of_pos hitem,
        ih fun other hother => h other (List.mem_cons_of_mem _ hother), List.map_cons]

theorem readContext_section (locale : String) {part : Section} (h : WritableSection part)
    {before : Table (Table Message)} (hnew : part.name ∉ before.keys) (journal : Journal) :
    Catalog.readContext locale ⟨before, journal⟩ (sectionNode part) =
      .ok ⟨before ++ [(part.name, part.messages)], journal⟩ := by
  have hname : Catalog.contextText (sectionNode part) = part.name :=
    innerText_leaf "name" (Writable.of_normalizeName h.normal)
  have hchildren : (sectionNode part).children "message" = part.phrases.map phraseNode := by
    rw [Node.children, sectionNode, Node.content,
      List.filter_cons_of_neg (by simp [Node.isElement]),
      List.filter_cons_of_neg (by simp [Node.isElement])]
    exact children_lines fun phrase _ => rfl
  have hget : Table.get? before part.name = none := Table.get?_eq_none_iff.mpr hnew
  have hmessages := @foldlM_appended _ _ (Catalog.readMessage locale part.name) part.phrases
    phraseNode (·.1) Message.ofPhrase (fun messages => ⟨before ++ [(part.name, messages)], journal⟩)
    (fun phrase hphrase messages hsource =>
      readMessage_phrase locale (h.phrases phrase hphrase) hnew hsource journal)
    h.distinct [] fun phrase _ => List.not_mem_nil
  simp only [Catalog.readContext, hname, h.normal, hget, Option.getD_none,
    Table.put_of_not_mem hnew, hchildren]
  exact hmessages

/-! ### Documents -/

theorem children_rootNode (code : String) (parts : List Section) :
    (rootNode code parts).children "context" = parts.map sectionNode := by
  rw [Node.children, rootNode, Node.content]
  exact children_lines fun part _ => rfl

/-- The root of a written document has the version and the language that it was written with, and
the contexts of its sections. -/
theorem readRoot_rootNode {config : Config} {code : String} {parts : List Section}
    (hversion : Catalog.checkVersion config code (some "2.1") = .ok ())
    (hcode : normalizeCode code = .ok code) (h : WritableSections parts) :
    Catalog.readRoot config code (rootNode code parts) =
      .ok ⟨parts.map fun part => (part.name, part.messages), []⟩ := by
  have hlanguage := Catalog.checkLanguage_of_normalizeCode hcode
  have hcontexts := @foldlM_appended _ _ (Catalog.readContext code) parts sectionNode Section.name
    Section.messages (fun contexts => ⟨contexts, []⟩)
    (fun part hpart contexts hnew => readContext_section code (h.sections part hpart) hnew [])
    h.distinct [] fun part _ => List.not_mem_nil
  have hattribute : (rootNode code parts).attribute? "version" = some "2.1" := rfl
  have hattribute' : (rootNode code parts).attribute? "language" = some code := rfl
  rw [Catalog.readRoot, hattribute, hattribute', hversion, hlanguage, children_rootNode]
  exact hcontexts

theorem admissible_phraseText {phrase : String × String} (hsource : Admissible phrase.1.toList)
    (htranslation : Admissible phrase.2.toList) : Admissible (phraseText phrase) := by
  apply Admissible.append (by decide)
  apply Admissible.append (by decide)
  apply Admissible.append (by decide)
  refine hsource.escaped.append (Admissible.append (by decide) (Admissible.append (by decide) ?_))
  refine Admissible.append (by decide) (htranslation.escaped.append ?_)
  decide

/-- All texts of the sections can stand in a document. -/
def AdmissibleSections (parts : List Section) : Prop :=
  ∀ part ∈ parts, Admissible part.name.toList ∧
    ∀ phrase ∈ part.phrases, Admissible phrase.1.toList ∧ Admissible phrase.2.toList

theorem WritableSections.admissible {parts : List Section} (h : WritableSections parts) :
    AdmissibleSections parts := by
  intro part hpart
  have hwritable := h.sections part hpart
  refine ⟨(Writable.of_normalizeName hwritable.normal).characters, fun phrase hphrase => ?_⟩
  have hphrase := hwritable.phrases phrase hphrase
  exact ⟨hphrase.source.characters, hphrase.translation.characters⟩

theorem admissible_sectionText {parts : List Section} (h : AdmissibleSections parts)
    {part : Section} (hpart : part ∈ parts) : Admissible (sectionText part) := by
  obtain ⟨hname, htexts⟩ := h part hpart
  have hphrases : Admissible
      (part.phrases.flatMap fun phrase => Catalog.escaped "\n    " ++ phraseText phrase) :=
    Admissible.flatMap fun phrase hphrase => Admissible.append (by decide)
      (admissible_phraseText (htexts phrase hphrase).1 (htexts phrase hphrase).2)
  apply Admissible.append (by decide)
  apply Admissible.append (by decide)
  apply Admissible.append (by decide)
  exact hname.escaped.append (Admissible.append (by decide) (hphrases.append (by decide)))

theorem admissible_rootContent {parts : List Section} (h : AdmissibleSections parts) :
    Admissible (rootContent parts) := by
  have hsections :
      Admissible (parts.flatMap fun part => Catalog.escaped "\n" ++ sectionText part) :=
    Admissible.flatMap fun part hpart =>
      Admissible.append (by decide) (admissible_sectionText h hpart)
  exact hsections.append (by decide)

theorem openTag_root (version language : String) :
    openTag "TS" [("version", version), ("language", language)] = rootBeginning ++
      ("version=\"".toList ++ (version.toList ++ ("\" language=\"".toList ++
        (language.toList ++ "\">".toList)))) := by
  simp [openTag, writeAttribute, rootBeginning]

/-- A value of an attribute that stands for itself there, and that a document can hold. -/
def PlainValue (value : String) : Prop :=
  ∀ c ∈ value.toList, isCharacter c = true ∧ isPlainCharacter c = true

instance (value : String) : Decidable (PlainValue value) :=
  List.decidableBAll (fun c => isCharacter c = true ∧ isPlainCharacter c = true) value.toList

theorem PlainValue.isPlainValue {value : String} (h : PlainValue value) :
    isPlainValue value.toList = true :=
  List.all_eq_true.mpr fun c hc => (h c hc).2

theorem PlainValue.admissible {value : String} (h : PlainValue value) :
    Admissible value.toList :=
  fun c hc => ⟨(h c hc).1, (ne_of_isPlainCharacter (h c hc).2).2.2.2⟩

theorem PlainValue.of_normalizeCode {code : String} (hcode : normalizeCode code = .ok code) :
    PlainValue code :=
  fun c hc => plain_of_isWord (isWord_of_normalizeCode hcode c hc)

theorem admissible_openTag {version language : String} (hversion : PlainValue version)
    (hlanguage : PlainValue language) :
    Admissible (openTag "TS" [("version", version), ("language", language)]) := by
  rw [openTag_root]
  apply Admissible.append (by decide)
  apply Admissible.append (by decide)
  apply hversion.admissible.append
  apply Admissible.append (by decide)
  exact hlanguage.admissible.append (by decide)

/-- A written catalog is well-formed, with what has been written as its root, if its characters may
stand in a document. What is passed over may stand after it. -/
theorem parse?_write_append {code after : String} {parts : List Section}
    (hcode : normalizeCode code = .ok code) (h : Admissible (rootContent parts))
    (hadmits : Admissible after.toList)
    (hafter : Document.skipAsides after.toList = some ((), [])) :
    Document.parse? (Catalog.write code parts ++ after).toUTF8 =
      some ⟨{}, rootNode code parts⟩ := by
  have hplain : PlainValue code := .of_normalizeCode hcode
  have hversion : PlainValue "2.1" := by decide
  have hparse := parse?_of_readRoot (by rw [openTag_root, List.append_assoc])
    ((admissible_openTag hversion hplain).append (h.append hadmits))
    (fun references => readRoot_written references hplain.isPlainValue parts after.toList) hafter
  have htext : Catalog.write code parts ++ after = String.ofList (utf8Declaration ++
      (emptyDoctype ++ (openTag "TS" [("version", "2.1"), ("language", code)] ++
        (rootContent parts ++ after.toList)))) := by
    rw [write_eq, ← String.toList_inj]
    simp only [String.toList_append, String.toList_ofList, List.append_assoc]
  rw [htext, String.toUTF8_eq_toByteArray, String.toByteArray_ofList, hparse]

theorem parse?_write {code : String} {parts : List Section}
    (hcode : normalizeCode code = .ok code) (h : Admissible (rootContent parts)) :
    Document.parse? (Catalog.write code parts).toUTF8 = some ⟨{}, rootNode code parts⟩ := by
  have hparse := @parse?_write_append code "" parts hcode h (by decide) rfl
  rwa [String.append_empty] at hparse

/-- The version of a written catalog is not too long. -/
theorem Catalog.not_overlong_of_parse? {bytes : ByteArray} {code : String} {parts : List Section}
    (hparse : Document.parse? bytes = some ⟨{}, rootNode code parts⟩) (digits : Nat) :
    ¬Overlong bytes digits := by
  intro h
  obtain ⟨document, root, hdocument, hroot, text, htext, hoversized⟩ := h
  cases hparse.symm.trans hdocument
  cases hroot
  cases htext
  cases hoversized

/-- A document is discovered under the code that its root declares, if that is a normal form. -/
theorem Registry.registration?_of_parse? {config : Config} {disk : Disk} {path code : String}
    {bytes : ByteArray} {document : Document} (hread : disk.read path = .ok bytes)
    (hparse : Document.parse? bytes = some document)
    (hlanguage : (Catalog.rootOf? document).bind (·.attribute? "language") = some code)
    (hcode : normalizeCode code = .ok code) :
    registration? config disk path = (some ⟨⟨code, displayName config code⟩, path⟩, []) := by
  have hdeclared : Catalog.declaredLanguage? bytes = some code := by
    simp only [Catalog.declaredLanguage?, hparse, hlanguage]
    rw [Option.filter_some, if_pos (by simpa using ne_empty_of_normalizeCode hcode)]
  simp only [registration?, declaredCode, hread, hdeclared, hcode]

/-- A written catalog is discovered under the code that it is written for. -/
theorem Registry.registration?_write {config : Config} {disk : Disk} {path code : String}
    {parts : List Section} (hread : disk.read path = .ok (Catalog.write code parts).toUTF8)
    (hcode : normalizeCode code = .ok code) (h : WritableSections parts) :
    registration? config disk path = (some ⟨⟨code, displayName config code⟩, path⟩, []) :=
  registration?_of_parse? hread (parse?_write hcode (admissible_rootContent h.admissible)) rfl hcode

/-- From the tree that was meant a catalog comes out as it was, without anything to report. -/
theorem ofBytes_of_parse? {config : Config} {locale : Locale} {parts : List Section}
    {bytes : ByteArray}
    (hparse : Document.parse? bytes = some ⟨{}, rootNode locale.code parts⟩)
    (hversion : Catalog.checkVersion config locale.code (some "2.1") = .ok ())
    (hcode : normalizeCode locale.code = .ok locale.code) (h : WritableSections parts) :
    Catalog.ofBytes config locale bytes =
      ⟨.ok ⟨locale, parts.map fun part => (part.name, part.messages)⟩, []⟩ := by
  have hroot : Catalog.rootOf? ⟨{}, rootNode locale.code parts⟩ =
    some (rootNode locale.code parts) := rfl
  rw [Catalog.ofBytes, hparse]
  simp only [Catalog.ofDocument, hroot, readRoot_rootNode hversion hcode h]

/-- A catalog that is written for a locale is read back. -/
theorem ofText_write {config : Config} {locale : Locale} {parts : List Section}
    (hversion : Catalog.checkVersion config locale.code (some "2.1") = .ok ())
    (hcode : normalizeCode locale.code = .ok locale.code) (h : WritableSections parts) :
    Catalog.ofText config locale (Catalog.write locale.code parts) =
      ⟨.ok ⟨locale, parts.map fun part => (part.name, part.messages)⟩, []⟩ :=
  ofBytes_of_parse? (parse?_write hcode (admissible_rootContent h.admissible)) hversion hcode h

/-- What has been written to the path of a locale is what the store reads. -/
theorem Store.fetch_written {store : Store} {disk : Disk} {code : String}
    {registration : Registration} {parts : List Section}
    (hfind : store.registry.find? code = some registration)
    (hread : disk.read registration.path =
      .ok (Catalog.write registration.locale.code parts).toUTF8)
    (hversion : Catalog.checkVersion store.config registration.locale.code (some "2.1") = .ok ())
    (hcode : normalizeCode registration.locale.code = .ok registration.locale.code)
    (h : WritableSections parts) :
    store.fetch disk code =
      ⟨.ok ⟨registration.locale, parts.map fun part => (part.name, part.messages)⟩, []⟩ := by
  simp only [fetch, hfind, hread]
  exact ofText_write hversion hcode h

theorem checkVersion_standard (code : String) :
    Catalog.checkVersion .standard code (some "2.1") = .ok () :=
  rfl

/-- Rendering and then parsing is the identity: under the standard configuration every catalog of
writable sections is read back with its contexts and messages in order. -/
theorem Catalog.outcome_ofText_write (locale : Locale) (parts : List Section)
    (hcode : normalizeCode locale.code = .ok locale.code) (h : WritableSections parts) :
    (Catalog.ofText .standard locale (Catalog.write locale.code parts)).outcome =
      .ok ⟨locale, parts.map fun part => (part.name, part.messages)⟩ := by
  rw [ofText_write (checkVersion_standard locale.code) hcode h]

/-- Escapes, marks of character data, runs of blanks, line breaks and an empty translation. -/
def hardSections : List Section := [
  ⟨"Ui::Main.Window",
    [("a ]]> b &amp; <b>%2 of %1</b>", "  %1\n\tиз\n%2 &#38; <![CDATA[ "), ("", "")]⟩,
  ⟨"_", []⟩, ⟨"Dialog", [("%1%%1", "%1"), ("OK", "")]⟩]

theorem Catalog.outcome_ofText_write_hardSections :
    normalizeCode "zh_419" = .ok "zh_419" ∧ WritableSections hardSections ∧
      (Catalog.ofText .standard ⟨"zh_419", "中文"⟩ (Catalog.write "zh_419" hardSections)).outcome =
        .ok ⟨⟨"zh_419", "中文"⟩, hardSections.map fun part => (part.name, part.messages)⟩ := by
  have hcode : normalizeCode "zh_419" = .ok "zh_419" := by decide +kernel
  have hsections : WritableSections hardSections := by decide +kernel
  exact ⟨hcode, hsections, outcome_ofText_write ⟨"zh_419", "中文"⟩ hardSections hcode hsections⟩

/-! ### A root alone -/

/-- A document without contexts. -/
def Catalog.bare (version language : String) : String :=
  String.ofList (utf8Declaration ++ (emptyDoctype ++
    (openTag "TS" [("version", version), ("language", language)] ++ closeTag "TS")))

theorem parse?_bare {version language : String} (hversion : PlainValue version)
    (hlanguage : PlainValue language) :
    Document.parse? (Catalog.bare version language).toUTF8 =
      some ⟨{}, bareNode version language⟩ := by
  rw [Catalog.bare, String.toUTF8_eq_toByteArray, String.toByteArray_ofList]
  exact parse?_of_readRoot (by rw [openTag_root, List.append_assoc])
    ((admissible_openTag hversion hlanguage).append (by decide))
    (fun references => readRoot_bare references hversion.isPlainValue hlanguage.isPlainValue) rfl

theorem plainValue_zeros (digits : Nat) : PlainValue (Version.zeros digits) := by
  intro c hc
  rw [Version.zeros, String.toList_ofList, List.mem_cons, List.mem_cons] at hc
  rcases hc with rfl | rfl | hc
  · decide
  · decide
  · rw [List.eq_of_mem_replicate hc]
    decide

/-- A root may declare a version that is too long, and it declares a locale all the same. -/
theorem Catalog.overlong_bare {code : String} {digits : Nat} (hcode : normalizeCode code = .ok code)
    (h : Numeral.maxDigits < digits) :
    Overlong (bare (Version.zeros digits) code).toUTF8 digits :=
  ⟨_, _, parse?_bare (plainValue_zeros digits) (.of_normalizeCode hcode), rfl, _, rfl,
    Version.parse_zeros h⟩

end Polyglot
