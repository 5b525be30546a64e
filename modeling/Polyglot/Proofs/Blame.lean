import Polyglot.Proofs.Verdict

/-!
What an error blames. An error inside a context names a message that is really at fault, and it is
the first such message: what stands before it is accepted, and what stands behind it does not
matter. An error outside the contexts names no context and no key. Only a schema version that is too
long is not blamed at all: reading then fails with the version itself.
-/

namespace Polyglot.Catalog

open Xml

/-! ### Offences -/

/-- What is wrong with a live message, after other live messages of its context: first of all a
position zero, then positions that only the translation has, and at last a source that has come
before. -/
inductive Offends (previous : List Item) (item : Item) : CatalogFault → Prop where
  | zero (h : 0 ∈ Placeholder.positions item.source ∨ 0 ∈ Placeholder.positions item.translation) :
      Offends previous item .zeroPosition
  | stray {positions : List Nat} (hsource : 0 ∉ Placeholder.positions item.source)
      (htranslation : 0 ∉ Placeholder.positions item.translation) (hne : positions ≠ [])
      (hsorted : positions.Pairwise (· < ·))
      (h : ∀ position, position ∈ positions ↔
        position ∈ Placeholder.positions item.translation ∧
          position ∉ Placeholder.positions item.source) :
      Offends previous item (.strayPositions positions)
  | repeated {other : Item} (hsound : item.Sound) (hother : other ∈ previous)
      (h : other.source = item.source) : Offends previous item .duplicate

/-- A message element is at fault, after other live messages of its context, and the fault is
reported with a key, unless there is none. -/
inductive Blames (previous : List Item) (element : Node) : CatalogFault → Option String → Prop where
  | noSource (h : element.child? "source" = none) : Blames previous element .noSource none
  | live {item : Item} {fault : CatalogFault} (hitem : item? element = some item)
      (hlive : item.isLive = true) (h : Offends previous item fault) :
      Blames previous element fault (some item.source)

/-- The place of a message in a root: the context elements before its own, the text of the name of
its own, and the messages before it there. -/
structure Place where
  before : List Node
  title : String
  earlier : List Node
  message : Node

namespace Place

/-- The live messages before a place in contexts of its name. -/
def previous (place : Place) (name : String) : List Item :=
  itemsNamed place.before name ++ liveItems place.earlier

/-- A root that has the same contexts and messages up to a place, and goes on with some messages in
the context of the place and with some contexts behind it. The context of the place keeps its name,
wherever in the context that stands. -/
def Continues (place : Place) (root : Node) (messages contexts : List Node) : Prop :=
  ∃ context, root.children "context" = place.before ++ context :: contexts ∧
    contextText context = place.title ∧ context.children "message" = place.earlier ++ messages

/-- The message of a place is the first that is at fault. A document with the version and the
language of the root is accepted if it ends before the message, and ends in the error if it has the
message, whatever comes then. -/
structure First (place : Place) (config : Config) (locale : Locale) (root : Node)
    (error : LoadError) : Prop where
  cut : ∀ document other, rootOf? document = some other →
    other.attribute? "version" = root.attribute? "version" →
    other.attribute? "language" = root.attribute? "language" → place.Continues other [] [] →
    ∃ catalog, (ofDocument config locale document).outcome = .ok catalog
  stands : ∀ document other later after, rootOf? document = some other →
    other.attribute? "version" = root.attribute? "version" →
    other.attribute? "language" = root.attribute? "language" →
    place.Continues other (place.message :: later) after →
    (ofDocument config locale document).outcome = .error error

end Place

/-- Where an error comes from: from outside the contexts, and then it names none, or from a message
that it blames, the first that is at fault. -/
inductive Traced (config : Config) (locale : Locale) (bytes : ByteArray) (cause : CatalogError) :
    Prop where
  | outside (hcontext : cause.context = none) (hkey : cause.key = none)
  | inside {root : Node} {name : String} {place : Place} {later after : List Node}
      (hroot : rootIn? bytes = some root) (hcontext : cause.context = some name)
      (hname : normalizeName place.title = .ok name)
      (hplace : place.Continues root (place.message :: later) after)
      (hblames : Blames (place.previous name) place.message cause.fault cause.key)
      (hfirst : place.First config locale root (.catalog cause))

/-! ### The message that is refused -/

theorem offends_of_placeholderFault? {item : Item} {fault : CatalogFault}
    (h : placeholderFault? item.source item.translation = some fault) (previous : List Item) :
    Offends previous item fault := by
  simp only [placeholderFault?, List.contains_iff_mem] at h
  split at h
  · rename_i hzero
    cases h
    exact .zero hzero
  · rename_i hzero
    rw [not_or] at hzero
    split at h
    · cases h
    · rename_i hstray
      cases h
      refine .stray hzero.1 hzero.2 hstray ?_ fun position => ?_
      · exact (List.pairwise_lt_range.filter _).filter _
      · simp [List.mem_filter]

/-- What a refused message has done, and what is reported of it. -/
theorem judgeMessage_error {locale name : String} {contexts : Table (Table Message)}
    {element : Node} {error : LoadError}
    (h : judgeMessage locale name contexts element = .error error) {previous : List Item}
    (hprevious : ((contexts.get? name).getD []).keys = previous.map Item.source) :
    ∃ fault key, error = .catalog ⟨fault, locale, some name, key⟩ ∧
      Blames previous element fault key := by
  simp only [judgeMessage, readMessage] at h
  cases hitem : item? element with
  | none =>
      rw [hitem] at h
      cases h
      exact ⟨_, _, rfl, .noSource (Option.map_eq_none_iff.mp hitem)⟩
  | some item =>
      simp only [hitem] at h
      split at h
      · cases h
      · split at h
        · cases h
        · rename_i hlive
          have hlive' : item.isLive = true := by simpa using hlive
          split at h
          · rename_i fault hfault
            cases h
            exact ⟨_, _, rfl, .live hitem hlive' (offends_of_placeholderFault? hfault previous)⟩
          · rename_i hfault
            split at h
            · rename_i hcontains
              cases h
              have hmem : item.source ∈ previous.map Item.source := by
                by_contra hnew
                rw [← hprevious] at hnew
                rw [Table.contains_eq_false_iff.mpr hnew] at hcontains
                cases hcontains
              obtain ⟨other, hother, hsource⟩ := List.mem_map.mp hmem
              have hsound := placeholderFault?_eq_none_iff.mp hfault
              exact ⟨_, _, rfl, .live hitem hlive' (.repeated hsound hother hsource)⟩
            · cases h

/-- A context that is refused has no valid name, or one of its messages is refused after those
before it have been taken in. -/
theorem judgeContext_error {locale : String} {before : List Node} (hbefore : Acceptable before)
    {element : Node} {error : LoadError}
    (h : judgeContext locale (described before) element = .error error) :
    (∃ fault, error = .catalog ⟨fault, locale, none, none⟩) ∨
    ∃ name earlier message later middle fault key,
      normalizeName (contextText element) = .ok name ∧
      element.children "message" = earlier ++ message :: later ∧
      earlier.foldlM (judgeMessage locale name) ((described before).put name
        (((described before).get? name).getD [])) = .ok middle ∧
      judgeMessage locale name middle message = .error error ∧
      error = .catalog ⟨fault, locale, some name, key⟩ ∧
      Blames (itemsNamed before name ++ liveItems earlier) message fault key := by
  rw [judgeContext_eq] at h
  cases hname : normalizeName (contextText element) with
  | error cause =>
      rw [hname] at h
      cases h
      exact Or.inl ⟨_, rfl⟩
  | ok name =>
      rw [hname] at h
      obtain ⟨earlier, message, later, middle, hmessages, hearlier, hrefused⟩ := foldlM_eq_error h
      have hold : Table.keys (((described before).get? name).getD []) =
          (itemsNamed before name).map Item.source := by rw [get?_described, keys_entries]
      have hnodup := hbefore.distinct name
      rw [← hold] at hnodup
      obtain ⟨-, -, hmiddle⟩ := (judgeMessages_eq_ok_iff hnodup earlier middle).mp hearlier
      have hprevious : ((middle.get? name).getD []).keys =
          (itemsNamed before name ++ liveItems earlier).map Item.source := by
        rw [hmiddle, Table.get?_put_self, Option.getD_some, keys_append_entries, hold,
          List.map_append]
      obtain ⟨fault, key, heq, hblames⟩ := judgeMessage_error hrefused hprevious
      exact Or.inr ⟨name, earlier, message, later, middle, fault, key, rfl, hmessages, hearlier,
        hrefused, heq, hblames⟩

/-- A root that is refused has a version, a language or a context that is refused, the context after
those before it have been taken in. -/
theorem judgeRoot_error {config : Config} {locale : String} {root : Node} {error : LoadError}
    (h : judgeRoot config locale root = .error error) :
    checkVersion config locale (root.attribute? "version") = .error error ∨
    checkLanguage locale (root.attribute? "language") = .error error ∨
    ∃ before context after,
      checkVersion config locale (root.attribute? "version") = .ok () ∧
      checkLanguage locale (root.attribute? "language") = .ok () ∧
      root.children "context" = before ++ context :: after ∧ Acceptable before ∧
      before.foldlM (judgeContext locale) [] = .ok (described before) ∧
      judgeContext locale (described before) context = .error error := by
  rw [judgeRoot] at h
  cases hversion : checkVersion config locale (root.attribute? "version") with
  | error reason =>
      rw [hversion] at h
      cases h
      exact Or.inl rfl
  | ok _ =>
      cases hlanguage : checkLanguage locale (root.attribute? "language") with
      | error reason =>
          rw [hversion, hlanguage] at h
          cases h
          exact Or.inr (Or.inl rfl)
      | ok _ =>
          rw [hversion, hlanguage] at h
          obtain ⟨before, context, after, contexts, hcontexts, hbefore, hrefused⟩ :=
            foldlM_eq_error h
          obtain ⟨hacceptable, rfl⟩ := (judgeContexts_eq_ok_iff _ _ _).mp hbefore
          exact Or.inr (Or.inr ⟨before, context, after, rfl, rfl, hcontexts, hacceptable, hbefore,
            hrefused⟩)

/-! ### The first offence -/

section First

variable {config : Config} {locale : Locale} {root other : Node} {place : Place} {name : String}
  {contexts middle : Table (Table Message)}

/-- A root that goes on in its own way at a place is judged by that alone. -/
theorem judgeRoot_of_continues {locale : String} {messages after : List Node}
    (hversion : checkVersion config locale (other.attribute? "version") = .ok ())
    (hlanguage : checkLanguage locale (other.attribute? "language") = .ok ())
    (hbefore : place.before.foldlM (judgeContext locale) [] = .ok contexts)
    (hname : normalizeName place.title = .ok name)
    (hearlier : place.earlier.foldlM (judgeMessage locale name)
      (contexts.put name ((contexts.get? name).getD [])) = .ok middle)
    (h : place.Continues other messages after) :
    judgeRoot config locale other =
      messages.foldlM (judgeMessage locale name) middle >>=
        after.foldlM (judgeContext locale) := by
  obtain ⟨context, hcontexts, htitle, hmessages⟩ := h
  rw [judgeRoot, hversion, hlanguage, hcontexts]
  change (place.before ++ context :: after).foldlM (judgeContext locale) [] = _
  rw [foldlM_append_of_ok hbefore, List.foldlM_cons, judgeContext_eq, htitle, hname, hmessages]
  dsimp only
  rw [foldlM_append_of_ok hearlier]

theorem first_of_refused {error : LoadError}
    (hversion : checkVersion config locale.code (root.attribute? "version") = .ok ())
    (hlanguage : checkLanguage locale.code (root.attribute? "language") = .ok ())
    (hbefore : place.before.foldlM (judgeContext locale.code) [] = .ok contexts)
    (hname : normalizeName place.title = .ok name)
    (hearlier : place.earlier.foldlM (judgeMessage locale.code name)
      (contexts.put name ((contexts.get? name).getD [])) = .ok middle)
    (hrefused : judgeMessage locale.code name middle place.message = .error error) :
    place.First config locale root error where
  cut document other hroot hversion' hlanguage' h := by
    rw [← hversion'] at hversion
    rw [← hlanguage'] at hlanguage
    rw [outcome_ofDocument hroot,
      judgeRoot_of_continues hversion hlanguage hbefore hname hearlier h]
    exact ⟨_, rfl⟩
  stands document other later after hroot hversion' hlanguage' h := by
    rw [← hversion'] at hversion
    rw [← hlanguage'] at hlanguage
    rw [outcome_ofDocument hroot,
      judgeRoot_of_continues hversion hlanguage hbefore hname hearlier h, List.foldlM_cons,
      hrefused]
    rfl

end First

/-- What has made a root fail, if the configured minimum is a version and that of the root is not
too long. -/
theorem traced_of_judgeRoot {config : Config} {locale : Locale} {bytes : ByteArray} {root : Node}
    {error : LoadError} (hminimum : (Version.parse? config.minVersion).isSome = true)
    (hroot : rootIn? bytes = some root)
    (hshort : ∀ digits, ¬OverlongVersion (root.attribute? "version") digits)
    (h : judgeRoot config locale.code root = .error error) :
    ∃ cause, error = .catalog cause ∧ cause.locale = locale.code ∧
      Traced config locale bytes cause := by
  have houtside {fault : CatalogFault} (heq : error = .catalog ⟨fault, locale.code, none, none⟩) :
      ∃ cause, error = .catalog cause ∧ cause.locale = locale.code ∧
        Traced config locale bytes cause :=
    ⟨_, heq, rfl, .outside rfl rfl⟩
  rcases judgeRoot_error h with hversion | hlanguage |
    ⟨before, context, after, hversion, hlanguage, hcontexts, hacceptable, hbefore, hrefused⟩
  · rcases checkVersion_error hminimum hversion with ⟨fault, heq, -⟩ | ⟨digits, -, hoverlong⟩
    · exact houtside heq
    · exact absurd hoverlong (hshort digits)
  · obtain ⟨fault, heq⟩ := checkLanguage_error hlanguage
    exact houtside heq
  · rcases judgeContext_error hacceptable hrefused with ⟨fault, heq⟩ |
      ⟨name, earlier, message, later, middle, fault, key, hname, hmessages, hearlier, hmessage,
        rfl, hblames⟩
    · exact houtside heq
    · let place : Place := ⟨before, contextText context, earlier, message⟩
      have htitle : normalizeName place.title = .ok name := hname
      have hplace : place.Continues root (place.message :: later) after :=
        ⟨context, hcontexts, rfl, hmessages⟩
      have hfirst : place.First config locale root
          (.catalog ⟨fault, locale.code, some name, key⟩) :=
        first_of_refused hversion hlanguage hbefore htitle hearlier hmessage
      exact ⟨_, rfl, rfl, .inside hroot rfl htitle hplace hblames hfirst⟩

/-- What the root declares is what the document declares. -/
theorem overlong_of_rootIn? {bytes : ByteArray} {root : Node} {digits : Nat}
    (hroot : rootIn? bytes = some root)
    (h : OverlongVersion (root.attribute? "version") digits) : Overlong bytes digits := by
  obtain ⟨document, hparse, hdocument⟩ := Option.bind_eq_some_iff.mp hroot
  exact ⟨document, root, hparse, hdocument, h⟩

/-- An error names the first real offence, unless a schema version that is too long has been
declared, and that is the error just then. Any other error names the locale, and either it comes
from outside the contexts, or the message that it names is at fault in the way that it says and is
the first that is at fault. -/
theorem traced_of_outcome {config : Config} {locale : Locale} {bytes : ByteArray}
    {error : LoadError} (hminimum : (Version.parse? config.minVersion).isSome = true)
    (h : (ofBytes config locale bytes).outcome = .error error) :
    (∀ digits, error = .version (.oversized digits) ↔ Overlong bytes digits) ∧
      ((∀ digits, ¬Overlong bytes digits) → ∃ cause, error = .catalog cause ∧
        cause.locale = locale.code ∧ Traced config locale bytes cause) := by
  refine ⟨fun digits => ⟨?_, ?_⟩, fun hshort => ?_⟩
  · rintro rfl
    rcases ofBytes_error hminimum h with ⟨cause, heq, -⟩ | ⟨other, heq, hoverlong⟩
    · cases heq
    · cases heq
      exact hoverlong
  · intro hoverlong
    cases h.symm.trans (outcome_of_overlong hoverlong config locale)
    rfl
  · cases hroot : rootIn? bytes with
    | none =>
        obtain ⟨fault, houtcome⟩ := outcome_of_rootless hroot config locale
        cases h.symm.trans houtcome
        exact ⟨_, rfl, rfl, .outside rfl rfl⟩
    | some root =>
        rw [outcome_ofBytes hroot] at h
        cases hjudge : judgeRoot config locale.code root with
        | ok contexts =>
            rw [hjudge] at h
            cases h
        | error reason =>
            rw [hjudge] at h
            cases h
            exact traced_of_judgeRoot hminimum hroot
              (fun digits hoverlong => hshort digits (overlong_of_rootIn? hroot hoverlong)) hjudge

/-- A context that is taken up again. Its first message there has positions that its source does not
have, and the second repeats a source. -/
def offendingSections : List Section := [⟨"Ui", [("Open", "Öffnen")]⟩, ⟨"Tray", []⟩,
  ⟨"Ui", [("Page %1", "%3 %1 %2"), ("Open", "")]⟩]

theorem traced_of_outcome_offending :
    (Version.parse? Config.standard.minVersion).isSome = true ∧
      (ofBytes .standard ⟨"de_DE", ""⟩ (write "de_DE" offendingSections).toUTF8).outcome =
        .error (.catalog ⟨.strayPositions [2, 3], "de_DE", some "Ui", some "Page %1"⟩) ∧
      Traced .standard ⟨"de_DE", ""⟩ (write "de_DE" offendingSections).toUTF8
        ⟨.strayPositions [2, 3], "de_DE", some "Ui", some "Page %1"⟩ := by
  have hminimum := Config.isSome_parse?_minVersion
  have hcode : normalizeCode "de_DE" = .ok "de_DE" := by decide +kernel
  have hroot :=
    rootIn?_write hcode (show Admissible (rootContent offendingSections) by decide +kernel)
  have houtcome :
      (ofBytes .standard ⟨"de_DE", ""⟩ (write "de_DE" offendingSections).toUTF8).outcome =
        .error (.catalog ⟨.strayPositions [2, 3], "de_DE", some "Ui", some "Page %1"⟩) := by
    rw [outcome_ofBytes hroot]
    decide +kernel
  have hshort (digits : Nat) : ¬Overlong (write "de_DE" offendingSections).toUTF8 digits := by
    intro hoverlong
    cases houtcome.symm.trans (outcome_of_overlong hoverlong .standard ⟨"de_DE", ""⟩)
  obtain ⟨cause, heq, -, htraced⟩ := (traced_of_outcome hminimum houtcome).2 hshort
  cases heq
  exact ⟨hminimum, houtcome, htraced⟩

/-- With a version that is too long not every failure is one of the catalog. -/
theorem not_named_of_overlong :
    (Version.parse? Config.standard.minVersion).isSome = true ∧
      ¬∀ error, (ofBytes .standard ⟨"ru_RU", "Русский"⟩
          (bare (Version.zeros 4301) "ru_RU").toUTF8).outcome = .error error →
        ∃ cause, error = .catalog cause ∧ cause.locale = "ru_RU" := by
  refine ⟨Config.isSome_parse?_minVersion, fun hclaim => ?_⟩
  have hcode : normalizeCode "ru_RU" = .ok "ru_RU" := by decide +kernel
  have hoverlong := overlong_bare hcode (show Numeral.maxDigits < 4301 by decide)
  obtain ⟨cause, heq, -⟩ :=
    hclaim _ (outcome_of_overlong hoverlong .standard ⟨"ru_RU", "Русский"⟩)
  cases heq

end Polyglot.Catalog
