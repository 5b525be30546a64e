import Mathlib.Data.List.Basic
import Polyglot.Proofs.Characters
import Polyglot.Proofs.Reader

/-!
How locale codes are spelled. A spelling is a language with a region, an encoding and a modifier
that may each be missing, and white space around them does not count. Normalizing accepts the
spelled codes and no others. A code has one spelling only, so its language and its region are
determined, and these, up to the case of their letters, are what its normal form tells.
-/

namespace Polyglot

open Text

/-! ### Characters of codes -/

/-- The characters of an encoding. -/
def isEncodingCharacter (c : Char) : Bool := isWord c || c == '-'

/-! ### Spellings -/

/-- Two letters, or three decimal digits. -/
def IsRegion (text : List Char) : Prop :=
  (text.length = 2 ∧ ∀ c ∈ text, c.isAlpha = true) ∨
    (text.length = 3 ∧ ∀ c ∈ text, isDecimal c = true)

/-- At least one character, and all of a kind. -/
def IsRun (kind : Char → Bool) (text : List Char) : Prop := text ≠ [] ∧ ∀ c ∈ text, kind c = true

/-- The parts of a locale code as they are spelled. A region has the mark before it with it. -/
@[ext]
structure Spelling where
  language : List Char
  region : Option (Char × List Char)
  encoding : Option (List Char)
  modifier : Option (List Char)
  isLanguage : (language.length = 2 ∨ language.length = 3) ∧ ∀ c ∈ language, c.isAlpha = true
  isRegion : ∀ part ∈ region, (part.1 = '-' ∨ part.1 = '_') ∧ IsRegion part.2
  isEncoding : ∀ part ∈ encoding, IsRun isEncodingCharacter part
  isModifier : ∀ part ∈ modifier, IsRun isWord part

namespace Spelling

def regionText (region : Option (Char × List Char)) : List Char :=
  region.elim [] fun part => part.1 :: part.2

def encodingText (encoding : Option (List Char)) : List Char := encoding.elim [] ('.' :: ·)

def modifierText (modifier : Option (List Char)) : List Char := modifier.elim [] ('@' :: ·)

/-- The spelling in full. -/
def text (spelling : Spelling) : List Char :=
  spelling.language ++ (regionText spelling.region ++
    (encodingText spelling.encoding ++ modifierText spelling.modifier))

/-- A code is spelled in this way, apart from white space around it. -/
def Spells (spelling : Spelling) (code : String) : Prop :=
  ∃ front back, code.toList = front ++ (spelling.text ++ back) ∧
    (∀ c ∈ front, isBlank c = true) ∧ ∀ c ∈ back, isBlank c = true

/-- What becomes of a spelling: the language in lower case, and the region, if there is one, in
upper case after an underscore. -/
def normal (spelling : Spelling) : String :=
  String.ofList (spelling.language.map Char.toLower ++
    spelling.region.elim [] fun part => '_' :: part.2.map Char.toUpper)

/-- The languages and the regions are the same but for the case of their letters. -/
def SameUpToCase (spelling other : Spelling) : Prop :=
  spelling.language.map Char.toLower = other.language.map Char.toLower ∧
    (spelling.region.map fun part => part.2.map Char.toLower) =
      other.region.map fun part => part.2.map Char.toLower

end Spelling

/-! ### Reading a spelling -/

namespace CodeParts

theorem region?_append {mark : Char} (hmark : mark = '-' ∨ mark = '_') {region : List Char}
    (hregion : IsRegion region) (rest : List Char) :
    region? (mark :: (region ++ rest)) = (some region, rest) := by
  rcases hregion with ⟨hlength, hletters⟩ | ⟨hlength, hdigits⟩
  · match region, hlength with
    | [a, b], _ =>
        have hboth : a.isAlpha = true ∧ b.isAlpha = true := by simpa using hletters
        simp only [List.cons_append, List.nil_append, region?]
        rw [if_pos hmark, if_pos hboth]
  · match region, hlength with
    | [a, b, c], _ =>
        have hall : isDecimal a = true ∧ isDecimal b = true ∧ isDecimal c = true := by
          simpa using hdigits
        have hletter : ¬(a.isAlpha = true ∧ b.isAlpha = true) := by
          simp [not_isAlpha_of_isDecimal hall.1]
        simp only [List.cons_append, List.nil_append, region?]
        rw [if_pos hmark, if_neg hletter, if_pos hall]

theorem region?_of_unmarked {text : List Char} (h : ∀ c ∈ text.head?, c ≠ '-' ∧ c ≠ '_') :
    region? text = (none, text) := by
  unfold region?
  split
  · rename_i mark a b rest
    have hmark : ¬(mark = '-' ∨ mark = '_') := not_or.mpr (h mark rfl)
    rw [if_neg hmark]
  · rfl

/-- A region that stands at the front is read; otherwise nothing is. -/
theorem region?_cases (text : List Char) :
    (∃ mark region rest, (mark = '-' ∨ mark = '_') ∧ IsRegion region ∧
      text = mark :: (region ++ rest)) ∨ region? text = (none, text) := by
  match text with
  | [] | [_] | [_, _] => exact Or.inr rfl
  | mark :: a :: b :: rest =>
      by_cases hmark : mark = '-' ∨ mark = '_'
      · by_cases hletters : a.isAlpha = true ∧ b.isAlpha = true
        · exact Or.inl ⟨mark, [a, b], rest, hmark, Or.inl ⟨rfl, by simpa using hletters⟩, rfl⟩
        · cases rest with
          | nil =>
              right
              simp only [region?]
              rw [if_pos hmark, if_neg hletters]
          | cons c rest =>
              by_cases hdigits : isDecimal a = true ∧ isDecimal b = true ∧ isDecimal c = true
              · have hregion : IsRegion [a, b, c] := Or.inr ⟨rfl, by simpa using hdigits⟩
                exact Or.inl ⟨mark, [a, b, c], rest, hmark, hregion, rfl⟩
              · right
                simp only [region?]
                rw [if_pos hmark, if_neg hletters, if_neg hdigits]
      · refine Or.inr (region?_of_unmarked fun c hc => ?_)
        obtain rfl : mark = c := Option.some.inj hc
        exact not_or.mp hmark

theorem exists_region (text : List Char) : ∃ region : Option (Char × List Char),
    (∀ part ∈ region, (part.1 = '-' ∨ part.1 = '_') ∧ IsRegion part.2) ∧
      Spelling.regionText region ++ (region? text).2 = text ∧
      (region? text).1 = region.map (·.2) := by
  rcases region?_cases text with ⟨mark, region, rest, hmark, hregion, rfl⟩ | hnone
  · rw [region?_append hmark hregion]
    refine ⟨some (mark, region), fun part hpart => ?_, rfl, rfl⟩
    cases hpart
    exact ⟨hmark, hregion⟩
  · exact ⟨none, fun _ hpart => (nomatch hpart), by rw [hnone]; rfl, by rw [hnone]; rfl⟩

theorem exists_encoding (text : List Char) : ∃ encoding : Option (List Char),
    (∀ part ∈ encoding, IsRun isEncodingCharacter part) ∧
      Spelling.encodingText encoding ++ skipEncoding text = text := by
  unfold skipEncoding
  split
  · rename_i c rest
    split
    · rename_i hfirst
      refine ⟨some (c :: rest.takeWhile isEncodingCharacter), fun part hpart => ?_, ?_⟩
      · cases hpart
        refine ⟨List.cons_ne_nil _ _, fun d hd => ?_⟩
        rcases List.mem_cons.mp hd with rfl | hd
        · exact hfirst
        · exact List.all_eq_true.mp List.all_takeWhile d hd
      · exact congrArg ('.' :: c :: ·) List.takeWhile_append_dropWhile
    · exact ⟨none, fun _ hpart => (nomatch hpart), rfl⟩
  · exact ⟨none, fun _ hpart => (nomatch hpart), rfl⟩

theorem exists_modifier {text : List Char} (h : isModifier text = true) :
    ∃ modifier : Option (List Char), (∀ part ∈ modifier, IsRun isWord part) ∧
      Spelling.modifierText modifier = text := by
  unfold isModifier at h
  split at h
  · exact ⟨none, fun _ hpart => (nomatch hpart), rfl⟩
  · rename_i c rest
    refine ⟨some (c :: rest), fun part hpart => ?_, rfl⟩
    cases hpart
    exact ⟨List.cons_ne_nil _ _, List.all_eq_true.mp h⟩
  · cases h

end CodeParts

namespace Spelling

/-- What the normal form keeps of a spelling. -/
def parts (spelling : Spelling) : CodeParts :=
  ⟨spelling.language, spelling.region.map (·.2)⟩

theorem ofList_render_parts (spelling : Spelling) :
    String.ofList spelling.parts.render = spelling.normal := by
  cases h : spelling.region <;> simp [CodeParts.render, normal, parts, h]

/-- Whatever is read has a spelling, with the parts that are read. -/
theorem exists_of_read? {text : List Char} {parts : CodeParts}
    (h : CodeParts.read? text = some parts) :
    ∃ spelling : Spelling, spelling.text = text ∧ spelling.parts = parts := by
  simp only [CodeParts.read?, Option.ite_none_right_eq_some, Option.some.injEq] at h
  obtain ⟨⟨hlength, hlast⟩, rfl⟩ := h
  obtain ⟨region, hregion, hmiddle, hkept⟩ :=
    CodeParts.exists_region (text.dropWhile Char.isAlpha)
  obtain ⟨encoding, hencoding, hback⟩ :=
    CodeParts.exists_encoding (CodeParts.region? (text.dropWhile Char.isAlpha)).2
  obtain ⟨modifier, hmodifier, hend⟩ := CodeParts.exists_modifier hlast
  have hletters : ∀ c ∈ text.takeWhile Char.isAlpha, c.isAlpha = true :=
    List.all_eq_true.mp List.all_takeWhile
  refine ⟨⟨text.takeWhile Char.isAlpha, region, encoding, modifier, ⟨hlength, hletters⟩, hregion,
    hencoding, hmodifier⟩, ?_, ?_⟩
  · simp only [Spelling.text]
    rw [hend, hback, hmiddle, List.takeWhile_append_dropWhile]
  · rw [parts, hkept]

/-! ### The parts of a spelling -/

theorem forall_head?_append {P : Char → Prop} {front back : List Char}
    (hfront : ∀ c ∈ front.head?, P c) (hback : ∀ c ∈ back.head?, P c) :
    ∀ c ∈ (front ++ back).head?, P c := by
  cases front with
  | nil => exact hback
  | cons c rest => exact hfront

theorem head?_encodingText (encoding : Option (List Char)) :
    ∀ c ∈ (encodingText encoding).head?, c = '.' := by
  cases encoding with
  | none => exact fun _ hc => nomatch hc
  | some part => exact fun _ hc => (Option.some.inj hc).symm

theorem head?_modifierText (modifier : Option (List Char)) :
    ∀ c ∈ (modifierText modifier).head?, c = '@' := by
  cases modifier with
  | none => exact fun _ hc => nomatch hc
  | some part => exact fun _ hc => (Option.some.inj hc).symm

variable (spelling : Spelling)

/-- What comes behind the region. -/
def tail : List Char := encodingText spelling.encoding ++ modifierText spelling.modifier

theorem head?_tail : ∀ c ∈ spelling.tail.head?, c = '.' ∨ c = '@' :=
  forall_head?_append (fun c hc => Or.inl (head?_encodingText _ c hc))
    fun c hc => Or.inr (head?_modifierText _ c hc)

/-- No letter stands where the language ends. -/
theorem isAlpha_head? :
    ∀ c ∈ (regionText spelling.region ++ spelling.tail).head?, c.isAlpha = false := by
  refine forall_head?_append (fun c hc => ?_) fun c hc => ?_
  · cases hregion : spelling.region with
    | none => rw [hregion] at hc; cases hc
    | some part =>
        rw [hregion] at hc
        obtain rfl : part.1 = c := Option.some.inj hc
        rcases (spelling.isRegion part hregion).1 with hmark | hmark <;> rw [hmark] <;> decide
  · rcases spelling.head?_tail c hc with rfl | rfl <;> decide

theorem span_text : spelling.text.takeWhile Char.isAlpha = spelling.language ∧
    spelling.text.dropWhile Char.isAlpha = regionText spelling.region ++ spelling.tail :=
  Reader.span_append spelling.isLanguage.2 spelling.isAlpha_head?

theorem region?_text : CodeParts.region? (regionText spelling.region ++ spelling.tail) =
    (spelling.region.map (·.2), spelling.tail) := by
  cases hregion : spelling.region with
  | none =>
      refine CodeParts.region?_of_unmarked fun c hc => ?_
      rcases spelling.head?_tail c hc with rfl | rfl <;> decide
  | some part =>
      obtain ⟨hmark, hpart⟩ := spelling.isRegion part hregion
      exact CodeParts.region?_append hmark hpart spelling.tail

theorem skipEncoding_tail :
    CodeParts.skipEncoding spelling.tail = modifierText spelling.modifier := by
  have hlast := head?_modifierText spelling.modifier
  rw [tail]
  cases hencoding : spelling.encoding with
  | none =>
      cases spelling.modifier with
      | none => rfl
      | some part => rfl
  | some part =>
      obtain ⟨hne, hkind⟩ := spelling.isEncoding part hencoding
      obtain ⟨c, rest, rfl⟩ := List.exists_cons_of_ne_nil hne
      have hfirst : (isWord c || c == '-') = true := hkind c List.mem_cons_self
      have hstop : ∀ d ∈ (modifierText spelling.modifier).head?, isEncodingCharacter d = false := by
        intro d hd
        rw [hlast d hd]
        rfl
      have hrest : ∀ d ∈ rest, isEncodingCharacter d = true :=
        fun d hd => hkind d (List.mem_cons_of_mem c hd)
      simp only [encodingText, Option.elim_some, List.cons_append, CodeParts.skipEncoding]
      rw [if_pos hfirst]
      exact (Reader.span_append hrest hstop).2

theorem isModifier_modifierText : CodeParts.isModifier (modifierText spelling.modifier) = true := by
  cases hmodifier : spelling.modifier with
  | none => rfl
  | some part =>
      obtain ⟨hne, hkind⟩ := spelling.isModifier part hmodifier
      obtain ⟨c, rest, rfl⟩ := List.exists_cons_of_ne_nil hne
      exact List.all_eq_true.mpr hkind

/-- Every spelling is read. -/
theorem read?_text : CodeParts.read? spelling.text = some spelling.parts := by
  obtain ⟨hlanguage, hrest⟩ := spelling.span_text
  simp only [CodeParts.read?, hlanguage, hrest, region?_text, skipEncoding_tail]
  exact if_pos ⟨spelling.isLanguage.1, spelling.isModifier_modifierText⟩

/-! ### One spelling only -/

/-- A part that is written with a mark before it can be told from one that is missing. -/
theorem elim_nil_injective {α : Type} {write : α → List Char} (h : Function.Injective write)
    (hne : ∀ part, write part ≠ []) :
    Function.Injective fun part : Option α => part.elim [] write := by
  intro part other heq
  cases part with
  | none =>
      cases other with
      | none => rfl
      | some text => exact absurd heq.symm (hne text)
  | some text =>
      cases other with
      | none => exact absurd heq (hne text)
      | some text' => exact congrArg some (h heq)

theorem regionText_injective : Function.Injective regionText :=
  elim_nil_injective (fun _ _ h => Prod.ext (List.cons.inj h).1 (List.cons.inj h).2)
    fun _ => List.cons_ne_nil _ _

theorem encodingText_injective : Function.Injective encodingText :=
  elim_nil_injective List.cons_injective fun _ => List.cons_ne_nil _ _

theorem modifierText_injective : Function.Injective modifierText :=
  elim_nil_injective List.cons_injective fun _ => List.cons_ne_nil _ _

/-- What is read of a text tells the parts apart, one after the other from the front. -/
theorem text_injective : Function.Injective text := by
  intro spelling other h
  obtain ⟨hlanguage, hrest⟩ := spelling.span_text
  obtain ⟨hlanguage', hrest'⟩ := other.span_text
  have hafter : regionText spelling.region ++ spelling.tail =
      regionText other.region ++ other.tail := by
    rw [← hrest, ← hrest', h]
  have htail : spelling.tail = other.tail := by
    have hread := congrArg (fun text => (CodeParts.region? text).2) hafter
    simpa only [region?_text] using hread
  have hlast : modifierText spelling.modifier = modifierText other.modifier := by
    rw [← skipEncoding_tail, ← skipEncoding_tail, htail]
  have hencoding : encodingText spelling.encoding = encodingText other.encoding := by
    rw [tail, tail, hlast] at htail
    exact List.append_cancel_right htail
  rw [htail] at hafter
  exact Spelling.ext (by rw [← hlanguage, ← hlanguage', h])
    (regionText_injective (List.append_cancel_right hafter)) (encodingText_injective hencoding)
    (modifierText_injective hlast)

/-! ### White space -/

theorem text_ne_nil : spelling.text ≠ [] := by
  intro hnil
  have hlength := spelling.isLanguage.1
  rw [(List.append_eq_nil_iff.mp hnil).1] at hlength
  simp at hlength

theorem isBlank_of_isRun {part : List Char} (h : IsRun isWord part) :
    ∀ c ∈ part, isBlank c = false :=
  fun c hc => isBlank_of_isWord (h.2 c hc)

theorem isBlank_of_isRegion {part : List Char} (h : IsRegion part) :
    ∀ c ∈ part, isBlank c = false := by
  intro c hc
  rcases h with ⟨-, hletters⟩ | ⟨-, hdigits⟩
  · exact isBlank_of_isWord (isWord_of_isAlpha (hletters c hc))
  · exact isBlank_of_isWord (isWord_of_isDecimal (hdigits c hc))

theorem isBlank_of_isEncodingCharacter {c : Char} (h : isEncodingCharacter c = true) :
    isBlank c = false := by
  rcases (Bool.or_eq_true _ _).mp h with hword | hmark
  · exact isBlank_of_isWord hword
  · rw [beq_iff_eq.mp hmark]
    decide

/-- No part of a spelling has white space in it. -/
theorem isBlank_text : ∀ c ∈ spelling.text, isBlank c = false := by
  refine List.forall_mem_append.mpr ⟨fun c hc => ?language, List.forall_mem_append.mpr
    ⟨?region, List.forall_mem_append.mpr ⟨?encoding, ?modifier⟩⟩⟩
  case language => exact isBlank_of_isWord (isWord_of_isAlpha (spelling.isLanguage.2 c hc))
  case region =>
    cases hsome : spelling.region with
    | none => exact List.forall_mem_nil _
    | some part =>
        obtain ⟨hmark, hpart⟩ := spelling.isRegion part hsome
        refine List.forall_mem_cons.mpr ⟨?_, isBlank_of_isRegion hpart⟩
        rcases hmark with hmark | hmark <;> rw [hmark] <;> decide
  case encoding =>
    cases hsome : spelling.encoding with
    | none => exact List.forall_mem_nil _
    | some part =>
        exact List.forall_mem_cons.mpr ⟨by decide, fun c hc =>
          isBlank_of_isEncodingCharacter ((spelling.isEncoding part hsome).2 c hc)⟩
  case modifier =>
    cases hsome : spelling.modifier with
    | none => exact List.forall_mem_nil _
    | some part =>
        exact List.forall_mem_cons.mpr
          ⟨by decide, isBlank_of_isRun (spelling.isModifier part hsome)⟩

theorem spells_iff (code : String) :
    spelling.Spells code ↔ Text.trim code.toList = spelling.text := by
  constructor
  · rintro ⟨front, back, hcode, hfront, hback⟩
    rw [hcode]
    exact trim_append hfront hback spelling.text_ne_nil spelling.isBlank_text
  · intro htrim
    obtain ⟨front, back, hcode, hfront, hback⟩ := exists_trim code.toList
    rw [htrim] at hcode
    exact ⟨front, back, hcode, hfront, hback⟩

end Spelling

/-! ### Normalizing -/

theorem normalizeCode_eq_ok_iff {code normal : String} : normalizeCode code = .ok normal ↔
    ∃ parts, CodeParts.read? (Text.trim code.toList) = some parts ∧
      normal = String.ofList parts.render := by
  unfold normalizeCode
  split
  · rename_i hnil
    rw [hnil]
    exact ⟨fun h => (nomatch h), fun ⟨_, hread, _⟩ => (nomatch hread)⟩
  · split
    · rename_i parts hread
      rw [hread]
      simp [eq_comm]
    · rename_i hread
      rw [hread]
      simp

theorem normalizeCode_of_spells {code : String} {spelling : Spelling} (h : spelling.Spells code) :
    normalizeCode code = .ok spelling.normal := by
  refine normalizeCode_eq_ok_iff.mpr ⟨spelling.parts, ?_, spelling.ofList_render_parts.symm⟩
  rw [(spelling.spells_iff code).mp h, spelling.read?_text]

theorem exists_spells {code normal : String} (h : normalizeCode code = .ok normal) :
    ∃ spelling : Spelling, spelling.Spells code ∧ spelling.normal = normal := by
  obtain ⟨parts, hread, rfl⟩ := normalizeCode_eq_ok_iff.mp h
  obtain ⟨spelling, htext, rfl⟩ := Spelling.exists_of_read? hread
  exact ⟨spelling, (spelling.spells_iff code).mpr htext.symm, spelling.ofList_render_parts.symm⟩

/-! ### Normal forms -/

theorem IsRegion.map_toUpper {text : List Char} (h : IsRegion text) :
    IsRegion (text.map Char.toUpper) := by
  rcases h with ⟨hlength, hletters⟩ | ⟨hlength, hdigits⟩
  · refine Or.inl ⟨by rw [List.length_map, hlength], fun c hc => ?_⟩
    obtain ⟨letter, hletter, rfl⟩ := List.mem_map.mp hc
    rw [(isAlpha_case letter).2, hletters letter hletter]
  · refine Or.inr ⟨by rw [List.length_map, hlength], fun c hc => ?_⟩
    obtain ⟨digit, hdigit, rfl⟩ := List.mem_map.mp hc
    exact isDecimal_toUpper (hdigits digit hdigit)

namespace Spelling

variable (spelling : Spelling)

/-- The normal form as a spelling of its own. -/
def plain : Spelling where
  language := spelling.language.map Char.toLower
  region := spelling.region.map fun part => ('_', part.2.map Char.toUpper)
  encoding := none
  modifier := none
  isLanguage := by
    refine ⟨by rw [List.length_map]; exact spelling.isLanguage.1, fun c hc => ?_⟩
    obtain ⟨letter, hletter, rfl⟩ := List.mem_map.mp hc
    rw [(isAlpha_case letter).1, spelling.isLanguage.2 letter hletter]
  isRegion := by
    intro part hpart
    obtain ⟨original, horiginal, rfl⟩ := Option.map_eq_some_iff.mp hpart
    exact ⟨Or.inr rfl, (spelling.isRegion original horiginal).2.map_toUpper⟩
  isEncoding := fun _ hpart => nomatch hpart
  isModifier := fun _ hpart => nomatch hpart

theorem ofList_text_plain : String.ofList spelling.plain.text = spelling.normal := by
  cases h : spelling.region <;>
    simp [text, plain, normal, regionText, encodingText, modifierText, h]

theorem normal_plain : spelling.plain.normal = spelling.normal := by
  cases h : spelling.region <;>
    simp only [plain, normal, h, Function.comp_def, List.map_map, Option.map_some, Option.map_none,
      Option.elim_some, Option.elim_none, case_laws]

theorem spells_plain : spelling.plain.Spells spelling.normal := by
  refine ⟨[], [], ?_, fun _ hc => (nomatch hc), fun _ hc => (nomatch hc)⟩
  rw [← ofList_text_plain, String.toList_ofList, List.nil_append, List.append_nil]

/-- The language of a normal form ends at the underscore. -/
theorem languageOf_normal :
    languageOf spelling.normal = String.ofList (spelling.language.map Char.toLower) := by
  rw [languageOf, normal, String.toList_ofList]
  refine congrArg String.ofList
    (Reader.span_append (fun c hc => bne_iff_ne.mpr ?_) fun c hc => ?_).1
  · rintro rfl
    have hletter := spelling.plain.isLanguage.2 '_' hc
    revert hletter
    decide
  · cases hregion : spelling.region with
    | none => rw [hregion] at hc; cases hc
    | some part =>
        rw [hregion] at hc
        obtain rfl : '_' = c := Option.some.inj hc
        rfl

theorem plain_eq_iff (other : Spelling) :
    spelling.plain = other.plain ↔ spelling.SameUpToCase other := by
  constructor
  · intro h
    have hregion := congrArg
      (fun plain => plain.region.map fun part => part.2.map Char.toLower) h
    refine ⟨congrArg language h, ?_⟩
    simpa only [plain, Option.map_map, Function.comp_def, List.map_map,
      case_laws] using hregion
  · rintro ⟨hlanguage, hregion⟩
    refine Spelling.ext hlanguage ?_ rfl rfl
    have hupper := congrArg (Option.map fun region => ('_', region.map Char.toUpper)) hregion
    simpa only [plain, Option.map_map, Function.comp_def, List.map_map,
      case_laws] using hupper

theorem normal_eq_iff (other : Spelling) :
    spelling.normal = other.normal ↔ spelling.SameUpToCase other := by
  rw [← ofList_text_plain, ← ofList_text_plain, String.ofList_inj, text_injective.eq_iff,
    plain_eq_iff]

end Spelling

/-- Every code that comes out of normalizing is its own normal form. -/
theorem normalizeCode_normal {code normal : String} (h : normalizeCode code = .ok normal) :
    normalizeCode normal = .ok normal := by
  obtain ⟨spelling, -, rfl⟩ := exists_spells h
  rw [normalizeCode_of_spells spelling.spells_plain, spelling.normal_plain]

/-- What a spelling tells about the codes that are spelled in this way. -/
structure Understood (code : String) (spelling : Spelling) : Prop where
  only : ∀ other : Spelling, other.Spells code → other = spelling
  normal : normalizeCode code = .ok spelling.normal
  fixed : normalizeCode spelling.normal = .ok spelling.normal
  language : languageOf spelling.normal = String.ofList (spelling.language.map Char.toLower)
  alike : ∀ (code' : String) (spelling' : Spelling), spelling'.Spells code' →
    (normalizeCode code = normalizeCode code' ↔ spelling.SameUpToCase spelling')

/-- Normalizing accepts the codes that have a spelling, and understands them by it. -/
theorem normalizeCode_spelled (code : String) :
    ((∃ normal, normalizeCode code = .ok normal) ↔ ∃ spelling : Spelling, spelling.Spells code) ∧
      ∀ spelling : Spelling, spelling.Spells code → Understood code spelling := by
  refine ⟨⟨?_, ?_⟩, fun spelling hspells => ?_⟩
  · rintro ⟨normal, hnormal⟩
    obtain ⟨spelling, hspells, -⟩ := exists_spells hnormal
    exact ⟨spelling, hspells⟩
  · rintro ⟨spelling, hspells⟩
    exact ⟨spelling.normal, normalizeCode_of_spells hspells⟩
  · have hnormal := normalizeCode_of_spells hspells
    refine ⟨fun other hother => ?_, hnormal, normalizeCode_normal hnormal,
      spelling.languageOf_normal, fun code' spelling' hspells' => ?_⟩
    · apply Spelling.text_injective
      rw [← (other.spells_iff code).mp hother, (spelling.spells_iff code).mp hspells]
    · rw [hnormal, normalizeCode_of_spells hspells', Except.ok.injEq, spelling.normal_eq_iff]

namespace Spelling

/-- A region in the digits of another script, and hyphens in the encoding. -/
def arabicDigits : Spelling where
  language := ['E', 'S']
  region := some ('-', ['\u0664', '\u0661', '\u0669'])
  encoding := some ['u', 't', 'f', '-', '8', '-']
  modifier := some ['x', '_', '1']
  isLanguage := ⟨Or.inl rfl, List.all_eq_true.mp rfl⟩
  isRegion := by
    rintro part ⟨⟩
    exact ⟨Or.inl rfl, Or.inr ⟨rfl, List.all_eq_true.mp rfl⟩⟩
  isEncoding := by
    rintro part ⟨⟩
    exact ⟨List.cons_ne_nil _ _, List.all_eq_true.mp rfl⟩
  isModifier := by
    rintro part ⟨⟩
    exact ⟨List.cons_ne_nil _ _, List.all_eq_true.mp rfl⟩

theorem arabicDigits_spells : arabicDigits.Spells "\tES-\u0664\u0661\u0669.utf-8-@x_1 " :=
  ⟨['\t'], [' '], by decide +kernel, List.all_eq_true.mp rfl,
    List.all_eq_true.mp rfl⟩

end Spelling

theorem normalizeCode_spelled_arabicDigits :
    Understood "\tES-\u0664\u0661\u0669.utf-8-@x_1 " Spelling.arabicDigits ∧
      Spelling.arabicDigits.normal = "es_\u0664\u0661\u0669" :=
  ⟨(normalizeCode_spelled _).2 _ Spelling.arabicDigits_spells, by decide +kernel⟩

end Polyglot
