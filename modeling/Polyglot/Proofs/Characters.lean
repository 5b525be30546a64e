import Polyglot.Proofs.Markup
import Polyglot.Proofs.Names

/-!
The characters of names and codes. Context names and locale codes are made of word characters; none
of these is white space, and they may stand in a document without being escaped.
-/

namespace Polyglot

open Text Xml

/-! ### Tables -/

/-- Every range of the first table lies in a range of the second. -/
def Text.Ranges.within (table larger : Ranges) : Bool :=
  table.all fun range => larger.any fun other => other.1 ≤ range.1 && range.2 ≤ other.2

theorem contains_of_within {table larger : Ranges} (h : table.within larger = true) {point : Nat}
    (hpoint : table.contains point = true) : larger.contains point = true := by
  obtain ⟨range, hrange, hin⟩ := List.any_eq_true.mp hpoint
  obtain ⟨other, hother, hlarger⟩ := List.any_eq_true.mp (List.all_eq_true.mp h range hrange)
  refine List.any_eq_true.mpr ⟨other, hother, ?_⟩
  simp only [Bool.and_eq_true, decide_eq_true_eq] at hin hlarger ⊢
  omega

/-- The same for tables in ascending order, in one pass: a range of the second table that ends
before a range of the first is of no use to the next ones either. -/
def Text.Ranges.covered : Ranges → Ranges → Bool
  | [], _ => true
  | range :: rest, larger =>
      match larger.dropWhile fun other => other.2 < range.1 with
      | [] => false
      | other :: others =>
          other.1 ≤ range.1 && range.2 ≤ other.2 && Ranges.covered rest (other :: others)

theorem within_of_covered {table larger : Ranges} (h : table.covered larger = true) :
    table.within larger = true := by
  rw [Ranges.within, List.all_eq_true]
  induction table generalizing larger with
  | nil => exact fun _ hmem => absurd hmem List.not_mem_nil
  | cons range rest ih =>
      rw [Ranges.covered] at h
      cases hleft : larger.dropWhile fun other => other.2 < range.1 with
      | nil =>
          rw [hleft] at h
          cases h
      | cons other others =>
          rw [hleft] at h
          obtain ⟨hrange, hrest⟩ := (Bool.and_eq_true _ _).mp h
          have hsubset : other :: others ⊆ larger := hleft ▸ (List.dropWhile_suffix _).subset
          refine List.forall_mem_cons.mpr ⟨?_, fun later hlater => ?_⟩
          · exact List.any_eq_true.mpr ⟨other, hsubset List.mem_cons_self, hrange⟩
          · obtain ⟨found, hfound, hin⟩ := List.any_eq_true.mp (ih hrest later hlater)
            exact List.any_eq_true.mpr ⟨found, hsubset hfound, hin⟩

/-- No range of the first table meets a range of the second. -/
def Text.Ranges.apart (table other : Ranges) : Bool :=
  table.all fun range => other.all fun range' => range.2 < range'.1 || range'.2 < range.1

theorem not_contains_of_apart {table other : Ranges} (h : table.apart other = true) {point : Nat}
    (hpoint : table.contains point = true) : other.contains point = false := by
  obtain ⟨range, hrange, hin⟩ := List.any_eq_true.mp hpoint
  rw [Ranges.contains, List.any_eq_false]
  intro range' hrange'
  have hapart := List.all_eq_true.mp (List.all_eq_true.mp h range hrange) range' hrange'
  simp only [Bool.and_eq_true, Bool.or_eq_true, decide_eq_true_eq] at hin hapart ⊢
  omega

theorem alphanumericTable_within : alphanumericTable.within characterTable = true :=
  within_of_covered (by decide +kernel)

theorem zeros_within :
    Text.Ranges.within (zeros.map fun first => (first, first + 9))
      ((0x30, 0x39) :: alphanumericTable) = true :=
  within_of_covered (by decide +kernel)

theorem alphanumericTable_apart : alphanumericTable.apart blankTable = true := by
  decide +kernel

/-! ### Word characters -/

/-- What holds of the first 128 characters holds of every character of ASCII. -/
theorem of_ascii {P : Char → Prop} (h : ∀ point < 128, P (Char.ofNat point)) {c : Char}
    (hc : c.toNat < 128) : P c :=
  Char.ofNat_toNat c ▸ h c.toNat hc

/-- What holds of the characters of ASCII, and of those that are their own lower and upper case,
holds of all. -/
theorem of_cased {P : Char → Prop} (hascii : ∀ point < 128, P (Char.ofNat point))
    (hbeyond : ∀ c : Char, c.toLower = c → c.toUpper = c → P c) (c : Char) : P c := by
  rcases Nat.lt_or_ge c.toNat 128 with hc | hc
  · exact of_ascii hascii hc
  · have hupper : ¬('A'.val ≤ c.val ∧ c.val ≤ 'Z'.val) := by
      intro hbounds
      have hsmall : c.toNat ≤ 90 := UInt32.le_iff_toNat_le.mp hbounds.2
      omega
    have hlower : ¬('a'.val ≤ c.val ∧ c.val ≤ 'z'.val) := by
      intro hbounds
      have hsmall : c.toNat ≤ 122 := UInt32.le_iff_toNat_le.mp hbounds.2
      omega
    exact hbeyond c (dif_neg hupper) (dif_neg hlower)

/-- Changing the case twice is changing it once, to the case that was asked for last. -/
theorem case_laws (c : Char) :
    c.toLower.toLower = c.toLower ∧ c.toUpper.toUpper = c.toUpper ∧
      c.toUpper.toLower = c.toLower ∧ c.toLower.toUpper = c.toUpper := by
  refine of_cased (P := fun c => c.toLower.toLower = c.toLower ∧ c.toUpper.toUpper = c.toUpper ∧
    c.toUpper.toLower = c.toLower ∧ c.toLower.toUpper = c.toUpper) ?_ (fun c hlower hupper => ?_) c
  · decide +kernel
  · simp only [hlower, hupper, and_self]

/-- Letters remain letters in both cases. -/
theorem isAlpha_case (c : Char) :
    c.toLower.isAlpha = c.isAlpha ∧ c.toUpper.isAlpha = c.isAlpha := by
  refine of_cased (P := fun c => c.toLower.isAlpha = c.isAlpha ∧ c.toUpper.isAlpha = c.isAlpha) ?_
    (fun c hlower hupper => ?_) c
  · decide +kernel
  · simp only [hlower, hupper, and_self]

theorem ne_of_not_ascii {c mark : Char} (hmark : mark.toNat < 128) (hc : 128 ≤ c.toNat) :
    c ≠ mark := by
  rintro rfl
  omega

theorem isPlainCharacter_of_not_ascii {c : Char} (h : 128 ≤ c.toNat) :
    isPlainCharacter c = true := by
  simp [isPlainCharacter, isSpace, ne_of_not_ascii (show '<'.toNat < 128 by decide) h,
    ne_of_not_ascii (show '&'.toNat < 128 by decide) h,
    ne_of_not_ascii (show '"'.toNat < 128 by decide) h,
    ne_of_not_ascii (show ' '.toNat < 128 by decide) h,
    ne_of_not_ascii (show '\t'.toNat < 128 by decide) h,
    ne_of_not_ascii (show '\n'.toNat < 128 by decide) h,
    ne_of_not_ascii (show '\r'.toNat < 128 by decide) h]

theorem isWord_of_not_ascii {c : Char} (h : 128 ≤ c.toNat) :
    isWord c = alphanumericTable.contains c.toNat := by
  have hmark : (c == '_') = false :=
    beq_false_of_ne (ne_of_not_ascii (show '_'.toNat < 128 by decide) h)
  rw [isWord, hmark, Bool.false_or, isAlphanumeric, if_neg (by omega)]

/-- A word character is one of XML and stands for itself, in content and in attributes. -/
theorem plain_of_isWord {c : Char} (h : isWord c = true) :
    isCharacter c = true ∧ isPlainCharacter c = true := by
  rcases Nat.lt_or_ge c.toNat 128 with hascii | hbeyond
  · revert h
    refine of_ascii (P := fun c => isWord c = true → isCharacter c = true ∧
      isPlainCharacter c = true) ?_ hascii
    decide +kernel
  · rw [isWord_of_not_ascii hbeyond] at h
    exact ⟨contains_of_within alphanumericTable_within h, isPlainCharacter_of_not_ascii hbeyond⟩

theorem ascii_of_isAlpha {c : Char} (h : c.isAlpha = true) : c.toNat < 128 := by
  change (c.isUpper || c.isLower) = true at h
  change c.val.toNat < 128
  rcases (Bool.or_eq_true _ _).mp h with hupper | hlower
  · have hbounds : 'A'.val ≤ c.val ∧ c.val ≤ 'Z'.val := of_decide_eq_true hupper
    exact Nat.lt_of_le_of_lt (UInt32.le_iff_toNat_le.mp hbounds.2) (by decide)
  · have hbound : c.val ≤ 'z'.val := of_decide_eq_true (Bool.and_eq_true_iff.mp hlower).2
    exact Nat.lt_of_le_of_lt (UInt32.le_iff_toNat_le.mp hbound) (by decide)

theorem ascii_of_isDigit {c : Char} (h : c.isDigit = true) : c.toNat < 128 := by
  have hbound : c.val ≤ '9'.val := of_decide_eq_true (Bool.and_eq_true_iff.mp h).2
  exact Nat.lt_of_le_of_lt (UInt32.le_iff_toNat_le.mp hbound) (by decide)

theorem isWord_of_isAlphanum {c : Char} (h : c.isAlphanum = true) (hascii : c.toNat < 128) :
    isWord c = true := by
  rw [isWord, isAlphanumeric, if_pos hascii, h, Bool.or_true]

theorem isWord_of_isAlpha {c : Char} (h : c.isAlpha = true) : isWord c = true :=
  isWord_of_isAlphanum ((Bool.or_eq_true _ _).mpr (Or.inl h)) (ascii_of_isAlpha h)

theorem isWord_toLower_of_isAlpha {c : Char} (h : c.isAlpha = true) : isWord c.toLower = true :=
  isWord_of_isAlpha ((isAlpha_case c).1.trans h)

theorem exists_zero_of_isDecimal {c : Char} (h : isDecimal c = true) :
    ∃ first ∈ zeros, first ≤ c.toNat ∧ c.toNat ≤ first + 9 := by
  rw [isDecimal, digitValue?, Option.isSome_map, List.find?_isSome] at h
  obtain ⟨first, hfirst, hin⟩ := h
  obtain ⟨hle, hge⟩ := Bool.and_eq_true_iff.mp hin
  exact ⟨first, hfirst, of_decide_eq_true hle, of_decide_eq_true hge⟩

/-- The decimal digits of ASCII are those of the first block. -/
theorem digit_of_isDecimal {c : Char} (h : isDecimal c = true) (hascii : c.toNat < 128) :
    '0'.toNat ≤ c.toNat ∧ c.toNat ≤ '9'.toNat := by
  obtain ⟨first, hfirst, hle, hge⟩ := exists_zero_of_isDecimal h
  have honly : ∀ first ∈ zeros, first < 128 → first = '0'.toNat := by decide
  obtain rfl := honly first hfirst (Nat.lt_of_le_of_lt hle hascii)
  exact ⟨hle, hge⟩

theorem isWord_of_isDecimal {c : Char} (h : isDecimal c = true) : isWord c = true := by
  rcases Nat.lt_or_ge c.toNat 128 with hascii | hbeyond
  · obtain ⟨hle, hge⟩ := digit_of_isDecimal h hascii
    have hdigit : c.isDigit = true := Bool.and_eq_true_iff.mpr
      ⟨decide_eq_true (UInt32.le_iff_toNat_le.mpr hle),
        decide_eq_true (UInt32.le_iff_toNat_le.mpr hge)⟩
    exact isWord_of_isAlphanum ((Bool.or_eq_true _ _).mpr (Or.inr hdigit)) hascii
  · obtain ⟨first, hfirst, hle, hge⟩ := exists_zero_of_isDecimal h
    have hzeros : Ranges.contains (zeros.map fun first => (first, first + 9)) c.toNat = true :=
      List.any_eq_true.mpr ⟨(first, first + 9), List.mem_map_of_mem hfirst, by simp [hle, hge]⟩
    have hlarger := contains_of_within zeros_within hzeros
    rw [Ranges.contains, List.any_cons, Bool.or_eq_true] at hlarger
    rw [isWord_of_not_ascii hbeyond]
    rcases hlarger with hdigit | htable
    · simp only [Bool.and_eq_true, decide_eq_true_eq] at hdigit
      omega
    · exact htable

theorem not_isAlpha_of_isDecimal {c : Char} (h : isDecimal c = true) : c.isAlpha = false := by
  rw [Bool.eq_false_iff]
  intro halpha
  have hnine := (digit_of_isDecimal h (ascii_of_isAlpha halpha)).2
  rcases (Bool.or_eq_true _ _).mp halpha with hupper | hlower
  · have hbounds : 'A'.val ≤ c.val ∧ c.val ≤ 'Z'.val := of_decide_eq_true hupper
    exact absurd (Nat.le_trans (UInt32.le_iff_toNat_le.mp hbounds.1) hnine) (by decide)
  · have hbound : 'a'.val ≤ c.val := of_decide_eq_true (Bool.and_eq_true_iff.mp hlower).1
    exact absurd (Nat.le_trans (UInt32.le_iff_toNat_le.mp hbound) hnine) (by decide)

theorem toUpper_of_not_isAlpha {c : Char} (h : c.isAlpha = false) : c.toUpper = c := by
  have hlower : c.isLower = false := (Bool.or_eq_false_iff.mp h).2
  refine dif_neg fun hbounds => ?_
  exact Bool.false_ne_true (hlower.symm.trans (Bool.and_eq_true_iff.mpr
    ⟨decide_eq_true hbounds.1, decide_eq_true hbounds.2⟩))

theorem isDecimal_toUpper {c : Char} (h : isDecimal c = true) : isDecimal c.toUpper = true := by
  rwa [toUpper_of_not_isAlpha (not_isAlpha_of_isDecimal h)]

theorem isWord_toUpper {c : Char} (h : isWord c = true) : isWord c.toUpper = true := by
  cases halpha : c.isAlpha with
  | false => rwa [toUpper_of_not_isAlpha halpha]
  | true => exact isWord_of_isAlpha ((isAlpha_case c).2.trans halpha)

theorem isBlank_of_isWord {c : Char} (h : isWord c = true) : isBlank c = false := by
  rcases Nat.lt_or_ge c.toNat 128 with hascii | hbeyond
  · revert h
    exact of_ascii (P := fun c => isWord c = true → isBlank c = false) (by decide +kernel) hascii
  · rw [isWord_of_not_ascii hbeyond] at h
    exact not_contains_of_apart alphanumericTable_apart h

/-! ### Names and codes -/

/-- A text that a document can hold and that does not look like indentation: if it is not empty,
something can be seen of it. -/
structure Writable (text : String) : Prop where
  characters : Admissible text.toList
  visible : text = "" ∨ ∃ c ∈ text.toList, c ≠ ' ' ∧ c ≠ '\t' ∧ c ≠ '\n'

theorem ne_of_isPlainCharacter {c : Char} (h : isPlainCharacter c = true) :
    c ≠ ' ' ∧ c ≠ '\t' ∧ c ≠ '\n' ∧ c ≠ '\r' := by
  simp only [isPlainCharacter, isSpace, Bool.and_eq_true, Bool.not_eq_true', Bool.or_eq_false_iff,
    beq_eq_false_iff_ne] at h
  obtain ⟨-, ⟨⟨hspace, htab⟩, hline⟩, hreturn⟩ := h
  exact ⟨hspace, htab, hline, hreturn⟩

theorem plain_of_isContextName {name : List Char} (h : isContextName name = true) :
    name ≠ [] ∧ ∀ c ∈ name, isCharacter c = true ∧ isPlainCharacter c = true := by
  cases name with
  | nil => cases h
  | cons first rest =>
      simp only [isContextName, Bool.and_eq_true, Bool.or_eq_true, beq_iff_eq,
        List.all_eq_true] at h
      obtain ⟨hfirst, hrest⟩ := h
      refine ⟨List.cons_ne_nil _ _, fun c hc => ?_⟩
      rcases List.mem_cons.mp hc with rfl | hc
      · rcases hfirst with hletter | rfl
        · exact plain_of_isWord (isWord_of_isAlpha hletter)
        · decide
      · rcases hrest c hc with (hword | rfl) | rfl
        · exact plain_of_isWord hword
        · decide
        · decide

theorem Writable.of_normalizeName {name normal : String} (h : normalizeName name = .ok normal) :
    Writable normal := by
  obtain ⟨hne, hplain⟩ := plain_of_isContextName (isContextName_of_normalizeName h).1
  obtain ⟨c, rest, heq⟩ := List.exists_cons_of_ne_nil hne
  have hc : c ∈ normal.toList := by
    rw [heq]
    exact List.mem_cons_self
  obtain ⟨hspace, htab, hline, -⟩ := ne_of_isPlainCharacter (hplain c hc).2
  exact ⟨fun d hd => ⟨(hplain d hd).1, (ne_of_isPlainCharacter (hplain d hd).2).2.2.2⟩,
    Or.inr ⟨c, hc, hspace, htab, hline⟩⟩

theorem isWord_of_region? {text region rest : List Char}
    (h : CodeParts.region? text = (some region, rest)) : ∀ c ∈ region, isWord c = true := by
  unfold CodeParts.region? at h
  split at h
  · split at h
    · split at h
      · rename_i hletters
        cases h
        simp only [List.mem_cons, List.not_mem_nil, or_false]
        rintro c (rfl | rfl)
        · exact isWord_of_isAlpha hletters.1
        · exact isWord_of_isAlpha hletters.2
      · split at h
        · split at h
          · rename_i hdigits
            cases h
            simp only [List.mem_cons, List.not_mem_nil, or_false]
            rintro c (rfl | rfl | rfl)
            · exact isWord_of_isDecimal hdigits.1
            · exact isWord_of_isDecimal hdigits.2.1
            · exact isWord_of_isDecimal hdigits.2.2
          · cases h
        · cases h
    · cases h
  · cases h

theorem isWord_of_render {text : List Char} {parts : CodeParts}
    (h : CodeParts.read? text = some parts) : ∀ c ∈ parts.render, isWord c = true := by
  simp only [CodeParts.read?] at h
  split at h
  · cases h
    intro c hc
    rw [CodeParts.render] at hc
    rcases List.mem_append.mp hc with hc | hc
    · obtain ⟨letter, hletter, rfl⟩ := List.mem_map.mp hc
      exact isWord_toLower_of_isAlpha (List.all_eq_true.mp List.all_takeWhile letter hletter)
    · dsimp only at hc
      split at hc
      · rename_i region hregion
        rcases List.mem_cons.mp hc with rfl | hc
        · decide
        · obtain ⟨mark, hmark, rfl⟩ := List.mem_map.mp hc
          exact isWord_toUpper (isWord_of_region? (Prod.ext hregion rfl) mark hmark)
      · cases hc
  · cases h

/-- A code in normal form consists of word characters. -/
theorem isWord_of_normalizeCode {code normal : String} (h : normalizeCode code = .ok normal) :
    ∀ c ∈ normal.toList, isWord c = true := by
  unfold normalizeCode at h
  split at h
  · cases h
  · split at h
    · rename_i hparts
      cases h
      rw [String.toList_ofList]
      exact isWord_of_render hparts
    · cases h

end Polyglot
