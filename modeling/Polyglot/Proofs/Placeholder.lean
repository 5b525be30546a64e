import Polyglot.Placeholder
import Polyglot.Proofs.Table

/-!
Two readings of the placeholders of a text. Substitution cuts a text into slots and literal
characters, validation looks at every `%` before a decimal digit. Every slot is among the positions
that validation sees, so what substitution leaves open is known from the positions of the text. The
two differ only in the digits of scripts other than ASCII, which validation counts as well.
-/

namespace Polyglot.Placeholder

open Text

/-! ### Digits -/

theorem digitValue?_lt {c : Char} {value : Nat} (h : digitValue? c = some value) : value < 10 := by
  obtain ⟨first, hfind, rfl⟩ := Option.map_eq_some_iff.mp h
  have hrange := List.find?_some hfind
  simp only [Bool.and_eq_true, decide_eq_true_eq] at hrange
  omega

theorem range_of_isPositiveDigit {c : Char} (h : isPositiveDigit c = true) :
    0x31 ≤ c.toNat ∧ c.toNat ≤ 0x39 := by
  simpa [isPositiveDigit, Char.le_def, UInt32.le_iff_toNat_le] using h

/-- The slots of a text are named by the ASCII digits from one to nine, which are decimal. -/
theorem digitValue?_of_isPositiveDigit {c : Char} (h : isPositiveDigit c = true) :
    digitValue? c = some (slotNumber c) := by
  have hrange := range_of_isPositiveDigit h
  have hfirst : (decide (0x30 ≤ c.toNat) && decide (c.toNat ≤ 0x30 + 9)) = true := by
    simp only [Bool.and_eq_true, decide_eq_true_eq]
    omega
  have hfind : zeros.find? (fun first => first ≤ c.toNat && c.toNat ≤ first + 9) = some 0x30 := by
    rw [show zeros = 0x30 :: zeros.tail from rfl]
    exact List.find?_cons_of_pos hfirst
  rw [digitValue?, hfind]
  rfl

theorem slotNumber_pos {c : Char} (h : isPositiveDigit c = true) : 0 < slotNumber c := by
  have hrange := range_of_isPositiveDigit h
  simp only [slotNumber, show '0'.toNat = 0x30 from rfl]
  omega

theorem digitValue?_percent : digitValue? '%' = none := by decide

theorem ne_percent_of_digitValue? {c : Char} {value : Nat} (h : digitValue? c = some value) :
    c ≠ '%' := by
  rintro rfl
  rw [digitValue?_percent] at h
  cases h

/-- The digit that a slot is written with. -/
def slotDigit (position : Nat) : Char := Char.ofNat ('0'.toNat + position)

theorem slotDigit_slotNumber {c : Char} (h : isPositiveDigit c = true) :
    slotDigit (slotNumber c) = c := by
  have hrange := range_of_isPositiveDigit h
  have hle : '0'.toNat ≤ c.toNat := by
    simp only [show '0'.toNat = 0x30 from rfl]
    omega
  rw [slotDigit, slotNumber, Nat.add_sub_cancel' hle, Char.ofNat_toNat]

theorem slotNumber_slotDigit {position : Nat} (hpos : 0 < position) (hlt : position < 10) :
    isPositiveDigit (slotDigit position) = true ∧ slotNumber (slotDigit position) = position := by
  have hall : ∀ value < 10, 0 < value →
      isPositiveDigit (slotDigit value) = true ∧ slotNumber (slotDigit value) = value := by
    decide
  exact hall position hlt hpos

/-! ### Slots and positions -/

/-- A percent sign stands right before a character somewhere in a text. -/
def Marks (text : List Char) (c : Char) : Prop := ['%', c] <:+: text

theorem marks_percent {c d : Char} {rest : List Char} :
    Marks ('%' :: d :: rest) c ↔ c = d ∨ Marks (d :: rest) c := by
  rw [Marks, List.infix_cons_iff, List.cons_prefix_cons, List.cons_prefix_cons]
  simp [Marks]

theorem marks_cons_of_ne {a c : Char} (h : a ≠ '%') {rest : List Char} :
    Marks (a :: rest) c ↔ Marks rest c := by
  rw [Marks, List.infix_cons_iff, List.cons_prefix_cons]
  simp [Marks, Ne.symm h]

/-- A percent sign at the end stands before nothing. -/
theorem marks_cons_of_last {a c : Char} {rest : List Char}
    (h : ∀ d others, a = '%' → rest = d :: others → False) :
    Marks (a :: rest) c ↔ Marks rest c := by
  by_cases ha : a = '%'
  · cases rest with
    | nil => simp [Marks, List.infix_cons_iff]
    | cons d others => exact absurd rfl (h d others ha)
  · exact marks_cons_of_ne ha

/-- Validation sees the digits that stand after a percent sign. Such a digit cannot be the percent
sign of the next placeholder, so none is passed over. -/
theorem mem_scan_iff {text : List Char} {position : Nat} :
    position ∈ scan text ↔ ∃ c, Marks text c ∧ digitValue? c = some position := by
  fun_induction scan text with
  | case1 c rest value hvalue ih =>
      have hc := ne_percent_of_digitValue? hvalue
      simp only [List.mem_cons, ih, marks_percent, marks_cons_of_ne hc]
      constructor
      · rintro (rfl | ⟨d, hmarks, hd⟩)
        · exact ⟨c, Or.inl rfl, hvalue⟩
        · exact ⟨d, Or.inr hmarks, hd⟩
      · rintro ⟨d, rfl | hmarks, hd⟩
        · exact Or.inl (Option.some.inj (hd.symm.trans hvalue))
        · exact Or.inr ⟨d, hmarks, hd⟩
  | case2 c rest hvalue ih =>
      simp only [ih, marks_percent]
      constructor
      · rintro ⟨d, hmarks, hd⟩
        exact ⟨d, Or.inr hmarks, hd⟩
      · rintro ⟨d, rfl | hmarks, hd⟩
        · rw [hvalue] at hd
          cases hd
        · exact ⟨d, hmarks, hd⟩
  | case3 c rest hshort ih => simp only [ih, marks_cons_of_last hshort]
  | case4 => simp [Marks]

/-- Substitution sees the ASCII digits from one to nine that stand after a percent sign. -/
theorem mem_cut_iff {text : List Char} {position : Nat} :
    Piece.slot position ∈ cut text ↔
      ∃ c, Marks text c ∧ isPositiveDigit c = true ∧ slotNumber c = position := by
  fun_induction cut text with
  | case1 c rest hdigit ih =>
      have hc := ne_percent_of_digitValue? (digitValue?_of_isPositiveDigit hdigit)
      simp only [List.mem_cons, Piece.slot.injEq, ih, marks_percent, marks_cons_of_ne hc]
      constructor
      · rintro (rfl | ⟨d, hmarks, hd⟩)
        · exact ⟨c, Or.inl rfl, hdigit, rfl⟩
        · exact ⟨d, Or.inr hmarks, hd⟩
      · rintro ⟨d, rfl | hmarks, hd⟩
        · exact Or.inl hd.2.symm
        · exact Or.inr ⟨d, hmarks, hd⟩
  | case2 c rest hdigit ih =>
      simp only [List.mem_cons, reduceCtorEq, false_or, ih, marks_percent]
      constructor
      · rintro ⟨d, hmarks, hd⟩
        exact ⟨d, Or.inr hmarks, hd⟩
      · rintro ⟨d, rfl | hmarks, hd⟩
        · exact absurd hd.1 hdigit
        · exact ⟨d, hmarks, hd⟩
  | case3 c rest hshort ih =>
      simp only [List.mem_cons, reduceCtorEq, false_or, ih, marks_cons_of_last hshort]
  | case4 => simp [Marks]

theorem mem_scan_of_mem_cut {text : List Char} {position : Nat}
    (h : Piece.slot position ∈ cut text) : position ∈ scan text ∧ 0 < position := by
  obtain ⟨c, hmarks, hdigit, rfl⟩ := mem_cut_iff.mp h
  exact ⟨mem_scan_iff.mpr ⟨c, hmarks, digitValue?_of_isPositiveDigit hdigit⟩, slotNumber_pos hdigit⟩

theorem lt_of_mem_scan {text : List Char} {position : Nat} (h : position ∈ scan text) :
    position < 10 := by
  obtain ⟨c, -, hvalue⟩ := mem_scan_iff.mp h
  exact digitValue?_lt hvalue

@[simp]
theorem mem_positions {text : String} {position : Nat} :
    position ∈ positions text ↔ position ∈ scan text.toList := by
  rw [positions, List.mem_filter, List.mem_range, List.contains_iff_mem]
  exact ⟨And.right, fun h => ⟨lt_of_mem_scan h, h⟩⟩

/-- A text without the mark of placeholders has none. -/
theorem positions_of_not_mem {text : String} (h : '%' ∉ text.toList) : positions text = [] := by
  refine List.eq_nil_iff_forall_not_mem.mpr fun position hposition => ?_
  obtain ⟨c, hmarks, -⟩ := mem_scan_iff.mp (mem_positions.mp hposition)
  exact h (hmarks.subset List.mem_cons_self)

/-- The positions of a text are distinct, so their number is that of the different positions. -/
theorem nodup_positions (text : String) : (positions text).Nodup :=
  List.nodup_range.sublist List.filter_sublist

/-! ### What substitution leaves open -/

theorem nodup_missing (text : String) (arguments : List String) :
    (substitute text arguments).2.Nodup :=
  nodup_eraseDups _

/-- A position is reported as missing when the text has a slot for it and no argument is there. -/
theorem mem_missing {text : String} {arguments : List String} {position : Nat} :
    position ∈ (substitute text arguments).2 ↔
      Piece.slot position ∈ cut text.toList ∧ arguments.length < position := by
  simp only [substitute, List.mem_eraseDups, List.mem_filterMap]
  constructor
  · rintro ⟨piece, hpiece, hopen⟩
    cases piece with
    | literal c => cases hopen
    | slot slot =>
        simp only [unfilled?, Option.ite_none_right_eq_some, Option.some.injEq] at hopen
        obtain ⟨hlt, rfl⟩ := hopen
        exact ⟨hpiece, hlt⟩
  · rintro ⟨hslot, hlt⟩
    exact ⟨.slot position, hslot, by rw [unfilled?, if_pos hlt]⟩

theorem mem_positions_of_mem_missing {text : String} {arguments : List String} {position : Nat}
    (h : position ∈ (substitute text arguments).2) :
    position ∈ positions text ∧ arguments.length < position := by
  obtain ⟨hslot, hlt⟩ := mem_missing.mp h
  exact ⟨mem_positions.mpr (mem_scan_of_mem_cut hslot).1, hlt⟩

/-! ### Blank texts -/

theorem cut_eq_nil_iff {text : List Char} : cut text = [] ↔ text = [] := by
  fun_cases cut text <;> simp [*]

/-- Only an argument can leave nothing in the place of a piece. -/
theorem fill_eq_nil {arguments : List String} {piece : Piece} (h : fill arguments piece = []) :
    "" ∈ arguments := by
  cases piece with
  | literal c => cases h
  | slot position =>
      rw [fill] at h
      split at h
      · rename_i argument hargument
        rw [String.toList_eq_nil_iff] at h
        exact h ▸ List.mem_of_getElem? hargument
      · cases h

/-- A text is blank after substitution just when nothing is left of any of its pieces. -/
theorem substitute_eq_empty_iff {text : String} {arguments : List String} :
    (substitute text arguments).1 = "" ↔
      ∀ piece ∈ cut text.toList, fill arguments piece = [] := by
  simp [substitute, String.ofList_eq_empty_iff]

theorem substitute_ne_empty {text : String} {arguments : List String} (htext : text ≠ "")
    (harguments : ∀ argument ∈ arguments, argument ≠ "") :
    (substitute text arguments).1 ≠ "" := by
  intro hblank
  rw [substitute_eq_empty_iff] at hblank
  have hpieces : cut text.toList ≠ [] := by
    rwa [Ne, cut_eq_nil_iff, String.toList_eq_nil_iff]
  obtain ⟨piece, hpiece⟩ := List.exists_mem_of_ne_nil _ hpieces
  exact harguments "" (fill_eq_nil (hblank piece hpiece)) rfl

/-! ### Where the two readings agree -/

/-- What validation counts is what substitution reports as missing or fills, just when every
placeholder with the digit of another script stands in the text in ASCII as well. -/
theorem missing_iff_positions_iff (text : String) :
    (∀ arguments position, position ∈ (substitute text arguments).2 ↔
      position ∈ positions text ∧ 0 < position ∧ arguments.length < position) ↔
    ∀ c position, Marks text.toList c → digitValue? c = some position → 0 < position →
      Marks text.toList (slotDigit position) := by
  simp only [mem_missing, mem_positions, mem_scan_iff, mem_cut_iff]
  constructor
  · intro h c position hmarks hvalue hpos
    obtain ⟨⟨d, hd, hdigit, rfl⟩, -⟩ := (h [] position).mpr ⟨⟨c, hmarks, hvalue⟩, hpos, hpos⟩
    rwa [slotDigit_slotNumber hdigit]
  · intro h arguments position
    constructor
    · rintro ⟨⟨c, hmarks, hdigit, rfl⟩, hlt⟩
      exact ⟨⟨c, hmarks, digitValue?_of_isPositiveDigit hdigit⟩, slotNumber_pos hdigit, hlt⟩
    · rintro ⟨⟨c, hmarks, hvalue⟩, hpos, hlt⟩
      have hdigit := slotNumber_slotDigit hpos (digitValue?_lt hvalue)
      exact ⟨⟨_, h c position hmarks hvalue hpos, hdigit⟩, hlt⟩

/-- An Arabic three counts as a position but is no slot. -/
theorem not_missing_iff_positions_arabic :
    ¬ ∀ text arguments position, position ∈ (substitute text arguments).2 ↔
      position ∈ positions text ∧ 0 < position ∧ arguments.length < position := by
  intro h
  have hpositions : 3 ∈ positions "%٣" := by decide +kernel
  have hmissing : 3 ∉ (substitute "%٣" []).2 := by decide +kernel
  exact hmissing ((h "%٣" [] 3).mpr ⟨hpositions, by decide, by decide⟩)

end Polyglot.Placeholder
