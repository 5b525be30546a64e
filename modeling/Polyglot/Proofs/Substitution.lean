import Mathlib.Data.List.Chain
import Mathlib.Data.List.Forall2
import Mathlib.Data.List.Induction
import Mathlib.Logic.ExistsUnique
import Polyglot.Proofs.Placeholder

/-!
Substitution, token by token. A text can be cut in one way only into slots and literal characters,
such that no literal percent sign stands right before a digit from one to nine. Substitution puts an
argument, as it is, into each slot that has one, and leaves everything else as it is written. What
it does to two texts in a row is what it does to each of them, unless a slot arises where they meet.
-/

namespace Polyglot

/-- A piece as it is written in a text. -/
def Piece.written : Piece → List Char
  | .literal c => [c]
  | .slot position => ['%', Placeholder.slotDigit position]

/-- The position that a piece asks an argument for. -/
def Piece.position? : Piece → Option Nat
  | .literal _ => none
  | .slot position => some position

namespace Placeholder

open Text

/-! ### Cutting -/

/-- A piece may stand before another: a literal percent sign makes no slot of what follows. -/
def Apart (piece next : Piece) : Prop :=
  piece = .literal '%' → ∀ c, next = .literal c → isPositiveDigit c = false

/-- A text is cut into slots, from `%1` to `%9`, and literal characters. -/
structure Cutting (text : List Char) (pieces : List Piece) : Prop where
  spelled : pieces.flatMap Piece.written = text
  named : ∀ position, Piece.slot position ∈ pieces → 0 < position ∧ position < 10
  apart : pieces.IsChain Apart

theorem written_slotNumber {c : Char} (h : isPositiveDigit c = true) :
    (Piece.slot (slotNumber c)).written = ['%', c] := by
  rw [Piece.written, slotDigit_slotNumber h]

theorem slotNumber_lt {c : Char} (h : isPositiveDigit c = true) : slotNumber c < 10 :=
  digitValue?_lt (digitValue?_of_isPositiveDigit h)

section Cutting

variable {text : List Char} {pieces : List Piece}

theorem Cutting.head? (h : Cutting text pieces) {c : Char}
    (hfirst : Piece.literal c ∈ pieces.head?) : text.head? = some c := by
  cases pieces with
  | nil => cases hfirst
  | cons piece rest =>
      obtain rfl : piece = .literal c := Option.some.inj hfirst
      rw [← h.spelled]
      rfl

theorem Cutting.getLast? (h : Cutting text pieces) {c : Char}
    (hlast : Piece.literal c ∈ pieces.getLast?) : text.getLast? = some c := by
  obtain ⟨before, rfl⟩ := List.getLast?_eq_some_iff.mp hlast
  rw [← h.spelled, List.flatMap_append]
  exact List.getLast?_concat

theorem Cutting.nil : Cutting [] [] where
  spelled := rfl
  named _ h := nomatch h
  apart := .nil

theorem Cutting.slot {rest : List Char} (h : Cutting rest pieces) {c : Char}
    (hdigit : isPositiveDigit c = true) :
    Cutting ('%' :: c :: rest) (.slot (slotNumber c) :: pieces) where
  spelled := by rw [List.flatMap_cons, written_slotNumber hdigit, h.spelled]; rfl
  named position hmem := by
    rcases List.mem_cons.mp hmem with heq | hmem
    · rw [Piece.slot.inj heq]
      exact ⟨slotNumber_pos hdigit, slotNumber_lt hdigit⟩
    · exact h.named position hmem
  apart := List.isChain_cons.mpr ⟨fun _ _ hslot => (nomatch hslot), h.apart⟩

theorem Cutting.literal {rest : List Char} (h : Cutting rest pieces) {c : Char}
    (hnext : c = '%' → ∀ d, rest.head? = some d → isPositiveDigit d = false) :
    Cutting (c :: rest) (.literal c :: pieces) where
  spelled := by rw [List.flatMap_cons, h.spelled]; rfl
  named position hmem := by
    rcases List.mem_cons.mp hmem with heq | hmem
    · cases heq
    · exact h.named position hmem
  apart := by
    refine List.isChain_cons.mpr ⟨fun next hfirst hpercent d hd => ?_, h.apart⟩
    subst hd
    exact hnext (Piece.literal.inj hpercent) d (h.head? hfirst)

theorem cutting_cut (text : List Char) : Cutting text (cut text) := by
  fun_induction cut text with
  | case1 c rest hdigit ih => exact ih.slot hdigit
  | case2 c rest hdigit ih =>
      refine ih.literal fun _ d hd => ?_
      obtain rfl := Option.some.inj hd
      exact Bool.eq_false_iff.mpr hdigit
  | case3 c rest hshort ih =>
      refine ih.literal fun hpercent d hd => ?_
      obtain ⟨others, rfl⟩ := List.head?_eq_some_iff.mp hd
      exact (hshort d others hpercent rfl).elim
  | case4 => exact .nil

theorem cut_cons_of_ne {c : Char} (h : c ≠ '%') (rest : List Char) :
    cut (c :: rest) = .literal c :: cut rest := by
  rw [cut]
  intro d others hpercent
  exact absurd hpercent h

theorem cut_slot {position : Nat} (hpos : 0 < position) (hlt : position < 10) (rest : List Char) :
    cut ((Piece.slot position).written ++ rest) = .slot position :: cut rest := by
  obtain ⟨hdigit, hnumber⟩ := slotNumber_slotDigit hpos hlt
  rw [Piece.written, List.cons_append, List.singleton_append, cut, if_pos hdigit, hnumber]

theorem cut_percent {rest : List Char}
    (h : ∀ c, rest.head? = some c → isPositiveDigit c = false) :
    cut ('%' :: rest) = .literal '%' :: cut rest := by
  cases rest with
  | nil => rfl
  | cons c others => rw [cut, if_neg (by simp [h c rfl])]

/-- The pieces of a text are found again by cutting it: each one is the only one that can stand at
the front of what is left. -/
theorem Cutting.eq_cut (h : Cutting text pieces) : pieces = cut text := by
  obtain ⟨rfl, hnamed, hapart⟩ := h
  induction pieces with
  | nil => rfl
  | cons piece rest ih =>
      obtain ⟨hnext, hrest⟩ := List.isChain_cons.mp hapart
      have htail := ih (fun position hmem => hnamed position (List.mem_cons_of_mem _ hmem)) hrest
      rw [List.flatMap_cons]
      cases piece with
      | slot position =>
          obtain ⟨hpos, hlt⟩ := hnamed position List.mem_cons_self
          rw [cut_slot hpos hlt, ← htail]
      | literal c =>
          rw [Piece.written, List.singleton_append]
          by_cases hpercent : c = '%'
          · subst hpercent
            rw [cut_percent, ← htail]
            intro d hd
            cases rest with
            | nil => cases hd
            | cons next others =>
                cases next with
                | literal e =>
                    obtain rfl : e = d := Option.some.inj hd
                    exact hnext _ rfl rfl _ rfl
                | slot position =>
                    obtain rfl : '%' = d := Option.some.inj hd
                    rfl
          · rw [cut_cons_of_ne hpercent, ← htail]

theorem existsUnique_cutting (text : List Char) : ∃! pieces, Cutting text pieces :=
  ⟨cut text, cutting_cut text, fun _ h => h.eq_cut⟩

/-- Two cuttings in a row are one, unless the first text ends with a percent sign that makes a slot
of the digit that the second begins with. -/
theorem Cutting.append {back : List Char} {more : List Piece} (hfront : Cutting text pieces)
    (hback : Cutting back more)
    (hmeet : text.getLast? ≠ some '%' ∨ ∀ c, back.head? = some c → isPositiveDigit c = false) :
    Cutting (text ++ back) (pieces ++ more) where
  spelled := by rw [List.flatMap_append, hfront.spelled, hback.spelled]
  named position hmem := by
    rcases List.mem_append.mp hmem with hmem | hmem
    · exact hfront.named position hmem
    · exact hback.named position hmem
  apart := by
    refine hfront.apart.append hback.apart fun piece hlast next hfirst hpercent c hc => ?_
    subst hpercent hc
    rcases hmeet with hends | hbegins
    · exact absurd (hfront.getLast? hlast) hends
    · exact hbegins c (hback.head? hfirst)

theorem cut_append {front back : List Char}
    (hmeet : front.getLast? ≠ some '%' ∨ ∀ c, back.head? = some c → isPositiveDigit c = false) :
    cut (front ++ back) = cut front ++ cut back :=
  ((cutting_cut front).append (cutting_cut back) hmeet).eq_cut.symm

end Cutting

/-! ### Filling -/

/-- What stands in the place of a piece in the end. An argument is put in as it is. -/
inductive Filled (arguments : List String) : Piece → List Char → Prop where
  | literal (c : Char) : Filled arguments (.literal c) [c]
  | argument {index : Nat} (h : index < arguments.length) :
      Filled arguments (.slot (index + 1)) arguments[index].toList
  | unfilled {position : Nat} (h : arguments.length < position) :
      Filled arguments (.slot position) (Piece.slot position).written

theorem filled_fill {arguments : List String} {piece : Piece}
    (hnamed : ∀ position, piece = .slot position → 0 < position) :
    Filled arguments piece (fill arguments piece) := by
  cases piece with
  | literal c => exact .literal c
  | slot position =>
      obtain ⟨index, rfl⟩ := Nat.exists_eq_add_one.mpr (hnamed position rfl)
      rw [fill, Nat.add_sub_cancel]
      split
      · rename_i argument hargument
        obtain ⟨hlt, rfl⟩ := List.getElem?_eq_some_iff.mp hargument
        exact .argument hlt
      · rename_i hnone
        exact .unfilled (Nat.lt_succ_of_le (List.getElem?_eq_none_iff.mp hnone))

/-- The values of a list, each once, in the order in which they are first met. -/
structure FirstMet (values firsts : List Nat) : Prop where
  nodup : firsts.Nodup
  mem : ∀ value, value ∈ firsts ↔ value ∈ values
  order : firsts.Pairwise fun a b => values.idxOf a < values.idxOf b

theorem firstMet_eraseDups (values : List Nat) : FirstMet values values.eraseDups where
  nodup := nodup_eraseDups values
  mem _ := List.mem_eraseDups
  order := by
    induction values using List.reverseRecOn with
    | nil => exact .nil
    | append_singleton values value ih =>
        have hkept : values.eraseDups.Pairwise fun a b =>
            (values ++ [value]).idxOf a < (values ++ [value]).idxOf b := by
          refine ih.imp_of_mem fun {a b} ha hb hlt => ?_
          rwa [List.idxOf_append_of_mem (List.mem_eraseDups.mp ha),
            List.idxOf_append_of_mem (List.mem_eraseDups.mp hb)]
        rw [eraseDups_concat]
        split
        · exact hkept
        · rename_i hnew
          refine List.pairwise_append.mpr ⟨hkept, List.pairwise_singleton _ _, ?_⟩
          intro a ha b hb
          obtain rfl := List.mem_singleton.mp hb
          have hold := List.mem_eraseDups.mp ha
          rw [List.idxOf_append_of_mem hold, List.idxOf_append_of_notMem hnew]
          exact Nat.lt_add_right _ (List.idxOf_lt_length_iff.mpr hold)

/-- The pieces of a text, filled one by one, and the positions that there is no argument for. -/
structure Substituted (arguments : List String) (pieces : List Piece)
    (result : String × List Nat) : Prop where
  text : ∃ texts, List.Forall₂ (Filled arguments) pieces texts ∧
    result.1 = String.ofList texts.flatten
  missing : FirstMet ((pieces.filterMap Piece.position?).filter (arguments.length < ·)) result.2

theorem filterMap_unfilled? (arguments : List String) (pieces : List Piece) :
    pieces.filterMap (unfilled? arguments) =
      (pieces.filterMap Piece.position?).filter (arguments.length < ·) := by
  rw [List.filter_filterMap]
  refine List.filterMap_congr fun piece _ => ?_
  cases piece with
  | literal c => rfl
  | slot position => simp [unfilled?, Piece.position?, Option.filter_some]

theorem Cutting.substituted {text : String} {pieces : List Piece} (h : Cutting text.toList pieces)
    (arguments : List String) : Substituted arguments pieces (substitute text arguments) := by
  have hpieces := h.eq_cut
  constructor
  · refine ⟨pieces.map (fill arguments), ?_, ?_⟩
    · rw [List.forall₂_map_right_iff, List.forall₂_same]
      intro piece hpiece
      refine filled_fill fun position hslot => ?_
      exact (h.named position (hslot ▸ hpiece)).1
    · rw [substitute, ← hpieces, List.flatMap_def]
  · rw [substitute, ← hpieces, filterMap_unfilled?]
    exact firstMet_eraseDups _

/-! ### Two texts in a row -/

/-- The values of the second list that the first has not are added at its end. -/
theorem eraseDups_append_eq_filter (values more : List Nat) :
    (values ++ more).eraseDups =
      values.eraseDups ++ more.eraseDups.filter (· ∉ values.eraseDups) := by
  induction more using List.reverseRecOn with
  | nil => simp
  | append_singleton more value ih =>
      rw [← List.append_assoc, eraseDups_concat, eraseDups_concat, ih]
      by_cases hvalues : value ∈ values <;> by_cases hmore : value ∈ more <;>
        simp [hvalues, hmore, List.filter_append]

/-- Substitution works token by token. A text has exactly one cutting, whose pieces are filled each
on its own; so two texts in a row can be filled one after the other, unless a slot arises where they
meet. -/
theorem substitute_piecewise (text : String) :
    (∃! pieces, Cutting text.toList pieces) ∧
    (∀ pieces, Cutting text.toList pieces → ∀ arguments,
      Substituted arguments pieces (substitute text arguments)) ∧
    ∀ rest : String, (text.toList.getLast? ≠ some '%' ∨
        ∀ c, rest.toList.head? = some c → isPositiveDigit c = false) →
      ∀ arguments, substitute (text ++ rest) arguments =
        ((substitute text arguments).1 ++ (substitute rest arguments).1,
          (substitute text arguments).2 ++
            (substitute rest arguments).2.filter (· ∉ (substitute text arguments).2)) := by
  refine ⟨existsUnique_cutting text.toList, fun pieces h arguments => h.substituted arguments,
    fun rest hmeet arguments => ?_⟩
  have hcut : cut (text ++ rest).toList = cut text.toList ++ cut rest.toList := by
    rw [String.toList_append, cut_append hmeet]
  refine Prod.ext ?_ ?_
  · simp only [substitute, hcut, List.flatMap_append, String.ofList_append]
  · rw [substitute, hcut, List.filterMap_append]
    exact eraseDups_append_eq_filter _ _

/-- A percent sign before a slot stays, an argument that looks like a slot is not read again, and a
zero is no digit of a slot. -/
theorem substitute_piecewise_percents :
    Cutting "%%1%2".toList [.literal '%', .slot 1, .slot 2] ∧
      Substituted ["%2"] [.literal '%', .slot 1, .slot 2] (substitute "%%1%2" ["%2"]) ∧
      substitute "%%1%2" ["%2"] = ("%%2%2", [2]) ∧
      (∀ c, "0 %3 %2".toList.head? = some c → isPositiveDigit c = false) ∧
      substitute ("%2%" ++ "0 %3 %2") ["x"] = ("%2%" ++ "0 %3 %2", [2, 3]) := by
  have hcutting : Cutting "%%1%2".toList [.literal '%', .slot 1, .slot 2] := by
    have hcut : cut "%%1%2".toList = [.literal '%', .slot 1, .slot 2] := by decide +kernel
    exact hcut ▸ cutting_cut _
  have hzero : ∀ c, "0 %3 %2".toList.head? = some c → isPositiveDigit c = false := by
    intro c hc
    obtain rfl : '0' = c := Option.some.inj hc
    rfl
  have hmeet := (substitute_piecewise "%2%").2.2 "0 %3 %2" (Or.inr hzero) ["x"]
  refine ⟨hcutting, (substitute_piecewise "%%1%2").2.1 _ hcutting ["%2"], by decide +kernel, hzero,
    hmeet.trans ?_⟩
  decide +kernel

end Placeholder
end Polyglot
