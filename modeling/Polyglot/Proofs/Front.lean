import Polyglot.Proofs.Characters
import Polyglot.Proofs.Reader
import Polyglot.Xml.Declaration

/-!
Readers that see ASCII only. What they make of a text is settled by its front, the characters up to
the first one beyond ASCII; the declaration of a document is read by such a reader. So it can be
read from bytes before it is known which text the bytes stand for.
-/

namespace Polyglot

open Text Reader

/-! ### Readers of ASCII -/

/-- The characters of a text up to the first one that is not of ASCII. -/
def asciiFront (text : List Char) : List Char := text.takeWhile fun c => c.toNat < 128

theorem ascii_of_all {text : List Char} (h : text.all (fun c => c.toNat < 128) = true) :
    ∀ c ∈ text, c.toNat < 128 :=
  fun c hc => of_decide_eq_true (List.all_eq_true.mp h c hc)

theorem asciiFront_cons {c : Char} (h : c.toNat < 128) (text : List Char) :
    asciiFront (c :: text) = c :: asciiFront text :=
  List.takeWhile_cons_of_pos (decide_eq_true h)

theorem asciiFront_cons_of_not_ascii {c : Char} (h : 128 ≤ c.toNat) (text : List Char) :
    asciiFront (c :: text) = [] :=
  List.takeWhile_cons_of_neg (by simpa using h)

theorem asciiFront_append {word : List Char} (h : ∀ c ∈ word, c.toNat < 128) (rest : List Char) :
    asciiFront (word ++ rest) = word ++ asciiFront rest :=
  List.takeWhile_append_of_pos fun c hc => decide_eq_true (h c hc)

namespace Text.Reader

variable {α β : Type}

/-- What the second reader does on the front of a text is what the first one does on the text. -/
def Mirrors (reader front : Reader α) : Prop := ∀ text,
  front (asciiFront text) = (reader text).map fun taken => (taken.1, asciiFront taken.2)

/-- A reader gets no further than a text is in ASCII: what comes after that changes nothing. -/
abbrev SeesFront (reader : Reader α) : Prop := Mirrors reader reader

theorem seesFront_pure (value : α) : SeesFront (pure value : Reader α) := fun _ => rfl

theorem Mirrors.bind {reader front : Reader α} {next next' : α → Reader β}
    (h : Mirrors reader front) (hnext : ∀ text value rest, reader text = some (value, rest) →
      Mirrors (next value) (next' value)) : Mirrors (reader >>= next) (front >>= next') := by
  intro text
  cases htaken : reader text with
  | none =>
      have hfront := h text
      rw [htaken, Option.map_none] at hfront
      simp only [Bind.bind, StateT.bind, htaken, hfront, Option.bind_none, Option.map_none]
  | some taken =>
      obtain ⟨value, rest⟩ := taken
      have hfront := h text
      rw [htaken, Option.map_some] at hfront
      rw [bind_of_eq htaken, bind_of_eq hfront]
      exact hnext text value rest htaken rest

theorem mirrors_ahead {next next' : List Char → Reader α}
    (h : ∀ text, Mirrors (next text) (next' (asciiFront text))) :
    Mirrors (ahead >>= next) (ahead >>= next') := by
  intro text
  rw [bind_ahead, bind_ahead]
  exact h text text

/-- Going back to where a text was left. -/
theorem mirrors_return (text : List Char) (value : α) :
    Mirrors (do set text; pure value) (do set (asciiFront text); pure value) :=
  fun _ => rfl

theorem seesFront_require (condition : Bool) : SeesFront (require condition) := by
  intro text
  cases condition <;> rfl

theorem seesFront_one {condition : Char → Bool} (h : ∀ c, condition c = true → c.toNat < 128) :
    SeesFront (one condition) := by
  intro text
  cases text with
  | nil => rfl
  | cons c rest =>
      cases hc : condition c with
      | true => rw [asciiFront_cons (h c hc), one_cons hc, one_cons hc, Option.map_some]
      | false =>
          have hrefuse : one condition (c :: rest) = none := by simp [one, hc]
          rw [hrefuse, Option.map_none]
          rcases Nat.lt_or_ge c.toNat 128 with hascii | hbeyond
          · rw [asciiFront_cons hascii]
            simp [one, hc]
          · rw [asciiFront_cons_of_not_ascii hbeyond]
            rfl

theorem of_one_eq_some {condition : Char → Bool} {text rest : List Char} {c : Char}
    (h : one condition text = some (c, rest)) : condition c = true := by
  cases text with
  | nil => cases h
  | cons first others =>
      obtain ⟨hfirst, heq⟩ := Option.ite_none_right_eq_some.mp h
      cases heq
      exact hfirst

theorem seesFront_run {condition : Char → Bool} (h : ∀ c, condition c = true → c.toNat < 128) :
    SeesFront (run condition) := by
  intro text
  have hspan : (asciiFront text).takeWhile condition = text.takeWhile condition ∧
      (asciiFront text).dropWhile condition = asciiFront (text.dropWhile condition) := by
    induction text with
    | nil => exact ⟨rfl, rfl⟩
    | cons c rest ih =>
        cases hc : condition c with
        | true =>
            rw [asciiFront_cons (h c hc), List.takeWhile_cons_of_pos hc,
              List.takeWhile_cons_of_pos hc, List.dropWhile_cons_of_pos hc,
              List.dropWhile_cons_of_pos hc]
            exact ⟨congrArg (c :: ·) ih.1, ih.2⟩
        | false =>
            have hstop : ¬condition c = true := by simp [hc]
            rw [List.takeWhile_cons_of_neg hstop, List.dropWhile_cons_of_neg hstop]
            rcases Nat.lt_or_ge c.toNat 128 with hascii | hbeyond
            · rw [asciiFront_cons hascii, List.takeWhile_cons_of_neg hstop,
                List.dropWhile_cons_of_neg hstop]
              exact ⟨rfl, rfl⟩
            · rw [asciiFront_cons_of_not_ascii hbeyond]
              exact ⟨rfl, rfl⟩
  rw [run, run, hspan.1, hspan.2, Option.map_some]

theorem seesFront_run1 {condition : Char → Bool} (h : ∀ c, condition c = true → c.toNat < 128) :
    SeesFront (run1 condition) :=
  (seesFront_one h).bind fun _ _ _ _ => (seesFront_run h).bind fun _ _ _ _ => seesFront_pure _

theorem isPrefixOf_asciiFront {word : List Char} (h : ∀ c ∈ word, c.toNat < 128)
    (text : List Char) : word.isPrefixOf (asciiFront text) = word.isPrefixOf text := by
  rw [Bool.eq_iff_iff, List.isPrefixOf_iff_prefix, List.isPrefixOf_iff_prefix]
  constructor
  · exact fun hstarts => hstarts.trans (List.takeWhile_prefix _)
  · rintro ⟨rest, rfl⟩
    rw [asciiFront_append h]
    exact List.prefix_append _ _

theorem asciiFront_drop {word text : List Char} (h : ∀ c ∈ word, c.toNat < 128)
    (hstarts : word.isPrefixOf text = true) :
    (asciiFront text).drop word.length = asciiFront (text.drop word.length) := by
  obtain ⟨rest, rfl⟩ := List.isPrefixOf_iff_prefix.mp hstarts
  rw [asciiFront_append h, List.drop_left, List.drop_left]

theorem seesFront_expect {word : List Char} (h : ∀ c ∈ word, c.toNat < 128) :
    SeesFront (expect word) := by
  intro text
  rw [expect, expect, isPrefixOf_asciiFront h]
  split
  · rename_i hstarts
    rw [asciiFront_drop h hstarts, Option.map_some]
  · rfl

theorem seesFront_accept {word : List Char} (h : ∀ c ∈ word, c.toNat < 128) :
    SeesFront (accept word) := by
  intro text
  rw [accept, accept, isPrefixOf_asciiFront h]
  split
  · rename_i hstarts
    rw [asciiFront_drop h hstarts, Option.map_some]
  · rfl

end Text.Reader

namespace Xml.Declaration

/-! ### The declaration -/

theorem ascii_of_isSpace {c : Char} (h : isSpace c = true) : c.toNat < 128 := by
  simp only [isSpace, Bool.or_eq_true, beq_iff_eq] at h
  rcases h with ((rfl | rfl) | rfl) | rfl <;> decide

theorem seesFront_equals : SeesFront equals :=
  (seesFront_run fun _ => ascii_of_isSpace).bind fun _ _ _ _ =>
    (seesFront_expect (ascii_of_all rfl)).bind fun _ _ _ _ =>
      (seesFront_run fun _ => ascii_of_isSpace).bind fun _ _ _ _ => seesFront_pure _

theorem ascii_of_isQuote {c : Char} (h : (c == '"' || c == '\'') = true) : c.toNat < 128 := by
  rcases (Bool.or_eq_true _ _).mp h with hmark | hmark <;> rw [beq_iff_eq.mp hmark] <;> decide

theorem seesFront_quote : SeesFront quote := seesFront_one fun _ => ascii_of_isQuote

/-- The mark at the end is the one that has been read, so it is of ASCII as well. -/
theorem SeesFront.enclosed {α : Type} {value : Reader α} (h : SeesFront value) :
    SeesFront (enclosed value) := by
  refine seesFront_quote.bind fun text mark rest hmark => ?_
  have hascii : mark.toNat < 128 := ascii_of_isQuote (of_one_eq_some hmark)
  refine h.bind fun _ inner _ _ => (seesFront_expect fun c hc => ?_).bind fun _ _ _ _ =>
    seesFront_pure inner
  rwa [List.mem_singleton.mp hc]

theorem seesFront_version : SeesFront version :=
  (seesFront_expect (ascii_of_all rfl)).bind fun _ _ _ _ =>
    (seesFront_run fun _ => ascii_of_isDigit).bind fun _ _ _ _ => seesFront_pure _

theorem seesFront_charsetName : SeesFront charsetName := by
  refine (seesFront_one fun _ => ascii_of_isAlpha).bind fun _ _ _ _ =>
    (seesFront_run fun c hc => ?_).bind fun _ _ _ _ => seesFront_pure _
  simp only [Char.isAlphanum, Bool.or_eq_true, beq_iff_eq] at hc
  rcases hc with (((halpha | hdigit) | rfl) | rfl) | rfl
  · exact ascii_of_isAlpha halpha
  · exact ascii_of_isDigit hdigit
  all_goals decide

theorem seesFront_yesOrNo : SeesFront yesOrNo := by
  refine (seesFront_accept (ascii_of_all rfl)).bind fun _ accepted _ _ => ?_
  cases accepted with
  | true => exact seesFront_pure true
  | false => exact (seesFront_expect (ascii_of_all rfl)).bind fun _ _ _ _ => seesFront_pure false

theorem SeesFront.assignment? {α : Type} {word : String} {value : Reader α}
    (hword : ∀ c ∈ word.toList, c.toNat < 128) (h : SeesFront value) :
    SeesFront (assignment? word value) := by
  refine mirrors_ahead fun text => (seesFront_run fun _ => ascii_of_isSpace).bind fun _ _ _ _ =>
    (seesFront_accept hword).bind fun _ accepted _ _ => ?_
  cases accepted with
  | true =>
      exact (seesFront_require _).bind fun _ _ _ _ => seesFront_equals.bind fun _ _ _ _ =>
        (SeesFront.enclosed h).bind fun _ _ _ _ => seesFront_pure _
  | false => exact mirrors_return text none

theorem seesFront_body : SeesFront body :=
  (seesFront_run1 fun _ => ascii_of_isSpace).bind fun _ _ _ _ =>
    (seesFront_expect (ascii_of_all rfl)).bind fun _ _ _ _ => seesFront_equals.bind fun _ _ _ _ =>
      (SeesFront.enclosed seesFront_version).bind fun _ _ _ _ =>
        (SeesFront.assignment? (ascii_of_all rfl) seesFront_charsetName).bind fun _ _ _ _ =>
          (SeesFront.assignment? (ascii_of_all rfl) seesFront_yesOrNo).bind fun _ _ _ _ =>
            (seesFront_run fun _ => ascii_of_isSpace).bind fun _ _ _ _ =>
              (seesFront_expect (ascii_of_all rfl)).bind fun _ _ _ _ => seesFront_pure _

theorem head?_asciiFront (text : List Char) :
    (asciiFront text).head?.any isSpace = text.head?.any isSpace := by
  cases text with
  | nil => rfl
  | cons c rest =>
      rcases Nat.lt_or_ge c.toNat 128 with hascii | hbeyond
      · rw [asciiFront_cons hascii]
        rfl
      · have hspace : isSpace c = false :=
          Bool.eq_false_iff.mpr fun h => absurd (ascii_of_isSpace h) (Nat.not_lt.mpr hbeyond)
        rw [asciiFront_cons_of_not_ascii hbeyond]
        exact hspace.symm

theorem seesFront_read : SeesFront Declaration.read := by
  refine mirrors_ahead fun text => (seesFront_accept (ascii_of_all rfl)).bind fun _ marked _ _ =>
    mirrors_ahead fun rest => ?_
  rw [head?_asciiFront]
  cases marked && rest.head?.any isSpace with
  | true => exact seesFront_body
  | false => exact mirrors_return text ({} : Declaration)

/-- Only a text that begins with its mark has a declaration. -/
theorem exists_cons_of_read {text rest name : List Char} {declaration : Declaration}
    (h : Declaration.read text = some (declaration, rest))
    (hname : declaration.charset = some name) : ∃ others, text = '<' :: others := by
  cases text with
  | nil =>
      cases h
      cases hname
  | cons c others =>
      by_cases hc : '<' = c
      · exact ⟨others, hc ▸ rfl⟩
      · have hmark : accept "<?xml".toList (c :: others) = some (false, c :: others) :=
          accept_of_head_ne hc ['?', 'x', 'm', 'l'] others
        rw [Declaration.read, bind_ahead, bind_of_eq hmark, bind_ahead] at h
        cases h
        cases hname

end Xml.Declaration

end Polyglot
