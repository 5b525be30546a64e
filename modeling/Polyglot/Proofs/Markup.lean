import Polyglot.Catalog.Writing
import Polyglot.Proofs.Reader
import Polyglot.Xml.Event

/-!
Markup as it is written and read back. An escaped text is one run that says the text, whatever
stands in it, and a tag says its name and its attributes.
-/

namespace Polyglot.Xml

open Text Reader

/-! ### Text -/

theorem escape_cases (c : Char) : c = '&' ∨ c = '<' ∨ c = '>' ∨
    (c ≠ '&' ∧ c ≠ '<' ∧ c ≠ '>' ∧ Catalog.escape c = [c]) := by
  by_cases hand : c = '&'
  · exact Or.inl hand
  by_cases hless : c = '<'
  · exact Or.inr (Or.inl hless)
  by_cases hgreater : c = '>'
  · exact Or.inr (Or.inr (Or.inl hgreater))
  exact Or.inr (Or.inr (Or.inr
    ⟨hand, hless, hgreater, Catalog.escape.eq_4 c hand hless hgreater⟩))

theorem head?_escaped_ne (text rest : List Char) :
    (text.flatMap Catalog.escape ++ '<' :: rest).head? ≠ some '>' := by
  intro h
  cases text with
  | nil => cases h
  | cons c others =>
      rcases escape_cases c with rfl | rfl | rfl | ⟨-, -, hgreater, hescape⟩
      · cases h
      · cases h
      · cases h
      · rw [List.flatMap_cons, hescape] at h
        exact hgreater (Option.some.inj h)

/-- The mark that ends a character data section does not occur in an escaped text. -/
theorem escaped_ne_bracket (text rest others : List Char) :
    text.flatMap Catalog.escape ++ '<' :: rest ≠ ']' :: '>' :: others := by
  intro h
  cases text with
  | nil => cases h
  | cons c tail =>
      rcases escape_cases c with rfl | rfl | rfl | ⟨-, -, -, hescape⟩
      · cases h
      · cases h
      · cases h
      · rw [List.flatMap_cons, hescape] at h
        have htail : tail.flatMap Catalog.escape ++ '<' :: rest = '>' :: others :=
          (List.cons.inj h).2
        exact head?_escaped_ne tail rest (by rw [htail]; rfl)

theorem readTextItem_plain (references : References) {c : Char} {rest : List Char}
    (hand : c ≠ '&') (hless : c ≠ '<') (hrest : ∀ others, rest ≠ ']' :: '>' :: others) :
    Event.readTextItem references (c :: rest) = some (some [c], rest) := by
  rw [Event.readTextItem, bind_ahead]
  generalize htext : c :: rest = text
  split
  · cases htext
  · exact absurd (List.cons.inj htext).1 hless
  · exact absurd (List.cons.inj htext).1 hand
  · exact absurd (List.cons.inj htext).2 (hrest _)
  · obtain ⟨rfl, rfl⟩ := List.cons.inj htext
    rfl

/-- An escaped character is read as the character. -/
theorem readTextItem_escape (references : References) (c : Char) {rest : List Char}
    (hrest : ∀ others, rest ≠ ']' :: '>' :: others) :
    Event.readTextItem references (Catalog.escape c ++ rest) = some (some [c], rest) := by
  rcases escape_cases c with rfl | rfl | rfl | ⟨hand, hless, -, hescape⟩
  · rfl
  · rfl
  · rfl
  · rw [hescape]
    exact readTextItem_plain references hand hless hrest

theorem escape_eq_cons (c : Char) :
    ∃ first more, Catalog.escape c = first :: more ∧ first ≠ '<' := by
  rcases escape_cases c with rfl | rfl | rfl | ⟨-, hless, -, hescape⟩
  · exact ⟨_, _, rfl, by decide⟩
  · exact ⟨_, _, rfl, by decide⟩
  · exact ⟨_, _, rfl, by decide⟩
  · exact ⟨c, [], hescape, hless⟩

theorem items_escaped (references : References) (text rest : List Char) :
    Items (Event.readTextItem references) (text.flatMap Catalog.escape ++ '<' :: rest)
      (text.map fun c => [c]) ('<' :: rest) := by
  induction text with
  | nil => exact Items.stop rfl
  | cons c others ih =>
      rw [List.flatMap_cons, List.append_assoc, List.map_cons]
      refine Items.next (readTextItem_escape references c (escaped_ne_bracket others rest)) ?_ ih
      obtain ⟨first, more, hescape, -⟩ := escape_eq_cons c
      simp only [hescape, List.length_append, List.length_cons]
      omega

/-- A text that is escaped and stands before a tag is read as one run. -/
theorem read_escaped (references : References) {text : List Char} (htext : text ≠ [])
    (rest : List Char) :
    Event.read references (text.flatMap Catalog.escape ++ '<' :: rest) =
      some (.text (String.ofList text), '<' :: rest) := by
  obtain ⟨c, others, rfl⟩ := List.exists_cons_of_ne_nil htext
  have hmany := many_of_items (items_escaped references (c :: others) rest)
  obtain ⟨first, more, hescape, hfirst⟩ := escape_eq_cons c
  rw [List.flatMap_cons, hescape, List.cons_append, List.cons_append] at hmany ⊢
  rw [Event.read, bind_of_eq (accept_of_head_ne (Ne.symm hfirst) [] _), if_neg Bool.false_ne_true,
    bind_ahead, bind_of_eq rfl, Event.readText, bind_of_eq hmany, pure_apply,
    ← List.flatMap_def, List.flatMap_singleton']

/-! ### Characters -/

/-- A document can hold the text, and reading does not change its characters: all are characters of
XML, and none is a carriage return. -/
def Admissible (text : List Char) : Prop := ∀ c ∈ text, isCharacter c = true ∧ c ≠ '\r'

instance (text : List Char) : Decidable (Admissible text) :=
  List.decidableBAll (fun c => isCharacter c = true ∧ c ≠ '\r') text

theorem Admissible.ofList {text : List Char} (h : Admissible text) :
    Admissible (String.ofList text).toList := by
  rwa [String.toList_ofList]

theorem Admissible.append {text rest : List Char} (htext : Admissible text)
    (hrest : Admissible rest) : Admissible (text ++ rest) :=
  List.forall_mem_append.mpr ⟨htext, hrest⟩

theorem Admissible.flatMap {α : Type} {items : List α} {write : α → List Char}
    (h : ∀ item ∈ items, Admissible (write item)) : Admissible (items.flatMap write) := by
  intro c hc
  obtain ⟨item, hitem, hmem⟩ := List.mem_flatMap.mp hc
  exact h item hitem c hmem

theorem Admissible.escaped {text : String} (h : Admissible text.toList) :
    Admissible (Catalog.escaped text) := by
  refine Admissible.flatMap fun c hc => ?_
  rcases escape_cases c with rfl | rfl | rfl | ⟨-, -, -, hescape⟩
  · decide
  · decide
  · decide
  · rw [hescape]
    exact List.forall_mem_singleton.mpr (h c hc)

/-! ### Names -/

/-- A name without a colon. -/
def isPlainName : List Char → Bool
  | [] => false
  | c :: rest => isNameStart c && rest.all isNameCharacter

theorem isPlainName_cons {name : List Char} (h : isPlainName name = true) :
    ∃ c rest, name = c :: rest ∧ isNameStart c = true ∧ ∀ d ∈ rest, isNameCharacter d = true := by
  cases name with
  | nil => cases h
  | cons c rest =>
      rw [isPlainName, Bool.and_eq_true, List.all_eq_true] at h
      exact ⟨c, rest, rfl, h.1, h.2⟩

/-- No mark that stands before or after a name can begin one. -/
theorem ne_of_isNameStart {c d : Char} (hc : isNameStart c = true) (hd : isNameStart d = false) :
    d ≠ c := by
  rintro rfl
  rw [hc] at hd
  cases hd

theorem isSpace_of_isNameStart {c : Char} (h : isNameStart c = true) : isSpace c = false := by
  have hspace := ne_of_isNameStart h (show isNameStart ' ' = false by decide)
  have htab := ne_of_isNameStart h (show isNameStart '\t' = false by decide)
  have hline := ne_of_isNameStart h (show isNameStart '\n' = false by decide)
  have hreturn := ne_of_isNameStart h (show isNameStart '\r' = false by decide)
  simp [isSpace, hspace.symm, htab.symm, hline.symm, hreturn.symm]

theorem spaces_of_head {c : Char} (h : isSpace c = false) (rest : List Char) :
    Event.spaces (c :: rest) = some ([], c :: rest) :=
  run_append (List.forall_mem_nil _) (by rintro _ ⟨rfl⟩; exact h)

theorem readPlainName_append {name : String} (hname : isPlainName name.toList = true) {d : Char}
    (hd : isNameCharacter d = false) (rest : List Char) :
    Event.readPlainName (name.toList ++ d :: rest) = some (name, d :: rest) := by
  obtain ⟨c, more, heq, hc, hmore⟩ := isPlainName_cons hname
  have hrun : run isNameCharacter (more ++ d :: rest) = some (more, d :: rest) :=
    run_append hmore (by rintro _ ⟨rfl⟩; exact hd)
  rw [heq, List.cons_append, Event.readPlainName, bind_of_eq (one_cons hc _), bind_of_eq hrun,
    pure_apply, ← heq, String.ofList_toList]

theorem readName_append {name : String} (hname : isPlainName name.toList = true) {d : Char}
    (hd : isNameCharacter d = false) (hcolon : ':' ≠ d) (rest : List Char) :
    Event.readName (name.toList ++ d :: rest) = some ({ base := name }, d :: rest) := by
  rw [Event.readName, bind_of_eq (readPlainName_append hname hd rest),
    bind_of_eq (accept_of_head_ne hcolon [] rest), if_neg Bool.false_ne_true, pure_apply]

/-! ### Attributes -/

/-- A character that stands for itself in an attribute value. -/
def isPlainCharacter (c : Char) : Bool := c != '<' && c != '&' && c != '"' && !isSpace c

def isPlainValue (value : List Char) : Bool := value.all isPlainCharacter

/-- An attribute as it is written, with the space before it. -/
def writeAttribute : String × String → List Char
  | (name, value) => ' ' :: (name.toList ++ '=' :: '"' :: (value.toList ++ ['"']))

def isPlainAttribute : String × String → Bool
  | (name, value) => isPlainName name.toList && isPlainValue value.toList

/-- The attribute of a name without a qualifier. -/
def plainAttribute : String × String → Attribute
  | (name, value) => ⟨{ base := name }, value⟩

theorem readValueItem_plain (references : References) {c : Char} (rest : List Char)
    (hless : c ≠ '<') (hand : c ≠ '&') (hmark : c ≠ '"') (hspace : isSpace c = false) :
    Event.readValueItem references '"' (c :: rest) = some (some [c], rest) := by
  rw [Event.readValueItem, bind_ahead]
  generalize htext : c :: rest = text
  split
  · cases htext
  · exact absurd (List.cons.inj htext).1 hless
  · exact absurd (List.cons.inj htext).1 hand
  · obtain ⟨rfl, rfl⟩ := List.cons.inj htext
    rw [if_neg (by simpa using hmark), bind_of_eq rfl, hspace]
    rfl

theorem items_value (references : References) {value : List Char}
    (hvalue : isPlainValue value = true) (rest : List Char) :
    Items (Event.readValueItem references '"') (value ++ '"' :: rest) (value.map fun c => [c])
      ('"' :: rest) := by
  induction value with
  | nil => exact Items.stop rfl
  | cons c others ih =>
      simp only [isPlainValue, List.all_cons, isPlainCharacter, Bool.and_eq_true, bne_iff_ne,
        Bool.not_eq_true'] at hvalue
      obtain ⟨⟨⟨⟨hless, hand⟩, hmark⟩, hspace⟩, hothers⟩ := hvalue
      refine Items.next (readValueItem_plain references _ hless hand hmark hspace) ?_ (ih ?_)
      · exact Nat.lt_succ_self _
      · exact hothers

theorem readValue_append (references : References) {value : String}
    (hvalue : isPlainValue value.toList = true) (rest : List Char) :
    Event.readValue references ('"' :: (value.toList ++ '"' :: rest)) = some (value, rest) := by
  rw [Event.readValue, bind_of_eq (one_cons rfl _),
    bind_of_eq (many_of_items (items_value references hvalue rest)),
    bind_of_eq (expect_one '"' rest), pure_apply, ← List.flatMap_def, List.flatMap_singleton',
    String.ofList_toList]

theorem readAttribute?_append (references : References) {name value : String}
    (hname : isPlainName name.toList = true) (hvalue : isPlainValue value.toList = true)
    (rest : List Char) :
    Event.readAttribute? references (writeAttribute (name, value) ++ rest) =
      some (some (plainAttribute (name, value)), rest) := by
  obtain ⟨c, more, heq, hc, hmore⟩ := isPlainName_cons hname
  have hspace : isSpace c = false := isSpace_of_isNameStart hc
  have hspaces :
      Event.spaces (' ' :: (name.toList ++ '=' :: '"' :: (value.toList ++ '"' :: rest))) =
        some ([' '], name.toList ++ '=' :: '"' :: (value.toList ++ '"' :: rest)) := by
    refine @run_append isSpace [' '] _ (List.forall_mem_singleton.mpr rfl) ?_
    rw [heq]
    rintro _ ⟨rfl⟩
    exact hspace
  have hclose := ne_of_isNameStart hc (show isNameStart '>' = false by decide)
  have hslash := ne_of_isNameStart hc (show isNameStart '/' = false by decide)
  have hwritten : writeAttribute (name, value) ++ rest =
      ' ' :: (name.toList ++ '=' :: '"' :: (value.toList ++ '"' :: rest)) := by
    simp [writeAttribute]
  have hread := readName_append hname (d := '=') (by decide) (by decide)
    ('"' :: (value.toList ++ '"' :: rest))
  rw [hwritten, Event.readAttribute?, bind_of_eq hspaces, bind_ahead]
  generalize htext : name.toList ++ '=' :: '"' :: (value.toList ++ '"' :: rest) = text at hread ⊢
  rw [heq] at htext
  split
  · exact absurd (List.cons.inj htext).1.symm hclose
  · exact absurd (List.cons.inj htext).1.symm hslash
  · rw [bind_of_eq rfl, bind_of_eq hread, bind_of_eq (spaces_of_head (by decide) _),
      bind_of_eq (expect_one '=' _), bind_of_eq (spaces_of_head (by decide) _),
      bind_of_eq (readValue_append references hvalue rest)]
    rfl

/-! ### Tags -/

/-- A start tag as it is written. -/
def openTag (name : String) (attributes : List (String × String)) : List Char :=
  '<' :: (name.toList ++ (attributes.flatMap writeAttribute ++ ['>']))

/-- An end tag as it is written. -/
def closeTag (name : String) : List Char := '<' :: '/' :: (name.toList ++ ['>'])

theorem items_attributes (references : References) {attributes : List (String × String)}
    (hplain : ∀ pair ∈ attributes, isPlainAttribute pair = true)
    (rest : List Char) :
    Items (Event.readAttribute? references) (attributes.flatMap writeAttribute ++ '>' :: rest)
      (attributes.map plainAttribute) ('>' :: rest) := by
  induction attributes with
  | nil => exact Items.stop rfl
  | cons pair others ih =>
      obtain ⟨name, value⟩ := pair
      obtain ⟨hname, hvalue⟩ := Bool.and_eq_true_iff.mp (hplain (name, value) List.mem_cons_self)
      rw [List.flatMap_cons, List.append_assoc, List.map_cons]
      refine Items.next (readAttribute?_append references hname hvalue _) ?_ (ih ?_)
      · simp only [writeAttribute, List.length_append, List.length_cons]
        omega
      · exact fun pair hmem => hplain pair (List.mem_cons_of_mem _ hmem)

/-- A start tag is read with its attributes. -/
theorem read_openTag (references : References) {name : String}
    (hname : isPlainName name.toList = true) {attributes : List (String × String)}
    (hplain : ∀ pair ∈ attributes, isPlainAttribute pair = true)
    (rest : List Char) :
    Event.read references (openTag name attributes ++ rest) =
      some (.start { base := name } (attributes.map plainAttribute) false, rest) := by
  have hitems := many_of_items (items_attributes references hplain rest)
  have hread : Event.readName (name.toList ++ (attributes.flatMap writeAttribute ++ '>' :: rest)) =
      some ({ base := name }, attributes.flatMap writeAttribute ++ '>' :: rest) := by
    cases attributes with
    | nil => exact readName_append hname (by decide) (by decide) rest
    | cons pair others => exact readName_append hname (by decide) (by decide) _
  have htag : Event.readStartTag references
      (name.toList ++ (attributes.flatMap writeAttribute ++ '>' :: rest)) =
      some (.start { base := name } (attributes.map plainAttribute) false, rest) := by
    rw [Event.readStartTag, bind_of_eq hread, bind_of_eq hitems,
      bind_of_eq (accept_of_head_ne (by decide) [] rest), bind_of_eq (expect_one '>' rest),
      pure_apply]
  obtain ⟨c, more, heq, hc, -⟩ := isPlainName_cons hname
  have hslash := ne_of_isNameStart hc (show isNameStart '/' = false by decide)
  have hquestion := ne_of_isNameStart hc (show isNameStart '?' = false by decide)
  have hmark := ne_of_isNameStart hc (show isNameStart '!' = false by decide)
  have hcomment (text : List Char) : accept "!--".toList (c :: text) = some (false, c :: text) :=
    accept_of_head_ne hmark ['-', '-'] text
  have hdata (text : List Char) : accept "![CDATA[".toList (c :: text) = some (false, c :: text) :=
    accept_of_head_ne hmark "[CDATA[".toList text
  have hwritten : openTag name attributes ++ rest =
      '<' :: (name.toList ++ (attributes.flatMap writeAttribute ++ '>' :: rest)) := by
    simp [openTag]
  rw [heq, List.cons_append] at hwritten htag
  rw [hwritten, Event.read, bind_of_eq (accept_one '<' _), if_pos rfl,
    bind_of_eq (accept_of_head_ne hslash [] _), if_neg Bool.false_ne_true,
    bind_of_eq (accept_of_head_ne hquestion [] _), if_neg Bool.false_ne_true,
    bind_of_eq (hcomment _), if_neg Bool.false_ne_true, bind_of_eq (hdata _),
    if_neg Bool.false_ne_true, htag]

/-- An end tag is read as one. -/
theorem read_closeTag (references : References) {name : String}
    (hname : isPlainName name.toList = true) (rest : List Char) :
    Event.read references (closeTag name ++ rest) = some (.stop { base := name }, rest) := by
  have hread := readName_append hname (d := '>') (by decide) (by decide) rest
  have hwritten : closeTag name ++ rest = '<' :: '/' :: (name.toList ++ '>' :: rest) := by
    simp [closeTag]
  rw [hwritten, Event.read, bind_of_eq (accept_one '<' _), if_pos rfl,
    bind_of_eq (accept_one '/' _), if_pos rfl, Event.readEndTag, bind_of_eq hread,
    bind_of_eq (spaces_of_head (by decide) _), bind_of_eq (expect_one '>' rest), pure_apply]

end Polyglot.Xml
