import Polyglot.Proofs.Markup
import Polyglot.Xml.Document

/-!
How a tree grows from a written document. Reading goes from one state to another event by event;
such stretches are put together, first to elements and then to everything inside an element.
-/

namespace Polyglot.Xml

open Text Reader

/-! ### Stretches of reading -/

/-- Reading on from one state comes to another. Every event takes at least one character, so the
fuel for the text that is left is enough. -/
def Reaches (references : References) (growth : Growth) (text : List Char) (later : Growth)
    (rest : List Char) : Prop :=
  ∃ events, events + rest.length ≤ text.length ∧
    ∀ fuel, Document.readTree references (fuel + events) growth text =
      Document.readTree references fuel later rest

variable {references : References} {growth middle later : Growth} {text between rest : List Char}

theorem Reaches.refl (references : References) (growth : Growth) (text : List Char) :
    Reaches references growth text growth text :=
  ⟨0, by omega, fun _ => rfl⟩

theorem Reaches.trans (hfirst : Reaches references growth text middle between)
    (hsecond : Reaches references middle between later rest) :
    Reaches references growth text later rest := by
  obtain ⟨first, hfirstLength, hfirstTree⟩ := hfirst
  obtain ⟨second, hsecondLength, hsecondTree⟩ := hsecond
  refine ⟨second + first, by omega, fun fuel => ?_⟩
  rw [← Nat.add_assoc, hfirstTree, hsecondTree]

theorem Reaches.event {event : Event} (hread : Event.read references text = some (event, rest))
    (hstep : growth.step event = some later) (hopen : ∀ root, later ≠ .closed root)
    (hlength : rest.length < text.length) : Reaches references growth text later rest := by
  refine ⟨1, by omega, fun fuel => ?_⟩
  rw [Document.readTree, bind_of_eq hread, hstep]
  cases later with
  | closed root => exact absurd rfl (hopen root)
  | bare => rfl
  | within frame outer => rfl

/-- A tree is read when its root is closed. -/
theorem Reaches.readRoot {event : Event} {root : Node}
    (h : Reaches references .bare text growth between)
    (hread : Event.read references between = some (event, rest))
    (hstep : growth.step event = some (.closed root)) :
    Document.readRoot references text = some (root, rest) := by
  obtain ⟨events, hlength, htree⟩ := h
  have hfuel : text.length + 1 = (text.length - events) + 1 + events := by omega
  rw [Document.readRoot, bind_ahead, hfuel, htree, Document.readTree, bind_of_eq hread, hstep]
  rfl

/-! ### Text -/

variable {tag : Name} {attributes : List Attribute} {content : List Node} {scope : Scope}
  {frame : Frame} {outer : List Frame}

theorem add_text {run : String} (h : ∀ before, frame.content.head? ≠ some (.text before)) :
    frame.add (.text run) = { frame with content := .text run :: frame.content } := by
  obtain ⟨tag, attributes, content, scope⟩ := frame
  cases content with
  | nil => rfl
  | cons node others =>
      cases node with
      | text before => exact absurd rfl (h before)
      | _ => rfl

/-- The run of text between two tags, if it is not empty. -/
def textNodes (text : String) : List Node := if text = "" then [] else [.text text]

theorem Reaches.run {run : String} (hrun : run ≠ "")
    (hcontent : ∀ before, frame.content.head? ≠ some (.text before)) (rest : List Char) :
    Reaches references (.within frame outer) (Catalog.escaped run ++ '<' :: rest)
      (.within { frame with content := .text run :: frame.content } outer) ('<' :: rest) := by
  have hlist : run.toList ≠ [] := by simpa using hrun
  have hread := read_escaped references hlist rest
  rw [String.ofList_toList] at hread
  refine Reaches.event hread ?_ (by simp) ?_
  · rw [Growth.step, Growth.put, add_text hcontent]
  · obtain ⟨c, others, heq⟩ := List.exists_cons_of_ne_nil hlist
    obtain ⟨first, more, hescape, -⟩ := escape_eq_cons c
    simp only [Catalog.escaped, heq, List.flatMap_cons, hescape, List.length_append,
      List.length_cons]
    omega

/-! ### Elements -/

/-- The frame of an open element without attributes. -/
def Frame.plain (name : String) (content : List Node) (scope : Scope) : Frame :=
  ⟨{ base := name }, [], content, scope⟩

theorem start_of_admits (hscope : growth.scope.extend? attributes = some scope)
    (hdepth : growth.outerFrames.length < Growth.maxDepth)
    (hadmits : scope.admits tag attributes = true) :
    growth.start tag attributes false =
      some (.within ⟨tag, attributes, [], scope⟩ growth.outerFrames) := by
  rw [Growth.start, hscope, Option.bind_eq_bind, Option.bind_some, hadmits,
    decide_eq_true hdepth]
  rfl

theorem start_plain (name : String) (hdepth : outer.length + 1 < Growth.maxDepth) :
    Growth.start (.within frame outer) { base := name } [] false =
      some (.within (.plain name [] frame.scope) (frame :: outer)) := by
  refine start_of_admits rfl hdepth ?_
  simp [Scope.admits, Scope.resolve?]

/-- What stands between the tags of an element becomes its content. -/
theorem Reaches.element {name : String} (hname : isPlainName name.toList = true)
    (hdepth : outer.length + 1 < Growth.maxDepth) {inner : List Char} {content : List Node}
    (hinner : Reaches references (.within (.plain name [] frame.scope) (frame :: outer))
      (inner ++ (closeTag name ++ rest))
      (.within (.plain name content frame.scope) (frame :: outer)) (closeTag name ++ rest)) :
    Reaches references (.within frame outer) (openTag name [] ++ (inner ++ (closeTag name ++ rest)))
      (.within { frame with content := .element name [] content.reverse :: frame.content } outer)
      rest := by
  have hopen : Reaches references (.within frame outer)
      (openTag name [] ++ (inner ++ (closeTag name ++ rest)))
      (.within (.plain name [] frame.scope) (frame :: outer))
      (inner ++ (closeTag name ++ rest)) := by
    refine Reaches.event (read_openTag references hname (List.forall_mem_nil _) _) ?_ (by simp) ?_
    · exact start_plain name hdepth
    · simp only [openTag, List.length_append, List.length_cons]
      omega
  have hclose : Reaches references (.within (.plain name content frame.scope) (frame :: outer))
      (closeTag name ++ rest)
      (.within { frame with content := .element name [] content.reverse :: frame.content } outer)
      rest := by
    refine Reaches.event (read_closeTag references hname rest) ?_ (by simp) ?_
    · rw [Growth.step, Frame.plain, if_pos rfl]
      rfl
    · simp only [closeTag, List.length_append, List.length_cons]
      omega
  exact (hopen.trans hinner).trans hclose

/-- An element that holds nothing but a text. -/
theorem Reaches.leaf {name : String} (hname : isPlainName name.toList = true)
    (hdepth : outer.length + 1 < Growth.maxDepth) (run : String) :
    Reaches references (.within frame outer)
      (openTag name [] ++ (Catalog.escaped run ++ (closeTag name ++ rest)))
      (.within { frame with content := .element name [] (textNodes run) :: frame.content } outer)
      rest := by
  by_cases hrun : run = ""
  · subst hrun
    exact @Reaches.element _ _ _ _ _ hname hdepth [] [] (Reaches.refl references _ _)
  · rw [textNodes, if_neg hrun]
    have hinner := @Reaches.run references (.plain name [] frame.scope) (frame :: outer) run hrun
      (by simp [Frame.plain])
    exact @Reaches.element _ _ _ _ _ hname hdepth _ [.text run] (hinner _)

/-! ### Lines -/

/-- Elements one after the other, each behind an indentation of its own, and a text before the tag
that follows them. -/
theorem Reaches.lines {α : Type} {items : List α} {indentation last : String}
    (hindentation : indentation ≠ "") (hlast : last ≠ "") {write : α → List Char} {node : α → Node}
    (hwrite : ∀ item, ∃ more, write item = '<' :: more)
    (hnode : ∀ item before, node item ≠ .text before)
    (hitem : ∀ item ∈ items, ∀ frame rest, Reaches references (.within frame outer)
      (write item ++ rest) (.within { frame with content := node item :: frame.content } outer)
      rest)
    (hcontent : ∀ before, frame.content.head? ≠ some (.text before)) (rest : List Char) :
    Reaches references (.within frame outer)
      ((items.flatMap fun item => Catalog.escaped indentation ++ write item) ++
        (Catalog.escaped last ++ '<' :: rest))
      (.within { frame with content := .text last ::
        ((items.flatMap fun item => [.text indentation, node item]).reverse ++ frame.content) }
        outer) ('<' :: rest) := by
  induction items generalizing frame with
  | nil => exact Reaches.run hlast hcontent rest
  | cons item others ih =>
      obtain ⟨more, hmore⟩ := hwrite item
      let left := (others.flatMap fun item => Catalog.escaped indentation ++ write item) ++
        (Catalog.escaped last ++ '<' :: rest)
      have hrun := @Reaches.run references frame outer indentation hindentation hcontent
        (more ++ left)
      rw [← List.cons_append, ← hmore] at hrun
      have hfirst := hitem item List.mem_cons_self
        { frame with content := .text indentation :: frame.content } left
      have hothers := @ih { frame with content := node item :: .text indentation :: frame.content }
        (fun other hother => hitem other (List.mem_cons_of_mem _ hother))
        (fun before h => hnode item before (Option.some.inj h))
      simp only [List.flatMap_cons, List.append_assoc, List.reverse_cons, List.nil_append,
        List.cons_append]
      exact (hrun.trans hfirst).trans hothers

end Polyglot.Xml
