import Mathlib.Logic.Relation
import Polyglot.Proofs.Verdict

/-!
What a reading does not see. Of the root only context elements are read, of a context its name and
its messages, and of a message its source and its translation; a message with plural forms or with a
retired translation is passed over. Whatever else comes into a document, at whatever place, the
catalog or the error that is read from it stays the same.
-/

namespace Polyglot.Catalog

open Xml

/-! ### Insertions -/

/-- A node has come into a content. Text next to text is one run, so a node may also come into the
middle of a run, and text may join one. -/
inductive Inserted : Node → List Node → List Node → Prop where
  | between (node : Node) (before after : List Node) :
      Inserted node (before ++ after) (before ++ node :: after)
  | within (node : Node) (left right : String) (before after : List Node) :
      Inserted node (before ++ .text (left ++ right) :: after)
        (before ++ .text left :: node :: .text right :: after)
  | joined (run left right : String) (before after : List Node) :
      Inserted (.text run) (before ++ .text (left ++ right) :: after)
        (before ++ .text (left ++ run ++ right) :: after)

/-- The elements of a catalog that are looked into. -/
inductive Part where
  | root
  | context
  | message

/-- The elements that are read directly under a part. -/
def Part.reads : Part → List String
  | .root => ["context"]
  | .context => ["name", "message"]
  | .message => ["source", "translation"]

/-- A message that is no part of the user interface: it has a source, and it has plural forms or its
translation is of a retired type. -/
structure Dismissed (element : Node) : Prop where
  message : element.isElement "message" = true
  source : (element.child? "source").isSome = true
  dismissed : element.attribute? "numerus" = some "yes" ∨
    ∃ translation kind, element.child? "translation" = some translation ∧
      translation.attribute? "type" = some kind ∧ kind ∈ retiredKinds

/-- One node has come into a part, or into a part of it: one that is not an element of a name that
is read there, or a dismissed message. -/
inductive Padded : Part → Node → Node → Prop where
  | unread {part : Part} {tag : String} {attributes : List (String × String)}
      {content padded : List Node} {node : Node}
      (hunread : ∀ name ∈ part.reads, node.isElement name = false)
      (h : Inserted node content padded) :
      Padded part (.element tag attributes content) (.element tag attributes padded)
  | dismissed {tag : String} {attributes : List (String × String)} {content padded : List Node}
      {node : Node} (hnode : Dismissed node) (h : Inserted node content padded) :
      Padded .context (.element tag attributes content) (.element tag attributes padded)
  | inContext {tag : String} {attributes : List (String × String)} {context padded : Node}
      (before after : List Node) (hcontext : context.isElement "context" = true)
      (h : Padded .context context padded) :
      Padded .root (.element tag attributes (before ++ context :: after))
        (.element tag attributes (before ++ padded :: after))
  | inMessage {tag : String} {attributes : List (String × String)} {message padded : Node}
      (before after : List Node) (hmessage : message.isElement "message" = true)
      (h : Padded .message message padded) :
      Padded .context (.element tag attributes (before ++ message :: after))
        (.element tag attributes (before ++ padded :: after))

/-! ### The elements of a name -/

theorem child?_eq_head? (name : String) (node : Node) :
    node.child? name = (node.children name).head? := by
  rw [Node.child?, Node.children, List.head?_filter]

theorem ne_of_isElement {node : Node} {name other : String} (h : node.isElement name = true)
    (hne : name ≠ other) : node.isElement other = false := by
  cases node with
  | element tag attributes content =>
      obtain rfl : tag = name := by simpa [Node.isElement] using h
      simpa [Node.isElement] using hne
  | _ => rfl

/-- A node of another name does not come among the elements of a name. -/
theorem Inserted.filter_eq {node : Node} {content padded : List Node} {name : String}
    (h : Inserted node content padded) (hnode : node.isElement name = false) :
    padded.filter (Node.isElement name) = content.filter (Node.isElement name) := by
  have htext (run : String) : Node.isElement name (.text run) = false := rfl
  cases h with
  | between => simp [List.filter_append, hnode]
  | within => simp [List.filter_append, hnode, htext]
  | joined => simp [List.filter_append, htext]

/-- An element comes among the elements of its name. -/
theorem Inserted.filter_insert {node : Node} {content padded : List Node} {name : String}
    (h : Inserted node content padded) (hnode : node.isElement name = true) :
    ∃ before after, content.filter (Node.isElement name) = before ++ after ∧
      padded.filter (Node.isElement name) = before ++ node :: after := by
  have htext (run : String) : Node.isElement name (.text run) = false := rfl
  cases h with
  | between _ before after =>
      exact ⟨_, _, List.filter_append .., by rw [List.filter_append, List.filter_cons_of_pos hnode]⟩
  | within _ left right before after =>
      refine ⟨before.filter (Node.isElement name), after.filter (Node.isElement name), ?_, ?_⟩
      · simp [List.filter_append, htext]
      · simp [List.filter_append, htext, hnode]
  | joined => cases hnode

theorem Padded.isElement_eq {part : Part} {node padded : Node} (h : Padded part node padded)
    (name : String) : padded.isElement name = node.isElement name := by
  cases h <;> rfl

theorem Padded.attribute?_eq {part : Part} {node padded : Node} (h : Padded part node padded)
    (name : String) : padded.attribute? name = node.attribute? name := by
  cases h <;> rfl

theorem children_eq_of_unread {tag name : String} {attributes : List (String × String)}
    {content padded : List Node} {node : Node} (h : Inserted node content padded)
    (hnode : node.isElement name = false) :
    (Node.element tag attributes padded).children name =
      (Node.element tag attributes content).children name :=
  h.filter_eq hnode

theorem children_of_inside {tag name : String} {attributes : List (String × String)} {node : Node}
    (hnode : node.isElement name = true) (before after : List Node) :
    (Node.element tag attributes (before ++ node :: after)).children name =
      before.filter (Node.isElement name) ++ node :: after.filter (Node.isElement name) := by
  rw [Node.children, Node.content, List.filter_append, List.filter_cons_of_pos hnode]

theorem children_of_other {tag name : String} {attributes : List (String × String)} {node : Node}
    (hnode : node.isElement name = false) (before after : List Node) :
    (Node.element tag attributes (before ++ node :: after)).children name =
      before.filter (Node.isElement name) ++ after.filter (Node.isElement name) := by
  rw [Node.children, Node.content, List.filter_append, List.filter_cons_of_neg (by simp [hnode])]

/-! ### Messages -/

/-- What is read of a message stays the same. -/
theorem Padded.item?_eq {message padded : Node} (h : Padded .message message padded) :
    item? padded = item? message := by
  have hnumerus := h.attribute?_eq "numerus"
  cases h with
  | @unread _ tag attributes content padded node hunread hinserted =>
      have hchild (name : String) (hname : name ∈ Part.message.reads) :
          (Node.element tag attributes padded).child? name =
            (Node.element tag attributes content).child? name := by
        rw [child?_eq_head?, child?_eq_head?, children_eq_of_unread hinserted (hunread name hname)]
      simp only [item?, hnumerus, hchild "source" (by decide), hchild "translation" (by decide)]

/-- A dismissed message has a source, and it is not live. -/
theorem Dismissed.item? {element : Node} (h : Dismissed element) :
    ∃ item, item? element = some item ∧ item.isLive = false := by
  obtain ⟨source, hsource⟩ := Option.isSome_iff_exists.mp h.source
  refine ⟨_, by rw [Catalog.item?, hsource, Option.map_some], ?_⟩
  rcases h.dismissed with hplural | ⟨translation, kind, htranslation, hkind, hretired⟩
  · simp [Item.isLive, hplural]
  · simp [Item.isLive, htranslation, hkind, hretired]

theorem judgeMessage_of_item?_eq {element other : Node} (h : item? other = item? element)
    (locale context : String) (contexts : Table (Table Message)) :
    judgeMessage locale context contexts other = judgeMessage locale context contexts element := by
  simp only [judgeMessage, readMessage, h]

/-- A dismissed message is passed over, whatever the draft holds. -/
theorem judgeMessage_of_dismissed {element : Node} (h : Dismissed element)
    (locale context : String) (contexts : Table (Table Message)) :
    judgeMessage locale context contexts element = .ok contexts := by
  obtain ⟨item, hitem, hdead⟩ := h.item?
  simp only [judgeMessage, readMessage, hitem]
  split
  · rfl
  · rw [hdead]
    rfl

/-! ### Contexts -/

/-- What is read of a context stays the same. -/
theorem Padded.judgeContext_eq {context padded : Node} (h : Padded .context context padded)
    (locale : String) (contexts : Table (Table Message)) :
    judgeContext locale contexts padded = judgeContext locale contexts context := by
  have hsame (hname : padded.children "name" = context.children "name")
      (hmessages : ∀ name contexts,
        (padded.children "message").foldlM (judgeMessage locale name) contexts =
          (context.children "message").foldlM (judgeMessage locale name) contexts) :
      judgeContext locale contexts padded = judgeContext locale contexts context := by
    simp only [Catalog.judgeContext_eq, contextText, child?_eq_head?, hname, hmessages]
  cases h with
  | unread hunread hinserted =>
      refine hsame (children_eq_of_unread hinserted (hunread "name" (by decide)))
        fun name contexts => ?_
      rw [children_eq_of_unread hinserted (hunread "message" (by decide))]
  | dismissed hnode hinserted =>
      refine hsame (children_eq_of_unread hinserted (ne_of_isElement hnode.message (by decide)))
        fun name contexts => ?_
      obtain ⟨before, after, hbefore, hafter⟩ := hinserted.filter_insert hnode.message
      simp only [Node.children, Node.content, hbefore, hafter]
      exact foldlM_append_of_idle (judgeMessage_of_dismissed hnode locale name) after
  | @inMessage _ _ message padded before after hmessage hpadded =>
      have hpadded' (name : String) := hpadded.isElement_eq name
      have hother := ne_of_isElement hmessage (show "message" ≠ "name" by decide)
      refine hsame ?_ fun name contexts => ?_
      · rw [children_of_other hother, children_of_other (by rwa [hpadded'])]
      · rw [children_of_inside hmessage, children_of_inside (by rwa [hpadded'])]
        exact foldlM_append_congr (judgeMessage_of_item?_eq hpadded.item?_eq locale name) _

/-! ### Roots -/

/-- What is read of a root stays the same. -/
theorem Padded.judgeRoot_eq {root padded : Node} (h : Padded .root root padded) (config : Config)
    (locale : String) : judgeRoot config locale padded = judgeRoot config locale root := by
  have hcontexts : (padded.children "context").foldlM (judgeContext locale) [] =
      (root.children "context").foldlM (judgeContext locale) [] := by
    cases h with
    | unread hunread hinserted =>
        rw [children_eq_of_unread hinserted (hunread "context" (by decide))]
    | @inContext _ _ context padded before after hcontext hpadded =>
        have hpadded' := hpadded.isElement_eq "context"
        rw [children_of_inside hcontext, children_of_inside (by rwa [hpadded'])]
        exact foldlM_append_congr (hpadded.judgeContext_eq locale) _
  simp only [judgeRoot, h.attribute?_eq, hcontexts]

/-- What is no part of the user interface is invisible: however many nodes that are not read, and
dismissed messages, come into a document that stays well-formed, the same catalog is read from it,
or the same error. -/
theorem outcome_of_padded (config : Config) (locale : Locale) {bytes padded : ByteArray}
    {root root' : Node} (hroot : rootIn? bytes = some root) (hroot' : rootIn? padded = some root')
    (h : Relation.ReflTransGen (Padded .root) root root') :
    (ofBytes config locale padded).outcome = (ofBytes config locale bytes).outcome := by
  have hjudge : judgeRoot config locale.code root' = judgeRoot config locale.code root := by
    clear hroot'
    induction h with
    | refl => rfl
    | tail _ hpadded ih => exact (hpadded.judgeRoot_eq config locale.code).trans ih
  rw [outcome_ofBytes hroot, outcome_ofBytes hroot', hjudge]

/-! ### A document with look-alikes -/

/-- A root with one context and one message, and what has come into it: before its context, into the
message, and behind the message. -/
def paddedRoot (front inner behind : List Node) : Node :=
  .element "TS" [("version", "2")] <| front ++ [.element "context" [] <|
    [.element "name" [] [.text "A"], .element "message" [] <|
      .element "source" [] [.text "s"] :: inner] ++ behind]

/-- An element that is not read, although a context stands in it. -/
def wrapped : Node := .element "x" [] [.element "context" [] []]

/-- A message with plural forms and the source of a live one. -/
def plural : Node :=
  .element "message" [("numerus", "yes")] [.element "source" [] [.text "s"]]

def plainText : String :=
  "<TS version=\"2\"><context><name>A</name><message><source>s</source></message></context></TS>"

def paddedText : String :=
  "<TS version=\"2\"><x><context/></x><context><name>A</name><message><source>s</source><!--c-->" ++
    "</message><message numerus=\"yes\"><source>s</source></message></context></TS>"

theorem dismissed_plural : Dismissed plural where
  message := rfl
  source := rfl
  dismissed := Or.inl rfl

theorem padded_lookAlikes : Relation.ReflTransGen (Padded .root) (paddedRoot [] [] [])
    (paddedRoot [wrapped] [.comment "c"] [plural]) := by
  have hwrapped : Padded .root (paddedRoot [] [] []) (paddedRoot [wrapped] [] []) :=
    .unread (by decide) (.between wrapped [] _)
  have hcomment :
      Padded .root (paddedRoot [wrapped] [] []) (paddedRoot [wrapped] [.comment "c"] []) :=
    .inContext [wrapped] [] rfl <| .inMessage [.element "name" [] [.text "A"]] [] rfl <|
      .unread (by decide) (.between (.comment "c") [.element "source" [] [.text "s"]] [])
  have hplural : Padded .root (paddedRoot [wrapped] [.comment "c"] [])
      (paddedRoot [wrapped] [.comment "c"] [plural]) :=
    .inContext [wrapped] [] rfl <| .dismissed dismissed_plural <|
      .between plural [.element "name" [] [.text "A"],
        .element "message" [] [.element "source" [] [.text "s"], .comment "c"]] []
  exact ((Relation.ReflTransGen.single hwrapped).tail hcomment).tail hplural

theorem outcome_of_padded_lookAlikes :
    rootIn? plainText.toUTF8 = some (paddedRoot [] [] []) ∧
      rootIn? paddedText.toUTF8 = some (paddedRoot [wrapped] [.comment "c"] [plural]) ∧
      Relation.ReflTransGen (Padded .root) (paddedRoot [] [] [])
        (paddedRoot [wrapped] [.comment "c"] [plural]) ∧
      (ofBytes .standard ⟨"ru_RU", "Русский"⟩ paddedText.toUTF8).outcome =
        (ofBytes .standard ⟨"ru_RU", "Русский"⟩ plainText.toUTF8).outcome := by
  have hplain : rootIn? plainText.toUTF8 = some (paddedRoot [] [] []) := by decide +kernel
  have hpadded : rootIn? paddedText.toUTF8 =
      some (paddedRoot [wrapped] [.comment "c"] [plural]) := by decide +kernel
  exact ⟨hplain, hpadded, padded_lookAlikes,
    outcome_of_padded .standard ⟨"ru_RU", "Русский"⟩ hplain hpadded padded_lookAlikes⟩

end Polyglot.Catalog
