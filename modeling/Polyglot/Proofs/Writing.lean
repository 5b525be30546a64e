import Polyglot.Proofs.Characters
import Polyglot.Proofs.Document
import Polyglot.Proofs.Reading

/-!
Reading what has been written. The document of a catalog is read as the tree that it was meant to
be, indentation included, and from the tree the catalog comes out with its contexts and messages in
the order in which they were written.
-/

namespace Polyglot

open Xml Text Reader

/-! ### The tree of a document -/

/-- The element of a phrase. -/
def phraseNode : String × String → Node
  | (source, translation) =>
    .element "message" [] [.text "\n        ", .element "source" [] (textNodes source),
      .text "\n        ", .element "translation" [] (textNodes translation), .text "\n    "]

/-- The element of a section. -/
def sectionNode (part : Section) : Node :=
  .element "context" [] <| .text "\n    " :: .element "name" [] (textNodes part.name) ::
    ((part.phrases.flatMap fun phrase => [.text "\n    ", phraseNode phrase]) ++ [.text "\n"])

/-- The root of the document of a language. -/
def rootNode (language : String) (parts : List Section) : Node :=
  .element "TS" [("version", "2.1"), ("language", language)]
    ((parts.flatMap fun part => [.text "\n", sectionNode part]) ++ [.text "\n"])

/-! ### The document of a tree -/

/-- The element of a phrase as it is written, without what stands around it. -/
def phraseText : String × String → List Char
  | (source, translation) =>
    openTag "message" [] ++ (Catalog.escaped "\n        " ++ (openTag "source" [] ++
      (Catalog.escaped source ++ (closeTag "source" ++ (Catalog.escaped "\n        " ++
        (openTag "translation" [] ++ (Catalog.escaped translation ++ (closeTag "translation" ++
          (Catalog.escaped "\n    " ++ closeTag "message")))))))))

/-- The element of a section as it is written. Every line break counts to what follows it. -/
def sectionText (part : Section) : List Char :=
  openTag "context" [] ++ (Catalog.escaped "\n    " ++ (openTag "name" [] ++
    (Catalog.escaped part.name ++ (closeTag "name" ++
      ((part.phrases.flatMap fun phrase => Catalog.escaped "\n    " ++ phraseText phrase) ++
        (Catalog.escaped "\n" ++ closeTag "context"))))))

/-- What stands behind the start tag of the root. -/
def rootContent (parts : List Section) : List Char :=
  (parts.flatMap fun part => Catalog.escaped "\n" ++ sectionText part) ++
    (Catalog.escaped "\n" ++ closeTag "TS")

theorem writePhrase_eq (phrase : String × String) :
    Catalog.writePhrase phrase = "    ".toList ++ phraseText phrase ++ ['\n'] := by
  obtain ⟨source, translation⟩ := phrase
  have hbefore : "    <message>\n        <source>".toList = "    ".toList ++
      (openTag "message" [] ++ (Catalog.escaped "\n        " ++ openTag "source" [])) := by
    decide +kernel
  have hbetween : "</source>\n        <translation>".toList = closeTag "source" ++
      (Catalog.escaped "\n        " ++ openTag "translation" []) := by decide +kernel
  have hafter : "</translation>\n    </message>\n".toList = closeTag "translation" ++
      (Catalog.escaped "\n    " ++ (closeTag "message" ++ ['\n'])) := by decide +kernel
  have hpieces : Catalog.writePhrase (source, translation) =
      ("    ".toList ++ (openTag "message" [] ++ (Catalog.escaped "\n        " ++
        openTag "source" []))) ++ Catalog.escaped source ++
      (closeTag "source" ++ (Catalog.escaped "\n        " ++ openTag "translation" [])) ++
        Catalog.escaped translation ++
      (closeTag "translation" ++ (Catalog.escaped "\n    " ++ (closeTag "message" ++ ['\n']))) := by
    rw [← hbefore, ← hbetween, ← hafter]
    rfl
  rw [hpieces, phraseText]
  simp only [List.append_assoc]

/-- A line break after every item is one before every item, and one at the end. -/
theorem flatMap_lines {α : Type} (write : α → List Char) (items : List α) (rest : List Char) :
    '\n' :: ((items.flatMap fun item => write item ++ ['\n']) ++ rest) =
      (items.flatMap fun item => '\n' :: write item) ++ '\n' :: rest := by
  induction items with
  | nil => rfl
  | cons item others ih =>
      rw [List.flatMap_cons, List.flatMap_cons, List.cons_append, List.cons_append,
        List.append_assoc, List.append_assoc, List.append_assoc, List.singleton_append, ih]

theorem writeSection_eq (part : Section) :
    Catalog.writeSection part = sectionText part ++ ['\n'] := by
  have hpieces : Catalog.writeSection part =
      (openTag "context" [] ++ (Catalog.escaped "\n    " ++ openTag "name" [])) ++
        Catalog.escaped part.name ++ (closeTag "name" ++ ['\n']) ++
        part.phrases.flatMap Catalog.writePhrase ++ (closeTag "context" ++ ['\n']) :=
    rfl
  have hwrite : Catalog.writePhrase = fun phrase => "    ".toList ++ phraseText phrase ++ ['\n'] :=
    funext writePhrase_eq
  have hlines := flatMap_lines (fun phrase => "    ".toList ++ phraseText phrase) part.phrases
    (closeTag "context" ++ ['\n'])
  have hindented :
      (part.phrases.flatMap fun phrase => '\n' :: ("    ".toList ++ phraseText phrase)) =
        part.phrases.flatMap fun phrase => Catalog.escaped "\n    " ++ phraseText phrase := rfl
  rw [hindented] at hlines
  rw [hpieces, hwrite, sectionText]
  simp only [List.append_assoc, List.cons_append, List.nil_append] at hlines ⊢
  rw [hlines]
  rfl

theorem write_eq (language : String) (parts : List Section) :
    Catalog.write language parts = String.ofList (utf8Declaration ++ (emptyDoctype ++
      (openTag "TS" [("version", "2.1"), ("language", language)] ++ rootContent parts))) := by
  have hwrite : Catalog.writeSection = fun part => sectionText part ++ ['\n'] :=
    funext writeSection_eq
  have hlines := flatMap_lines sectionText parts (closeTag "TS")
  have hopening : Catalog.opening.toList =
      utf8Declaration ++ (emptyDoctype ++ "<TS version=\"2.1\" language=\"".toList) := by
    decide +kernel
  have hquote : "\">\n".toList = "\">".toList ++ ['\n'] := rfl
  have hclose : "</TS>".toList = closeTag "TS" := rfl
  have hpieces : Catalog.write language parts = String.ofList
      ((utf8Declaration ++ (emptyDoctype ++ "<TS version=\"2.1\" language=\"".toList)) ++
        language.toList ++ ("\">".toList ++ ['\n']) ++ parts.flatMap Catalog.writeSection ++
        closeTag "TS") := by
    rw [← hopening, ← hclose, ← hquote]
    rfl
  have htag : openTag "TS" [("version", "2.1"), ("language", language)] =
      "<TS version=\"2.1\" language=\"".toList ++ (language.toList ++ "\">".toList) := by
    simp [openTag, writeAttribute]
  refine hpieces.trans (congrArg String.ofList ?_)
  rw [hwrite, htag, rootContent]
  simp only [List.append_assoc, List.cons_append, List.nil_append] at hlines ⊢
  rw [hlines]
  rfl

/-! ### The tree comes out of the document -/

variable {references : References} {frame : Frame} {outer : List Frame} {rest : List Char}

theorem reaches_phrase (phrase : String × String) (hdepth : outer.length + 2 < Growth.maxDepth) :
    Reaches references (.within frame outer) (phraseText phrase ++ rest)
      (.within { frame with content := phraseNode phrase :: frame.content } outer) rest := by
  obtain ⟨source, translation⟩ := phrase
  have hlonger : (frame :: outer).length + 1 < Growth.maxDepth := hdepth
  have hinner : Reaches references (.within (.plain "message" [] frame.scope) (frame :: outer))
      (Catalog.escaped "\n        " ++ (openTag "source" [] ++ (Catalog.escaped source ++
        (closeTag "source" ++ (Catalog.escaped "\n        " ++ (openTag "translation" [] ++
          (Catalog.escaped translation ++ (closeTag "translation" ++
            (Catalog.escaped "\n    " ++ (closeTag "message" ++ rest))))))))))
      (.within (.plain "message" [.text "\n    ", .element "translation" [] (textNodes translation),
        .text "\n        ", .element "source" [] (textNodes source), .text "\n        "]
          frame.scope)
        (frame :: outer)) (closeTag "message" ++ rest) := by
    refine (Reaches.run (by decide) (by simp [Frame.plain]) _).trans ?_
    refine (Reaches.leaf (by decide) hlonger source).trans ?_
    refine (Reaches.run (by decide) (by simp) _).trans ?_
    refine (Reaches.leaf (by decide) hlonger translation).trans ?_
    exact Reaches.run (by decide) (by simp) _
  have helement := @Reaches.element references rest frame outer "message" (by decide) (by omega)
    (Catalog.escaped "\n        " ++ (openTag "source" [] ++ (Catalog.escaped source ++
      (closeTag "source" ++ (Catalog.escaped "\n        " ++ (openTag "translation" [] ++
        (Catalog.escaped translation ++ (closeTag "translation" ++ Catalog.escaped "\n    "))))))))
    _ (by simpa only [List.append_assoc] using hinner)
  simp only [phraseText, List.append_assoc] at helement ⊢
  exact helement

theorem reaches_section (part : Section) (hdepth : outer.length + 3 < Growth.maxDepth) :
    Reaches references (.within frame outer) (sectionText part ++ rest)
      (.within { frame with content := sectionNode part :: frame.content } outer) rest := by
  have hinner : Reaches references (.within (.plain "context" [] frame.scope) (frame :: outer))
      (Catalog.escaped "\n    " ++ (openTag "name" [] ++ (Catalog.escaped part.name ++
        (closeTag "name" ++
          ((part.phrases.flatMap fun phrase => Catalog.escaped "\n    " ++ phraseText phrase) ++
            (Catalog.escaped "\n" ++ (closeTag "context" ++ rest)))))))
      (.within (.plain "context" (.text "\n" ::
        ((part.phrases.flatMap fun phrase => [.text "\n    ", phraseNode phrase]).reverse ++
          [.element "name" [] (textNodes part.name), .text "\n    "])) frame.scope)
        (frame :: outer)) (closeTag "context" ++ rest) := by
    refine (Reaches.run (by decide) (by simp [Frame.plain]) _).trans ?_
    refine (Reaches.leaf (by decide) (by simp; omega) part.name).trans ?_
    exact Reaches.lines (by decide) (by decide) (fun phrase => ⟨_, rfl⟩)
      (fun phrase before h => by cases h)
      (fun phrase _ frame rest => reaches_phrase phrase (by simp only [List.length_cons]; omega))
      (by simp) _
  have helement := @Reaches.element references rest frame outer "context" (by decide) (by omega)
    (Catalog.escaped "\n    " ++ (openTag "name" [] ++ (Catalog.escaped part.name ++
      (closeTag "name" ++
        ((part.phrases.flatMap fun phrase => Catalog.escaped "\n    " ++ phraseText phrase) ++
          Catalog.escaped "\n")))))
    _ (by simpa only [List.append_assoc] using hinner)
  simp only [sectionText, List.append_assoc] at helement ⊢
  simp only [sectionNode, List.reverse_cons, List.reverse_append, List.reverse_reverse,
    List.reverse_nil, List.nil_append, List.cons_append] at helement ⊢
  exact helement

/-- The start tag of a root opens its frame. -/
theorem reaches_root (references : References) {version language : String}
    (hversion : isPlainValue version.toList = true)
    (hlanguage : isPlainValue language.toList = true) (rest : List Char) :
    Reaches references .bare (openTag "TS" [("version", version), ("language", language)] ++ rest)
      (.within ⟨{ base := "TS" },
        [("version", version), ("language", language)].map plainAttribute, [], Scope.initial⟩ [])
      rest := by
  have hplain : ∀ pair ∈ [("version", version), ("language", language)],
      isPlainAttribute pair = true := by
    intro pair hpair
    rcases List.mem_cons.mp hpair with rfl | hpair
    · rw [isPlainAttribute, hversion]
      rfl
    · rw [List.mem_singleton.mp hpair, isPlainAttribute, hlanguage]
      rfl
  refine Reaches.event (read_openTag references (by decide) hplain _) ?_ (by simp) ?_
  · exact start_of_admits rfl (by decide) rfl
  · simp only [openTag, List.length_append, List.length_cons]
    omega

/-- A root alone, with a version and a language. -/
def bareNode (version language : String) : Node :=
  .element "TS" [("version", version), ("language", language)] []

theorem readRoot_bare (references : References) {version language : String}
    (hversion : isPlainValue version.toList = true)
    (hlanguage : isPlainValue language.toList = true) :
    Document.readRoot references (openTag "TS" [("version", version), ("language", language)] ++
      closeTag "TS") = some (bareNode version language, []) := by
  have hstop := read_closeTag references (show isPlainName "TS".toList = true by decide) []
  rw [List.append_nil] at hstop
  refine (reaches_root references hversion hlanguage _).readRoot hstop ?_
  rw [Growth.step, if_pos rfl]
  rfl

theorem readRoot_written (references : References) {language : String}
    (hlanguage : isPlainValue language.toList = true) (parts : List Section) (rest : List Char) :
    Document.readRoot references (openTag "TS" [("version", "2.1"), ("language", language)] ++
      (rootContent parts ++ rest)) = some (rootNode language parts, rest) := by
  let pairs := [("version", "2.1"), ("language", language)]
  let root : Frame := ⟨{ base := "TS" }, pairs.map plainAttribute, [], Scope.initial⟩
  have hopen : Reaches references .bare (openTag "TS" pairs ++ (rootContent parts ++ rest))
      (.within root []) (rootContent parts ++ rest) :=
    reaches_root references (by decide) hlanguage _
  have hlines := @Reaches.lines references root [] Section parts "\n" "\n" (by decide) (by decide)
    sectionText sectionNode (fun part => ⟨_, rfl⟩) (fun part before h => by cases h)
    (fun part _ frame rest => reaches_section part (by decide)) (by simp [root])
    ('/' :: ("TS".toList ++ '>' :: rest))
  have hcontent : rootContent parts ++ rest =
      (parts.flatMap fun part => Catalog.escaped "\n" ++ sectionText part) ++
        (Catalog.escaped "\n" ++ '<' :: '/' :: ("TS".toList ++ '>' :: rest)) := by
    rw [rootContent, List.append_assoc, List.append_assoc]
    rfl
  have hstop := read_closeTag references (show isPlainName "TS".toList = true by decide) rest
  rw [hcontent] at hopen
  rw [hcontent]
  refine (hopen.trans hlines).readRoot hstop ?_
  have hclose : Frame.close { root with content := .text "\n" ::
      ((parts.flatMap fun part => [.text "\n", sectionNode part]).reverse ++ root.content) } =
      rootNode language parts := by
    simp only [Frame.close, root, rootNode, List.append_nil, List.reverse_cons,
      List.reverse_reverse]
    rfl
  rw [Growth.step, if_pos rfl, hclose]
  rfl

end Polyglot
