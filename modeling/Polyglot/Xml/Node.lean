import Polyglot.Xml.Event

/-!
Trees of XML. A tree grows from events: a start tag opens an element inside the one that is open, an
end tag closes it, and text next to text is one run. Growing checks what a single event cannot
show: that tags match, that elements are not nested too deep, and that qualified names have a
meaning.
-/

namespace Polyglot.Xml

/-- A tree. An element has the name without its qualifier, and its attributes under the names that
are written. -/
inductive Node where
  | element (name : String) (attributes : List (String × String)) (content : List Node)
  | text (run : String)
  | comment (body : String)
  | instruction (target body : String)
  deriving Inhabited

namespace Node

/-! ### Comparing -/

mutual

def decEq : (first second : Node) → Decidable (first = second)
  | .element name attributes content, .element name' attributes' content' =>
    match decEqs content content' with
    | .isTrue h => decidable_of_iff (name = name' ∧ attributes = attributes') (by simp [h])
    | .isFalse h => .isFalse (by simp [h])
  | .text run, .text run' => decidable_of_iff (run = run') (by simp)
  | .comment body, .comment body' => decidable_of_iff (body = body') (by simp)
  | .instruction target body, .instruction target' body' =>
    decidable_of_iff (target = target' ∧ body = body') (by simp)
  | .element .., .text _ | .element .., .comment _ | .element .., .instruction .. => .isFalse nofun
  | .text _, .element .. | .text _, .comment _ | .text _, .instruction .. => .isFalse nofun
  | .comment _, .element .. | .comment _, .text _ | .comment _, .instruction .. => .isFalse nofun
  | .instruction .., .element .. | .instruction .., .text _ => .isFalse nofun
  | .instruction .., .comment _ => .isFalse nofun

def decEqs : (first second : List Node) → Decidable (first = second)
  | [], [] => .isTrue rfl
  | node :: rest, node' :: rest' =>
    match decEq node node', decEqs rest rest' with
    | .isTrue h, .isTrue h' => .isTrue (by rw [h, h'])
    | .isFalse h, _ => .isFalse (by simp [h])
    | _, .isFalse h => .isFalse (by simp [h])
  | [], _ :: _ | _ :: _, [] => .isFalse nofun

end

instance : DecidableEq Node := decEq

end Node

/-! ### Qualified names -/

/-- The namespaces that prefixes stand for, the innermost binding first. -/
abbrev Scope := List (String × String)

namespace Scope

def xmlSpace : String := "http://www.w3.org/XML/1998/namespace"

def bindingSpace : String := "http://www.w3.org/2000/xmlns/"

/-- At the root only the prefix `xml` is bound. -/
def initial : Scope := [("xml", xmlSpace)]

/-- The characters of a reference to a resource, apart from percent escapes. -/
def isReferenceCharacter (c : Char) : Bool :=
  c.isAlphanum || "-._~:/?#[]@!$&'()*+,;=".toList.contains c

/-- A percent sign escapes two hexadecimal digits. -/
def isReference : List Char → Bool
  | '%' :: a :: b :: rest => Event.isHexDigit a && Event.isHexDigit b && isReference rest
  | c :: rest => isReferenceCharacter c && isReference rest
  | [] => true

/-- A declaration of the namespace of unqualified names is admissible. -/
def isDefault (space : String) : Bool :=
  space != xmlSpace && space != bindingSpace && isReference space.toList

/-- A declaration of the namespace of a prefix is admissible. -/
def isBinding (word space : String) : Bool :=
  if word = "xml" then space == xmlSpace
  else word != "xmlns" && space != "" && isDefault space

/-- Adds the bindings of a start tag, if all its declarations are admissible. -/
def extend? (scope : Scope) : List Attribute → Option Scope
  | [] => some scope
  | first :: rest =>
    if first.name.qualifier = "xmlns" then
      if isBinding first.name.base first.value then
        (extend? scope rest).map ((first.name.base, first.value) :: ·)
      else none
    else if first.name = { base := "xmlns" } then
      if isDefault first.value then extend? scope rest else none
    else extend? scope rest

/-- The namespace and base of a name; an unqualified attribute is in no namespace. -/
def resolve? (scope : Scope) (name : Name) : Option (String × String) :=
  if name.qualifier = "" then some ("", name.base)
  else if name.qualifier = "xmlns" then some (bindingSpace, name.base)
  else (scope.lookup name.qualifier).map (·, name.base)

/-- No two attributes have the same name, written or resolved, and every prefix is bound. -/
def admits (scope : Scope) (name : Name) (attributes : List Attribute) : Bool :=
  name.qualifier != "xmlns" && (scope.resolve? name).isSome &&
  decide (attributes.map (·.name)).Nodup &&
  match attributes.mapM fun a => scope.resolve? a.name with
  | some resolved => decide resolved.Nodup
  | none => false

end Scope

/-! ### Growing -/

/-- An element that is open: its tag, what it contains so far, newest first, and the bindings inside
it. -/
structure Frame where
  tag : Name
  attributes : List Attribute
  content : List Node
  scope : Scope

namespace Frame

def attributePairs (attributes : List Attribute) : List (String × String) :=
  attributes.map fun a => (a.name.written, a.value)

def close (frame : Frame) : Node :=
  .element frame.tag.base (attributePairs frame.attributes) frame.content.reverse

/-- Puts a node at the end of the content; text joins text before it. -/
def add (node : Node) (frame : Frame) : Frame :=
  match node, frame.content with
  | .text run, .text before :: content => { frame with content := .text (before ++ run) :: content }
  | node, content => { frame with content := node :: content }

end Frame

/-- A tree that is growing: nothing is open yet, some elements are, or the root is closed. -/
inductive Growth where
  | bare
  | within (frame : Frame) (outer : List Frame)
  | closed (root : Node)

namespace Growth

/-- The greatest number of elements that may be nested, the root included. -/
def maxDepth : Nat := 256

def outerFrames : Growth → List Frame
  | .within frame outer => frame :: outer
  | _ => []

def scope : Growth → Scope
  | .within frame _ => frame.scope
  | _ => Scope.initial

def put (node : Node) : List Frame → Growth
  | frame :: outer => .within (frame.add node) outer
  | [] => .closed node

/-- Opens an element, or puts it whole if its tag is closed. -/
def start (growth : Growth) (name : Name) (attributes : List Attribute) (whole : Bool) :
    Option Growth := do
  let frames := growth.outerFrames
  let scope ← growth.scope.extend? attributes
  guard (frames.length < maxDepth && scope.admits name attributes)
  let frame : Frame := { tag := name, attributes, content := [], scope }
  return if whole then put frame.close frames else .within frame frames

/-- Takes up one event, unless it does not fit. -/
def step (growth : Growth) (event : Event) : Option Growth :=
  match growth, event with
  | .closed _, _ => none
  | growth, .start name attributes whole => growth.start name attributes whole
  | .bare, _ => none
  | .within frame outer, .stop name =>
    if frame.tag = name then some (put frame.close outer) else none
  | .within frame outer, .text run => some (put (.text run) (frame :: outer))
  | .within frame outer, .comment body => some (put (.comment body) (frame :: outer))
  | .within frame outer, .instruction target body =>
    some (put (.instruction target body) (frame :: outer))

end Growth

/-! ### Looking into a tree -/

namespace Node

def isElement (name : String) : Node → Bool
  | .element name' _ _ => name' == name
  | _ => false

def content : Node → List Node
  | .element _ _ content => content
  | _ => []

def attribute? (name : String) : Node → Option String
  | .element _ attributes _ => attributes.lookup name
  | _ => none

def children (name : String) (node : Node) : List Node := node.content.filter (isElement name)

def child? (name : String) (node : Node) : Option Node := node.content.find? (isElement name)

/-- The white space that a run of text may consist of. -/
def isBlankCharacter (c : Char) : Bool :=
  c == ' ' || c == '\t' || c == '\n' || c == '\x0c' || c == '\r'

/-- A run of white space counts as one line break or one space. -/
def collapse (run : String) : String :=
  if run.toList.all isBlankCharacter then
    if run.toList.contains '\n' then "\n" else " "
  else run

mutual

def innerText : Node → String
  | .element _ _ content => innerTexts content
  | .text run => collapse run
  | .comment _ => ""
  | .instruction _ _ => ""

def innerTexts : List Node → String
  | [] => ""
  | node :: rest => innerText node ++ innerTexts rest

end

mutual

/-- The first element of a name in document order, the node itself included. -/
def find? (name : String) : Node → Option Node
  | .element name' attributes content =>
    if name' = name then some (.element name' attributes content) else findIn? name content
  | _ => none

def findIn? (name : String) : List Node → Option Node
  | [] => none
  | node :: rest =>
    match find? name node with
    | some found => some found
    | none => findIn? name rest

end

end Node
end Polyglot.Xml
