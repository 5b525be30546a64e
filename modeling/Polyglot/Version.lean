import Polyglot.Text.Blank
import Polyglot.Text.Numeral
import Polyglot.Text.Quoted

/-!
Versions of the catalog schema. A version has an epoch, a release of one or more numbers, and
optional pre-release, post-release, development and local parts; `1!2.0rc1.post2.dev3+build.4` has
all of them. Its numbers are converted once the whole version has been read, from the left to the
right. Versions are ordered: development and pre-releases come before the release they lead to,
post-releases after it, and local versions after the public version that they extend.
-/

namespace Polyglot

inductive Stage where
  | alpha
  | beta
  | candidate
  deriving DecidableEq, Repr

def Stage.rank : Stage → Nat
  | .alpha => 0
  | .beta => 1
  | .candidate => 2

inductive SegmentOf (ν : Type) where
  | word (text : String)
  | number (value : ν)
  deriving DecidableEq, Repr

/-- A version with numbers of a type. The parts after the release may be missing. -/
structure VersionOf (ν : Type) where
  epoch : ν
  release : List ν
  pre : Option (Stage × ν)
  post : Option ν
  dev : Option ν
  build : Option (List (SegmentOf ν))
  deriving DecidableEq, Repr

abbrev Segment := SegmentOf Nat

abbrev Version := VersionOf Nat

section Numbers

variable {μ ν : Type}

def SegmentOf.map (convert : μ → ν) : SegmentOf μ → SegmentOf ν
  | .word text => .word text
  | .number value => .number (convert value)

def SegmentOf.number? : SegmentOf ν → Option ν
  | .word _ => none
  | .number value => some value

def VersionOf.map (convert : μ → ν) (version : VersionOf μ) : VersionOf ν where
  epoch := convert version.epoch
  release := version.release.map convert
  pre := version.pre.map fun (stage, number) => (stage, convert number)
  post := version.post.map convert
  dev := version.dev.map convert
  build := version.build.map (·.map (·.map convert))

/-- The numbers of a version, from the left to the right. -/
def VersionOf.numbers (version : VersionOf ν) : List ν :=
  version.epoch :: version.release ++ (version.pre.map (·.2)).toList ++ version.post.toList ++
    version.dev.toList ++ (version.build.getD []).filterMap SegmentOf.number?

end Numbers

/-- What keeps a text from being a version. -/
inductive VersionFault where
  | malformed (text : String)
  /-- A number has more digits than are converted. -/
  | oversized (digits : Nat)
  deriving DecidableEq, Repr

def VersionFault.message : VersionFault → String
  | .malformed text => "Invalid version: " ++ quoted text
  | .oversized digits => Numeral.oversizedMessage digits

namespace Version

/-! ### Reading -/

def number? (text : List Char) : Option (Numeral × List Char) :=
  match text.takeWhile Char.isDigit with
  | [] => none
  | digits => some (digits, text.dropWhile Char.isDigit)

def isSeparator (c : Char) : Bool := c == '.' || c == '-' || c == '_'

def skipSeparator : List Char → List Char
  | c :: rest => if isSeparator c then rest else c :: rest
  | [] => []

/-- Passes over the letter that may stand in front of a version. -/
def skipLetter : List Char → List Char
  | 'v' :: rest => rest
  | text => text

def readEpoch (text : List Char) : Numeral × List Char :=
  match number? text with
  | some (epoch, '!' :: rest) => (epoch, rest)
  | _ => ([], text)

/-- Reads further numbers of a release, each after a dot. -/
def readNumbers : Nat → List Char → List Numeral × List Char
  | fuel + 1, '.' :: text =>
    match number? text with
    | some (number, rest) =>
      let (numbers, rest') := readNumbers fuel rest
      (number :: numbers, rest')
    | none => ([], '.' :: text)
  | _, text => ([], text)

def readRelease? (text : List Char) : Option (List Numeral × List Char) :=
  match number? text with
  | some (first, rest) =>
    let (numbers, rest') := readNumbers rest.length rest
    some (first :: numbers, rest')
  | none => none

/-- Takes the first of the given words that the text starts with. -/
def readWord? {α : Type} : List (String × α) → List Char → Option (α × List Char)
  | [], _ => none
  | (word, value) :: words, text =>
    if word.toList.isPrefixOf text then some (value, text.drop word.length)
    else readWord? words text

/-- Reads a part that a word announces: the word, and a number that is zero when it is left out. A
separator may stand before either. -/
def readPart {α : Type} (words : List (String × α)) (text : List Char) :
    Option (α × Numeral) × List Char :=
  match readWord? words (skipSeparator text) with
  | none => (none, text)
  | some (value, rest) =>
    let rest := skipSeparator rest
    match number? rest with
    | some (number, rest') => (some (value, number), rest')
    | none => (some (value, []), rest)

def stageWords : List (String × Stage) := [
  ("alpha", .alpha), ("a", .alpha), ("beta", .beta), ("b", .beta), ("preview", .candidate),
  ("pre", .candidate), ("c", .candidate), ("rc", .candidate)]

def postWords : List (String × Unit) := [("post", ()), ("rev", ()), ("r", ())]

def devWords : List (String × Unit) := [("dev", ())]

/-- Reads the post-release: a hyphen and a number, or an announced part. -/
def readPost (text : List Char) : Option Numeral × List Char :=
  let announced :=
    let (part, rest) := readPart postWords text
    (part.map (·.2), rest)
  match text with
  | '-' :: tail =>
    match number? tail with
    | some (number, rest) => (some number, rest)
    | none => announced
  | _ => announced

def isLocal (c : Char) : Bool := c.isDigit || c.isLower

/-- A segment is a number if it holds digits only. -/
def segmentOf (chars : List Char) : SegmentOf Numeral :=
  if chars.all Char.isDigit then .number chars else .word (String.ofList chars)

/-- Reads the segments of the local part up to the end of the text. -/
def readSegments? : Nat → List Char → Option (List (SegmentOf Numeral))
  | 0, _ => none
  | fuel + 1, text =>
    match text.takeWhile isLocal, text.dropWhile isLocal with
    | [], _ => none
    | segment, [] => some [segmentOf segment]
    | segment, c :: rest =>
      if isSeparator c then (readSegments? fuel rest).map (segmentOf segment :: ·) else none

/-- Reads what follows the public version: nothing, or a plus sign and the local part. -/
def readBuild? : List Char → Option (Option (List (SegmentOf Numeral)))
  | [] => some none
  | '+' :: rest => (readSegments? (rest.length + 1) rest).map some
  | _ => none

/-- Reads a version as it is written. Letters count the same in either case, and white space around
it is free. -/
def read? (text : String) : Option (VersionOf Numeral) := do
  let text := (Text.trim text.toList).map Char.toLower
  let (epoch, text) := readEpoch (skipLetter text)
  let (release, text) ← readRelease? text
  let (pre, text) := readPart stageWords text
  let (post, text) := readPost text
  let (dev, text) := readPart devWords text
  let build ← readBuild? text
  return { epoch, release, pre, post, dev := dev.map (·.2), build }

/-! ### Conversion -/

def numberOf (numeral : Numeral) : Nat :=
  numeral.foldl (fun value c => value * 10 + (c.toNat - '0'.toNat)) 0

/-- The version that has been read, if there are not too many digits in one of its numbers. -/
def convert (written : VersionOf Numeral) : Except VersionFault Version :=
  match written.numbers.find? Numeral.isOversized with
  | some numeral => .error (.oversized numeral.length)
  | none => .ok (written.map numberOf)

def parse (text : String) : Except VersionFault Version :=
  match read? text with
  | none => .error (.malformed text)
  | some written => convert written

/-- The version that a text is, if it is one. -/
def parse? (text : String) : Option Version := (parse text).toOption

/-! ### Order -/

/-- Lexicographic order of lists, a proper front part first. -/
def compareLists {α : Type} (compareItems : α → α → Ordering) : List α → List α → Ordering
  | [], [] => .eq
  | [], _ :: _ => .lt
  | _ :: _, [] => .gt
  | a :: as, b :: bs => (compareItems a b).then (compareLists compareItems as bs)

/-- The release without its trailing zeros, which do not count. -/
def significant (version : Version) : List Nat :=
  (version.release.reverse.dropWhile (· == 0)).reverse

/-- Place of a version among those of its release: a development release that is neither a pre- nor
a post-release stands before the pre-releases, everything that is no pre-release after them. -/
def phase (version : Version) : Nat × Nat :=
  match version.pre, version.post, version.dev with
  | some (stage, number), _, _ => (1 + stage.rank, number)
  | none, none, some _ => (0, 0)
  | none, _, _ => (4, 0)

/-- A missing post-release comes before all others. -/
def postKey (version : Version) : Nat := version.post.elim 0 (· + 1)

/-- A missing development part comes after all others. -/
def devKey (version : Version) : Nat × Nat := version.dev.elim (1, 0) (0, ·)

/-- Words come before numbers. -/
def compareSegments : Segment → Segment → Ordering
  | .word a, .word b => compareLists (fun x y => Ord.compare x.toNat y.toNat) a.toList b.toList
  | .word _, .number _ => .lt
  | .number _, .word _ => .gt
  | .number a, .number b => Ord.compare a b

/-- A missing local part comes before all others. -/
def compareBuilds : Option (List Segment) → Option (List Segment) → Ordering
  | none, none => .eq
  | none, some _ => .lt
  | some _, none => .gt
  | some a, some b => compareLists compareSegments a b

def comparePairs (a b : Nat × Nat) : Ordering :=
  (Ord.compare a.1 b.1).then (Ord.compare a.2 b.2)

/-- The order of versions: epoch, release, then pre-release, post-release, development and local
part. -/
def order (a b : Version) : Ordering :=
  (Ord.compare a.epoch b.epoch).then <|
  (compareLists Ord.compare a.significant b.significant).then <|
  (comparePairs a.phase b.phase).then <|
  (Ord.compare a.postKey b.postKey).then <|
  (comparePairs a.devKey b.devKey).then <|
  compareBuilds a.build b.build

def before (a b : Version) : Bool := order a b == .lt

def major (version : Version) : Nat := version.release.headD 0

end Version
end Polyglot
