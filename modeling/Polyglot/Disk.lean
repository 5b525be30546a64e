import Polyglot.Text.Quoted
import Polyglot.Text.Split
import Polyglot.Table

/-!
Files and directories by their path. Reading a file is the only thing that can fail.
-/

namespace Polyglot

inductive Entry where
  | file (bytes : ByteArray)
  | directory
  deriving Inhabited

inductive ReadError where
  | missing
  | isDirectory
  deriving DecidableEq, Repr

def ReadError.message (path : String) : ReadError → String
  | .missing => "[Errno 2] No such file or directory: " ++ quoted path
  | .isDirectory => "[Errno 21] Is a directory: " ++ quoted path

/-- The path of a name in a directory; the empty name is the directory itself. -/
def joinPath (directory name : String) : String :=
  if name = "" then directory else directory ++ "/" ++ name

/-- The parts of a path between slashes, without those that lead nowhere. -/
def pathParts (path : List Char) : List (List Char) :=
  (Text.split '/' path).filter fun part => !part.isEmpty && part != ['.']

/-- A path without what does not count: repeated slashes, a slash at the end, and dots that stand
for the directory itself. Exactly two slashes in front are kept. The empty path is a dot. -/
def normalizePath (path : String) : String :=
  let text := path.toList
  let slashes := text.takeWhile (· == '/')
  let root := if slashes.length = 2 then slashes else slashes.take 1
  match root ++ ['/'].intercalate (pathParts text) with
  | [] => "."
  | normal => String.ofList normal

abbrev Disk := Table Entry

namespace Disk

def exists? (disk : Disk) (path : String) : Bool := disk.contains path

def read (disk : Disk) (path : String) : Except ReadError ByteArray :=
  match disk.get? path with
  | some (.file bytes) => .ok bytes
  | some .directory => .error .isDirectory
  | none => .error .missing

/-- The name of a path that lies directly in a directory. -/
def nameIn? (directory path : String) : Option String :=
  let front := directory.toList ++ ['/']
  let name := path.toList.drop front.length
  if front.isPrefixOf path.toList ∧ !name.isEmpty ∧ !name.contains '/' then
    some (String.ofList name)
  else none

/-- The names in a directory, in ascending order. -/
def names (disk : Disk) (directory : String) : List String :=
  (disk.keys.filterMap (nameIn? directory)).mergeSort fun a b => !(b < a)

end Disk
end Polyglot
