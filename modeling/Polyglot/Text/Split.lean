/-!
Splitting a text at a mark. The parts are everything between the marks, so there is one more of them
than there are marks.
-/

namespace Polyglot.Text

def split (mark : Char) : List Char → List (List Char)
  | [] => [[]]
  | c :: rest =>
    if c = mark then [] :: split mark rest
    else
      match split mark rest with
      | part :: parts => (c :: part) :: parts
      | [] => [[c]]

end Polyglot.Text
