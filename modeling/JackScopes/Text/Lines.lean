/-!
# Lines

A text as its lines, and a line without its comment. A line ends at a line
feed; a carriage return right before it belongs to the ending. The last line
needs no ending, and an ending at the very end starts no further line.
-/

namespace JackScopes.Text

def extendFirst (c : Char) : List (List Char) → List (List Char)
  | [] => [[c]]
  | l :: ls => (c :: l) :: ls

def lines : List Char → List (List Char)
  | [] => []
  | '\n' :: cs => [] :: lines cs
  | '\r' :: '\n' :: cs => [] :: lines cs
  | c :: cs => extendFirst c (lines cs)

/-- What stands before the first pair of slashes. -/
def withoutComment : List Char → List Char
  | [] => []
  | '/' :: '/' :: _ => []
  | c :: cs => c :: withoutComment cs

end JackScopes.Text
