/-!
# Letters

Comparison of words without regard to the case of ASCII letters, and the words
that may name a declared thing. Letters outside ASCII have no case here, and
are in no identifier.
-/

namespace JackScopes.Text

/-- Whether two words agree up to the case of their ASCII letters. -/
def sameLetters (s t : String) : Bool :=
  s.toList.map Char.toLower == t.toList.map Char.toLower

def startsIdentifier (c : Char) : Bool :=
  c.isAlpha || c == '_'

def continuesIdentifier (c : Char) : Bool :=
  c.isAlphanum || c == '_'

def isIdentifier : List Char → Bool
  | [] => false
  | c :: cs => startsIdentifier c && cs.all continuesIdentifier

end JackScopes.Text
