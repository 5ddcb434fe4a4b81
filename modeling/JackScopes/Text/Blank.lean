/-!
# Blanks

The characters with the Unicode property `White_Space`, and what a text is
without them: trimmed at both ends, or cut after its first word.
-/

namespace JackScopes.Text

/-- The 25 characters of the property `White_Space`. -/
def isBlank (c : Char) : Bool :=
  let n := c.toNat
  (0x09 ≤ n && n ≤ 0x0d) || n == 0x20 || n == 0x85 || n == 0xa0 || n == 0x1680 ||
    (0x2000 ≤ n && n ≤ 0x200a) || n == 0x2028 || n == 0x2029 || n == 0x202f ||
    n == 0x205f || n == 0x3000

def trimLeft (cs : List Char) : List Char :=
  cs.dropWhile isBlank

def trimRight (cs : List Char) : List Char :=
  (cs.reverse.dropWhile isBlank).reverse

def trim (cs : List Char) : List Char :=
  trimRight (trimLeft cs)

def firstWord (cs : List Char) : List Char :=
  cs.takeWhile (!isBlank ·)

/-- What follows the first word, trimmed. -/
def afterWord (cs : List Char) : List Char :=
  trim (cs.dropWhile (!isBlank ·))

theorem firstWord_append_dropWhile (cs : List Char) :
    firstWord cs ++ cs.dropWhile (!isBlank ·) = cs :=
  List.takeWhile_append_dropWhile

end JackScopes.Text
