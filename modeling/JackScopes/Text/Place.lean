/-!
# Places in a text

A position counted in bytes of the text's UTF-8 form, as a line and a column.
Lines count from one; the column is the number of bytes since the last line
feed.
-/

namespace JackScopes.Text

structure Place where
  line : Nat := 1
  column : Nat := 0
  deriving DecidableEq

def utf8 (cs : List Char) : List UInt8 :=
  cs.flatMap String.utf8EncodeChar

def utf8Size : List Char → Nat
  | [] => 0
  | c :: cs => c.utf8Size + utf8Size cs

theorem length_utf8 (cs : List Char) : (utf8 cs).length = utf8Size cs := by
  induction cs with
  | nil => rfl
  | cons c cs ih => simpa [utf8, utf8Size] using ih

theorem utf8Size_append (cs ds : List Char) :
    utf8Size (cs ++ ds) = utf8Size cs + utf8Size ds := by
  induction cs with
  | nil => simp [utf8Size]
  | cons c cs ih => simp [utf8Size, ih, Nat.add_assoc]

def Place.pass (place : Place) (byte : UInt8) : Place :=
  if byte = 10 then ⟨place.line + 1, 0⟩ else { place with column := place.column + 1 }

def Place.after (bytes : List UInt8) : Place :=
  bytes.foldl Place.pass {}

def Place.text (place : Place) : String :=
  "line " ++ toString place.line ++ " column " ++ toString place.column

end JackScopes.Text
