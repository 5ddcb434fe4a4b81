import JackScopes.Text.Place
import JackScopes.Text.Quoted

/-!
# Misreadings

Why a JSON text was refused and where: the cause with its wording, and a
position in bytes. The position counts what was read and, where the next byte
is to blame, that byte as well.
-/

namespace JackScopes.Json

/-- A value that stands where another kind of value was wanted. -/
inductive Found
  | null
  | boolean (b : Bool)
  | integer (n : Int)
  /-- A number that is no integer, as text. -/
  | float (text : String)
  | string (s : String)
  | sequence
  | map
  deriving DecidableEq

inductive Cause
  | endInValue
  | endInList
  | endInObject
  | endInString
  | expectedColon
  | expectedListEnd
  | expectedObjectEnd
  | trailingComma
  | trailingCharacters
  | keyNotString
  | expectedValue
  /-- A wrong letter in one of the words `null`, `true` and `false`. -/
  | expectedWord
  | invalidNumber
  | numberOutOfRange
  | controlCharacter
  | invalidEscape
  /-- The first half of a pair is not followed by an escape. -/
  | unpairedEscape
  /-- A half of a pair that is not where it belongs. -/
  | loneHalf
  | unexpected (found : Found) (wanted : String)
  | unknownField (name : String) (known : List String)
  | repeatedField (name : String)
  | unknownVariant (name : String) (known : List String)
  deriving DecidableEq

structure Misreading where
  cause : Cause
  position : Nat
  deriving DecidableEq

def Found.text : Found → String
  | null => "null"
  | boolean true => "boolean `true`"
  | boolean false => "boolean `false`"
  | integer n => "integer `" ++ toString n ++ "`"
  | float text => "floating point `" ++ text ++ "`"
  | string s => "string " ++ Text.quoted s
  | sequence => "sequence"
  | map => "map"

def alternatives (names : List String) : String :=
  " or ".intercalate (names.map fun name => "`" ++ name ++ "`")

namespace Cause

def isEnd : Cause → Bool
  | endInValue | endInList | endInObject | endInString => true
  | _ => false

def text : Cause → String
  | endInValue => "EOF while parsing a value"
  | endInList => "EOF while parsing a list"
  | endInObject => "EOF while parsing an object"
  | endInString => "EOF while parsing a string"
  | expectedColon => "expected `:`"
  | expectedListEnd => "expected `,` or `]`"
  | expectedObjectEnd => "expected `,` or `\x7d`"
  | trailingComma => "trailing comma"
  | trailingCharacters => "trailing characters"
  | keyNotString => "key must be a string"
  | expectedValue => "expected value"
  | expectedWord => "expected ident"
  | invalidNumber => "invalid number"
  | numberOutOfRange => "number out of range"
  | controlCharacter => "control character (\\u0000-\\u001F) found while parsing a string"
  | invalidEscape => "invalid escape"
  | unpairedEscape => "unexpected end of hex escape"
  | loneHalf => "lone leading surrogate in hex escape"
  | unexpected found wanted => "invalid type: " ++ found.text ++ ", expected " ++ wanted
  | unknownField name known =>
    "unknown field `" ++ name ++ "`, expected " ++ alternatives known
  | repeatedField name => "duplicate field `" ++ name ++ "`"
  | unknownVariant name known =>
    "unknown variant `" ++ name ++ "`, expected " ++ alternatives known

end Cause

def Misreading.place (misreading : Misreading) (text : String) : Text.Place :=
  .after ((Text.utf8 text.toList).take misreading.position)

def Misreading.text (misreading : Misreading) (text : String) : String :=
  misreading.cause.text ++ " at " ++ (misreading.place text).text

end JackScopes.Json
