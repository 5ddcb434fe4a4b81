import JackScopes.Text.Printable

/-!
# Quoted text

A text between double quotes, with escapes for the quote, the backslash and all
characters that cannot be shown as they are.
-/

namespace JackScopes.Text

def numbered (c : Char) : List Char :=
  '\\' :: 'u' :: '\x7b' :: (Nat.toDigits 16 c.toNat ++ ['\x7d'])

def escaped (c : Char) : List Char :=
  match c with
  | '\x00' => ['\\', '0']
  | '\t' => ['\\', 't']
  | '\r' => ['\\', 'r']
  | '\n' => ['\\', 'n']
  | '\\' => ['\\', '\\']
  | '"' => ['\\', '"']
  | _ => if isPrintable c then [c] else numbered c

def quoted (s : String) : String :=
  String.ofList ('"' :: (s.toList.flatMap escaped ++ ['"']))

end JackScopes.Text
