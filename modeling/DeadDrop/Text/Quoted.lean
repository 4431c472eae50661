import DeadDrop.Bytes
import DeadDrop.Text.Printable

/-!
Text quoted for a message. Quotes, backslashes and the common controls are escaped by a letter,
other characters that do not show as themselves by their hexadecimal code point in braces.
-/

namespace DeadDrop.Text.Quoted

def hexDigits (n : Nat) : List Char := Nat.toDigits 16 n

def escape (c : Char) : List Char :=
  match c with
  | '\x00' => ['\\', '0']
  | '\t' => ['\\', 't']
  | '\r' => ['\\', 'r']
  | '\n' => ['\\', 'n']
  | '"' => ['\\', '"']
  | '\\' => ['\\', '\\']
  | c => if Printable.isPrintable c then [c]
      else ['\\', 'u', '\x7b'] ++ hexDigits c.toNat ++ ['\x7d']

def quote (text : String) : String :=
  String.ofList ('"' :: text.toList.flatMap escape ++ ['"'])

end DeadDrop.Text.Quoted
