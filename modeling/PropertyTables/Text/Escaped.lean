import PropertyTables.Text.Hex
import PropertyTables.Text.Printable

/-!
# Escaped text

A text between double quotes in which every character that has no glyph of its own is written by
its code point in braces.
-/

namespace PropertyTables.Text

def escapedChar (c : Char) : List Char :=
  match c with
  | '\x00' => ['\\', '0']
  | '\t' => ['\\', 't']
  | '\n' => ['\\', 'n']
  | '\r' => ['\\', 'r']
  | '"' => ['\\', '"']
  | '\\' => ['\\', '\\']
  | c => if isPrintable c then [c] else ['\\', 'u', '\x7b'] ++ Hex.shortest c.toNat ++ ['\x7d']

def escape (s : String) : String :=
  String.ofList ('"' :: s.toList.flatMap escapedChar ++ ['"'])

end PropertyTables.Text
