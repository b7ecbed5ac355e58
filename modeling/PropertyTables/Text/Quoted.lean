import PropertyTables.Text.Hex

/-!
# Quoted text

A text between double quotes, as JSON writes it: quotes, backslashes and control characters are
escaped and everything else stands for itself.
-/

namespace PropertyTables.Text

def quotedChar (c : Char) : List Char :=
  match c with
  | '"' => ['\\', '"']
  | '\\' => ['\\', '\\']
  | '\n' => ['\\', 'n']
  | '\r' => ['\\', 'r']
  | '\t' => ['\\', 't']
  | '\x08' => ['\\', 'b']
  | '\x0c' => ['\\', 'f']
  | c =>
    if c.toNat < 0x20 then
      ['\\', 'u'] ++ Hex.fixed .small 4 c.toNat
    else [c]

def quote (s : String) : String :=
  String.ofList ('"' :: s.toList.flatMap quotedChar ++ ['"'])

end PropertyTables.Text
