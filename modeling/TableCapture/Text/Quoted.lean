import TableCapture.Text.Printing

/-!
# Quoted text

The displayed form of a text stands between double quotes. Double quotes and backslashes are
escaped, line feeds, carriage returns, tabs and null characters have short escapes, and any other
character that does not print is written by its number, as in `\u{7f}`.
-/

namespace TableCapture.Text

/-- One character inside double quotes. -/
def escapeChar (c : Char) : List Char :=
  if c = '"' then ['\\', '"']
  else if c = '\\' then ['\\', '\\']
  else if c = '\n' then ['\\', 'n']
  else if c = '\r' then ['\\', 'r']
  else if c = '\t' then ['\\', 't']
  else if c = '\x00' then ['\\', '0']
  else if prints c then [c]
  else '\\' :: 'u' :: '\x7b' :: Nat.toDigits 16 c.toNat ++ ['\x7d']

/-- A text between double quotes. -/
def quoted (s : String) : String :=
  String.ofList ('"' :: s.toList.flatMap escapeChar ++ ['"'])

end TableCapture.Text
