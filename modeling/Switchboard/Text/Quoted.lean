import Switchboard.Text.Printable
/-!
# Quoted texts

A text between double quotes, written so that every character of it shows: quotes and
backslashes get a backslash before them, line ends, tabs and NUL have letters of their own, and
other characters that would not show are given by their number.
-/
namespace Switchboard.Text

/-- A character by its number in hexadecimal. -/
def numbered (c : Char) : List Char :=
  "\\u\x7b".toList ++ Nat.toDigits 16 c.toNat ++ ['\x7d']

/-- A character inside quotes. -/
def quoteChar (c : Char) : List Char :=
  if c = '\x00' then ['\\', '0']
  else if c = '\t' then ['\\', 't']
  else if c = '\r' then ['\\', 'r']
  else if c = '\n' then ['\\', 'n']
  else if c = '"' then ['\\', '"']
  else if c = '\\' then ['\\', '\\']
  else if isExtender c then numbered c
  else if isPrintable c then [c]
  else numbered c

/-- The text in quotes. -/
def quoted (s : String) : String :=
  String.ofList ('"' :: s.toList.flatMap quoteChar ++ ['"'])

end Switchboard.Text
