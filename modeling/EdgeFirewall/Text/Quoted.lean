import EdgeFirewall.Text.Printable

/-! # Quoted text

A text in double quotes, so that a message shows where it begins and ends. The quote and the
backslash take a backslash, four controls have letters of their own, and every other character
that would not be seen, or that would attach itself to its neighbour, is spelled by its code
point in braces. -/

namespace EdgeFirewall.Text

/-- The escape of a character by its code point in hexadecimal. -/
def codePointEscape (c : Char) : List Char :=
  ['\\', 'u', '\x7b'] ++ Nat.toDigits 16 c.toNat ++ ['\x7d']

/-- A character as it stands inside a quoted text. -/
def quoteChar (c : Char) : List Char :=
  if c = '"' then ['\\', '"']
  else if c = '\\' then ['\\', '\\']
  else if c = '\t' then ['\\', 't']
  else if c = '\r' then ['\\', 'r']
  else if c = '\n' then ['\\', 'n']
  else if c = '\x00' then ['\\', '0']
  else if isExtending c || !isPrintable c then codePointEscape c
  else [c]

/-- A text in double quotes. -/
def quoted (s : String) : String :=
  String.ofList ('"' :: s.toList.flatMap quoteChar ++ ['"'])

end EdgeFirewall.Text
