import EdgeFirewall.Text.Strip

/-! # Blank characters

A character is blank when it has the Unicode property White_Space. Trimming drops the blank
characters at both ends of a text, and a text is blank when trimming leaves nothing. -/

namespace EdgeFirewall.Text

/-- The 25 characters with the property White_Space. -/
def isBlank (c : Char) : Bool :=
  let n := c.toNat
  (9 ≤ n && n ≤ 13) || n == 0x20 || n == 0x85 || n == 0xA0 || n == 0x1680 ||
    (0x2000 ≤ n && n ≤ 0x200A) || n == 0x2028 || n == 0x2029 || n == 0x202F || n == 0x205F ||
    n == 0x3000

/-- The characters without the blank ones at either end. -/
def trimChars (s : List Char) : List Char :=
  strip isBlank s

/-- A text without the blank characters at either end. -/
def trim (s : String) : String :=
  String.ofList (trimChars s.toList)

/-- Whether a text has no character but blank ones. -/
def isBlankText (s : String) : Bool :=
  s.toList.all isBlank

end EdgeFirewall.Text
