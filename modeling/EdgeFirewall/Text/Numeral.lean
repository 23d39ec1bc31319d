/-! # Decimal numerals

Reading of natural numbers from decimal digits, with an optional plus sign and an upper limit. -/

namespace EdgeFirewall.Text

/-- Whether a character is one of the digits `0` to `9`. -/
def isDecimal (c : Char) : Bool :=
  '0' ≤ c && c ≤ '9'

/-- The value of a sequence of decimal digits. -/
def decimalValue (digits : List Char) : Nat :=
  digits.foldl (fun n c => 10 * n + (c.toNat - '0'.toNat)) 0

/-- The number a non-empty sequence of decimal digits denotes. -/
def readDigits (s : List Char) : Option Nat :=
  if !s.isEmpty && s.all isDecimal then some (decimalValue s) else none

/-- The number below `limit` that a text denotes: decimal digits, possibly after a plus sign. -/
def readNatBelow (limit : Nat) (s : String) : Option Nat :=
  let digits := match s.toList with
    | '+' :: rest => rest
    | cs => cs
  (readDigits digits).filter (· < limit)

end EdgeFirewall.Text
