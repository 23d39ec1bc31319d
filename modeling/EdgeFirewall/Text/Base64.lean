/-! # Base64 text

Groups of four base64 digits, of which the last may end in one or two padding signs. The empty
text has no group and is base64 text. -/

namespace EdgeFirewall.Text

/-- Whether a character is one of the 64 digits `A`-`Z`, `a`-`z`, `0`-`9`, `+` and `/`. -/
def isBase64Digit (c : Char) : Bool :=
  ('A' ≤ c && c ≤ 'Z') || ('a' ≤ c && c ≤ 'z') || ('0' ≤ c && c ≤ '9') || c == '+' || c == '/'

/-- Whether the characters are full groups of four, the last of them possibly padded. -/
def base64Groups : List Char → Bool
  | [] => true
  | a :: b :: c :: d :: rest =>
    isBase64Digit a && isBase64Digit b &&
      ((isBase64Digit c && isBase64Digit d && base64Groups rest) ||
        (rest.isEmpty && d == '=' && (c == '=' || isBase64Digit c)))
  | _ => false

/-- Whether a text is base64 text. -/
def isBase64 (s : String) : Bool :=
  base64Groups s.toList

end EdgeFirewall.Text
