/-! # Stripping both ends

`strip p` drops the characters that satisfy `p` from both ends of a text, up to the first one on
either side that does not. -/

namespace EdgeFirewall.Text

/-- The characters without those at either end that satisfy a test. -/
def strip (p : Char → Bool) (s : List Char) : List Char :=
  ((s.dropWhile p).reverse.dropWhile p).reverse

@[simp] theorem strip_nil (p : Char → Bool) : strip p [] = [] := rfl

end EdgeFirewall.Text
