/-! # Case of ASCII letters

Names in resource IDs are compared ignoring the case of the letters `A` to `Z`; every other
character stands for itself only. -/

namespace EdgeFirewall.Text

/-- The text with its ASCII capitals in lower case. -/
def lowerAscii (s : String) : String :=
  String.ofList (s.toList.map Char.toLower)

/-- Whether two texts are equal up to the case of ASCII letters. -/
def eqIgnoringCase (s t : String) : Bool :=
  lowerAscii s == lowerAscii t

@[simp] theorem eqIgnoringCase_self (s : String) : eqIgnoringCase s s = true := by
  simp [eqIgnoringCase]

end EdgeFirewall.Text
