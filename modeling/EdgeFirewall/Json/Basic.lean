/-! # JSON documents

A JSON document keeps what its readers may care about: the order of the members of an object and
the repeated ones, and whether a number was written as an integer. A value that follows the
grammar but denotes nothing, because the escapes of a string leave a surrogate unpaired, is
`unreadable`: it may stand where nobody reads it. -/

namespace EdgeFirewall

/-- A JSON document. -/
inductive Json where
  | null
  | bool (truth : Bool)
  /-- A number written as an integer other than `-0`. -/
  | int (number : Int)
  /-- A number written in any other way. -/
  | real
  | str (text : String)
  | arr (items : List Json)
  | obj (members : List (String × Json))
  /-- A string that is no text, or an object with such a string for a key. -/
  | unreadable

namespace Json

/-- The truth value of a document that is one. -/
def asBool? : Json → Option Bool
  | .bool truth => some truth
  | _ => none

/-- The text of a document that is one. -/
def asText? : Json → Option String
  | .str text => some text
  | _ => none

/-- The 32-bit number of a document that is an integer in that range. -/
def asInt32? : Json → Option Int32
  | .int n => if -2147483648 ≤ n ∧ n ≤ 2147483647 then some (Int32.ofInt n) else none
  | _ => none

/-- The items of an array, each of which must be readable. -/
def asList? {α : Type} (item? : Json → Option α) : Json → Option (List α)
  | .arr items => items.mapM item?
  | _ => none

end Json

end EdgeFirewall
