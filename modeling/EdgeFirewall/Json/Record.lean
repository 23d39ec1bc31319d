import EdgeFirewall.Json.Basic

/-! # Records in JSON

A record with declared members is written as an object or, in their order, as an array. In an
object the members may stand in any order; undeclared ones are skipped, and a declared one may
not be repeated. In an array the last ones may be left out. -/

namespace EdgeFirewall.Json

/-- The declared members that a document gives, by name. -/
abbrev Record := List (String × Json)

/-- Reads a document as a record with the given member names. -/
def record? (names : List String) : Json → Option Record
  | .obj members =>
    let known := members.filter (names.contains ·.1)
    if (known.map (·.1)).Nodup then some known else none
  | .arr items => if items.length ≤ names.length then some (names.zip items) else none
  | _ => none

namespace Record

variable {α : Type}

/-- A member that must be there. -/
def required (r : Record) (name : String) (read? : Json → Option α) : Option α :=
  (r.lookup name).bind read?

/-- A member that may be absent or null. -/
def optional (r : Record) (name : String) (read? : Json → Option α) : Option (Option α) :=
  match r.lookup name with
  | none | some .null => some none
  | some j => (read? j).map some

/-- A list that may be absent and is empty then. -/
def listOrEmpty (r : Record) (name : String) (item? : Json → Option α) : Option (List α) :=
  match r.lookup name with
  | none => some []
  | some j => j.asList? item?

end Record

/-- A member of an object that is written only if it has a value. -/
def member? {α : Type} (name : String) (write : α → Json) : Option α → List (String × Json)
  | none => []
  | some a => [(name, write a)]

end EdgeFirewall.Json
