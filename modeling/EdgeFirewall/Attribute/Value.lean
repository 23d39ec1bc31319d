/-! # Attribute values

The values a host hands over and gets back: text, whole numbers, truth values, lists and maps. A
repeated nested block is a list of maps. Maps are association lists; the operations that build one
keep its keys distinct and in increasing order (`Attributes.set`, `Attributes.ofList`), and every
reader takes an entry by its key. -/

namespace EdgeFirewall

/-- The kinds of attribute values. -/
inductive Kind where
  | string
  | int
  | bool
  | list
  | map
  deriving DecidableEq, Repr

/-- The name of a kind in messages. -/
def Kind.name : Kind → String
  | .string => "String"
  | .int => "Int"
  | .bool => "Bool"
  | .list => "List"
  | .map => "Map"

/-- A value of an attribute. -/
inductive Value where
  | string (text : String)
  | int (number : Int)
  | bool (truth : Bool)
  | list (items : List Value)
  | map (entries : List (String × Value))

instance : Inhabited Value := ⟨.map []⟩

/-- A map from attribute names to values. -/
abbrev Attributes := List (String × Value)

namespace Value

/-- The kind of a value. -/
def kind : Value → Kind
  | .string _ => .string
  | .int _ => .int
  | .bool _ => .bool
  | .list _ => .list
  | .map _ => .map

/-- The text of a string value. -/
def asString? : Value → Option String
  | .string text => some text
  | _ => none

/-- The number of an integer value. -/
def asInt? : Value → Option Int
  | .int number => some number
  | _ => none

/-- The truth value of a boolean. -/
def asBool? : Value → Option Bool
  | .bool truth => some truth
  | _ => none

/-- The items of a list. -/
def asList? : Value → Option (List Value)
  | .list items => some items
  | _ => none

/-- The entries of a map. -/
def asMap? : Value → Option Attributes
  | .map entries => some entries
  | _ => none

/-! ### Equality of values is decidable -/

mutual

/-- Decides whether two values are equal. -/
def decEq : (a b : Value) → Decidable (a = b)
  | .string a, .string b => if h : a = b then .isTrue (h ▸ rfl) else .isFalse (by simp [h])
  | .int a, .int b => if h : a = b then .isTrue (h ▸ rfl) else .isFalse (by simp [h])
  | .bool a, .bool b => if h : a = b then .isTrue (h ▸ rfl) else .isFalse (by simp [h])
  | .list a, .list b =>
    match decEqItems a b with
    | .isTrue h => .isTrue (h ▸ rfl)
    | .isFalse h => .isFalse (by simp [h])
  | .map a, .map b =>
    match decEqEntries a b with
    | .isTrue h => .isTrue (h ▸ rfl)
    | .isFalse h => .isFalse (by simp [h])
  | .string _, .int _ | .string _, .bool _ | .string _, .list _ | .string _, .map _ =>
    .isFalse nofun
  | .int _, .string _ | .int _, .bool _ | .int _, .list _ | .int _, .map _ => .isFalse nofun
  | .bool _, .string _ | .bool _, .int _ | .bool _, .list _ | .bool _, .map _ => .isFalse nofun
  | .list _, .string _ | .list _, .int _ | .list _, .bool _ | .list _, .map _ => .isFalse nofun
  | .map _, .string _ | .map _, .int _ | .map _, .bool _ | .map _, .list _ => .isFalse nofun

/-- Decides whether two lists of values are equal. -/
def decEqItems : (a b : List Value) → Decidable (a = b)
  | [], [] => .isTrue rfl
  | x :: xs, y :: ys =>
    match decEq x y, decEqItems xs ys with
    | .isTrue h, .isTrue hs => .isTrue (h ▸ hs ▸ rfl)
    | .isFalse h, _ => .isFalse (by simp [h])
    | _, .isFalse h => .isFalse (by simp [h])
  | [], _ :: _ | _ :: _, [] => .isFalse nofun

/-- Decides whether two lists of map entries are equal. -/
def decEqEntries : (a b : List (String × Value)) → Decidable (a = b)
  | [], [] => .isTrue rfl
  | (k, x) :: xs, (l, y) :: ys =>
    if hk : k = l then
      match decEq x y, decEqEntries xs ys with
      | .isTrue h, .isTrue hs => .isTrue (hk ▸ h ▸ hs ▸ rfl)
      | .isFalse h, _ => .isFalse (by simp [h])
      | _, .isFalse h => .isFalse (by simp [h])
    else .isFalse (by simp [hk])
  | [], _ :: _ | _ :: _, [] => .isFalse nofun

end

instance : DecidableEq Value := decEq

end Value

namespace Attributes

/-- Binds a key to a value, replacing what was bound to it before. -/
def set (key : String) (value : Value) : Attributes → Attributes
  | [] => [(key, value)]
  | (k, v) :: rest =>
    if key < k then (key, value) :: (k, v) :: rest
    else if k < key then (k, v) :: set key value rest
    else (key, value) :: rest

/-- The map that binds each key to the last value given for it. -/
def ofList (entries : List (String × Value)) : Attributes :=
  entries.foldl (fun a e => set e.1 e.2 a) []

/-- Binds every key of `extra`, replacing what was bound before. -/
def extend (a extra : Attributes) : Attributes :=
  extra.foldl (fun a e => set e.1 e.2 a) a

/-- An entry that is there only if it has a value. -/
def entry? {α : Type} (key : String) (write : α → Value) : Option α → Attributes
  | none => []
  | some a => [(key, write a)]

theorem lookup_set_self (key : String) (value : Value) (a : Attributes) :
    (set key value a).lookup key = some value := by
  induction a with
  | nil => simp [set]
  | cons e rest ih =>
    obtain ⟨k, v⟩ := e
    unfold set
    split
    · simp
    · split
      · next h =>
        have : (key == k) = false := by
          simp only [beq_eq_false_iff_ne]
          rintro rfl
          exact String.lt_irrefl _ h
        simp [List.lookup_cons, this, ih]
      · simp

end Attributes

end EdgeFirewall
