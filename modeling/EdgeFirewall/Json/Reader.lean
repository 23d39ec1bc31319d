import EdgeFirewall.Json.Basic
import EdgeFirewall.Text.Numeral

/-! # Reading JSON text

`Json.ofText?` reads a text as one JSON document, with blanks around it and nothing else. The
readers of the parts take the characters that are left and give the part with the rest. -/

namespace EdgeFirewall.Json

/-- A reader of one part of a text. -/
abbrev Reader (α : Type) := List Char → Option (α × List Char)

/-- The text without the blanks that may stand between the parts of a document. -/
def skipBlanks (s : List Char) : List Char :=
  s.dropWhile fun c => c == ' ' || c == '\t' || c == '\n' || c == '\r'

/-! ### Numbers -/

/-- The digits at the start of a text. -/
def readDigitRun (s : List Char) : List Char × List Char :=
  (s.takeWhile Text.isDecimal, s.dropWhile Text.isDecimal)

/-- The digits before the point: a single zero, or a run that starts with another digit. -/
def readWhole : Reader (List Char)
  | '0' :: rest => some (['0'], rest)
  | s =>
    match readDigitRun s with
    | ([], _) => none
    | (digits, rest) => some (digits, rest)

/-- Skips a non-empty run of digits. -/
def skipDigits (s : List Char) : Option (List Char) :=
  match readDigitRun s with
  | ([], _) => none
  | (_, rest) => some rest

/-- Skips the fraction of a number, if it has one; says whether it has. -/
def skipFraction : Reader Bool
  | '.' :: rest => (skipDigits rest).map (true, ·)
  | s => some (false, s)

/-- Skips the exponent of a number, if it has one; says whether it has. -/
def skipExponent : Reader Bool
  | 'e' :: '+' :: rest | 'e' :: '-' :: rest | 'E' :: '+' :: rest | 'E' :: '-' :: rest
  | 'e' :: rest | 'E' :: rest => (skipDigits rest).map (true, ·)
  | s => some (false, s)

/-- Reads a number without its sign. -/
def readMagnitude (negative : Bool) (s : List Char) : Option (Json × List Char) := do
  let (whole, s) ← readWhole s
  let (fraction, s) ← skipFraction s
  let (exponent, s) ← skipExponent s
  let n := Text.decimalValue whole
  if fraction || exponent || (negative && n == 0) then return (.real, s)
  return (.int (if negative then -(n : Int) else n), s)

/-- Reads a number. -/
def readNumber : Reader Json
  | '-' :: rest => readMagnitude true rest
  | s => readMagnitude false s

/-! ### Strings -/

/-- What one position of a string stands for: a character, or half of one. -/
inductive StringUnit where
  | char (c : Char)
  | code (unit : Nat)

/-- The value of a hexadecimal digit. -/
def hexValue? (c : Char) : Option Nat :=
  if '0' ≤ c ∧ c ≤ '9' then some (c.toNat - '0'.toNat)
  else if 'a' ≤ c ∧ c ≤ 'f' then some (c.toNat - 'a'.toNat + 10)
  else if 'A' ≤ c ∧ c ≤ 'F' then some (c.toNat - 'A'.toNat + 10)
  else none

/-- The value of four hexadecimal digits. -/
def hexValue4? (a b c d : Char) : Option Nat := do
  return (((← hexValue? a) * 16 + (← hexValue? b)) * 16 + (← hexValue? c)) * 16 + (← hexValue? d)

/-- The character of a one-letter escape. -/
def shortEscape? : Char → Option Char
  | '"' => some '"'
  | '\\' => some '\\'
  | '/' => some '/'
  | 'b' => some '\x08'
  | 'f' => some '\x0c'
  | 'n' => some '\n'
  | 'r' => some '\r'
  | 't' => some '\t'
  | _ => none

/-- Reads the rest of a string up to its closing quote. -/
def readUnits : Reader (List StringUnit)
  | [] => none
  | '"' :: rest => some ([], rest)
  | '\\' :: 'u' :: a :: b :: c :: d :: rest => do
    let unit ← hexValue4? a b c d
    let (units, rest) ← readUnits rest
    return (.code unit :: units, rest)
  | '\\' :: e :: rest => do
    let c ← shortEscape? e
    let (units, rest) ← readUnits rest
    return (.char c :: units, rest)
  | c :: rest => do
    if c.toNat < 0x20 || c == '\\' then none
    let (units, rest) ← readUnits rest
    return (.char c :: units, rest)

/-- The characters that the units spell, unless a surrogate has no partner. -/
def decodeUnits : List StringUnit → Option (List Char)
  | [] => some []
  | .char c :: rest => (decodeUnits rest).map (c :: ·)
  | .code high :: .code low :: rest =>
    if 0xD800 ≤ high ∧ high < 0xDC00 then
      if 0xDC00 ≤ low ∧ low < 0xE000 then
        let c := Char.ofNat (0x10000 + (high - 0xD800) * 0x400 + (low - 0xDC00))
        (decodeUnits rest).map (c :: ·)
      else none
    else if 0xDC00 ≤ high ∧ high < 0xE000 then none
    else (decodeUnits (.code low :: rest)).map (Char.ofNat high :: ·)
  | .code unit :: rest =>
    if 0xD800 ≤ unit ∧ unit < 0xE000 then none
    else (decodeUnits rest).map (Char.ofNat unit :: ·)

/-- Reads a string after its opening quote; `none` in the result if it is no text. -/
def readString : Reader (Option String) := fun s => do
  let (units, rest) ← readUnits s
  return ((decodeUnits units).map String.ofList, rest)

/-! ### Documents -/

/-- The object of some members; it is unreadable if one of its keys is. -/
def ofMembers (members : List (Option String × Json)) : Json :=
  match members.mapM fun m => m.1.map (·, m.2) with
  | some ms => .obj ms
  | none => .unreadable

mutual

/-- Reads a document that starts at once. The first argument bounds the depth of the recursion;
two for each character suffice. -/
def readValue : Nat → Reader Json
  | 0, _ => none
  | fuel + 1, s =>
    match s with
    | 'n' :: 'u' :: 'l' :: 'l' :: rest => some (.null, rest)
    | 't' :: 'r' :: 'u' :: 'e' :: rest => some (.bool true, rest)
    | 'f' :: 'a' :: 'l' :: 's' :: 'e' :: rest => some (.bool false, rest)
    | '"' :: rest => (readString rest).map fun (text, rest) =>
      (match text with | some t => .str t | none => .unreadable, rest)
    | '[' :: rest =>
      match skipBlanks rest with
      | ']' :: rest => some (.arr [], rest)
      | rest => (readItems fuel rest).map fun (items, rest) => (.arr items, rest)
    | '\x7b' :: rest =>
      match skipBlanks rest with
      | '\x7d' :: rest => some (.obj [], rest)
      | rest => (readMembers fuel rest).map fun (members, rest) => (ofMembers members, rest)
    | s => readNumber s

/-- Reads the items of an array and its closing bracket. -/
def readItems : Nat → Reader (List Json)
  | 0, _ => none
  | fuel + 1, s => do
    let (item, s) ← readValue fuel s
    match skipBlanks s with
    | ']' :: rest => return ([item], rest)
    | ',' :: rest =>
      let (items, rest) ← readItems fuel (skipBlanks rest)
      return (item :: items, rest)
    | _ => none

/-- Reads the members of an object and its closing brace. -/
def readMembers : Nat → Reader (List (Option String × Json))
  | 0, _ => none
  | fuel + 1, s => do
    let '"' :: s := s | none
    let (key, s) ← readString s
    let ':' :: s := skipBlanks s | none
    let (value, s) ← readValue fuel (skipBlanks s)
    match skipBlanks s with
    | '\x7d' :: rest => return ([(key, value)], rest)
    | ',' :: rest =>
      let (members, rest) ← readMembers fuel (skipBlanks rest)
      return ((key, value) :: members, rest)
    | _ => none

end

/-- Reads a text that holds one document and blanks. -/
def ofText? (s : String) : Option Json := do
  let cs := s.toList
  let (j, rest) ← readValue (2 * cs.length + 2) (skipBlanks cs)
  if (skipBlanks rest).isEmpty then return j else none

end EdgeFirewall.Json
