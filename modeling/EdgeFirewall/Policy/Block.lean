import EdgeFirewall.Policy.Checked
import EdgeFirewall.Text.Base64
import EdgeFirewall.Text.Blank

/-! # Reading blocks of attributes

Readings turn the values of an attribute map into checked values of the domain. A reading gets the
path of a value and the value; a block is a map together with its path, and its entries are read
by key as required, optional or defaulted. -/

namespace EdgeFirewall

/-- How to read a value that stands at a path. -/
abbrev Reading (α : Type) := Path → Value → Checked α

namespace Reading

variable {α β : Type}

/-- A text that is not blank. -/
def text : Reading String
  | path, .string s => if Text.isBlankText s then .fail path .blank else .ok s
  | path, v => .fail path (.wrongKind .string v.kind)

/-- A truth value. -/
def truth : Reading Bool
  | _, .bool b => .ok b
  | path, v => .fail path (.wrongKind .bool v.kind)

/-- The number of 32 bits that a number is, if it is one. -/
def narrow? (n : Int) : Option Int32 :=
  if -2147483648 ≤ n ∧ n ≤ 2147483647 then some (Int32.ofInt n) else none

theorem narrow?_eq_some_iff {n : Int} {x : Int32} : narrow? n = some x ↔ n = x.toInt := by
  unfold narrow?
  constructor
  · intro h
    obtain ⟨hn, hx⟩ := Option.ite_none_right_eq_some.mp h
    rw [← Option.some.inj hx, Int32.toInt_ofInt_of_le (by omega) (by omega)]
  · rintro rfl
    have hlower := x.le_toInt
    have hupper := x.toInt_lt
    rw [if_pos (by omega), Int32.ofInt_toInt]

/-- A number between two bounds. Of one that has more than 32 bits nothing is read, and between
wider bounds nothing is reported then, either. -/
def number (least most : Int) : Reading Int32
  | path, .int n =>
    if least ≤ n ∧ n ≤ most then ⟨narrow? n, []⟩ else .fail path (.outOfRange least most n)
  | path, v => .fail path (.wrongKind .int v.kind)

/-- A member of a vocabulary, possibly after a dotted path. -/
def word [Vocabulary α] : Reading α
  | path, .string s =>
    match Vocabulary.parseQualified s with
    | .ok a => .ok a
    | .error e => .fail path (.unknownVariant e)
  | path, v => .fail path (.wrongKind .string v.kind)

/-- The values of a reading, of which those that fail a test are reported. -/
def suchThat (read : Reading α) (test : α → Bool) (reason : α → Reason) : Reading α :=
  fun path v => (read path v).suchThat test fun a => ⟨path, reason a⟩

/-- A text in base64 that is not blank. -/
def base64 : Reading String :=
  text.suchThat Text.isBase64 fun _ => .notBase64

/-- How a number of items leaves its bounds. -/
def boundsViolations (path : Path) (least most count : Nat) : List Violation :=
  if count < least then [⟨path, .tooFew least count⟩]
  else if most < count then [⟨path, .tooMany most count⟩]
  else []

/-- What is no list is read as an empty one. -/
def noList (path : Path) (v : Value) : Checked (List α) :=
  (Checked.fail path (.wrongKind .list v.kind)).orElse []

/-- A list with a bounded number of items, each read at its index. -/
def listOf (least most : Nat) (read : Reading α) : Reading (List α)
  | path, .list items =>
    Checked.ofViolations (boundsViolations path least most items.length) *>
      Checked.collect (fun (v, i) => read (path ++ [.index i]) v) items.zipIdx
  | path, v => noList path v

end Reading

/-- A map of attributes and the path at which it stands. -/
structure Block where
  path : Path
  entries : Attributes

namespace Block

variable {α : Type}

/-- The path of an entry of a block. -/
def entryPath (b : Block) (key : String) : Path :=
  b.path ++ [.key key]

/-- Reads an entry that must be there. -/
def required (b : Block) (key : String) (read : Reading α) : Checked α :=
  match b.entries.lookup key with
  | some v => read (b.entryPath key) v
  | none => .fail (b.entryPath key) .missing

/-- Reads an entry that may be absent. -/
def optional (b : Block) (key : String) (read : Reading α) : Checked (Option α) :=
  match b.entries.lookup key with
  | some v => (read (b.entryPath key) v).attempt
  | none => .ok none

/-- Reads an entry that has a default. -/
def withDefault (b : Block) (key : String) (default : α) (read : Reading α) : Checked α :=
  match b.entries.lookup key with
  | some v => read (b.entryPath key) v
  | none => .ok default

/-- Reads an entry that has a default, which stands in for what cannot be read, too. -/
def readOr (b : Block) (key : String) (default : α) (read : Reading α) : Checked α :=
  (b.withDefault key default read).orElse default

/-- Reads a list; an absent one is empty. -/
def list (b : Block) (key : String) (least most : Nat) (read : Reading α) : Checked (List α) :=
  Reading.listOf least most read (b.entryPath key) ((b.entries.lookup key).getD (.list []))

/-- One violation for each entry whose key is not among the known ones. -/
def unknownEntries (b : Block) (known : List String) : List Violation :=
  (b.entries.filter fun e => !known.contains e.1).map fun e =>
    ⟨b.entryPath e.1, .unknownAttribute⟩

/-- The items of a list that are blocks, each with its path. -/
def ofItems (path : Path) (items : List Value) : List Block :=
  items.zipIdx.filterMap fun
    | (.map entries, i) => some ⟨path ++ [.index i], entries⟩
    | _ => none

/-- One violation for each item of a list that is no block. -/
def shapeViolations (path : Path) (items : List Value) : List Violation :=
  items.zipIdx.filterMap fun
    | (.map _, _) => none
    | (v, i) => some ⟨path ++ [.index i], .wrongKind .map v.kind⟩

/-- A list with a bounded number of nested blocks. -/
def listOf (most : Nat) (read : Block → Checked α) : Reading (List α)
  | path, .list items =>
    Checked.ofViolations (Reading.boundsViolations path 0 most items.length) *>
      (Checked.ofViolations (shapeViolations path items) *>
        Checked.collect read (ofItems path items))
  | path, v => Reading.noList path v

/-- Reads a list of nested blocks; an absent one is empty. -/
def blocks (b : Block) (key : String) (most : Nat) (read : Block → Checked α) :
    Checked (List α) :=
  listOf most read (b.entryPath key) ((b.entries.lookup key).getD (.list []))

/-- The nested blocks of a list entry. -/
def nested (b : Block) (key : String) : List Block :=
  match b.entries.lookup key with
  | some (.list items) => ofItems (b.entryPath key) items
  | _ => []

end Block

/-! ### Each way to read explains what is missing -/

section

variable {α : Type} (read : Reading α) (path : Path) (v : Value)

instance : (Reading.text path v).IsExplained := by
  cases v with
  | string s =>
      rw [Reading.text]
      split <;> infer_instance
  | _ => exact inferInstanceAs (Checked.fail _ _).IsExplained

instance : (Reading.truth path v).IsExplained := by
  cases v with
  | bool b => exact inferInstanceAs (Checked.ok b).IsExplained
  | _ => exact inferInstanceAs (Checked.fail _ _).IsExplained

/-- Bounds of 32 bits leave out no number without a violation. -/
theorem Reading.number_isExplained {least most : Int} (hleast : -2147483648 ≤ least)
    (hmost : most ≤ 2147483647) : (Reading.number least most path v).IsExplained := by
  cases v with
  | int n =>
      rw [Reading.number]
      split
      · next hn =>
          have hnarrow : Reading.narrow? n = some (Int32.ofInt n) := if_pos (by omega)
          rw [hnarrow]
          exact inferInstanceAs (Checked.ok _).IsExplained
      · infer_instance
  | _ => exact inferInstanceAs (Checked.fail _ _).IsExplained

instance [Vocabulary α] : (Reading.word path v : Checked α).IsExplained := by
  cases v with
  | string s =>
      rw [Reading.word]
      split <;> infer_instance
  | _ => exact inferInstanceAs (Checked.fail _ _).IsExplained

instance (test : α → Bool) (reason : α → Reason) [∀ path v, (read path v).IsExplained] :
    (read.suchThat test reason path v).IsExplained :=
  inferInstanceAs ((read path v).suchThat test _).IsExplained

instance : (Reading.base64 path v).IsExplained :=
  inferInstanceAs (Reading.text.suchThat _ _ path v).IsExplained

instance : (Reading.noList path v : Checked (List α)).IsExplained :=
  inferInstanceAs ((Checked.fail _ _).orElse _).IsExplained

instance (least most : Nat) : (Reading.listOf least most read path v).IsExplained := by
  cases v with
  | list items => exact inferInstanceAs (Checked.ofViolations _ *> Checked.collect _ _).IsExplained
  | _ => exact inferInstanceAs (Reading.noList path _).IsExplained

end

namespace Block

variable {α : Type} (b : Block) (key : String) (read : Reading α)

instance [∀ path v, (read path v).IsExplained] : (b.required key read).IsExplained := by
  unfold required
  split <;> infer_instance

instance : (b.optional key read).IsExplained := by
  unfold optional
  split <;> infer_instance

instance (default : α) [∀ path v, (read path v).IsExplained] :
    (b.withDefault key default read).IsExplained := by
  unfold withDefault
  split <;> infer_instance

instance (default : α) : (b.readOr key default read).IsExplained :=
  inferInstanceAs (Checked.orElse _ _).IsExplained

instance (least most : Nat) : (b.list key least most read).IsExplained :=
  inferInstanceAs (Reading.listOf _ _ _ _ _).IsExplained

instance (most : Nat) (read : Block → Checked α) (path : Path) (v : Value) :
    (Block.listOf most read path v).IsExplained := by
  cases v with
  | list items =>
      exact inferInstanceAs
        (Checked.ofViolations _ *> (Checked.ofViolations _ *> Checked.collect _ _)).IsExplained
  | _ => exact inferInstanceAs (Reading.noList path _).IsExplained

instance (most : Nat) (read : Block → Checked α) : (b.blocks key most read).IsExplained :=
  inferInstanceAs (Block.listOf _ _ _ _).IsExplained

end Block

end EdgeFirewall
