import EdgeFirewall.Text.Split

/-! # Closed vocabularies

A closed vocabulary is a finite type whose members each have one exact spelling. `parse` accepts
the spellings and nothing else, and undoes `spelling` (`parse_spelling`). In configuration a
spelling may be preceded by a dotted path, which `parseQualified` drops. -/

namespace EdgeFirewall

/-- A finite type whose members have distinct spellings. -/
class Vocabulary (α : Type) where
  /-- The name of the vocabulary in messages. -/
  typeName : String
  /-- Every member, in the order in which messages list them. -/
  all : List α
  spelling : α → String
  mem_all : ∀ a, a ∈ all
  spelling_injective : ∀ a b, spelling a = spelling b → a = b

/-- A text that spells no member of a vocabulary. -/
structure UnknownVariant where
  typeName : String
  value : String
  expected : List String
  deriving DecidableEq, Repr

/-- The wording of an unknown variant. -/
def UnknownVariant.message (e : UnknownVariant) : String :=
  s!"invalid {e.typeName} '{e.value}', expected one of: " ++ ", ".intercalate e.expected

/-- A text without the dotted path before its last part. A text with a space has no such path. -/
def unqualified (s : String) : String :=
  if s.toList.contains ' ' then s else Text.afterLast '.' s

namespace Vocabulary

variable {α : Type} [Vocabulary α]

/-- The spellings of a vocabulary, in order. -/
def spellings (α : Type) [Vocabulary α] : List String :=
  (all : List α).map spelling

/-- The member with the given spelling. -/
def ofSpelling? (s : String) : Option α :=
  (all : List α).find? fun a => spelling a == s

/-- The member with the given spelling, or why there is none. -/
def parse (s : String) : Except UnknownVariant α :=
  match ofSpelling? s with
  | some a => .ok a
  | none => .error ⟨typeName α, s, spellings α⟩

/-- The member a text spells after its dotted path. -/
def parseQualified (s : String) : Except UnknownVariant α :=
  parse (unqualified s)

theorem ofSpelling?_eq_some_iff {s : String} {a : α} :
    ofSpelling? s = some a ↔ spelling a = s := by
  constructor
  · intro h
    simpa using List.find?_some h
  · rintro rfl
    cases h : ofSpelling? (α := α) (spelling a) with
    | none =>
      have := List.find?_eq_none.mp h a (mem_all a)
      simp at this
    | some b =>
      have : spelling b = spelling a := by simpa using List.find?_some h
      rw [spelling_injective b a this]

theorem ofSpelling?_spelling (a : α) : ofSpelling? (spelling a) = some a :=
  ofSpelling?_eq_some_iff.mpr rfl

theorem parse_eq_ok_iff {s : String} {a : α} : parse s = .ok a ↔ spelling a = s := by
  unfold parse
  cases h : ofSpelling? (α := α) s with
  | none =>
    have : spelling a ≠ s := fun hs => by
      rw [ofSpelling?_eq_some_iff.mpr hs] at h
      cases h
    simpa using this
  | some b =>
    have hb := ofSpelling?_eq_some_iff.mp h
    simp only [Except.ok.injEq]
    constructor
    · rintro rfl
      exact hb
    · intro ha
      exact spelling_injective b a (hb.trans ha.symm)

theorem parse_spelling (a : α) : parse (spelling a) = .ok a :=
  parse_eq_ok_iff.mpr rfl

end Vocabulary

end EdgeFirewall
