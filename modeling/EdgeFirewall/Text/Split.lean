/-! # Splitting at a separator

`split sep s` cuts `s` at every `sep`, so it has one piece more than `s` has separators
(`length_split`), and no piece holds the separator. -/

namespace EdgeFirewall.Text

/-- The pieces of a text between the occurrences of a separator, empty pieces included. -/
def split (sep : Char) : List Char → List (List Char)
  | [] => [[]]
  | c :: cs =>
    if c = sep then [] :: split sep cs
    else
      match split sep cs with
      | [] => [[c]]
      | piece :: rest => (c :: piece) :: rest

theorem split_ne_nil (sep : Char) (s : List Char) : split sep s ≠ [] := by
  cases s with
  | nil => simp [split]
  | cons c cs =>
    unfold split
    split
    · simp
    · split <;> simp

theorem length_split (sep : Char) (s : List Char) :
    (split sep s).length = s.count sep + 1 := by
  induction s with
  | nil => rfl
  | cons c cs ih =>
    by_cases h : c = sep
    · simp [split, h, ih]
    · cases hs : split sep cs with
      | nil => exact absurd hs (split_ne_nil sep cs)
      | cons piece rest =>
        rw [hs] at ih
        simpa [split, h, hs, List.count_cons] using ih

/-- What follows the last occurrence of a character; the whole text if it does not occur. -/
def afterLast (sep : Char) (s : String) : String :=
  String.ofList (s.toList.reverse.takeWhile (· != sep)).reverse

/-- The text without a character wherever it stands at the end. -/
def dropTrailing (sep : Char) (s : String) : String :=
  String.ofList (s.toList.reverse.dropWhile (· == sep)).reverse

end EdgeFirewall.Text
