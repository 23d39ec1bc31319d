/-! # Tags

The tags of a policy: a finite map from names to texts. The entries stand by increasing name, so
two tag maps with the same entries are equal. -/

namespace EdgeFirewall

/-- A finite map from tag names to their texts. -/
structure Tags where
  entries : List (String × String)
  sorted : entries.Pairwise fun a b => a.1 < b.1
  deriving DecidableEq

namespace Tags

@[ext] theorem ext {s t : Tags} (h : s.entries = t.entries) : s = t := by
  cases s
  cases t
  simp_all

/-- No tags. -/
def empty : Tags := ⟨[], .nil⟩

instance : Inhabited Tags := ⟨empty⟩

/-- Puts an entry in its place, instead of an earlier one of the same name. -/
def place (name text : String) : List (String × String) → List (String × String)
  | [] => [(name, text)]
  | e :: rest =>
    if name < e.1 then (name, text) :: e :: rest
    else if e.1 < name then e :: place name text rest
    else (name, text) :: rest

theorem mem_place {name text : String} {es : List (String × String)} {e : String × String}
    (h : e ∈ place name text es) : e = (name, text) ∨ e ∈ es := by
  induction es with
  | nil => simpa [place] using h
  | cons d rest ih =>
    unfold place at h
    split at h
    · simpa using h
    · split at h
      · rcases List.mem_cons.mp h with rfl | h
        · simp
        · rcases ih h with h | h <;> simp [h]
      · rcases List.mem_cons.mp h with rfl | h <;> simp [*]

theorem pairwise_place (name text : String) {es : List (String × String)}
    (h : es.Pairwise fun a b => a.1 < b.1) :
    (place name text es).Pairwise fun a b => a.1 < b.1 := by
  induction es with
  | nil => simp [place]
  | cons d rest ih =>
    have hd := List.pairwise_cons.mp h
    unfold place
    split
    · next hlt =>
      refine List.pairwise_cons.mpr ⟨fun e he => ?_, h⟩
      rcases List.mem_cons.mp he with rfl | he
      · exact hlt
      · exact String.lt_trans hlt (hd.1 e he)
    · next hge =>
      split
      · next hlt =>
        refine List.pairwise_cons.mpr ⟨fun e he => ?_, ih hd.2⟩
        rcases mem_place he with rfl | he
        · exact hlt
        · exact hd.1 e he
      · next hle =>
        have heq : name = d.1 := String.le_antisymm hle hge
        refine List.pairwise_cons.mpr ⟨fun e he => ?_, hd.2⟩
        simpa [heq] using hd.1 e he

/-- Gives a tag a text, whatever it had before. -/
def insert (name text : String) (t : Tags) : Tags :=
  ⟨place name text t.entries, pairwise_place name text t.sorted⟩

/-- The tags of a list of entries; of two with one name the later counts. -/
def ofList (es : List (String × String)) : Tags :=
  es.foldl (fun t e => t.insert e.1 e.2) empty

/-! ### Reading entries in order gives the tags back -/

theorem place_of_lt {name text : String} {es : List (String × String)}
    (h : ∀ e ∈ es, e.1 < name) : place name text es = es ++ [(name, text)] := by
  induction es with
  | nil => rfl
  | cons d rest ih =>
    have hd := h d (by simp)
    have hn : ¬ name < d.1 := fun hlt => String.lt_irrefl _ (String.lt_trans hlt hd)
    simp [place, hn, hd, ih fun e he => h e (by simp [he])]

theorem entries_foldl_insert {es : List (String × String)} {t : Tags}
    (h : (t.entries ++ es).Pairwise fun a b => a.1 < b.1) :
    (es.foldl (fun t e => t.insert e.1 e.2) t).entries = t.entries ++ es := by
  induction es generalizing t with
  | nil => simp
  | cons e rest ih =>
    have hsplit := List.pairwise_append.mp h
    have hplace : (t.insert e.1 e.2).entries = t.entries ++ [e] :=
      place_of_lt fun d hd => hsplit.2.2 d hd e (by simp)
    rw [List.foldl_cons, ih (by rw [hplace]; simpa using h), hplace]
    simp

@[simp] theorem ofList_entries (t : Tags) : ofList t.entries = t := by
  apply ext
  have h := @entries_foldl_insert t.entries empty (by simpa [empty] using t.sorted)
  simpa [ofList, empty] using h

end Tags

end EdgeFirewall
