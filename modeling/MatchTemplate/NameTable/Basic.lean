import MatchTemplate.Text.Basic

/-!
# Tables of named values

A name table records which names a match declares and, for each of them, the
text it stands for or that it stands for none.  The entries are kept in the
order of their names, so a table is determined by its look-ups
(`ext_find?`) and equality does not remember how a table was built.
-/

namespace MatchTemplate

/-- A declared name.  An entry without a value belongs to a group that took no
part in the match. -/
structure Entry where
  name : Text
  value : Option Text
deriving DecidableEq, Repr

/-- Finite map from declared names to optional values. -/
@[ext] structure NameTable where
  entries : List Entry
  sorted : entries.Pairwise fun a b => a.name < b.name
deriving DecidableEq, Repr

namespace NameTable

/-- The table that declares no name. -/
def empty : NameTable where
  entries := []
  sorted := List.Pairwise.nil

instance : Inhabited NameTable := ⟨empty⟩

/-- What the first entry for `name` holds.  The outer option tells whether the
name is declared, the inner one whether it is set. -/
def findIn (name : Text) : List Entry → Option (Option Text)
  | [] => none
  | e :: rest => if e.name = name then some e.value else findIn name rest

/-- What the table holds for `name`. -/
def find? (table : NameTable) (name : Text) : Option (Option Text) :=
  findIn name table.entries

/-- The text that `name` stands for, if it is declared and set. -/
def value? (table : NameTable) (name : Text) : Option Text :=
  (table.find? name).join

/-- Puts an entry before the first one with a later name, in place of an entry
with the same name. -/
def place (e : Entry) : List Entry → List Entry
  | [] => [e]
  | a :: rest =>
      if e.name < a.name then
        e :: a :: rest
      else if a.name < e.name then
        a :: place e rest
      else
        e :: rest

private theorem name_of_mem_place {e a : Entry} {entries : List Entry}
    (h : a ∈ place e entries) : a = e ∨ a ∈ entries := by
  induction entries with
  | nil => simpa [place] using h
  | cons b rest ih =>
      simp only [place] at h
      split at h
      · simpa using h
      · split at h
        · rcases List.mem_cons.1 h with rfl | hmem
          · simp
          · rcases ih hmem with rfl | hrest <;> simp_all
        · rcases List.mem_cons.1 h with rfl | hmem <;> simp_all

theorem sorted_place (e : Entry) {entries : List Entry}
    (h : entries.Pairwise fun a b => a.name < b.name) :
    (place e entries).Pairwise fun a b => a.name < b.name := by
  induction entries with
  | nil => simp [place]
  | cons b rest ih =>
      obtain ⟨hb, hrest⟩ := List.pairwise_cons.1 h
      simp only [place]
      split
      · rename_i hlt
        -- everything after `b` lies after `e` as well
        refine List.pairwise_cons.2 ⟨fun a ha => ?_, h⟩
        rcases List.mem_cons.1 ha with rfl | hmem
        · exact hlt
        · exact Std.lt_trans hlt (hb a hmem)
      · split
        · rename_i hgt
          refine List.pairwise_cons.2 ⟨fun a ha => ?_, ih hrest⟩
          rcases name_of_mem_place ha with rfl | hmem
          · exact hgt
          · exact hb a hmem
        · rename_i hlt hgt
          have heq : e.name = b.name := Std.Trichotomous.trichotomous _ _ hlt hgt
          exact List.pairwise_cons.2 ⟨fun a ha => heq ▸ hb a ha, hrest⟩

/-- Declares `name` with `value`.  What the table held for it before is
forgotten. -/
def insert (table : NameTable) (name : Text) (value : Option Text) : NameTable where
  entries := place ⟨name, value⟩ table.entries
  sorted := sorted_place _ table.sorted

@[simp] theorem find?_empty (name : Text) : empty.find? name = none := rfl

private theorem findIn_place (e : Entry) (name : Text) (entries : List Entry) :
    findIn name (place e entries) =
      if e.name = name then some e.value else findIn name entries := by
  induction entries with
  | nil => simp [place, findIn]
  | cons b rest ih =>
      simp only [place]
      split
      · simp [findIn]
      · split
        · rename_i hgt
          have hne : b.name ≠ e.name := fun heq => Std.lt_irrefl (heq ▸ hgt)
          by_cases hb : b.name = name
          · have : e.name ≠ name := fun he => hne (hb.trans he.symm)
            simp [findIn, hb, this]
          · simp [findIn, hb, ih]
        · rename_i hlt hgt
          have heq : e.name = b.name := Std.Trichotomous.trichotomous _ _ hlt hgt
          simp only [findIn, heq]
          split <;> simp_all

/-- The last value given to a name is the one that is found. -/
@[simp] theorem find?_insert (table : NameTable) (name other : Text) (value : Option Text) :
    (table.insert name value).find? other =
      if name = other then some value else table.find? other :=
  findIn_place ⟨name, value⟩ other table.entries

theorem mem_of_findIn {entries : List Entry} {name : Text} {value : Option Text}
    (h : findIn name entries = some value) : ⟨name, value⟩ ∈ entries := by
  induction entries with
  | nil => simp [findIn] at h
  | cons e rest ih =>
      simp only [findIn] at h
      split at h
      · rename_i heq
        obtain rfl : e.value = value := by simpa using h
        simp [← heq]
      · exact List.mem_cons_of_mem _ (ih h)

private theorem findIn_of_mem {entries : List Entry} {e : Entry}
    (h : entries.Pairwise fun a b => a.name < b.name) (he : e ∈ entries) :
    findIn e.name entries = some e.value := by
  induction entries with
  | nil => simp at he
  | cons b rest ih =>
      obtain ⟨hb, hrest⟩ := List.pairwise_cons.1 h
      rcases List.mem_cons.1 he with rfl | hmem
      · simp [findIn]
      · have hne : b.name ≠ e.name := fun heq => Std.lt_irrefl (heq ▸ hb e hmem)
        simp only [findIn, hne, if_false]
        exact ih hrest hmem

/-- The entries of a table are exactly its look-ups. -/
theorem mem_entries_iff (table : NameTable) (e : Entry) :
    e ∈ table.entries ↔ table.find? e.name = some e.value :=
  ⟨findIn_of_mem table.sorted, fun h => mem_of_findIn h⟩

theorem find?_isSome_iff (table : NameTable) (name : Text) :
    (table.find? name).isSome ↔ ∃ e ∈ table.entries, e.name = name := by
  constructor
  · intro h
    obtain ⟨value, hvalue⟩ := Option.isSome_iff_exists.1 h
    exact ⟨⟨name, value⟩, (mem_entries_iff table _).2 hvalue, rfl⟩
  · rintro ⟨e, he, rfl⟩
    simp [(mem_entries_iff table e).1 he]

/-- No two entries of a table have the same name. -/
theorem eq_of_name_eq (table : NameTable) :
    ∀ a ∈ table.entries, ∀ b ∈ table.entries, a.name = b.name → a = b := by
  intro a ha b hb hname
  have hvalue : some a.value = some b.value := by
    rw [← (mem_entries_iff table a).1 ha, ← (mem_entries_iff table b).1 hb, hname]
  cases a
  cases b
  simp_all

private theorem entries_eq_of_mem_iff {l l' : List Entry}
    (h : l.Pairwise fun a b => a.name < b.name)
    (h' : l'.Pairwise fun a b => a.name < b.name)
    (hmem : ∀ e, e ∈ l ↔ e ∈ l') : l = l' := by
  induction l generalizing l' with
  | nil =>
      cases l' with
      | nil => rfl
      | cons b l' => exact absurd ((hmem b).2 (by simp)) (by simp)
  | cons a l ih =>
      cases l' with
      | nil => exact absurd ((hmem a).1 (by simp)) (by simp)
      | cons b l' =>
          obtain ⟨ha, hl⟩ := List.pairwise_cons.1 h
          obtain ⟨hb, hl'⟩ := List.pairwise_cons.1 h'
          -- each of the two heads is the least entry of both lists
          have hab : a = b := by
            rcases List.mem_cons.1 ((hmem a).1 (by simp)) with heq | hmemA
            · exact heq
            · rcases List.mem_cons.1 ((hmem b).2 (by simp)) with heq | hmemB
              · exact heq.symm
              · exact absurd (Std.lt_trans (hb a hmemA) (ha b hmemB)) Std.lt_irrefl
          subst hab
          congr 1
          refine ih hl hl' fun e => ⟨fun he => ?_, fun he => ?_⟩
          · rcases List.mem_cons.1 ((hmem e).1 (List.mem_cons_of_mem _ he)) with rfl | hmemE
            · exact absurd (ha e he) Std.lt_irrefl
            · exact hmemE
          · rcases List.mem_cons.1 ((hmem e).2 (List.mem_cons_of_mem _ he)) with rfl | hmemE
            · exact absurd (hb e he) Std.lt_irrefl
            · exact hmemE

/-- Tables with the same look-ups are equal, whatever the order in which their
names were declared. -/
theorem ext_find? {a b : NameTable} (h : ∀ name, a.find? name = b.find? name) : a = b := by
  apply NameTable.ext
  apply entries_eq_of_mem_iff a.sorted b.sorted
  intro e
  rw [mem_entries_iff, mem_entries_iff, h]

end NameTable

end MatchTemplate
