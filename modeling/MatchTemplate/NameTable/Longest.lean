import MatchTemplate.NameTable.Basic

/-!
# The longest name at the head of a text

A reference spells a name and closes it with `>`.  Names are arbitrary texts,
so several of them may be closed at the head of the same text; the longest one
is meant.  When that one has no value the reference stands for nothing, even
if a shorter name at the head does have one.
-/

namespace MatchTemplate

/-- The text begins with the name of the entry and a closing bracket. -/
def Entry.Heads (e : Entry) (rest : Text) : Prop := e.name ++ ['>'] <+: rest

instance (e : Entry) (rest : Text) : Decidable (e.Heads rest) :=
  inferInstanceAs (Decidable (e.name ++ ['>'] <+: rest))

namespace NameTable

/-- The entry with the longest name among those at the head of `rest`. -/
def longestIn (entries : List Entry) (rest : Text) : Option Entry :=
  (entries.filter fun e => e.Heads rest).maxOn? fun e => e.name.byteLength

/-- The entry that a reference at the head of `rest` stands for: the longest
one there, provided that it is set. -/
def resolveIn (entries : List Entry) (rest : Text) : Option Entry :=
  (longestIn entries rest).filter fun e => e.value.isSome

/-- The entry of the table whose name a reference at the head of `rest` spells. -/
def longest? (table : NameTable) (rest : Text) : Option Entry :=
  longestIn table.entries rest

/-- The entry of the table that a reference at the head of `rest` stands for. -/
def resolve? (table : NameTable) (rest : Text) : Option Entry :=
  resolveIn table.entries rest

/-- Two names of the same length at the head of one text are the same name. -/
theorem name_eq_of_heads {a b : Entry} {rest : Text} (ha : a.Heads rest) (hb : b.Heads rest)
    (hlen : a.name.byteLength = b.name.byteLength) : a.name = b.name := by
  obtain ⟨u, rfl⟩ := ha
  obtain ⟨v, hv⟩ := hb
  have h : b.name ++ (['>'] ++ v) = a.name ++ (['>'] ++ u) := by simpa using hv
  exact (Text.append_inj_of_byteLength h hlen.symm).1.symm

/-- The entry found is one of those at the head, and no other is longer. -/
theorem maximal_of_longestIn {entries : List Entry} {rest : Text} {e : Entry}
    (h : longestIn entries rest = some e) :
    e ∈ entries ∧ e.Heads rest ∧
      ∀ a ∈ entries, a.Heads rest → a.name.byteLength ≤ e.name.byteLength := by
  have hmem := List.maxOn?_mem h
  simp only [List.mem_filter, decide_eq_true_eq] at hmem
  refine ⟨hmem.1, hmem.2, fun a ha hheads => ?_⟩
  have hfiltered : a ∈ entries.filter fun e => e.Heads rest := by simp [ha, hheads]
  have hle := List.le_apply_get_maxOn?_of_mem (f := fun e : Entry => e.name.byteLength) hfiltered
  have hget : ((entries.filter fun e => e.Heads rest).maxOn?
      fun e => e.name.byteLength).get (List.isSome_maxOn?_of_mem hfiltered) = e :=
    Option.get_of_eq_some _ h
  rwa [hget] at hle

theorem longestIn_eq_none_iff {entries : List Entry} {rest : Text} :
    longestIn entries rest = none ↔ ∀ e ∈ entries, ¬ e.Heads rest := by
  rw [← Option.not_isSome_iff_eq_none, longestIn, List.isSome_maxOn?_iff]
  simp [List.filter_eq_nil_iff]

/-- Among entries of different names the longest at the head is unique. -/
theorem longestIn_eq_some_iff {entries : List Entry} {rest : Text} {e : Entry}
    (hnames : ∀ a ∈ entries, ∀ b ∈ entries, a.name = b.name → a = b) :
    longestIn entries rest = some e ↔
      e ∈ entries ∧ e.Heads rest ∧
        ∀ a ∈ entries, a.Heads rest → a.name.byteLength ≤ e.name.byteLength := by
  refine ⟨maximal_of_longestIn, fun ⟨hmem, hheads, hmax⟩ => ?_⟩
  cases hfound : longestIn entries rest with
  | none => exact absurd hheads (longestIn_eq_none_iff.1 hfound e hmem)
  | some a =>
      -- both are at the head and neither is longer, so their names agree
      obtain ⟨hmemA, hheadsA, hmaxA⟩ := maximal_of_longestIn hfound
      have hlen := Nat.le_antisymm (hmax a hmemA hheadsA) (hmaxA e hmem hheads)
      rw [hnames a hmemA e hmem (name_eq_of_heads hheadsA hheads hlen)]

/-- An entry is found when it is the longest at the head and set. -/
theorem resolveIn_eq_some_iff {entries : List Entry} {rest : Text} {e : Entry} :
    resolveIn entries rest = some e ↔ longestIn entries rest = some e ∧ e.value.isSome := by
  simp [resolveIn, Option.filter_eq_some_iff]

theorem heads_of_resolveIn {entries : List Entry} {rest : Text} {e : Entry}
    (h : resolveIn entries rest = some e) : e.Heads rest :=
  (maximal_of_longestIn (resolveIn_eq_some_iff.1 h).1).2.1

/-! ### Longest names, told by look-ups -/

/-- The name is declared, it is closed at the head of `rest`, and no other such
name is longer. -/
structure IsLongest (table : NameTable) (name rest : Text) : Prop where
  declared : (table.find? name).isSome
  heads : name ++ ['>'] <+: rest
  longest : ∀ other, (table.find? other).isSome → other ++ ['>'] <+: rest →
    other.byteLength ≤ name.byteLength

theorem longest?_eq_some_iff (table : NameTable) (rest : Text) (e : Entry) :
    table.longest? rest = some e ↔
      table.IsLongest e.name rest ∧ table.find? e.name = some e.value := by
  rw [longest?, longestIn_eq_some_iff table.eq_of_name_eq, mem_entries_iff]
  constructor
  · rintro ⟨hfind, hheads, hmax⟩
    refine ⟨⟨by simp [hfind], hheads, fun other hother hhead => ?_⟩, hfind⟩
    obtain ⟨a, ha, rfl⟩ := (find?_isSome_iff table other).1 hother
    exact hmax a ha hhead
  · rintro ⟨hlongest, hfind⟩
    refine ⟨hfind, hlongest.heads, fun a ha hheads => ?_⟩
    exact hlongest.longest a.name ((find?_isSome_iff table a.name).2 ⟨a, ha, rfl⟩) hheads

/-- A reference stands for the longest declared name at the head, if that one
is set. -/
theorem resolve?_eq_some_iff (table : NameTable) (rest : Text) (e : Entry) :
    table.resolve? rest = some e ↔
      table.IsLongest e.name rest ∧ table.find? e.name = some e.value ∧ e.value.isSome := by
  rw [resolve?, resolveIn_eq_some_iff, ← longest?, longest?_eq_some_iff, and_assoc]

/-- What a reference stands for is told by values alone. -/
theorem resolve?_eq_some_iff_value? (table : NameTable) (rest : Text) (e : Entry) :
    table.resolve? rest = some e ↔
      table.IsLongest e.name rest ∧ table.value? e.name = e.value ∧ e.value.isSome := by
  rw [resolve?_eq_some_iff]
  refine and_congr_right fun _ => and_congr_left fun hset => ?_
  obtain ⟨text, htext⟩ := Option.isSome_iff_exists.1 hset
  rw [value?, htext, Option.join_eq_some_iff]

/-- A reference stands for nothing when no longest name at the head is set. -/
theorem resolve?_eq_none_iff (table : NameTable) (rest : Text) :
    table.resolve? rest = none ↔
      ∀ name, table.IsLongest name rest → table.value? name = none := by
  constructor
  · intro h name hlongest
    cases hfind : table.find? name with
    | none => simp [value?, hfind]
    | some value =>
        cases value with
        | none => simp [value?, hfind]
        | some text =>
            have := (resolve?_eq_some_iff table rest ⟨name, some text⟩).2
              ⟨hlongest, hfind, rfl⟩
            simp [h] at this
  · intro h
    cases hresolve : table.resolve? rest with
    | none => rfl
    | some e =>
        obtain ⟨hlongest, hfind, hset⟩ := (resolve?_eq_some_iff table rest e).1 hresolve
        have hnone := h e.name hlongest
        simp [value?, hfind] at hnone
        simp [hnone] at hset

end NameTable

end MatchTemplate
