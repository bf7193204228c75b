import MatchTemplate.NameTable.Spelled

/-!
# Tables with more unset names

A name that is declared but not set stands for nothing, and still it competes for the
longest name at the head of a text.  References keep their meaning when such names are
added to a table, if a reference to an added name meant nothing before
(`AddsUnset.resolve?_eq`).
-/

namespace MatchTemplate

namespace NameTable

variable {table table' : NameTable} {rest : Text}

/-- The longest name at the head of a text is also the longest at the head of every
beginning that it is closed in. -/
theorem IsLongest.of_prefix {name part : Text} (h : table.IsLongest name rest)
    (hclosed : name ++ ['>'] <+: part) (hpart : part <+: rest) : table.IsLongest name part where
  declared := h.declared
  heads := hclosed
  longest other hother hheads := h.longest other hother (hheads.trans hpart)

/-- A declared name is the longest one that is closed in itself and a bracket. -/
theorem isLongest_closed {name : Text} (h : (table.find? name).isSome) :
    table.IsLongest name (name ++ ['>']) where
  declared := h
  heads := List.prefix_rfl
  longest other _ hheads := by
    obtain ⟨tail, htail⟩ := hheads
    have hlen := congrArg Text.byteLength htail
    simp only [Text.byteLength_append] at hlen
    omega

/-- A reference to a name that is not set means nothing. -/
theorem resolve?_closed_of_unset {name : Text} (h : table.find? name = some none) :
    table.resolve? (name ++ ['>']) = none := by
  have hlongest := isLongest_closed (Option.isSome_of_eq_some h)
  rw [resolve?_eq_none_iff]
  intro other hother
  rw [hother.eq hlongest, value?, h]
  rfl

/-- The second table declares all names of the first one, and sets the same of them.  By
the first table a reference to a name that the second one adds means nothing. -/
structure AddsUnset (table table' : NameTable) : Prop where
  values : ∀ name, table'.value? name = table.value? name
  declared : ∀ name, (table.find? name).isSome → (table'.find? name).isSome
  added : ∀ name, (table'.find? name).isSome → table.find? name = none →
    table.resolve? (name ++ ['>']) = none

/-- A set name is the longest at the head of a text in both tables or in neither. -/
theorem AddsUnset.isLongest_iff (h : AddsUnset table table') {name text : Text}
    (hset : table.value? name = some text) :
    table'.IsLongest name rest ↔ table.IsLongest name rest := by
  have hfind : table.find? name = some (some text) := Option.join_eq_some_iff.1 hset
  have hdeclared : (table.find? name).isSome := Option.isSome_of_eq_some hfind
  constructor
  · intro hlongest
    refine ⟨hdeclared, hlongest.heads, fun other hother => ?_⟩
    exact hlongest.longest other (h.declared other hother)
  · intro hlongest
    refine ⟨h.declared name hdeclared, hlongest.heads, fun other hother hheads => ?_⟩
    apply Nat.le_of_not_lt
    intro hlonger
    cases hnew : table.find? other with
    | some value =>
        have hle := hlongest.longest other (Option.isSome_of_eq_some hnew) hheads
        omega
    | none =>
        -- a longer name that is new would have been known to hide `name`
        have hclosed : name ++ ['>'] <+: other ++ ['>'] :=
          (closed_prefix_of_byteLength_lt hlongest.heads hheads hlonger).trans
            (List.prefix_append _ _)
        have hwithin := hlongest.of_prefix hclosed hheads
        have hresolve : table.resolve? (other ++ ['>']) = some ⟨name, some text⟩ :=
          (resolve?_eq_some_iff_value? _ _ ⟨name, some text⟩).2 ⟨hwithin, hset, rfl⟩
        rw [h.added other hother hnew] at hresolve
        exact Option.some_ne_none _ hresolve.symm

/-- References mean the same by both tables. -/
theorem AddsUnset.resolve?_eq (h : AddsUnset table table') (rest : Text) :
    table'.resolve? rest = table.resolve? rest := by
  ext e
  rw [resolve?_eq_some_iff_value?, resolve?_eq_some_iff_value?, h.values]
  refine and_congr_left fun ⟨hvalue, hset⟩ => ?_
  obtain ⟨text, htext⟩ := Option.isSome_iff_exists.1 hset
  exact h.isLongest_iff (hvalue.trans htext)

end NameTable

end MatchTemplate
