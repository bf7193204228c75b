import Mathlib.Data.List.Perm.Subperm
import MatchTemplate.NameTable.Longest

/-!
# Entries in any order

The entries of a table may be listed in any order, for instance in the one in which they
were declared.  A search that goes through a listing finds what a look-up in the table
finds, and the longest name at the head of a text is the same in every listing
(`Lists.findIn_eq`, `Lists.resolveIn_eq`): no name is listed twice, so no two names that
are found can tie.  Two listings that are compared entry by entry agree exactly if they
list the same table (`agree_iff`).
-/

namespace MatchTemplate

namespace NameTable

/-- The listing holds the entries of the table and nothing else, each of them once. -/
def Lists (table : NameTable) (listing : List Entry) : Prop := listing.Perm table.entries

instance (table : NameTable) (listing : List Entry) : Decidable (table.Lists listing) :=
  inferInstanceAs (Decidable (listing.Perm table.entries))

/-- There are as many entries in both listings, and the second one holds for every name
of the first one what that one holds. -/
def agree (listing listing' : List Entry) : Bool :=
  listing.length == listing'.length && listing.all fun e => findIn e.name listing' == some e.value

theorem isSome_findIn_of_mem {entries : List Entry} {e : Entry} (h : e ∈ entries) :
    (findIn e.name entries).isSome := by
  induction entries with
  | nil => exact absurd h List.not_mem_nil
  | cons a rest ih =>
      rw [findIn]
      split
      · rfl
      · rename_i hname
        rcases List.mem_cons.1 h with rfl | hlater
        · exact absurd rfl hname
        · exact ih hlater

variable {table table' : NameTable} {listing listing' : List Entry}

theorem Lists.findIn_eq (h : table.Lists listing) (name : Text) :
    findIn name listing = table.find? name := by
  cases hfind : table.find? name with
  | none =>
      cases hfound : findIn name listing with
      | none => rfl
      | some value =>
          have hmem : ⟨name, value⟩ ∈ table.entries := h.mem_iff.1 (mem_of_findIn hfound)
          rw [(mem_entries_iff table ⟨name, value⟩).1 hmem] at hfind
          exact hfind
  | some value =>
      have hmem : ⟨name, value⟩ ∈ listing :=
        h.mem_iff.2 ((mem_entries_iff table ⟨name, value⟩).2 hfind)
      obtain ⟨value', hfound⟩ := Option.isSome_iff_exists.1 (isSome_findIn_of_mem hmem)
      -- whatever is found first is an entry of the table, which has one for the name
      have hmem' : ⟨name, value'⟩ ∈ table.entries := h.mem_iff.1 (mem_of_findIn hfound)
      rw [hfound, ← (mem_entries_iff table ⟨name, value'⟩).1 hmem', hfind]

/-- No name is listed twice. -/
theorem Lists.eq_of_name_eq (h : table.Lists listing) :
    ∀ a ∈ listing, ∀ b ∈ listing, a.name = b.name → a = b :=
  fun a ha b hb => table.eq_of_name_eq a (h.mem_iff.1 ha) b (h.mem_iff.1 hb)

theorem Lists.longestIn_eq (h : table.Lists listing) (rest : Text) :
    longestIn listing rest = table.longest? rest := by
  ext e
  rw [longest?, longestIn_eq_some_iff h.eq_of_name_eq, longestIn_eq_some_iff table.eq_of_name_eq]
  simp only [h.mem_iff]

theorem Lists.resolveIn_eq (h : table.Lists listing) (rest : Text) :
    resolveIn listing rest = table.resolve? rest := by
  rw [resolveIn, h.longestIn_eq]
  rfl

theorem nodup_entries (table : NameTable) : table.entries.Nodup := by
  refine table.sorted.imp fun {a b} hlt => ?_
  rintro rfl
  exact Std.lt_irrefl hlt

/-- Listings agree exactly if they list the same table. -/
theorem agree_iff (h : table.Lists listing) (h' : table'.Lists listing') :
    agree listing listing' ↔ table = table' := by
  rw [agree, Bool.and_eq_true, beq_iff_eq, List.all_eq_true]
  simp only [beq_iff_eq, h'.findIn_eq]
  constructor
  · rintro ⟨hlength, hvalues⟩
    have hsubset : table.entries ⊆ table'.entries := fun e he =>
      (mem_entries_iff table' e).2 (hvalues e (h.mem_iff.2 he))
    have hentries : table'.entries.length = table.entries.length := by
      rw [← h.length_eq, ← h'.length_eq, hlength]
    have hlists : table'.Lists table.entries :=
      (List.subperm_of_subset table.nodup_entries hsubset).perm_of_length_le
        (Nat.le_of_eq hentries)
    exact ext_find? hlists.findIn_eq
  · rintro rfl
    refine ⟨h.length_eq.trans h'.length_eq.symm, fun e he => ?_⟩
    exact (mem_entries_iff table e).1 (h.mem_iff.1 he)

end NameTable

end MatchTemplate
