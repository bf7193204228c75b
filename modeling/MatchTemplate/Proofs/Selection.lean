import MatchTemplate.NameTable.Listing
import MatchTemplate.NameTable.Spelled

/-!
# One pass over the names

The name that a reference means can be looked for in one pass over the declared names, in
whatever order they come.  The pass keeps the longest name so far that is closed behind
the bracket, and a later one rather than an earlier one of the same length.  Which of two
such names is kept would depend on the order, but there are no two: both would be the same
part of the template.  So the pass always finds the one longest name, and it finds nothing
if that one is not set (`search?_of_lists`).
-/

namespace MatchTemplate

/-- Of two entries the later one, unless its name is shorter. -/
def Entry.keep (best e : Entry) : Entry :=
  if e.name.byteLength < best.name.byteLength then best else e

namespace NameTable

/-- The last of the entries with the longest names. -/
def lastLongest? : List Entry → Option Entry
  | [] => none
  | e :: later => some (later.foldl Entry.keep e)

/-- What a pass over the entries finds for the reference that `rest` begins with.  Behind
its first two characters, the sigil and the bracket, the longest name is looked for; it
stands for its text, if it is set, and is given with its number of bytes. -/
def search? (listing : List Entry) (rest : Text) : Option (Text × Nat) :=
  let inner := rest.dropBytes 2
  (lastLongest? (listing.filter fun e => e.Heads inner)).bind fun e =>
    e.value.map fun text => (text, e.name.byteLength)

end NameTable

/-! ### The pass -/

namespace Entry

theorem keep_cases (best e : Entry) : best.keep e = best ∨ best.keep e = e := by
  unfold keep
  split
  · exact Or.inl rfl
  · exact Or.inr rfl

/-- Neither of the two entries is longer than the one that is kept. -/
theorem le_keep (best e : Entry) :
    best.name.byteLength ≤ (best.keep e).name.byteLength ∧
      e.name.byteLength ≤ (best.keep e).name.byteLength := by
  unfold keep
  split
  · rename_i hshorter
    exact ⟨Nat.le_refl _, Nat.le_of_lt hshorter⟩
  · rename_i hshorter
    exact ⟨Nat.le_of_not_lt hshorter, Nat.le_refl _⟩

/-- What a pass has kept is one of the entries so far, and none of them is longer. -/
theorem foldl_keep (best : Entry) (later : List Entry) :
    later.foldl keep best ∈ best :: later ∧
      ∀ a ∈ best :: later, a.name.byteLength ≤ (later.foldl keep best).name.byteLength := by
  induction later generalizing best with
  | nil => simp
  | cons e later ih =>
      -- the pass goes on with one of the first two entries, and both are bounded by it
      obtain ⟨hmem, hmax⟩ := ih (best.keep e)
      obtain ⟨hbest, he⟩ := le_keep best e
      have hkept := hmax (best.keep e) List.mem_cons_self
      rw [List.foldl_cons]
      constructor
      · rcases List.mem_cons.1 hmem with hsame | hlater
        · rw [hsame]
          rcases keep_cases best e with hkeep | hkeep
          · rw [hkeep]
            exact List.mem_cons_self
          · rw [hkeep]
            exact List.mem_cons_of_mem best List.mem_cons_self
        · exact List.mem_cons_of_mem best (List.mem_cons_of_mem e hlater)
      · intro a ha
        rcases List.mem_cons.1 ha with rfl | hrest
        · exact Nat.le_trans hbest hkept
        · rcases List.mem_cons.1 hrest with rfl | hlater
          · exact Nat.le_trans he hkept
          · exact hmax a (List.mem_cons_of_mem _ hlater)

end Entry

namespace NameTable

theorem lastLongest?_eq_none_iff {entries : List Entry} :
    lastLongest? entries = none ↔ entries = [] := by
  cases entries with
  | nil => exact ⟨fun _ => rfl, fun _ => rfl⟩
  | cons e later => simp [lastLongest?]

theorem maximal_of_lastLongest? {entries : List Entry} {e : Entry}
    (h : lastLongest? entries = some e) :
    e ∈ entries ∧ ∀ a ∈ entries, a.name.byteLength ≤ e.name.byteLength := by
  cases entries with
  | nil => exact absurd h.symm (Option.some_ne_none e)
  | cons front later =>
      obtain rfl : later.foldl Entry.keep front = e := Option.some.inj h
      exact Entry.foldl_keep front later

/-! ### What the pass finds -/

variable {table : NameTable} {listing : List Entry} {inner : Text}

/-- The last of the longest names at the head of a text is the one that the table has. -/
theorem Lists.lastLongest?_eq (h : table.Lists listing) (inner : Text) :
    lastLongest? (listing.filter fun e => e.Heads inner) = table.longest? inner := by
  rw [← h.longestIn_eq inner]
  cases hlast : lastLongest? (listing.filter fun e => e.Heads inner) with
  | none =>
      have hnone := List.filter_eq_nil_iff.1 (lastLongest?_eq_none_iff.1 hlast)
      rw [longestIn_eq_none_iff.2 (by simpa using hnone)]
  | some e =>
      -- a longest name is determined by its length, so it does not matter which one is last
      obtain ⟨hmem, hmax⟩ := maximal_of_lastLongest? hlast
      obtain ⟨hlisted, hheads⟩ := List.mem_filter.1 hmem
      have hlongest : longestIn listing inner = some e := by
        rw [longestIn_eq_some_iff h.eq_of_name_eq]
        refine ⟨hlisted, of_decide_eq_true hheads, fun a ha hhead => ?_⟩
        exact hmax a (List.mem_filter.2 ⟨ha, decide_eq_true hhead⟩)
      rw [hlongest]

/-- The pass finds the longest name that the table has there, if it is set. -/
theorem Lists.search?_eq (h : table.Lists listing) (inner : Text) :
    search? listing ('$' :: '<' :: inner) =
      (table.longest? inner).bind fun e =>
        e.value.map fun text => (text, e.name.byteLength) := by
  have hinner : Text.dropBytes ('$' :: '<' :: inner) 2 = inner :=
    Text.dropBytes_append ['$', '<'] inner
  rw [search?, hinner, h.lastLongest?_eq inner]

/-- A reference stands for the longest name, if it is set. -/
theorem resolve?_bind_eq (table : NameTable) (inner : Text) :
    ((table.resolve? inner).bind fun e => e.value.map fun text => (text, e.name.byteLength)) =
      (table.longest? inner).bind fun e => e.value.map fun text => (text, e.name.byteLength) := by
  have hresolve : table.resolve? inner =
      (table.longest? inner).filter fun e => e.value.isSome := rfl
  rw [hresolve]
  cases table.longest? inner with
  | none => rfl
  | some e =>
      cases hvalue : e.value with
      | none => simp [Option.filter, hvalue]
      | some text => simp [Option.filter, hvalue]

/-- Where a declared name is closed at the head of a text, one of these is the longest. -/
theorem exists_isLongest {name : Text} (hdeclared : (table.find? name).isSome)
    (hclosed : name ++ ['>'] <+: inner) : ∃ longest, table.IsLongest longest inner := by
  obtain ⟨e, he, rfl⟩ := (find?_isSome_iff table name).1 hdeclared
  cases hlongest : table.longest? inner with
  | none => exact absurd hclosed (longestIn_eq_none_iff.1 hlongest e he)
  | some e' => exact ⟨e'.name, ((longest?_eq_some_iff table inner e').1 hlongest).1⟩

end NameTable

/-- In whatever order the names of a table come, a pass over them answers a reference
alike, and as the table does.  Where declared names are closed behind the bracket, exactly
one of them is the longest; the answer is its text with its number of bytes if it is set,
and nothing if it is not, whatever shorter names stand for.  Where no declared name is
closed there, the answer is nothing. -/
theorem search?_of_lists {table : NameTable} {listing : List Entry}
    (h : table.Lists listing) (inner : Text) :
    (∀ name other, table.IsLongest name inner → table.IsLongest other inner → name = other) ∧
      (∀ name, (table.find? name).isSome → name ++ ['>'] <+: inner →
        ∃ longest, table.IsLongest longest inner) ∧
      (∀ name, table.IsLongest name inner →
        NameTable.search? listing ('$' :: '<' :: inner) =
          (table.value? name).map fun text => (text, name.byteLength)) ∧
      ((∀ name, (table.find? name).isSome → ¬ name ++ ['>'] <+: inner) →
        NameTable.search? listing ('$' :: '<' :: inner) = none) ∧
      (∀ listing', table.Lists listing' →
        NameTable.search? listing' ('$' :: '<' :: inner) =
          NameTable.search? listing ('$' :: '<' :: inner)) ∧
      NameTable.search? listing ('$' :: '<' :: inner) =
        (table.resolve? inner).bind fun e =>
          e.value.map fun text => (text, e.name.byteLength) := by
  refine ⟨fun name other hname hother => hname.eq hother,
    fun name hdeclared hclosed => NameTable.exists_isLongest hdeclared hclosed,
    fun name hname => ?_, fun hnone => ?_, fun listing' h' => ?_, ?_⟩
  · obtain ⟨value, hvalue⟩ := Option.isSome_iff_exists.1 hname.declared
    have hlongest : table.longest? inner = some ⟨name, value⟩ :=
      (NameTable.longest?_eq_some_iff table inner ⟨name, value⟩).2 ⟨hname, hvalue⟩
    rw [h.search?_eq, hlongest, NameTable.value?, hvalue]
    rfl
  · have hlongest : table.longest? inner = none := by
      apply NameTable.longestIn_eq_none_iff.2
      intro e he
      exact hnone e.name ((NameTable.find?_isSome_iff table e.name).2 ⟨e, he, rfl⟩)
    rw [h.search?_eq, hlongest]
    rfl
  · rw [h'.search?_eq, h.search?_eq]
  · rw [h.search?_eq, NameTable.resolve?_bind_eq]

/-- A name is closed inside another one that is not set.  Nothing is found for the longer
one, from either end of the listing, and the shorter one where the longer one is broken
off. -/
theorem search?_of_lists_shadowed :
    let table := ((NameTable.empty.insert ['é'] (some ['x'])).insert ['é', '>', 'w'] none).insert
      [] (some ['y'])
    let listing : List Entry := [⟨['é', '>', 'w'], none⟩, ⟨['é'], some ['x']⟩, ⟨[], some ['y']⟩]
    table.Lists listing ∧ table.Lists listing.reverse ∧
      NameTable.search? listing ['$', '<', 'é', '>', 'w', '>'] = none ∧
      NameTable.search? listing.reverse ['$', '<', 'é', '>', 'w', '>'] = none ∧
      NameTable.search? listing.reverse ['$', '<', 'é', '>', 'w'] = some (['x'], 2) := by
  intro table listing
  have hlists : table.Lists listing := by decide
  have hlists' : table.Lists listing.reverse := by decide
  obtain ⟨-, -, -, -, hsame, hanswer⟩ := search?_of_lists hlists ['é', '>', 'w', '>']
  obtain ⟨-, -, -, -, -, hanswer'⟩ := search?_of_lists hlists' ['é', '>', 'w']
  have hnone : NameTable.search? listing ['$', '<', 'é', '>', 'w', '>'] = none :=
    hanswer.trans (by decide)
  exact ⟨hlists, hlists', hnone, (hsame _ hlists').trans hnone, hanswer'.trans (by decide)⟩

/-- If a name is listed twice, the order does count. -/
example :
    NameTable.search? [⟨['n'], some ['a']⟩, ⟨['n'], none⟩] ['$', '<', 'n', '>'] = none ∧
      NameTable.search? [⟨['n'], none⟩, ⟨['n'], some ['a']⟩] ['$', '<', 'n', '>'] =
        some (['a'], 1) := by
  decide

end MatchTemplate
