import MatchTemplate.Match.Group
import MatchTemplate.NameTable.Unset
import MatchTemplate.Proofs.ValueIndependence
import MatchTemplate.Template.Closed

/-!
# Groups that took no part

A group that took no part in a match adds no text to it.  If the group is named, the
name competes all the same with those at the head of a text.  It can win there
against a set name only if it goes on behind that name and a closing bracket, and the
reference then stands for nothing.  All other groups of this kind leave every expansion
as it was (`expand_foldl_add_of_isAbsent`).
-/

namespace MatchTemplate

/-- The group adds no text to the match, and no name that the match declares. -/
def Group.IsAbsent (m : Match) : Group → Prop
  | .slot value => value = none
  | .named name value => value = none ∧ m.table.declares name = false
  | .table => True

instance (m : Match) : (g : Group) → Decidable (g.IsAbsent m)
  | .slot value => inferInstanceAs (Decidable (value = none))
  | .named name value => inferInstanceAs (Decidable (value = none ∧ m.table.declares name = false))
  | .table => inferInstanceAs (Decidable True)

/-- A set name of the match, closed by a bracket, stands at the head of `name`. -/
def Match.HasSetHead (m : Match) (name : Text) : Prop :=
  ∃ e ∈ m.table.entries, e.value.isSome ∧ e.Heads name

instance (m : Match) (name : Text) : Decidable (m.HasSetHead name) :=
  inferInstanceAs (Decidable (∃ e ∈ m.table.entries, e.value.isSome ∧ e.Heads name))

/-- A reference to a new name means nothing unless a set name stands at the head of it. -/
theorem Match.resolve?_closed_eq_none {m : Match} {name : Text}
    (hnew : m.table.find? name = none) (hhead : ¬ m.HasSetHead name) :
    m.table.resolve? (name ++ ['>']) = none := by
  cases hresolve : m.table.resolve? (name ++ ['>']) with
  | none => rfl
  | some e =>
      obtain ⟨hlongest, hfind, hset⟩ := (NameTable.resolve?_eq_some_iff _ _ e).1 hresolve
      have hmem : e ∈ m.table.entries := (NameTable.mem_entries_iff _ e).2 hfind
      rcases List.prefix_concat_iff.1 hlongest.heads with hsame | hshorter
      · obtain rfl : e.name = name := List.append_cancel_right hsame
        rw [hnew] at hfind
        exact absurd hfind.symm (Option.some_ne_none _)
      · exact absurd ⟨e, hmem, hset, hshorter⟩ hhead

/-! ### Matches with more groups -/

namespace Match

variable {m : Match} {groups : List Group}

/-- What absent groups enter for a name is no text, and they enter it only for a name
that is new. -/
theorem lastNamed?_of_isAbsent (h : ∀ g ∈ groups, g.IsAbsent m) {name : Text}
    {value : Option Text} (hlast : Group.lastNamed? name groups = some value) :
    Group.named name none ∈ groups ∧ value = none ∧ m.table.find? name = none := by
  have hmem := Group.mem_of_lastNamed? hlast
  obtain ⟨rfl, hnew⟩ := h _ hmem
  exact ⟨hmem, rfl, by simpa [NameTable.declares] using hnew⟩

theorem value?_foldl_add_of_isAbsent (h : ∀ g ∈ groups, g.IsAbsent m) (name : Text) :
    (groups.foldl add m).value? name = m.value? name := by
  unfold value? NameTable.value?
  rw [find?_table_foldl_add]
  cases hlast : Group.lastNamed? name groups with
  | none => rfl
  | some value =>
      obtain ⟨-, rfl, hnew⟩ := lastNamed?_of_isAbsent h hlast
      rw [hnew]
      rfl

theorem slot?_foldl_add_of_isAbsent (h : ∀ g ∈ groups, g.IsAbsent m) (n : Nat) :
    (groups.foldl add m).slot? n = m.slot? n := by
  cases n with
  | zero => exact congrArg some (whole_foldl_add m groups)
  | succ n =>
      have hunset : ∀ value ∈ groups.filterMap Group.slot?, value = none := by
        intro value hmem
        obtain ⟨g, hg, hslot⟩ := List.mem_filterMap.1 hmem
        have habsent := h g hg
        cases g with
        | slot other => exact (Option.some.inj hslot).symm.trans habsent
        | named name other => exact (Option.some.inj hslot).symm.trans habsent.1
        | table => exact absurd hslot (Option.some_ne_none value).symm
      rw [slot?_succ, slot?_succ, slots_foldl_add, List.getElem?_append]
      split
      · rfl
      · rename_i hbehind
        rw [List.getElem?_eq_none (Nat.le_of_not_lt hbehind)]
        -- behind the slots of the match there are none that are set
        cases hget : (groups.filterMap Group.slot?)[n - m.slots.length]? with
        | none => rfl
        | some value =>
            rw [hunset value (List.mem_of_getElem? hget)]
            rfl

/-- Absent groups add unset names to the table, if references to these meant nothing
before. -/
theorem addsUnset_foldl_add (h : ∀ g ∈ groups, g.IsAbsent m)
    (hadded : ∀ name, Group.named name none ∈ groups →
      m.table.resolve? (name ++ ['>']) = none) :
    m.table.AddsUnset (groups.foldl add m).table where
  values := value?_foldl_add_of_isAbsent h
  declared name hdeclared := by
    rw [find?_table_foldl_add, Option.isSome_or, hdeclared, Bool.or_true]
  added name hdeclared hnew := by
    rw [find?_table_foldl_add, hnew, Option.or_none] at hdeclared
    obtain ⟨value, hlast⟩ := Option.isSome_iff_exists.1 hdeclared
    exact hadded name (lastNamed?_of_isAbsent h hlast).1

end Match

/-! ### The same expansion -/

/-- Matches in the same place with the same texts, in which references by name mean the
same, have the same expansions and notices. -/
theorem expand_congr {m m' : Match} (hoffset : m.offset = m'.offset) (htexts : m.SameTexts m')
    (hresolve : ∀ rest, m.table.resolve? rest = m'.table.resolve? rest)
    (source template : Text) :
    expand source (some m) template = expand source (some m') template := by
  have hread : Token.read m template = Token.read m' template :=
    Token.read_congr (fun index => by rw [htexts.slots]) hresolve template
  have hvalue : Token.value m source = Token.value m' source := by
    funext token
    show token.render (m.insertions source) = token.render (m'.insertions source)
    apply Token.render_congr htexts
    · intro _
      rw [Match.before, Match.before, hoffset]
    · intro _
      rw [Match.after, Match.after, hoffset, htexts.whole]
  simp only [expand, Match.expansion, Match.unresolved, hread, hvalue]

/-- Absent groups change no expansion if references to their names meant nothing before. -/
theorem expand_foldl_add_congr {m : Match} {groups : List Group}
    (h : ∀ g ∈ groups, g.IsAbsent m)
    (hadded : ∀ name, Group.named name none ∈ groups →
      m.table.resolve? (name ++ ['>']) = none) (source template : Text) :
    expand source (some (groups.foldl Match.add m)) template =
      expand source (some m) template := by
  apply expand_congr
  · exact Match.offset_foldl_add m groups
  · exact
      { whole := Match.whole_foldl_add m groups
        slots := fun index => Match.slot?_foldl_add_of_isAbsent h (index + 1)
        values := Match.value?_foldl_add_of_isAbsent h }
  · exact (Match.addsUnset_foldl_add h hadded).resolve?_eq

/-- A bracket at the front of a template is reported exactly if nothing is named there. -/
theorem Match.mem_unresolved_bracket_iff (m : Match) (t : Text) :
    ('$' :: '<' :: t) ∈ m.unresolved ('$' :: '<' :: t) ↔ m.table.resolve? t = none := by
  constructor
  · intro hmem
    cases hresolve : m.table.resolve? t with
    | none => rfl
    | some e =>
        -- reading goes on behind the name, so all that is reported is shorter
        obtain ⟨tail, rfl⟩ := NameTable.heads_of_resolveIn hresolve
        rw [List.append_assoc, List.singleton_append] at hresolve hmem
        rw [(m.expansion_of_read [] (Token.read_named m hresolve)).2] at hmem
        have hlater : ('$' :: '<' :: (e.name ++ '>' :: tail)) ∈ m.unresolved tail := hmem
        have hlen := (Token.suffix_of_mem_openings hlater).length_le
        rw [Token.lexemes_read] at hlen
        simp only [List.length_cons, List.length_append] at hlen
        omega
  · intro hresolve
    rw [(m.expansion_of_read [] (Token.read_openBracket m hresolve)).2]
    exact List.mem_append_left _ List.mem_cons_self

/-- An unset name is noticed in the expansion of a reference to it, if that reference
meant something before. -/
theorem resolve?_closed_eq_none_of_expand_eq {m : Match} {name source : Text}
    (h : expand source (some (m.add (.named name none))) ('$' :: '<' :: (name ++ ['>'])) =
      expand source (some m) ('$' :: '<' :: (name ++ ['>']))) :
    m.table.resolve? (name ++ ['>']) = none := by
  have hfind : (m.add (.named name none)).table.find? name = some none := by
    simp [Group.valueOf?]
  have hreported := (Match.mem_unresolved_bracket_iff (m.add (.named name none)) _).2
    (NameTable.resolve?_closed_of_unset hfind)
  have hsame : (m.add (.named name none)).unresolved ('$' :: '<' :: (name ++ ['>'])) =
      m.unresolved ('$' :: '<' :: (name ++ ['>'])) := by
    apply List.map_injective_iff.2 (fun _ _ hrest => Notice.unresolvedName.inj hrest)
    exact congrArg Logged.notices h
  rw [hsame] at hreported
  exact (m.mem_unresolved_bracket_iff _).1 hreported

/-- Groups that take no part in a match and bring no name that it declares leave every
expansion and its notices as they are, if no set name stands at the head of a name among
them.  A single unset name does so exactly if a reference to it meant nothing before.
That it is unset is not enough: it may be longer than a set name at the head of a
reference, which then stands for nothing. -/
theorem expand_foldl_add_of_isAbsent :
    (∀ (m : Match) (groups : List Group), (∀ g ∈ groups, g.IsAbsent m) →
        (∀ name, Group.named name none ∈ groups → ¬ m.HasSetHead name) →
        ∀ source template, expand source (some (groups.foldl Match.add m)) template =
          expand source (some m) template) ∧
      (∀ (m : Match) (name : Text), m.table.declares name = false →
        ((∀ source template, expand source (some (m.add (.named name none))) template =
            expand source (some m) template) ↔
          m.table.resolve? (name ++ ['>']) = none)) ∧
      ∃ (m : Match) (name source template : Text),
        m.table.declares name = false ∧ m.HasSetHead name ∧
          (expand source (some (m.add (.named name none))) template).result ≠
            (expand source (some m) template).result := by
  refine ⟨fun m groups h hhead source template => ?_, fun m name hnew => ⟨fun h => ?_, ?_⟩, ?_⟩
  · apply expand_foldl_add_congr h
    intro name hmem
    have hnew : m.table.find? name = none := by simpa [NameTable.declares] using (h _ hmem).2
    exact Match.resolve?_closed_eq_none hnew (hhead name hmem)
  · exact resolve?_closed_eq_none_of_expand_eq (h [] _)
  · intro hresolve source template
    have habsent : ∀ g ∈ [Group.named name none], g.IsAbsent m := by
      intro g hg
      rw [List.mem_singleton.1 hg]
      exact ⟨rfl, hnew⟩
    have hadded : ∀ other, Group.named other none ∈ [Group.named name none] →
        m.table.resolve? (other ++ ['>']) = none := by
      intro other hother
      obtain ⟨rfl, -⟩ := Group.named.inj (List.mem_singleton.1 hother)
      exact hresolve
    exact expand_foldl_add_congr habsent hadded source template
  · refine ⟨⟨0, [], [some ['x']], some (NameTable.empty.insert ['k'] (some ['x']))⟩,
      ['k', '>', 'w'], [], ['$', '<', 'k', '>', 'w', '>'], ?_⟩
    decide

/-- One name goes on behind an unset name and its bracket, another one behind a set name
without a bracket. -/
theorem expand_foldl_add_of_isAbsent_brackets :
    let m : Match := ⟨1, ['é'], [some ['é'], none],
      some ((NameTable.empty.insert ['k'] (some ['é'])).insert ['n'] none)⟩
    let groups : List Group :=
      [.slot none, .named ['n', '>', 'k'] none, .table, .named ['k', 'k'] none]
    (∀ g ∈ groups, g.IsAbsent m) ∧
      (∀ name, Group.named name none ∈ groups → ¬ m.HasSetHead name) ∧
      expand ['a', 'é'] (some (groups.foldl Match.add m))
          ['$', '<', 'n', '>', 'k', '>', '$', '<', 'k', '>', '$', '4'] =
        ⟨some ['$', '<', 'n', '>', 'k', '>', 'é', '$', '4'],
          [.unresolvedName ['$', '<', 'n', '>', 'k', '>', '$', '<', 'k', '>', '$', '4']]⟩ := by
  intro m groups
  have habsent : ∀ g ∈ groups, g.IsAbsent m := by decide
  have hhead : ∀ name, Group.named name none ∈ groups → ¬ m.HasSetHead name := by
    intro name hmem
    have hname : name = ['n', '>', 'k'] ∨ name = ['k', 'k'] := by simpa [groups] using hmem
    rcases hname with rfl | rfl
    · decide
    · decide
  refine ⟨habsent, hhead, ?_⟩
  rw [expand_foldl_add_of_isAbsent.1 m groups habsent hhead]
  decide

end MatchTemplate
