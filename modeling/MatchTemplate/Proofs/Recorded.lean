import MatchTemplate.Match.Group

/-!
# What a match tells of its groups

Groups are added to a match one after the other, and they fill two structures: the list
of slots and the table of names.  After every step both answer as the groups so far say.
A slot holds what the group of its number had, a name what the last group that is called
so had, even if that is nothing (`Match.records_ofGroups`).  Adding a group changes no
other slot and no other name (`history_records`).
-/

namespace MatchTemplate

/-- All that a match tells is what was recorded: its place, its text and these groups. -/
structure Match.Records (m : Match) (offset : Nat) (whole : Text) (groups : List Group) :
    Prop where
  offset_eq : m.offset = offset
  whole_eq : m.whole = whole
  slot_zero : m.slot? 0 = some whole
  /-- Slot `n + 1` holds what the group with that number among those with a slot had. -/
  slot : ∀ n, m.slot? (n + 1) = (groups.filterMap Group.slot?)[n]?.join
  /-- A name stands for what the last group that is called so had. -/
  last : ∀ name front value later, groups = front ++ .named name value :: later →
    (∀ other, .named name other ∉ later) → m.value? name = value
  undeclared : ∀ name, (∀ value, .named name value ∉ groups) → m.value? name = none
  hasNames : m.hasNames ↔ ∃ g ∈ groups, g = .table ∨ ∃ name value, g = .named name value
  /-- A declared name stands for what some slot holds. -/
  mem_slots : ∀ name value, m.table.find? name = some value → value ∈ m.slots

theorem Group.hasTable_iff (g : Group) :
    g.hasTable ↔ g = .table ∨ ∃ name value, g = .named name value := by
  cases g with
  | slot value => simp [hasTable]
  | named name value => simp [hasTable]
  | table => simp [hasTable]

/-- What a named group has goes into a slot. -/
theorem Group.mem_filterMap_slot? {name : Text} {value : Option Text} {groups : List Group}
    (h : .named name value ∈ groups) : value ∈ groups.filterMap slot? :=
  List.mem_filterMap.2 ⟨.named name value, h, rfl⟩

namespace Match

variable (offset : Nat) (whole : Text) (groups : List Group)

theorem value?_ofGroups (name : Text) :
    (ofGroups offset whole groups).value? name = (Group.lastNamed? name groups).join := by
  rw [value?, NameTable.value?, find?_table_ofGroups]

/-- A match with all the groups, and no others, tells what they say. -/
theorem records_ofGroups : (ofGroups offset whole groups).Records offset whole groups where
  offset_eq := offset_ofGroups offset whole groups
  whole_eq := whole_ofGroups offset whole groups
  slot_zero := by rw [slot?_zero, whole_ofGroups]
  slot n := by rw [slot?_succ, slots_ofGroups]
  last name front value later hgroups hlater := by
    rw [value?_ofGroups, hgroups, Group.lastNamed?_append_named hlater]
    rfl
  undeclared name hnone := by
    rw [value?_ofGroups, Group.lastNamed?_of_not_mem hnone]
    rfl
  hasNames := by simp only [hasNames_ofGroups, List.any_eq_true, Group.hasTable_iff]
  mem_slots name value hfind := by
    rw [find?_table_ofGroups] at hfind
    rw [slots_ofGroups]
    exact Group.mem_filterMap_slot? (Group.mem_of_lastNamed? hfind)

variable {groups}

/-- Groups that are added change no slot that is there, and no name but their own. -/
theorem foldl_add_keeps (m : Match) (later : List Group) :
    m.slots <+: (later.foldl add m).slots ∧
      ∀ name, (∀ value, .named name value ∉ later) →
        (later.foldl add m).table.find? name = m.table.find? name := by
  refine ⟨⟨_, (slots_foldl_add m later).symm⟩, fun name hnone => ?_⟩
  rw [find?_table_foldl_add, Group.lastNamed?_of_not_mem hnone]
  rfl

/-- A match of a history comes from an earlier one by the groups between them. -/
theorem foldl_add_ofGroups {i j : Nat} (h : i ≤ j) :
    ((groups.take j).drop i).foldl add (ofGroups offset whole (groups.take i)) =
      ofGroups offset whole (groups.take j) := by
  have hfront : (groups.take j).take i = groups.take i := by
    rw [List.take_take, Nat.min_eq_left h]
  rw [ofGroups, ← hfront, ← List.foldl_append, List.take_append_drop]
  rfl

end Match

/-- Every match of a history tells what the groups so far say, and nothing else: the
offset and the whole match, one slot for every group that takes one, for every name the
value of the last group that is called so, and whether there is a table of names.  From
one match of the history to any later one, all slots stay what they are, and so do all
names that no group between them has.  Adding a table to a match keeps the one it has. -/
theorem history_records (offset : Nat) (whole : Text) (groups : List Group) :
    (∀ i ≤ groups.length, ∃ m, (Match.history offset whole groups)[i]? = some m ∧
        m.Records offset whole (groups.take i)) ∧
      (∀ i j, i ≤ j → j ≤ groups.length → ∃ m m',
        (Match.history offset whole groups)[i]? = some m ∧
          (Match.history offset whole groups)[j]? = some m' ∧ m.slots <+: m'.slots ∧
          ∀ name, (∀ value, .named name value ∉ (groups.take j).drop i) →
            m'.table.find? name = m.table.find? name) ∧
      ∀ m ∈ Match.history offset whole groups, ∀ name,
        (m.add .table).table.find? name = m.table.find? name := by
  refine ⟨fun i hi => ?_, fun i j hij hj => ?_, fun m _ name => ?_⟩
  · exact ⟨_, Match.getElem?_history offset whole hi, Match.records_ofGroups offset whole _⟩
  · have hkeeps := Match.foldl_add_keeps (Match.ofGroups offset whole (groups.take i))
      ((groups.take j).drop i)
    rw [Match.foldl_add_ofGroups offset whole hij] at hkeeps
    exact ⟨_, _, Match.getElem?_history offset whole (Nat.le_trans hij hj),
      Match.getElem?_history offset whole hj, hkeeps⟩
  · rw [Match.find?_table_add]
    rfl

/-- A name that was set stands for nothing once a group without a value is called so, and
the value stays in its slot.  The empty name and a second table change neither. -/
theorem history_records_overwritten :
    let groups : List Group := [.slot none, .named ['n'] (some ['é']), .table, .named ['n'] none,
      .named [] (some [])]
    4 ≤ groups.length ∧
      ∃ m, (Match.history 3 ['é'] groups)[4]? = some m ∧ m.offset = 3 ∧
        m.slot? 2 = some ['é'] ∧ m.slot? 3 = none ∧ m.slot? 4 = none ∧
        m.value? ['n'] = none ∧ m.value? [] = none := by
  intro groups
  have hlength : 4 ≤ groups.length := by decide
  obtain ⟨m, hhistory, hrecords⟩ := (history_records 3 ['é'] groups).1 4 hlength
  refine ⟨hlength, m, hhistory, hrecords.offset_eq, hrecords.slot 1, hrecords.slot 2,
    hrecords.slot 3, ?_, ?_⟩
  · exact hrecords.last ['n'] (groups.take 3) none [] rfl (fun _ => List.not_mem_nil)
  · exact hrecords.undeclared [] (by simp [groups])

end MatchTemplate
