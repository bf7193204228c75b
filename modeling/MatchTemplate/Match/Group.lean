import MatchTemplate.Match.Basic

/-!
# Matches put together from their groups

A match can be described group by group.  `Match.ofGroups` adds a list of
groups to a match that has none, and `Match.history` keeps every match on the
way.  A named group takes the next slot and is entered in the table of names,
where the last group of a name is the one that counts
(`Match.find?_table_foldl_add`).
-/

namespace MatchTemplate

/-- One step in the description of a match. -/
inductive Group where
  /-- The next slot. -/
  | slot (value : Option Text)
  /-- The next slot, and a name for what it holds. -/
  | named (name : Text) (value : Option Text)
  /-- A table of names, without a name or a slot. -/
  | table
deriving DecidableEq, Repr

/-- What the group puts into the next slot, if it takes one. -/
def Group.slot? : Group → Option (Option Text)
  | .slot value => some value
  | .named _ value => some value
  | .table => none

/-- What the group enters for `name` in the table of names, if it is called so. -/
def Group.valueOf? (name : Text) : Group → Option (Option Text)
  | .named other value => if other = name then some value else none
  | .slot _ => none
  | .table => none

/-- Whether a match has a table of names once the group is added. -/
def Group.hasTable : Group → Bool
  | .slot _ => false
  | .named _ _ => true
  | .table => true

/-- What the last of the groups called `name` holds. -/
def Group.lastNamed? (name : Text) : List Group → Option (Option Text)
  | [] => none
  | g :: rest => (lastNamed? name rest).or (g.valueOf? name)

/-- The last group of a name is one of the groups. -/
theorem Group.mem_of_lastNamed? {name : Text} {value : Option Text} {groups : List Group}
    (h : lastNamed? name groups = some value) : .named name value ∈ groups := by
  induction groups with
  | nil => exact absurd h (Option.some_ne_none value).symm
  | cons g rest ih =>
      rw [lastNamed?] at h
      rcases Option.or_eq_some_iff.1 h with hlater | ⟨-, hhead⟩
      · exact List.mem_cons_of_mem g (ih hlater)
      · cases g with
        | slot other => exact absurd hhead (Option.some_ne_none value).symm
        | named other value' =>
            obtain ⟨rfl, rfl⟩ : other = name ∧ value' = value := by simpa [valueOf?] using hhead
            exact List.mem_cons_self
        | table => exact absurd hhead (Option.some_ne_none value).symm

/-- Groups that come later count before those in front of them. -/
theorem Group.lastNamed?_append (name : Text) (front later : List Group) :
    lastNamed? name (front ++ later) = (lastNamed? name later).or (lastNamed? name front) := by
  induction front with
  | nil => exact (Option.or_none).symm
  | cons g front ih => rw [List.cons_append, lastNamed?, lastNamed?, ih, Option.or_assoc]

theorem Group.lastNamed?_of_not_mem {name : Text} {groups : List Group}
    (h : ∀ value, .named name value ∉ groups) : lastNamed? name groups = none := by
  cases hlast : lastNamed? name groups with
  | none => rfl
  | some value => exact absurd (mem_of_lastNamed? hlast) (h value)

/-- A group of a name is the last one if none of that name comes later. -/
theorem Group.lastNamed?_append_named {name : Text} {later : List Group}
    (h : ∀ value, .named name value ∉ later) (front : List Group) (value : Option Text) :
    lastNamed? name (front ++ .named name value :: later) = some value := by
  rw [lastNamed?_append, lastNamed?, lastNamed?_of_not_mem h]
  simp [valueOf?]

namespace Match

/-- The match with one group more. -/
def add (m : Match) : Group → Match
  | .slot value => { m with slots := m.slots ++ [value] }
  | .named name value =>
      { m with
        slots := m.slots ++ [value]
        names := some (m.table.insert name value) }
  | .table => { m with names := some m.table }

/-- The match that results from adding the groups in order. -/
def ofGroups (offset : Nat) (whole : Text) (groups : List Group) : Match :=
  groups.foldl add (ofWhole offset whole)

/-- The matches from the one without groups to the one with all of them. -/
def history (offset : Nat) (whole : Text) (groups : List Group) : List Match :=
  groups.scanl add (ofWhole offset whole)

@[simp] theorem offset_add (m : Match) (g : Group) : (m.add g).offset = m.offset := by
  cases g <;> rfl

@[simp] theorem whole_add (m : Match) (g : Group) : (m.add g).whole = m.whole := by
  cases g <;> rfl

@[simp] theorem slots_add (m : Match) (g : Group) :
    (m.add g).slots = m.slots ++ g.slot?.toList := by
  cases g <;> simp [add, Group.slot?]

@[simp] theorem hasNames_add (m : Match) (g : Group) :
    (m.add g).hasNames = (m.hasNames || g.hasTable) := by
  cases g <;> simp [add, hasNames, Group.hasTable]

@[simp] theorem find?_table_add (m : Match) (g : Group) (name : Text) :
    (m.add g).table.find? name = (g.valueOf? name).or (m.table.find? name) := by
  cases g with
  | slot value => rfl
  | named other value =>
      have htable : (m.add (.named other value)).table = m.table.insert other value := rfl
      simp only [htable, NameTable.find?_insert, Group.valueOf?]
      split <;> rfl
  | table => rfl

/-! ### Several groups -/

theorem offset_foldl_add (m : Match) (groups : List Group) :
    (groups.foldl add m).offset = m.offset := by
  induction groups generalizing m with
  | nil => rfl
  | cons g groups ih => simp [ih]

theorem whole_foldl_add (m : Match) (groups : List Group) :
    (groups.foldl add m).whole = m.whole := by
  induction groups generalizing m with
  | nil => rfl
  | cons g groups ih => simp [ih]

/-- The slots are filled in the order of the groups that take one. -/
theorem slots_foldl_add (m : Match) (groups : List Group) :
    (groups.foldl add m).slots = m.slots ++ groups.filterMap Group.slot? := by
  induction groups generalizing m with
  | nil => simp
  | cons g groups ih => cases h : g.slot? <;> simp [ih, h]

theorem hasNames_foldl_add (m : Match) (groups : List Group) :
    (groups.foldl add m).hasNames = (m.hasNames || groups.any Group.hasTable) := by
  induction groups generalizing m with
  | nil => simp
  | cons g groups ih => simp [ih, Bool.or_assoc]

/-- A name stands for what its last group holds. -/
theorem find?_table_foldl_add (m : Match) (groups : List Group) (name : Text) :
    (groups.foldl add m).table.find? name =
      (Group.lastNamed? name groups).or (m.table.find? name) := by
  induction groups generalizing m with
  | nil => rfl
  | cons g groups ih => simp [ih, Group.lastNamed?, Option.or_assoc]

/-! ### Matches with nothing but the groups -/

section OfGroups

variable (offset : Nat) (whole : Text) (groups : List Group)

@[simp] theorem offset_ofGroups : (ofGroups offset whole groups).offset = offset :=
  offset_foldl_add _ groups

@[simp] theorem whole_ofGroups : (ofGroups offset whole groups).whole = whole :=
  whole_foldl_add _ groups

@[simp] theorem slots_ofGroups :
    (ofGroups offset whole groups).slots = groups.filterMap Group.slot? := by
  rw [ofGroups, slots_foldl_add]
  rfl

@[simp] theorem hasNames_ofGroups :
    (ofGroups offset whole groups).hasNames = groups.any Group.hasTable := by
  rw [ofGroups, hasNames_foldl_add]
  rfl

@[simp] theorem find?_table_ofGroups (name : Text) :
    (ofGroups offset whole groups).table.find? name = Group.lastNamed? name groups := by
  rw [ofGroups, find?_table_foldl_add]
  exact Option.or_none

end OfGroups

/-- A history holds the matches with the first groups, for every number of them. -/
theorem getElem?_history (offset : Nat) (whole : Text) {groups : List Group} {i : Nat}
    (h : i ≤ groups.length) :
    (history offset whole groups)[i]? = some (ofGroups offset whole (groups.take i)) := by
  rw [history, List.getElem?_scanl, if_pos h]
  rfl

end Match

end MatchTemplate
