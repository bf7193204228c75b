import MatchTemplate.NameTable.Longest

/-!
# Names found in the text

The longest declared name at the head of a text can be found from the text
alone, by trying its beginnings from the longest to the empty one.  It is
enough to know of each of them whether it is declared; the names need not be
listed (`spelled?_declares`).
-/

namespace MatchTemplate

/-- The longest declared text that has fewer than `bound` characters and is
closed at the head of `rest`. -/
def spelledBelow? (declared : Text → Bool) (rest : Text) : Nat → Option Text
  | 0 => none
  | length + 1 =>
      if declared (rest.take length) ∧ rest.take length ++ ['>'] <+: rest then
        some (rest.take length)
      else
        spelledBelow? declared rest length

/-- The longest declared text that is closed at the head of `rest`. -/
def spelled? (declared : Text → Bool) (rest : Text) : Option Text :=
  spelledBelow? declared rest rest.length

/-- The table has an entry for the name, set or not. -/
def NameTable.declares (table : NameTable) (name : Text) : Bool := (table.find? name).isSome

variable {declared : Text → Bool} {rest : Text}

/-- A name closed at the head of a text is a beginning of it, and not all of it. -/
theorem take_length_of_closed {name : Text} (h : name ++ ['>'] <+: rest) :
    rest.take name.length = name ∧ name.length < rest.length := by
  obtain ⟨tail, rfl⟩ := h
  simp

/-- Of two names closed at the head of one text the one with fewer characters
has fewer bytes. -/
theorem byteLength_le_of_closed {name other : Text} (hname : name ++ ['>'] <+: rest)
    (hother : other ++ ['>'] <+: rest) (hle : other.length ≤ name.length) :
    other.byteLength ≤ name.byteLength := by
  have hbegin : name <+: rest := (List.prefix_append _ _).trans hname
  have hbegin' : other <+: rest := (List.prefix_append _ _).trans hother
  obtain ⟨more, rfl⟩ := List.prefix_of_prefix_length_le hbegin' hbegin hle
  simp

/-- Of two names closed at the head of one text the shorter one is closed inside
the longer one. -/
theorem closed_prefix_of_byteLength_lt {name other : Text} (hname : name ++ ['>'] <+: rest)
    (hother : other ++ ['>'] <+: rest) (hlt : name.byteLength < other.byteLength) :
    name ++ ['>'] <+: other := by
  have hbegin : other <+: rest := (List.prefix_append _ _).trans hother
  have hlen : name.length < other.length := by
    apply Nat.lt_of_not_le
    intro hle
    have hbytes := byteLength_le_of_closed hname hother hle
    omega
  apply List.prefix_of_prefix_length_le hname hbegin
  rw [List.length_append]
  exact hlen

theorem of_spelledBelow?_eq_some {bound : Nat} {name : Text}
    (h : spelledBelow? declared rest bound = some name) :
    declared name ∧ name ++ ['>'] <+: rest ∧
      ∀ other, declared other → other ++ ['>'] <+: rest →
        other.length < bound → other.length ≤ name.length := by
  induction bound with
  | zero => simp [spelledBelow?] at h
  | succ length ih =>
      rw [spelledBelow?] at h
      split at h
      · rename_i hclosed
        obtain rfl : rest.take length = name := by simpa using h
        refine ⟨hclosed.1, hclosed.2, fun other _ hother hlt => ?_⟩
        obtain ⟨-, hshort⟩ := take_length_of_closed hother
        simp only [List.length_take]
        omega
      · rename_i hclosed
        obtain ⟨hdeclared, hname, hlongest⟩ := ih h
        refine ⟨hdeclared, hname, fun other hdeclared' hother hlt => ?_⟩
        -- a name of `length` characters would have been taken before
        have hne : other.length ≠ length := by
          rintro rfl
          obtain ⟨htake, -⟩ := take_length_of_closed hother
          rw [htake] at hclosed
          exact hclosed ⟨hdeclared', hother⟩
        exact hlongest other hdeclared' hother (by omega)

theorem of_spelledBelow?_eq_none {bound : Nat} (h : spelledBelow? declared rest bound = none)
    {name : Text} (hdeclared : declared name) (hname : name ++ ['>'] <+: rest) :
    bound ≤ name.length := by
  induction bound with
  | zero => exact Nat.zero_le _
  | succ length ih =>
      rw [spelledBelow?] at h
      split at h
      · simp at h
      · rename_i hclosed
        have hle := ih h
        have hne : name.length ≠ length := by
          rintro rfl
          obtain ⟨htake, -⟩ := take_length_of_closed hname
          rw [htake] at hclosed
          exact hclosed ⟨hdeclared, hname⟩
        omega

namespace NameTable

variable {table : NameTable}

/-- No two names are both the longest at the head of one text. -/
theorem IsLongest.eq {name other : Text} (h : table.IsLongest name rest)
    (h' : table.IsLongest other rest) : name = other := by
  have hlen : name.byteLength = other.byteLength :=
    Nat.le_antisymm (h'.longest name h.declared h.heads) (h.longest other h'.declared h'.heads)
  exact name_eq_of_heads (a := ⟨name, none⟩) (b := ⟨other, none⟩) h.heads h'.heads hlen

/-- The name that is found is the longest one at the head. -/
theorem isLongest_of_spelled?_eq_some {name : Text}
    (h : spelled? table.declares rest = some name) : table.IsLongest name rest := by
  obtain ⟨hdeclared, hname, hlongest⟩ := of_spelledBelow?_eq_some h
  refine ⟨hdeclared, hname, fun other hdeclared' hother => ?_⟩
  obtain ⟨-, hshort⟩ := take_length_of_closed hother
  exact byteLength_le_of_closed hname hother (hlongest other hdeclared' hother hshort)

/-- Where none is found, no name is the longest one at the head. -/
theorem not_isLongest_of_spelled?_eq_none (h : spelled? table.declares rest = none)
    (name : Text) : ¬ table.IsLongest name rest := by
  intro hlongest
  have hle := of_spelledBelow?_eq_none h hlongest.declared hlongest.heads
  obtain ⟨-, hshort⟩ := take_length_of_closed hlongest.heads
  omega

/-- The name found in the text is that of the longest entry at its head. -/
theorem spelled?_declares (table : NameTable) (rest : Text) :
    spelled? table.declares rest = (table.longest? rest).map Entry.name := by
  cases hlongest : table.longest? rest with
  | none =>
      cases hspelled : spelled? table.declares rest with
      | none => rfl
      | some name =>
          have hname := isLongest_of_spelled?_eq_some hspelled
          obtain ⟨value, hvalue⟩ := Option.isSome_iff_exists.1 hname.declared
          have hfound : table.longest? rest = some ⟨name, value⟩ :=
            (longest?_eq_some_iff table rest ⟨name, value⟩).2 ⟨hname, hvalue⟩
          rw [hlongest] at hfound
          exact absurd hfound (by simp)
  | some e =>
      have he := ((longest?_eq_some_iff table rest e).1 hlongest).1
      cases hspelled : spelled? table.declares rest with
      | none => exact absurd he (not_isLongest_of_spelled?_eq_none hspelled e.name)
      | some name =>
          rw [Option.map_some, he.eq (isLongest_of_spelled?_eq_some hspelled)]

end NameTable

end MatchTemplate
