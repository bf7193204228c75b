import MatchTemplate.NameTable.Basic

/-!
# Matches

A match says where a pattern was found in a source, which text it covers, and
what its groups hold.  Groups are numbered from one in the order in which they
were added; slot zero is the whole match.  Some groups have a name as well.

Nothing ties a match to the source it is read against.  The texts before and
after it are cut out by offset alone, and a cut that falls outside the source
or inside one of its characters is handled as `before` and `after` say.
-/

namespace MatchTemplate

/-- Occurrence of a pattern.  The table of names is absent, and not merely
empty, when the pattern has no named groups. -/
structure Match where
  offset : Nat
  whole : Text
  slots : List (Option Text)
  names : Option NameTable
deriving DecidableEq, Repr

namespace Match

/-- A match without groups. -/
def ofWhole (offset : Nat) (whole : Text) : Match where
  offset := offset
  whole := whole
  slots := []
  names := none

/-- What slot `n` holds, if there is such a slot and it is set. -/
def slot? (m : Match) : Nat → Option Text
  | 0 => some m.whole
  | n + 1 => m.slots[n]?.join

/-- The names of the match, none of them if it has no table. -/
def table (m : Match) : NameTable := m.names.getD NameTable.empty

/-- What the group called `name` holds, if there is such a group and it is
set. -/
def value? (m : Match) (name : Text) : Option Text := m.table.value? name

/-- Whether the pattern has named groups. -/
def hasNames (m : Match) : Bool := m.names.isSome

/-- The source up to the match.  An offset past the end stands for the end,
and nothing precedes an offset inside a character. -/
def before (m : Match) (source : Text) : Text :=
  source.takeBytes (min m.offset source.byteLength)

/-- The source from the end of the match on.  An end past the end of the
source stands for that, and nothing follows an end inside a character. -/
def after (m : Match) (source : Text) : Text :=
  source.dropBytes (min (m.offset + m.whole.byteLength) source.byteLength)

/-- The bytes that the match covers. -/
def span (m : Match) : Span where
  start := m.offset
  stop := m.offset + m.whole.byteLength

@[simp] theorem slot?_zero (m : Match) : m.slot? 0 = some m.whole := rfl

theorem slot?_succ (m : Match) (n : Nat) : m.slot? (n + 1) = m.slots[n]?.join := rfl

/-- Matches that hold the same texts and answer every look-up alike are equal, if
both of them have a table of names or neither has. -/
theorem ext_find? {m m' : Match} (hoffset : m.offset = m'.offset) (hwhole : m.whole = m'.whole)
    (hslots : m.slots = m'.slots) (hnames : m.hasNames = m'.hasNames)
    (hfind : ∀ name, m.table.find? name = m'.table.find? name) : m = m' := by
  obtain ⟨offset, whole, slots, names⟩ := m
  obtain ⟨offset', whole', slots', names'⟩ := m'
  obtain rfl : offset = offset' := hoffset
  obtain rfl : whole = whole' := hwhole
  obtain rfl : slots = slots' := hslots
  cases names with
  | none =>
      obtain rfl : names' = none := by simpa [hasNames] using hnames
      rfl
  | some table =>
      obtain ⟨table', rfl⟩ := Option.isSome_iff_exists.1 hnames.symm
      have htable : table = table' := NameTable.ext_find? hfind
      rw [htable]

end Match

end MatchTemplate
