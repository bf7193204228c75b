import MatchTemplate.NameTable.Spelled
import MatchTemplate.Template.Reading

/-!
# What steers the reading of a template

The shape of a match says which slots from one to nine are set, which names are
declared and which of these are set.  It holds no texts, no offset and no slot
beyond the ninth.  `Shape.read` divides a template into tokens by a shape alone,
and reading a template against a match comes to the same (`Match.read_shape`).
-/

namespace MatchTemplate

/-- What a template can refer to, without the texts.  A name that is not
declared has no entry, and the entry of a name tells whether it is set. -/
@[ext] structure Shape where
  slots : Fin 9 → Bool
  names : Text → Option Bool

/-- The shape of a match. -/
def Match.shape (m : Match) : Shape where
  slots index := (m.slot? (index + 1)).isSome
  names name := (m.table.find? name).map Option.isSome

/-- Two matches have the same shape when the same slots and names are set, and
the same names are declared. -/
theorem Match.shape_eq_iff (m m' : Match) :
    m.shape = m'.shape ↔
      (∀ index : Fin 9, (m.slot? (index + 1)).isSome = (m'.slot? (index + 1)).isSome) ∧
        ∀ name, (m.table.find? name).map Option.isSome =
          (m'.table.find? name).map Option.isSome := by
  rw [Shape.ext_iff, funext_iff, funext_iff]
  rfl

namespace Shape

/-- The name that a reference at the head of `rest` stands for: the longest
declared one there, provided that it is set. -/
def reference? (shape : Shape) (rest : Text) : Option Text :=
  (spelled? (fun name => (shape.names name).isSome) rest).filter
    fun name => shape.names name = some true

/-- What a template can refer to by a shape. -/
def references (shape : Shape) : References where
  isSet := shape.slots
  name? := shape.reference?
  closed h := by
    obtain ⟨hspelled, -⟩ := Option.filter_eq_some_iff.1 h
    exact (of_spelledBelow?_eq_some hspelled).2.1

/-- The tokens of a template, read by a shape. -/
def read (shape : Shape) (template : Text) : List Token :=
  Token.scan (Token.first shape.references) template

end Shape

namespace Match

variable (m : Match)

theorem declares_shape :
    (fun name => (m.shape.names name).isSome) = m.table.declares := by
  funext name
  show ((m.table.find? name).map Option.isSome).isSome = (m.table.find? name).isSome
  rw [Option.isSome_map]

/-- A reference means the same name by the shape as by the table. -/
theorem reference?_shape (rest : Text) :
    m.shape.reference? rest = (m.table.resolve? rest).map Entry.name := by
  have hresolve : m.table.resolve? rest =
      (m.table.longest? rest).filter fun e => e.value.isSome := rfl
  rw [Shape.reference?, declares_shape, NameTable.spelled?_declares, hresolve]
  cases hlongest : m.table.longest? rest with
  | none => rfl
  | some e =>
      have hfind := ((NameTable.longest?_eq_some_iff _ rest e).1 hlongest).2
      have hset : m.shape.names e.name = some e.value.isSome := by
        show (m.table.find? e.name).map Option.isSome = some e.value.isSome
        rw [hfind, Option.map_some]
      cases hvalue : e.value with
      | none => simp [Option.filter, hset, hvalue]
      | some text => simp [Option.filter, hset, hvalue]

/-- A match and its shape have the same references. -/
theorem references_shape : m.shape.references = m.references := by
  ext rest : 2
  · rfl
  · exact m.reference?_shape rest

/-- The shape of a match is enough to read a template against it. -/
theorem read_shape (template : Text) : m.shape.read template = Token.read m template := by
  rw [Shape.read, Token.read, references_shape]

end Match

end MatchTemplate
