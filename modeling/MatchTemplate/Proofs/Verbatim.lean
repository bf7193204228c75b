import Mathlib.Data.List.Infix
import MatchTemplate.Template.Rules

/-!
# Templates that stand for themselves

A template in which the match resolves nothing is copied as it is: stray sigils, `$0`,
references to slots and names that are not set, and brackets that are never closed
(`expand_eq_self`).  Every `$<` in it is reported, from the left to the right, since no
other token can have taken it in.
-/

namespace MatchTemplate

/-- No reference that the match gives a meaning to is spelled anywhere in the
template. -/
structure Match.IsInert (m : Match) (template : Text) : Prop where
  sigil : ¬ ['$', '$'] <:+: template
  whole : ¬ ['$', '&'] <:+: template
  before : ¬ ['$', '\x60'] <:+: template
  after : ¬ ['$', '\x27'] <:+: template
  slots : ∀ index : Fin 9, (m.slot? (index + 1)).isSome →
    ¬ ['$', Token.slotDigit index] <:+: template
  names : ∀ e ∈ m.table.entries, e.value.isSome →
    ¬ '$' :: '<' :: (e.name ++ ['>']) <:+: template

instance (m : Match) (template : Text) : Decidable (m.IsInert template) :=
  decidable_of_iff
    (¬ ['$', '$'] <:+: template ∧ ¬ ['$', '&'] <:+: template ∧
      ¬ ['$', '\x60'] <:+: template ∧ ¬ ['$', '\x27'] <:+: template ∧
      (∀ index : Fin 9, (m.slot? (index + 1)).isSome →
        ¬ ['$', Token.slotDigit index] <:+: template) ∧
      ∀ e ∈ m.table.entries, e.value.isSome → ¬ '$' :: '<' :: (e.name ++ ['>']) <:+: template)
    ⟨fun ⟨hsigil, hwhole, hbefore, hafter, hslots, hnames⟩ =>
        ⟨hsigil, hwhole, hbefore, hafter, hslots, hnames⟩,
      fun h => ⟨h.sigil, h.whole, h.before, h.after, h.slots, h.names⟩⟩

namespace Text

/-- The text from each `$<` to the end, whatever stands around it. -/
def openings (t : Text) : List Text := t.tails.filter fun rest => ['$', '<'] <+: rest

theorem openings_cons_of_not {c : Char} {rest : Text} (h : ¬ ['$', '<'] <+: c :: rest) :
    openings (c :: rest) = openings rest := by
  rw [openings, List.tails_cons, List.filter_cons_of_neg (by simpa using h)]
  rfl

theorem openings_bracket (rest : Text) :
    openings ('$' :: '<' :: rest) = ('$' :: '<' :: rest) :: openings rest := by
  have hbehind : ¬ ['$', '<'] <+: '<' :: rest := by simp
  rw [← openings_cons_of_not hbehind, openings, List.tails_cons,
    List.filter_cons_of_pos (by simp)]
  rfl

end Text

namespace Match.IsInert

variable {m : Match} {template part : Text}

/-- What is spelled in an end of the template is spelled in the template. -/
theorem of_suffix (h : m.IsInert template) (hpart : part <:+ template) : m.IsInert part where
  sigil hin := h.sigil (hin.trans hpart.isInfix)
  whole hin := h.whole (hin.trans hpart.isInfix)
  before hin := h.before (hin.trans hpart.isInfix)
  after hin := h.after (hin.trans hpart.isInfix)
  slots index hset hin := h.slots index hset (hin.trans hpart.isInfix)
  names e he hset hin := h.names e he hset (hin.trans hpart.isInfix)

theorem tail {c : Char} (h : m.IsInert (c :: template)) : m.IsInert template :=
  h.of_suffix (List.suffix_cons c template)

end Match.IsInert

/-- By the rules an inert template expands to itself, and all its brackets are
unresolved. -/
theorem Expands.eq_of_isInert {m : Match} {source t out : Text} {rests : List Text}
    (h : Expands m source t out rests) (hinert : m.IsInert t) : out = t ∧ rests = t.openings := by
  -- a rule for something that is resolved finds its spelling at the front
  induction h with
  | nil => exact ⟨rfl, rfl⟩
  | copied hc _ ih =>
      obtain ⟨rfl, rfl⟩ := ih hinert.tail
      exact ⟨rfl, (Text.openings_cons_of_not (by simp [Ne.symm hc])).symm⟩
  | atEnd => exact ⟨rfl, rfl⟩
  | doubled => exact absurd ⟨[], _, rfl⟩ hinert.sigil
  | whole => exact absurd ⟨[], _, rfl⟩ hinert.whole
  | before => exact absurd ⟨[], _, rfl⟩ hinert.before
  | after => exact absurd ⟨[], _, rfl⟩ hinert.after
  | @slot index text t _ _ hset =>
      exact absurd ⟨[], t, rfl⟩ (hinert.slots index (Option.isSome_of_eq_some hset))
  | @emptySlot index t _ _ _ _ ih =>
      obtain ⟨rfl, rfl⟩ := ih hinert.tail.tail
      obtain ⟨hsigil, -, -, -, hbracket⟩ := Token.slotDigit_ne index
      refine ⟨rfl, ?_⟩
      rw [Text.openings_cons_of_not (by simp [Ne.symm hbracket]),
        Text.openings_cons_of_not (by simp [Ne.symm hsigil])]
  | @named name text t _ _ _ hvalue =>
      have hfind : m.table.find? name = some (some text) := Option.join_eq_some_iff.1 hvalue
      have hmem : ⟨name, some text⟩ ∈ m.table.entries :=
        (NameTable.mem_entries_iff m.table ⟨name, some text⟩).2 hfind
      exact absurd ⟨[], t, by simp⟩ (hinert.names _ hmem rfl)
  | unresolved _ _ ih =>
      obtain ⟨rfl, rfl⟩ := ih hinert.tail.tail
      exact ⟨rfl, (Text.openings_bracket _).symm⟩
  | @other c _ _ _ hc _ ih =>
      obtain ⟨rfl, rfl⟩ := ih hinert.tail
      have hbracket : c ≠ '<' := by
        rintro rfl
        exact hc (by decide)
      exact ⟨rfl, (Text.openings_cons_of_not (by simp [Ne.symm hbracket])).symm⟩

/-- A template in which no reference is spelled that the match gives a meaning to expands
to itself, against every source.  Every `$<` in it is reported, and nothing else. -/
theorem expand_eq_self {m : Match} {template : Text} (h : m.IsInert template) (source : Text) :
    expand source (some m) template =
      ⟨some template, template.openings.map .unresolvedName⟩ := by
  obtain ⟨out, rests, hexpands⟩ := m.exists_expands source template
  obtain ⟨rfl, rfl⟩ := hexpands.eq_of_isInert h
  obtain ⟨hout, hrests⟩ := hexpands.eq_expansion
  rw [expand, hout, hrests]

/-- The template refers to an empty slot, to an unset name and to one that is not
declared.  A set name is never closed, and its letters stand in another reference. -/
theorem expand_eq_self_stray :
    let m : Match := ⟨1, ['é'], [some ['é'], none],
      some ((NameTable.empty.insert ['n'] (some ['é'])).insert ['x'] none)⟩
    let template := ['é', '$', '2', '$', '0', '$', '<', 'x', '>', '$', '<', 'n', 'n', '>',
      '$', ' ', '$', '<', 'n', '$', '<', '$']
    m.IsInert template ∧
      expand ['a', 'é'] (some m) template =
        ⟨some template,
          [.unresolvedName ['$', '<', 'x', '>', '$', '<', 'n', 'n', '>', '$', ' ', '$', '<', 'n',
              '$', '<', '$'],
            .unresolvedName ['$', '<', 'n', 'n', '>', '$', ' ', '$', '<', 'n', '$', '<', '$'],
            .unresolvedName ['$', '<', 'n', '$', '<', '$'],
            .unresolvedName ['$', '<', '$']]⟩ := by
  intro m template
  have hinert : m.IsInert template := by decide
  exact ⟨hinert, (expand_eq_self hinert ['a', 'é']).trans (by decide)⟩

/-- The condition is not necessary: a name that is set is hidden by a longer one that is
not, and so its reference is copied as well. -/
example :
    let m : Match := ⟨0, [], [some ['x'], none],
      some ((NameTable.empty.insert ['k'] (some ['x'])).insert ['k', '>', 'w'] none)⟩
    ¬ m.IsInert ['$', '<', 'k', '>', 'w', '>'] ∧
      m.expansion [] ['$', '<', 'k', '>', 'w', '>'] = ['$', '<', 'k', '>', 'w', '>'] := by
  decide

end MatchTemplate
