import MatchTemplate.Notice
import MatchTemplate.Template.Reading

/-!
# Expanding a template

The expansion of a template is the concatenation of what its tokens stand for.
The texts that come from the match are put in as they are, even where they
contain sigils.  Every `$<` that could not be resolved is reported.
-/

namespace MatchTemplate

/-- The texts that a template can put in. -/
structure Insertions where
  whole : Text
  before : Text
  after : Text
  slots : Fin 9 → Text
  names : Text → Text

/-- The texts that a match puts in where it is read against a source. -/
def Match.insertions (m : Match) (source : Text) : Insertions where
  whole := m.whole
  before := m.before source
  after := m.after source
  slots index := (m.slot? (index + 1)).getD []
  names name := (m.value? name).getD []

namespace Token

/-- What a token puts out: one of the insertions as it is, or a piece of the
template.  A token that refers to nothing puts out its own lexeme. -/
def render (insertions : Insertions) : Token → Text
  | literal run => run
  | sigil => ['$']
  | whole => insertions.whole
  | before => insertions.before
  | after => insertions.after
  | slot index => insertions.slots index
  | named name => insertions.names name
  | emptySlot index => lexeme (emptySlot index)
  | openBracket => lexeme openBracket
  | loneSigil => lexeme loneSigil

/-- What a token stands for in a match. -/
def value (m : Match) (source : Text) : Token → Text := render (m.insertions source)

theorem value_slot {m : Match} {index : Fin 9} {text : Text} (h : m.slot? (index + 1) = some text)
    (source : Text) : (slot index).value m source = text := by
  show (m.slot? (index + 1)).getD [] = text
  rw [h, Option.getD_some]

theorem value_named {m : Match} {name text : Text} (h : m.value? name = some text)
    (source : Text) : (named name).value m source = text := by
  show (m.value? name).getD [] = text
  rw [h, Option.getD_some]

/-- Every unresolved bracket stands in front of an end of the template. -/
theorem suffix_of_mem_openings {tokens : List Token} {rest : Text} (h : rest ∈ openings tokens) :
    rest <:+ lexemes tokens := by
  induction tokens with
  | nil => exact absurd h List.not_mem_nil
  | cons token later ih =>
      have hlater : lexemes later <:+ lexemes (token :: later) := List.suffix_append _ _
      rw [openings] at h
      split at h
      · rcases List.mem_cons.1 h with rfl | hmem
        · exact List.suffix_rfl
        · exact (ih hmem).trans hlater
      · exact (ih h).trans hlater

end Token

namespace Match

/-- The template with every reference replaced by what it stands for. -/
def expansion (m : Match) (source template : Text) : Text :=
  (Token.read m template).flatMap (Token.value m source)

/-- The places of the template where a name could not be resolved, each given
by the template from there on. -/
def unresolved (m : Match) (template : Text) : List Text :=
  Token.openings (Token.read m template)

@[simp] theorem expansion_nil (m : Match) (source : Text) : m.expansion source [] = [] := rfl

@[simp] theorem unresolved_nil (m : Match) : m.unresolved [] = [] := rfl

end Match

/-- Expands a template against a match.  Without a match there is nothing to
expand it against, and no text results. -/
def expand (source : Text) (m? : Option Match) (template : Text) : Logged (Option Text) :=
  match m? with
  | none => ⟨none, [.noMatch]⟩
  | some m => ⟨some (m.expansion source template), (m.unresolved template).map .unresolvedName⟩

/-- The text with every sigil doubled, which as a template stands for the text
itself. -/
def escape (t : Text) : Text :=
  t.flatMap fun c => if c = '$' then ['$', '$'] else [c]

end MatchTemplate
