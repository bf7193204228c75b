import Mathlib.Data.List.Basic
import MatchTemplate.Template.Expansion
import MatchTemplate.Template.Shape

/-!
# Values do not steer the reading

An expansion is two things done one after the other.  The template is divided
into tokens by the shape of the match, which holds no texts; then every token
is rendered on its own, and the texts that are put in are not read again
(`expand_eq_render`).  So two matches of the same shape have the same tokens and
the same notices, whatever texts they hold, and where those texts are the same
they have the same expansion (`expand_factors`).
-/

namespace MatchTemplate

/-- The matches hold the same texts where a template can refer to them. -/
structure Match.SameTexts (m m' : Match) : Prop where
  whole : m.whole = m'.whole
  slots : ∀ index : Fin 9, m.slot? (index + 1) = m'.slot? (index + 1)
  values : ∀ name, m.value? name = m'.value? name

namespace Token

/-- Where the matches hold the same texts, only references to the source can
tell them apart. -/
theorem render_congr {m m' : Match} (h : m.SameTexts m') {source source' : Text} {token : Token}
    (hbefore : token = before → m.before source = m'.before source')
    (hafter : token = after → m.after source = m'.after source') :
    token.render (m.insertions source) = token.render (m'.insertions source') := by
  cases token with
  | whole => exact h.whole
  | before => exact hbefore rfl
  | after => exact hafter rfl
  | slot index =>
      show (m.slot? (index + 1)).getD [] = (m'.slot? (index + 1)).getD []
      rw [h.slots]
  | named name =>
      show (m.value? name).getD [] = (m'.value? name).getD []
      rw [h.values]
  | _ => rfl

end Token

/-- An expansion renders the tokens that the shape alone reads. -/
theorem expand_eq_render (m : Match) (source template : Text) :
    expand source (some m) template =
      ⟨some ((m.shape.read template).flatMap (Token.render (m.insertions source))),
        (Token.openings (m.shape.read template)).map .unresolvedName⟩ := by
  rw [m.read_shape]
  rfl

/-- A template is read by the shape of a match, and its tokens cover it.  What is
put out is made up of what the tokens stand for, each on its own, and what is
reported is told by the tokens.  Matches of the same shape therefore have the
same tokens and the same notices against any sources; and if they hold the same
texts, their expansions differ at most where a token refers to the source before
or after the match. -/
theorem expand_factors (template : Text) :
    (∀ (m : Match) (source : Text),
        Token.read m template = m.shape.read template ∧
          Token.lexemes (m.shape.read template) = template ∧
          expand source (some m) template =
            ⟨some ((m.shape.read template).flatMap (Token.render (m.insertions source))),
              (Token.openings (m.shape.read template)).map .unresolvedName⟩) ∧
      ∀ m m' : Match, m.shape = m'.shape → ∀ source source' : Text,
        Token.read m template = Token.read m' template ∧
          (expand source (some m) template).notices =
            (expand source' (some m') template).notices ∧
          (m.SameTexts m' →
            (Token.before ∈ Token.read m template → m.before source = m'.before source') →
            (Token.after ∈ Token.read m template → m.after source = m'.after source') →
            expand source (some m) template = expand source' (some m') template) := by
  constructor
  · intro m source
    refine ⟨(m.read_shape template).symm, ?_, expand_eq_render m source template⟩
    rw [m.read_shape, Token.lexemes_read]
  · intro m m' hshape source source'
    have hread : Token.read m template = Token.read m' template := by
      rw [← m.read_shape, hshape, m'.read_shape]
    refine ⟨hread, ?_, fun htexts hbefore hafter => ?_⟩
    · rw [expand_eq_render, expand_eq_render, hshape]
    · rw [expand_eq_render, expand_eq_render, hshape, m'.read_shape, ← hread]
      have hrender : (Token.read m template).flatMap (Token.render (m.insertions source)) =
          (Token.read m template).flatMap (Token.render (m'.insertions source')) := by
        apply List.flatMap_congr
        intro token hmem
        apply Token.render_congr htexts
        · rintro rfl
          exact hbefore hmem
        · rintro rfl
          exact hafter hmem
      rw [hrender]

/-- The offset, the source and the tenth slot are without effect, and texts that
look like references are put in as they are. -/
theorem expand_factors_verbatim :
    let table := NameTable.empty.insert ['n'] (some ['$', '&'])
    let m : Match := ⟨1, ['$', '1'], [some ['$', '<', 'n', '>']], some table⟩
    let m' : Match := ⟨7, ['$', '1'],
      [some ['$', '<', 'n', '>']] ++ List.replicate 8 none ++ [some ['x']], some table⟩
    expand ['a', 'b'] (some m) ['$', '&', '$', '1', '$', '<', 'n', '>', '$', '2'] =
        expand [] (some m') ['$', '&', '$', '1', '$', '<', 'n', '>', '$', '2'] ∧
      (expand [] (some m') ['$', '&', '$', '1', '$', '<', 'n', '>', '$', '2']).result =
        some ['$', '1', '$', '<', 'n', '>', '$', '&', '$', '2'] := by
  intro table m m'
  have hshape : m.shape = m'.shape :=
    (Match.shape_eq_iff m m').2 ⟨by decide, fun _ => rfl⟩
  have htexts : m.SameTexts m' := ⟨rfl, by decide, fun _ => rfl⟩
  refine ⟨?_, by decide⟩
  exact (((expand_factors _).2 m m' hshape ['a', 'b'] []).2.2 htexts
    (fun h => absurd h (by decide)) (fun h => absurd h (by decide)))

end MatchTemplate
