import MatchTemplate.Proofs.RightToLeft
import MatchTemplate.Template.Shape

/-!
# Replacing in two sources at once

A template that refers to nothing around a match expands to the same text
wherever the match stands (`Match.expansion_of_offset`).  Matches in two sources,
one behind the other, can then be replaced in each source alone
(`replaceAll_append`): the edits behind the joint are those of the second source,
moved by the length of the first.
-/

namespace MatchTemplate

/-! ### Templates without a context -/

/-- Every token that is read stands in the template. -/
theorem Token.lexeme_infix_of_mem_read {m : Match} {token : Token} {template : Text}
    (h : token ∈ Token.read m template) : token.lexeme <:+: template := by
  obtain ⟨earlier, later, hsplit⟩ := List.append_of_mem h
  have hlexemes := Token.lexemes_read m template
  rw [hsplit] at hlexemes
  refine ⟨Token.lexemes earlier, Token.lexemes later, ?_⟩
  rw [← hlexemes]
  simp [Token.lexemes]

/-- Where a template does not refer to the source, neither the source nor the
offset of the match has an effect on its expansion. -/
theorem Match.expansion_of_offset {template : Text} (hbefore : ¬ ['$', '\x60'] <:+: template)
    (hafter : ¬ ['$', '\x27'] <:+: template) (m : Match) (offset : Nat) (source source' : Text) :
    Match.expansion { m with offset := offset } source' template =
      m.expansion source template := by
  have hshape : Match.shape { m with offset := offset } = m.shape := rfl
  have hread : Token.read { m with offset := offset } template = Token.read m template := by
    rw [← Match.read_shape, hshape, Match.read_shape]
  rw [Match.expansion, hread, Match.expansion]
  refine List.flatMap_congr fun token hmem => ?_
  cases token with
  | before => exact absurd (Token.lexeme_infix_of_mem_read hmem) hbefore
  | after => exact absurd (Token.lexeme_infix_of_mem_read hmem) hafter
  | _ => rfl

/-! ### The edits of two sources -/

theorem Captures.span_shift {captures : Captures} (h : captures.head?.join.isSome) (n : Nat) :
    (captures.shift n).span = captures.span.shift n := by
  obtain ⟨span, hspan⟩ := Option.isSome_iff_exists.1 h
  rw [Captures.span, Captures.span, Captures.head?_join_shift, hspan]
  rfl

namespace Findings

variable {front source template : Text} {groupNames : List (Option Text)}
  {places places' : List Captures}

/-- Where the groups cover the same texts, a template that does not refer to the
source has the same expansion. -/
theorem expansion_ofCaptures_congr (hbefore : ¬ ['$', '\x60'] <:+: template)
    (hafter : ¬ ['$', '\x27'] <:+: template) {captures captures' : Captures}
    {source' : Text} (h : captures'.texts source' = captures.texts source) :
    (Match.ofCaptures source' groupNames captures').expansion source' template =
      (Match.ofCaptures source groupNames captures).expansion source template := by
  rw [Match.ofCaptures_congr h groupNames]
  exact Match.expansion_of_offset hbefore hafter _ _ source source'

/-- The edits of the two sources together are those of the first, and behind them
those of the second from its new place on. -/
theorem edits_append (hbefore : ¬ ['$', '\x60'] <:+: template)
    (hafter : ¬ ['$', '\x27'] <:+: template)
    (h : Findings.WellFormed ⟨groupNames, places⟩ front)
    (h' : Findings.WellFormed ⟨groupNames, places'⟩ source) :
    Findings.edits ⟨groupNames, places ++ places'.map (Captures.shift front.byteLength)⟩
        (front ++ source) template 0 =
      Findings.edits ⟨groupNames, places⟩ front template 0 ++
        (Findings.edits ⟨groupNames, places'⟩ source template 0).map
          (Edit.shift front.byteLength) := by
  simp only [Findings.edits, limited, if_true, List.map_append, List.map_map]
  congr 1
  -- in the first source only the text behind it is new, in the second all is moved
  · refine List.map_congr_left fun captures hmem => ?_
    have htexts := Captures.texts_append_left (h.slices captures hmem) source
    exact congrArg (Edit.mk captures.span) (expansion_ofCaptures_congr hbefore hafter htexts)
  · refine List.map_congr_left fun captures hmem => ?_
    have htexts := Captures.texts_shift captures front source
    have hspan := Captures.span_shift (h'.wholes captures hmem) front.byteLength
    exact congrArg₂ Edit.mk hspan (expansion_ofCaptures_congr hbefore hafter htexts)

theorem WellFormed.text_replaceAll {findings : Findings} (h : findings.WellFormed source)
    (template : Text) :
    (replaceAll source findings template).result.text =
      splice source 0 (findings.edits source template 0) := by
  rw [replaceAll, replaceUpTo_eq_replaceMatches, text_replaceMatches, ← h.edits_eq]

end Findings

/-! ### Replacing all matches -/

/-- Matches in a first source and matches in a second one behind it, moved by the
length of the first, are again well formed.  With a template that has no reference to
the text before or after a match, replacing all of them gives what is obtained by
replacing them in each source alone. -/
theorem replaceAll_append {front source : Text} {groupNames : List (Option Text)}
    {places places' : List Captures} {template : Text}
    (h : Findings.WellFormed ⟨groupNames, places⟩ front)
    (h' : Findings.WellFormed ⟨groupNames, places'⟩ source)
    (hbefore : ¬ ['$', '\x60'] <:+: template) (hafter : ¬ ['$', '\x27'] <:+: template) :
    let both : Findings :=
      ⟨groupNames, places ++ places'.map (Captures.shift front.byteLength)⟩
    both.WellFormed (front ++ source) ∧
      (replaceAll (front ++ source) both template).result.text =
        (replaceAll front ⟨groupNames, places⟩ template).result.text ++
          (replaceAll source ⟨groupNames, places'⟩ template).result.text := by
  intro both
  have hboth : both.WellFormed (front ++ source) := h.append h'
  refine ⟨hboth, ?_⟩
  rw [hboth.text_replaceAll, h.text_replaceAll, h'.text_replaceAll,
    Findings.edits_append hbefore hafter h h']
  exact splice_append (h.fits_edits template 0) (h'.fits_edits template 0)

/-- An empty match stands at the end of the first source, and another one at the
beginning of the second.  The template names a group that takes part in some of the
matches only. -/
theorem replaceAll_append_empty :
    let groupNames := [none, some ['n']]
    let places : List Captures := [[some ⟨0, 2⟩, some ⟨0, 2⟩], [some ⟨3, 3⟩, none]]
    let places' : List Captures := [[some ⟨0, 0⟩, none], [some ⟨1, 3⟩, some ⟨1, 3⟩]]
    let both : Findings :=
      ⟨groupNames, places ++ places'.map (Captures.shift 3)⟩
    both.WellFormed ['é', 'a', 'b', 'é'] ∧
      (replaceAll ['é', 'a', 'b', 'é'] both ['[', '$', '<', 'n', '>', ']']).result.text =
        ['[', 'é', ']', 'a', '[', '$', '<', 'n', '>', ']'] ++
          ['[', '$', '<', 'n', '>', ']', 'b', '[', 'é', ']'] := by
  intro groupNames places places' both
  have h : Findings.WellFormed ⟨groupNames, places⟩ ['é', 'a'] := by decide
  have h' : Findings.WellFormed ⟨groupNames, places'⟩ ['b', 'é'] := by decide
  have hbefore : ¬ ['$', '\x60'] <:+: ['[', '$', '<', 'n', '>', ']'] := by decide
  have hafter : ¬ ['$', '\x27'] <:+: ['[', '$', '<', 'n', '>', ']'] := by decide
  obtain ⟨hboth, htext⟩ := replaceAll_append h h' hbefore hafter
  have hlength : Text.byteLength ['é', 'a'] = 3 := by decide
  rw [hlength] at hboth htext
  exact ⟨hboth, htext⟩

end MatchTemplate
