import Mathlib.Data.List.Chain
import MatchTemplate.Replacement.Basic

/-!
# Replacement from the last match to the first

A replacement makes one pass over the source.  The plain way to do the same is
to put the expansions in place one by one, beginning at the end, so that no
offset has to be corrected.  Both give the same text for every limit
(`applyFromLast?_edits`).
-/

namespace MatchTemplate

/-- The edits that the limit admits, one for each place in its order: the bytes
of the whole occurrence give way to the expansion of the template against the
match there. -/
def Findings.edits (findings : Findings) (source template : Text) (limit : Nat) : List Edit :=
  (limited limit findings.captures).map fun captures =>
    { span := captures.span
      text := (expand source (some (Match.ofCaptures source findings.groupNames captures))
        template).result.getD [] }

/-! ### Well-formed findings -/

namespace Findings

/-- No span begins before the end of an earlier one if none begins before the
end of the one just before it. -/
theorem pairwise_of_isChain {spans : List Span} (hforward : ∀ span ∈ spans, span.start ≤ span.stop)
    (hchain : spans.IsChain fun a b => a.stop ≤ b.start) :
    spans.Pairwise fun a b => a.stop ≤ b.start := by
  induction spans with
  | nil => exact List.Pairwise.nil
  | cons a rest ih =>
      obtain ⟨-, hrestForward⟩ := List.forall_mem_cons.1 hforward
      cases rest with
      | nil => exact List.pairwise_singleton _ a
      | cons b rest =>
          obtain ⟨hnext, hrest⟩ := List.isChain_cons_cons.1 hchain
          have hpairwise := ih hrestForward hrest
          refine List.pairwise_cons.2 ⟨fun c hc => ?_, hpairwise⟩
          rcases List.mem_cons.1 hc with rfl | hlater
          · exact hnext
          · have hb := hrestForward b List.mem_cons_self
            have hlast := (List.pairwise_cons.1 hpairwise).1 c hlater
            omega

/-- Each place has to be compared only with the one just before it. -/
theorem wellFormed_iff_isChain (findings : Findings) (source : Text) :
    findings.WellFormed source ↔
      (∀ captures ∈ findings.captures, captures.head?.join.isSome) ∧
        (∀ captures ∈ findings.captures, ∀ span ∈ captures.filterMap id,
          (source.slice? span).isSome) ∧
        findings.wholeSpans.IsChain fun a b => a.stop ≤ b.start := by
  constructor
  · intro h
    exact ⟨h.wholes, h.slices, h.ordered.isChain⟩
  · rintro ⟨hwholes, hslices, hchain⟩
    refine ⟨hwholes, hslices, pairwise_of_isChain (fun span hmem => ?_) hchain⟩
    obtain ⟨captures, hcaptures, hhead⟩ := List.mem_filterMap.1 hmem
    obtain ⟨part, hpart⟩ := Option.isSome_iff_exists.1
      (hslices captures hcaptures span (Captures.mem_of_head?_join hhead))
    exact (Text.bounds_of_slice? hpart).1

end Findings

namespace Findings.WellFormed

variable {source : Text} {findings : Findings}

theorem head?_join_eq (h : findings.WellFormed source) {captures : Captures}
    (hmem : captures ∈ findings.captures) : captures.head?.join = some captures.span := by
  obtain ⟨span, hspan⟩ := Option.isSome_iff_exists.1 (h.wholes captures hmem)
  rw [Captures.span, hspan, Option.getD_some]

/-- The whole occurrence is a part of the source. -/
theorem exists_slice?_span (h : findings.WellFormed source) {captures : Captures}
    (hmem : captures ∈ findings.captures) : ∃ part, source.slice? captures.span = some part := by
  have hspan : captures.span ∈ captures.filterMap id :=
    Captures.mem_of_head?_join (h.head?_join_eq hmem)
  exact Option.isSome_iff_exists.1 (h.slices captures hmem captures.span hspan)

theorem span_ofCaptures (h : findings.WellFormed source) {captures : Captures}
    (hmem : captures ∈ findings.captures) :
    (Match.ofCaptures source findings.groupNames captures).span = captures.span := by
  apply Match.span_ofCaptures
  intro span hspan
  exact h.slices captures hmem span (Captures.mem_of_head?_join hspan)

theorem pairwise_span (h : findings.WellFormed source) :
    findings.captures.Pairwise fun a b => a.span.stop ≤ b.span.start := by
  have hordered := h.ordered
  rw [wholeSpans, List.pairwise_filterMap] at hordered
  refine List.Pairwise.imp_of_mem (fun {a b} ha hb hab => ?_) hordered
  exact hab a.span (h.head?_join_eq ha) b.span (h.head?_join_eq hb)

/-- The edits of well-formed findings can be made in one pass. -/
theorem fits_edits (h : findings.WellFormed source) (template : Text) (limit : Nat) :
    Fits source 0 (findings.edits source template limit) where
  boundary := source.isBoundary_zero
  slices e he := by
    obtain ⟨captures, hmem, rfl⟩ := List.mem_map.1 he
    obtain ⟨part, hpart⟩ := h.exists_slice?_span ((limited_sublist limit _).subset hmem)
    rw [hpart]
    rfl
  afterCursor e _ := Nat.zero_le e.span.start
  ordered := by
    rw [edits, List.pairwise_map]
    exact h.pairwise_span.sublist (limited_sublist limit _)

/-- The edits are those of the matches. -/
theorem edits_eq (h : findings.WellFormed source) (template : Text) (limit : Nat) :
    findings.edits source template limit =
      (limited limit (findings.occurrences source)).map fun m => m.edit source template := by
  rw [edits, occurrences, ← map_limited, List.map_map]
  refine List.map_congr_left fun captures hmem => ?_
  have hspan := h.span_ofCaptures ((limited_sublist limit _).subset hmem)
  simp only [Function.comp_apply, Match.edit, hspan, expand, Option.getD_some]

end Findings.WellFormed

/-! ### One pass and many edits -/

theorem text_replaceMatches (source : Text) (ms : List Match) (template : Text) :
    (replaceMatches source ms template).result.text =
      splice source 0 (ms.map fun m => m.edit source template) := by
  cases ms with
  | nil =>
      have hsource : source.dropBytes 0 = source := Text.dropBytes_append [] source
      rw [List.map_nil, splice, hsource]
      rfl
  | cons m rest => rfl

/-- A pass over the source leaves the text that results when the expansions
are put in place one by one, from the last admitted match to the first, each of
them over the bytes of its match.  The first match alone is replaced under the
limit one, and every match under no limit. -/
theorem applyFromLast?_edits {source : Text} {findings : Findings}
    (h : findings.WellFormed source) (template : Text) :
    (∀ limit, applyFromLast? (findings.edits source template limit) source =
        some (replaceUpTo limit source findings template).result.text) ∧
      applyFromLast? (findings.edits source template 1) source =
        some (replaceFirst source findings template).result.text ∧
      applyFromLast? (findings.edits source template 0) source =
        some (replaceAll source findings template).result.text := by
  have hlimit : ∀ limit, applyFromLast? (findings.edits source template limit) source =
      some (replaceUpTo limit source findings template).result.text := by
    intro limit
    have hkept : source.takeBytes 0 = [] := Text.takeBytes_append [] source
    rw [applyFromLast?_eq_some_splice (h.fits_edits template limit), hkept, List.nil_append,
      h.edits_eq, replaceUpTo_eq_replaceMatches, text_replaceMatches]
  exact ⟨hlimit, hlimit 1, hlimit 0⟩

/-- Two empty matches stand at the ends of the source, and two others lie side
by side between them. -/
theorem applyFromLast?_edits_adjacent :
    let findings : Findings :=
      { groupNames := [none, some ['x']]
        captures := [[some ⟨0, 0⟩, none], [some ⟨0, 1⟩, some ⟨0, 1⟩],
          [some ⟨1, 3⟩, some ⟨1, 3⟩], [some ⟨4, 4⟩, none]] }
    findings.WellFormed ['a', 'é', 'b'] ∧
      applyFromLast? (findings.edits ['a', 'é', 'b'] ['[', '$', '\x60', '$', '<', 'x', '>', ']'] 0)
          ['a', 'é', 'b'] =
        some ['[', '$', '<', 'x', '>', ']', '[', 'a', ']', '[', 'a', 'é', ']', 'b',
          '[', 'a', 'é', 'b', '$', '<', 'x', '>', ']'] := by
  intro findings
  have hformed : findings.WellFormed ['a', 'é', 'b'] := by decide
  refine ⟨hformed, ?_⟩
  rw [(applyFromLast?_edits hformed ['[', '$', '\x60', '$', '<', 'x', '>', ']']).2.2]
  decide

end MatchTemplate
