import MatchTemplate.Proofs.RightToLeft

/-!
# The first match and the operations

An expansion against the first match, a replacement of it and a replacement of all
matches start from the same findings.  They agree on whether there is a match at
all, and each of them shows it: in a missing text, or in a source that is kept
(`operations_agree`).  Replacing the first match puts its expansion between the
text before and the text after it, as the match itself tells these
(`result_replaceFirst`).
-/

namespace MatchTemplate

variable {source : Text} {findings : Findings} {captures : Captures} {later : List Captures}

namespace Findings

/-! ### Around a match -/

/-- No offset is out of the source or inside a character, so the text before and
after a match is cut at the ends of the whole occurrence. -/
theorem WellFormed.around_ofCaptures (h : findings.WellFormed source)
    (hmem : captures ∈ findings.captures) :
    (Match.ofCaptures source findings.groupNames captures).before source =
        source.slice ⟨0, captures.span.start⟩ ∧
      (Match.ofCaptures source findings.groupNames captures).after source =
        source.dropBytes captures.span.stop := by
  have hspan := h.span_ofCaptures hmem
  obtain ⟨part, hpart⟩ := h.exists_slice?_span hmem
  generalize Match.ofCaptures source findings.groupNames captures = m at hspan
  have hstart : m.offset = captures.span.start := congrArg Span.start hspan
  have hstop : m.offset + m.whole.byteLength = captures.span.stop := congrArg Span.stop hspan
  obtain ⟨hforward, hinside⟩ := Text.bounds_of_slice? hpart
  constructor
  · rw [Match.before, hstart, Nat.min_eq_left (Nat.le_trans hforward hinside), Text.slice_zero]
  · rw [Match.after, hstop, Nat.min_eq_left hinside]

theorem occurrences_of_cons (hfirst : findings.captures = captures :: later) (source : Text) :
    findings.occurrences source =
      Match.ofCaptures source findings.groupNames captures ::
        later.map (Match.ofCaptures source findings.groupNames) := by
  rw [occurrences, hfirst, List.map_cons]

end Findings

/-! ### The operations, by the first match -/

/-- Without a match nothing is expanded or replaced. -/
theorem result_of_captures_eq_nil (hnone : findings.captures = []) (source template : Text) :
    (expandFirst source findings template).result = none ∧
      (replaceFirst source findings template).result = .kept source ∧
      (replaceAll source findings template).result = .kept source := by
  refine ⟨?_, ?_, ?_⟩
  · rw [expandFirst_of_captures_eq_nil hnone]
  · rw [replaceFirst, replaceUpTo_of_captures_eq_nil hnone]
  · rw [replaceAll, replaceUpTo_of_captures_eq_nil hnone]

theorem result_expandFirst (hfirst : findings.captures = captures :: later)
    (source template : Text) :
    (expandFirst source findings template).result =
      some ((Match.ofCaptures source findings.groupNames captures).expansion source template) := by
  rw [expandFirst, Findings.occurrences_of_cons hfirst source]
  rfl

/-- The first match gives way to its expansion, between what stands before and
after it. -/
theorem result_replaceFirst (h : findings.WellFormed source)
    (hfirst : findings.captures = captures :: later) (template : Text) :
    (replaceFirst source findings template).result =
      .edited
        ((Match.ofCaptures source findings.groupNames captures).before source ++
          (Match.ofCaptures source findings.groupNames captures).expansion source template ++
          (Match.ofCaptures source findings.groupNames captures).after source) := by
  have hmem : captures ∈ findings.captures := hfirst ▸ List.mem_cons_self
  obtain ⟨hbefore, hafter⟩ := h.around_ofCaptures hmem
  have hspan := h.span_ofCaptures hmem
  rw [replaceFirst, replaceUpTo_eq_replaceMatches, Findings.occurrences_of_cons hfirst source,
    hbefore, hafter]
  show Replacement.edited (splice source 0
    [(Match.ofCaptures source findings.groupNames captures).edit source template]) = _
  rw [splice, splice, Match.edit, hspan]

/-- Where there is a match, the source is never kept. -/
theorem exists_result_replaceAll (hfirst : findings.captures = captures :: later)
    (source template : Text) :
    ∃ text, (replaceAll source findings template).result = .edited text ∧
      (later = [] → (replaceFirst source findings template).result = .edited text) := by
  rw [replaceAll, replaceFirst, replaceUpTo_eq_replaceMatches, replaceUpTo_eq_replaceMatches,
    Findings.occurrences_of_cons hfirst source]
  refine ⟨_, rfl, ?_⟩
  rintro rfl
  rfl

/-! ### The operations together -/

/-- Without a match there is no expansion, and both replacements keep the source.
With a first match there is its expansion; the replacement of the first match puts
this between the text before and after the match, and the replacement of all matches
does the same if there is no other match.  So the three operations find no match on
the same findings, and a source is kept only there, even if its replacement would be
the same text. -/
theorem operations_agree (h : findings.WellFormed source) (template : Text) :
    (findings.captures = [] →
        (expandFirst source findings template).result = none ∧
          (replaceFirst source findings template).result = .kept source ∧
          (replaceAll source findings template).result = .kept source) ∧
      (∀ captures later, findings.captures = captures :: later →
        let m := Match.ofCaptures source findings.groupNames captures
        ∃ e text,
          (expand source (some m) template).result = some e ∧
            (expandFirst source findings template).result = some e ∧
            (replaceFirst source findings template).result =
              .edited (m.before source ++ e ++ m.after source) ∧
            (replaceAll source findings template).result = .edited text ∧
            (later = [] → text = m.before source ++ e ++ m.after source)) ∧
      ((expandFirst source findings template).result = none ↔ findings.captures = []) ∧
      (∀ t, (replaceFirst source findings template).result = .kept t ↔
        t = source ∧ findings.captures = []) ∧
      (∀ t, (replaceAll source findings template).result = .kept t ↔
        t = source ∧ findings.captures = []) := by
  cases hcaptures : findings.captures with
  | nil =>
      obtain ⟨hexpanded, hreplaced, hreplacedAll⟩ :=
        result_of_captures_eq_nil hcaptures source template
      rw [hexpanded, hreplaced, hreplacedAll]
      have hkept : ∀ t, Replacement.kept source = .kept t ↔
          t = source ∧ ([] : List Captures) = [] := by
        simp [eq_comm]
      refine ⟨fun _ => ⟨rfl, rfl, rfl⟩, fun _ _ hcons => ?_, by simp, hkept, hkept⟩
      exact absurd hcons (List.cons_ne_nil _ _).symm
  | cons captures later =>
      obtain ⟨text, hreplacedAll, hsingle⟩ :=
        exists_result_replaceAll hcaptures source template
      have hexpanded := result_expandFirst hcaptures source template
      have hreplaced := result_replaceFirst h hcaptures template
      refine ⟨fun hnil => absurd hnil (List.cons_ne_nil captures later), ?_, ?_, ?_, ?_⟩
      · rintro _ _ ⟨rfl, rfl⟩
        refine ⟨_, text, rfl, hexpanded, hreplaced, hreplacedAll, fun hlater => ?_⟩
        have htext := (hsingle hlater).symm.trans hreplaced
        exact Replacement.edited.inj htext
      · rw [hexpanded]
        simp
      · rw [hreplaced]
        simp
      · rw [hreplacedAll]
        simp

/-- The first match is expanded to itself, so the text stays as it was, but no source
is kept.  There is an empty match besides. -/
theorem operations_agree_unchanged :
    let findings : Findings := ⟨[none], [[some ⟨1, 3⟩], [some ⟨4, 4⟩]]⟩
    findings.WellFormed ['a', 'é', 'b'] ∧
      (expandFirst ['a', 'é', 'b'] findings ['$', '&']).result = some ['é'] ∧
      (replaceFirst ['a', 'é', 'b'] findings ['$', '&']).result = .edited ['a', 'é', 'b'] ∧
      ∀ t, (replaceAll ['a', 'é', 'b'] findings ['$', '&']).result ≠ .kept t := by
  intro findings
  have hformed : findings.WellFormed ['a', 'é', 'b'] := by decide
  obtain ⟨-, hfirst, -, -, hkept⟩ := operations_agree hformed ['$', '&']
  obtain ⟨e, text, hexpansion, hexpanded, hreplaced, -, -⟩ := hfirst _ _ rfl
  have he : some ['é'] = some e := hexpansion
  obtain rfl := Option.some.inj he
  exact ⟨hformed, hexpanded, hreplaced, fun t ht => List.cons_ne_nil _ _ ((hkept t).1 ht).2⟩

end MatchTemplate
