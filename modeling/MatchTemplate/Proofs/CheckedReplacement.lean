import MatchTemplate.Checked.Replacement
import MatchTemplate.Proofs.CheckedExpansion
import MatchTemplate.Proofs.RightToLeft

/-!
# Replacement by byte offsets never faults

Between two turns of the replacement loop the cursor is a boundary of the
source, and no place that is still to come begins before it (`CanGoOn`).  A turn
then finds all its slices and sums, and leaves the pass as the plain one does
(`replace_eq`); so does a whole pass (`run_eq_ok`).

The matches are counted in a word.  A limit is a word, and so is the number of
places when each of them begins further on than the one before it
(`length_captures_le`).
-/

namespace MatchTemplate.Checked

variable {source : Text} {findings : Findings}

/-! ### The match at a place -/

theorem groupTexts_eq {captures : Captures}
    (h : ∀ span ∈ captures.filterMap id, (source.slice? span).isSome) :
    groupTexts source captures = .ok (captures.map fun span? => span?.bind source.slice?) := by
  induction captures with
  | nil => rfl
  | cons span? rest ih =>
      cases span? with
      | none =>
          rw [groupTexts, ih h]
          rfl
      | some span =>
          obtain ⟨hspan, hrest⟩ := List.forall_mem_cons.1 h
          obtain ⟨part, hpart⟩ := Option.isSome_iff_exists.1 hspan
          have hslice : slice source span.start span.stop = .ok part :=
            slice_eq_ok_iff.2 hpart
          rw [groupTexts, hslice, ok_bind, ih hrest, List.map_cons, Option.bind_some, hpart]
          rfl

theorem tableOf_eq (source : Text) (groupNames : List (Option Text)) (captures : Captures) :
    tableOf groupNames (captures.map fun span? => span?.bind source.slice?) =
      NameTable.ofCaptures source groupNames captures := by
  have htext : ∀ n, (captures.map fun span? => span?.bind source.slice?)[n]?.join =
      captures.text? source n := by
    intro n
    rw [List.getElem?_map, Captures.text?]
    cases captures[n]? with
    | none => rfl
    | some span? => rfl
  simp only [tableOf, NameTable.ofCaptures, Captures.namedText?, htext]

/-- All groups of a place can be cut out of the source. -/
theorem ofCaptures_eq (h : findings.WellFormed source) {captures : Captures}
    (hmem : captures ∈ findings.captures) :
    ofCaptures source findings.groupNames captures =
      .ok (Match.ofCaptures source findings.groupNames captures) := by
  have hwhole : (captures.map fun span? => span?.bind source.slice?).head?.join =
      captures.text? source 0 := by
    rw [List.head?_map, Captures.text?, ← List.head?_eq_getElem?]
    cases captures.head? with
    | none => rfl
    | some span? => rfl
  rw [ofCaptures, groupTexts_eq (h.slices captures hmem), ok_bind, hwhole, tableOf_eq,
    ← List.map_tail]
  rfl

/-! ### A pass in bytes -/

/-- The pass without its notices, its output in bytes. -/
def Pass.ofRewriting (pass : Rewriting) : Pass where
  output := pass.output.bytes
  cursor := pass.cursor
  count := pass.count

@[simp] theorem Pass.count_ofRewriting (pass : Rewriting) :
    (Pass.ofRewriting pass).count = pass.count := rfl

@[simp] theorem Pass.cursor_ofRewriting (pass : Rewriting) :
    (Pass.ofRewriting pass).cursor = pass.cursor := rfl

@[simp] theorem Pass.output_ofRewriting (pass : Rewriting) :
    (Pass.ofRewriting pass).output = pass.output.bytes := rfl

/-- The cursor is a boundary, and the places still to come lie behind it. -/
structure CanGoOn (source : Text) (cursor : Nat) (captures : List Captures) : Prop where
  boundary : source.IsBoundary cursor
  behind : ∀ c ∈ captures, cursor ≤ c.span.start

/-- The matches of so many places more can be counted. -/
def HasRoom (limit count places : Nat) : Prop :=
  count + places < wordCount ∨ 0 < limit ∧ limit < wordCount ∧ count ≤ limit

/-- What is still to come after a place begins at its end or behind it. -/
theorem CanGoOn.next (h : findings.WellFormed source) {captures : Captures}
    {rest : List Captures} (hsub : (captures :: rest).Sublist findings.captures) :
    CanGoOn source captures.span.stop rest where
  boundary := by
    obtain ⟨part, hpart⟩ := h.exists_slice?_span (hsub.subset List.mem_cons_self)
    exact (Text.isBoundary_of_slice? hpart).2
  behind := (List.pairwise_cons.1 (h.pairwise_span.sublist hsub)).1

/-- A turn of the loop leaves the pass as the plain turn does. -/
theorem replace_eq (h : findings.WellFormed source) {template : Text}
    (hsource : source.byteLength < wordCount) (htemplate : template.byteLength < wordCount)
    {captures : Captures} (hmem : captures ∈ findings.captures) (pass : Rewriting)
    (hcursor : source.IsBoundary pass.cursor) (hbehind : pass.cursor ≤ captures.span.start)
    (hcount : pass.count + 1 < wordCount) :
    (Pass.ofRewriting pass).replace source findings.groupNames template captures =
      .ok (.ofRewriting (pass.replace source template
        (Match.ofCaptures source findings.groupNames captures))) := by
  obtain ⟨part, hpart⟩ := h.exists_slice?_span hmem
  have hspan := h.span_ofCaptures hmem
  have hmatch := ofCaptures_eq h hmem
  generalize Match.ofCaptures source findings.groupNames captures = m at hspan hmatch ⊢
  have hoffset : m.offset = captures.span.start := congrArg Span.start hspan
  have hend : m.offset + m.whole.byteLength = captures.span.stop := congrArg Span.stop hspan
  have hgap : slice source pass.cursor m.offset = .ok (source.slice ⟨pass.cursor, m.offset⟩) := by
    rw [hoffset]
    exact slice_of_isBoundary hbehind hcursor (Text.isBoundary_of_slice? hpart).1
  -- the match lies inside the source, so its end is a word
  have hsum : add m.offset m.whole.byteLength = .ok (m.offset + m.whole.byteLength) := by
    obtain ⟨-, hstop⟩ := Text.bounds_of_slice? hpart
    apply add_eq_ok
    omega
  have hexpand := expand_eq m source hsource htemplate
  have hnumber : add pass.count 1 = .ok (pass.count + 1) := add_eq_ok hcount
  simp only [Pass.replace, Pass.ofRewriting, hmatch, hgap, hexpand, hsum, hnumber, ok_bind,
    pure_eq_ok, Rewriting.replace, MatchTemplate.expand, Option.getD_some, Text.bytes_append]

/-- A pass over the places from some on is the plain pass over their matches,
and its cursor is a boundary in the end. -/
theorem run_eq_ok (h : findings.WellFormed source) {template : Text}
    (hsource : source.byteLength < wordCount) (htemplate : template.byteLength < wordCount)
    (limit : Nat) {places : List Captures} (hsub : places.Sublist findings.captures)
    (pass : Rewriting) (hready : CanGoOn source pass.cursor places)
    (hroom : HasRoom limit pass.count places.length) :
    (Pass.ofRewriting pass).run limit source findings.groupNames template places =
        .ok (.ofRewriting (pass.run limit source template
          (places.map (Match.ofCaptures source findings.groupNames)))) ∧
      source.IsBoundary (pass.run limit source template
        (places.map (Match.ofCaptures source findings.groupNames))).cursor := by
  induction places generalizing pass with
  | nil => exact ⟨rfl, hready.boundary⟩
  | cons captures rest ih =>
      rw [List.map_cons, Rewriting.run, Pass.run, Pass.count_ofRewriting]
      by_cases hfull : 0 < limit ∧ pass.count = limit
      · have hstop : pass.IsFull limit := hfull
        rw [if_pos hfull, if_pos hstop]
        exact ⟨rfl, hready.boundary⟩
      · have hopen : ¬ pass.IsFull limit := hfull
        have hmem : captures ∈ findings.captures := hsub.subset List.mem_cons_self
        rw [HasRoom, List.length_cons] at hroom
        have hstep := replace_eq h hsource htemplate hmem pass hready.boundary
          (hready.behind captures List.mem_cons_self) (by omega)
        have hcursor : (pass.replace source template
            (Match.ofCaptures source findings.groupNames captures)).cursor =
              captures.span.stop :=
          congrArg Span.stop (h.span_ofCaptures hmem)
        have hnext := CanGoOn.next h hsub
        rw [← hcursor] at hnext
        have hroomNext : HasRoom limit (pass.count + 1) rest.length := by
          rw [HasRoom]
          omega
        rw [if_neg hfull, if_neg hopen, hstep, ok_bind]
        exact ih ((List.sublist_cons_self captures rest).trans hsub) _ hnext hroomNext

/-! ### Whole replacements -/

/-- The bytes of an outcome, or nothing when the source is kept. -/
def bytesOf? : Replacement → Option Bytes
  | .kept _ => none
  | .edited text => some text.bytes

theorem finish_eq {pass : Rewriting} (h : source.IsBoundary pass.cursor) :
    (Pass.ofRewriting pass).finish source = .ok (bytesOf? (pass.finish source).result) := by
  rw [Pass.finish, Pass.count_ofRewriting, Pass.cursor_ofRewriting, Pass.output_ofRewriting,
    Rewriting.finish]
  by_cases hcount : pass.count = 0
  · rw [if_pos hcount, if_pos hcount]
    rfl
  · have htail : sliceFrom source pass.cursor = .ok (source.dropBytes pass.cursor) := by
      obtain ⟨u, v, rfl, hcursor⟩ := Text.isBoundary_iff.1 h
      rw [← hcursor, sliceFrom_append, Text.dropBytes_append]
    rw [if_neg hcount, if_neg hcount, htail, ok_bind, pure_eq_ok, ← Text.bytes_append]
    rfl

/-- A replacement by offsets has the plain outcome. -/
theorem replaceUpTo_eq (h : findings.WellFormed source) {template : Text}
    (hsource : source.byteLength < wordCount) (htemplate : template.byteLength < wordCount)
    {limit : Nat} (hroom : HasRoom limit 0 findings.captures.length) :
    replaceUpTo limit source findings template =
      .ok (bytesOf? (MatchTemplate.replaceUpTo limit source findings template).result) := by
  have hready : CanGoOn source Rewriting.start.cursor findings.captures :=
    ⟨source.isBoundary_zero, fun c _ => Nat.zero_le c.span.start⟩
  obtain ⟨hrun, hboundary⟩ :=
    run_eq_ok h hsource htemplate limit (List.Sublist.refl _) Rewriting.start hready hroom
  have hstart : Pass.ofRewriting Rewriting.start = Pass.start := rfl
  rw [hstart] at hrun
  rw [replaceUpTo, hrun, ok_bind, finish_eq hboundary]
  rfl

/-- The expansion against the first match is the plain one. -/
theorem expandFirst_eq (h : findings.WellFormed source) {template : Text}
    (hsource : source.byteLength < wordCount) (htemplate : template.byteLength < wordCount) :
    expandFirst source findings template =
      .ok ((MatchTemplate.expandFirst source findings template).result.map Text.bytes) := by
  have hfirst : (findings.occurrences source).head? =
      findings.captures.head?.map (Match.ofCaptures source findings.groupNames) :=
    List.head?_map
  rw [expandFirst, MatchTemplate.expandFirst, hfirst]
  cases hhead : findings.captures.head? with
  | none => rfl
  | some captures =>
      have hmatch := ofCaptures_eq h (List.mem_of_head? hhead)
      simp only [hmatch, ok_bind, expand_eq _ source hsource htemplate, pure_eq_ok,
        Option.map_some, MatchTemplate.expand]

/-! ### The number of places -/

/-- Places that begin further and further on are no more than the source has
offsets. -/
theorem length_captures_le (h : findings.WellFormed source)
    (hadvance : findings.captures.Pairwise fun a b => a.span.start < b.span.start) :
    findings.captures.length ≤ source.byteLength + 1 := by
  have hbound : ∀ start ∈ findings.captures.map (fun c => c.span.start),
      start < source.byteLength + 1 := by
    intro start hmem
    obtain ⟨captures, hcaptures, rfl⟩ := List.mem_map.1 hmem
    obtain ⟨part, hpart⟩ := h.exists_slice?_span hcaptures
    obtain ⟨hle, hstop⟩ := Text.bounds_of_slice? hpart
    omega
  have hdistinct : (findings.captures.map fun c => c.span.start).Nodup := by
    rw [List.Nodup, List.pairwise_map]
    exact hadvance.imp fun hlt => Nat.ne_of_lt hlt
  have hsubset : (findings.captures.map fun c => c.span.start) ⊆
      List.range (source.byteLength + 1) :=
    fun start hmem => List.mem_range.2 (hbound start hmem)
  have hlength := hdistinct.length_le_of_subset hsubset
  rwa [List.length_map, List.length_range] at hlength

/-! ### No faults -/

/-- On texts that can be stored no index, sum, difference or slice faults.  An
expansion against any match at all goes through the whole template in spans of a
byte at least, and its output is that of the plain expansion and valid.  At
well-formed findings, the expansion against the first match and both replacements
have the plain outcome; for the replacement of all matches, their number has to be
a word, which it is when each begins further on than the one before it. -/
theorem never_faults {source template : Text} (hsource : source.byteLength < lengthLimit)
    (htemplate : template.byteLength < lengthLimit) :
    (∀ m : Match, ∃ scan, expand m source template = .ok scan ∧ scan.rest = [] ∧
        Tiles 0 template.byteLength (scan.steps.map Step.span) ∧
        scan.output = (m.expansion source template).bytes ∧
        scan.output.toByteArray.IsValidUTF8) ∧
      ∀ findings : Findings, findings.WellFormed source →
        expandFirst source findings template =
            .ok ((MatchTemplate.expandFirst source findings template).result.map Text.bytes) ∧
          replaceFirst source findings template =
            .ok (bytesOf? (MatchTemplate.replaceFirst source findings template).result) ∧
          (findings.captures.length < wordCount →
            replaceAll source findings template =
              .ok (bytesOf? (MatchTemplate.replaceAll source findings template).result)) ∧
          ((findings.captures.Pairwise fun a b => a.span.start < b.span.start) →
            replaceAll source findings template =
              .ok (bytesOf? (MatchTemplate.replaceAll source findings template).result)) := by
  have hsourceWord : source.byteLength < wordCount := Nat.lt_trans hsource (by decide)
  have htemplateWord : template.byteLength < wordCount := Nat.lt_trans htemplate (by decide)
  constructor
  · intro m
    refine ⟨_, expand_eq m source hsourceWord htemplateWord, rfl, ?_, rfl, ?_⟩
    · have htiles := tiles_stepsFrom m (Token.read m template)
        (fun token hmem => Token.lexeme_ne_nil_of_mem_scan (Token.lawful_first m.references) hmem) 0
      rw [Token.lexemes_read, Nat.zero_add] at htiles
      exact htiles
    · exact Text.isValidUTF8_bytes (m.expansion source template)
  · intro findings h
    have hall : findings.captures.length < wordCount →
        replaceAll source findings template =
          .ok (bytesOf? (MatchTemplate.replaceAll source findings template).result) := by
      intro hlength
      apply replaceUpTo_eq h hsourceWord htemplateWord
      exact Or.inl (by rwa [Nat.zero_add])
    refine ⟨expandFirst_eq h hsourceWord htemplateWord, ?_, hall, fun hadvance => hall ?_⟩
    · apply replaceUpTo_eq h hsourceWord htemplateWord
      exact Or.inr ⟨by decide, by decide, by decide⟩
    · have hlength := length_captures_le h hadvance
      have hroom : lengthLimit < wordCount := by decide
      omega

/-- The offsets fit in a source and a template with characters of two bytes, for
a match far behind the source and for one inside it. -/
theorem never_faults_accented :
    (∃ scan, expand ⟨wordCount - 1, ['é'], [], none⟩ ['a', 'é'] ['é', '$', '\x27', '$', '<', '>'] =
        .ok scan ∧ scan.output.toByteArray.IsValidUTF8) ∧
      replaceAll ['a', 'é'] ⟨[none, some ['é']], [[some ⟨1, 3⟩, some ⟨1, 3⟩]]⟩
        ['é', '$', '\x60', '$', '<', 'é', '>'] =
          .ok (some (Text.bytes ['a', 'é', 'a', 'é'])) := by
  have hsource : Text.byteLength ['a', 'é'] < lengthLimit := by decide
  constructor
  · have htemplate : Text.byteLength ['é', '$', '\x27', '$', '<', '>'] < lengthLimit := by decide
    obtain ⟨scan, hscan, -, -, -, hvalid⟩ :=
      (never_faults hsource htemplate).1 ⟨wordCount - 1, ['é'], [], none⟩
    exact ⟨scan, hscan, hvalid⟩
  · have htemplate : Text.byteLength ['é', '$', '\x60', '$', '<', 'é', '>'] < lengthLimit := by
      decide
    exact ((never_faults hsource htemplate).2 _ (by decide)).2.2.1 (by decide)

end MatchTemplate.Checked
