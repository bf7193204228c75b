import MatchTemplate.Match.Group

/-!
# What a search reports

A search for a pattern is done elsewhere.  Its findings are the names of the
pattern's groups and, for each place where the pattern occurs, the bytes that
every group covers.  Group zero is the whole occurrence.  `Match.ofCaptures`
reads the texts of the groups off the source.

Findings in two sources are findings in the one text that these make up, when
those in the second one are moved by the length of the first
(`Findings.WellFormed.append`).
-/

namespace MatchTemplate

/-- The bytes that each group covers at one place, group zero first.  A group
that took no part in the match has no span. -/
abbrev Captures := List (Option Span)

/-- Outcome of a search for one pattern in one source. -/
structure Findings where
  /-- One entry for every group, group zero included. -/
  groupNames : List (Option Text)
  /-- The places where the pattern occurs, from left to right. -/
  captures : List Captures
deriving DecidableEq, Repr

namespace Captures

/-- The bytes that the whole occurrence covers. -/
def span (captures : Captures) : Span := captures.head?.join.getD ⟨0, 0⟩

/-- The text that group `n` covers, if it took part. -/
def text? (captures : Captures) (source : Text) (n : Nat) : Option Text :=
  captures[n]?.join.bind source.slice?

/-- The text of the group called `name`, if it took part. -/
def namedText? (captures : Captures) (source : Text) (groupNames : List (Option Text))
    (name : Text) : Option Text :=
  (groupNames.idxOf? (some name)).bind (captures.text? source)

/-- The groups after group zero, in the order of their numbers. -/
def groups (captures : Captures) (source : Text) (groupNames : List (Option Text)) :
    List Group :=
  ((groupNames.zip captures).drop 1).map fun (name?, span?) =>
    match name? with
    | some name => .named name (span?.bind source.slice?)
    | none => .slot (span?.bind source.slice?)

theorem mem_of_head?_join {captures : Captures} {span : Span}
    (h : captures.head?.join = some span) : span ∈ captures.filterMap id :=
  List.mem_filterMap.2 ⟨some span, List.mem_of_head? (Option.join_eq_some_iff.1 h), rfl⟩

/-- The same groups in a source in which `n` bytes more stand in front. -/
def shift (n : Nat) (captures : Captures) : Captures :=
  captures.map (Option.map (Span.shift n))

end Captures

/-- The names of a pattern's groups, each with the text that its group covers. -/
def NameTable.ofCaptures (source : Text) (groupNames : List (Option Text))
    (captures : Captures) : NameTable :=
  (groupNames.filterMap id).foldl
    (fun table name => table.insert name (captures.namedText? source groupNames name))
    NameTable.empty

/-- The match at one place of the source.  It has a table of names when some
group of the pattern has a name, even if none of those groups took part. -/
def Match.ofCaptures (source : Text) (groupNames : List (Option Text))
    (captures : Captures) : Match where
  offset := (captures.head?.join.map Span.start).getD 0
  whole := (captures.text? source 0).getD []
  slots := captures.tail.map fun span? => span?.bind source.slice?
  names :=
    if groupNames.any Option.isSome then
      some (NameTable.ofCaptures source groupNames captures)
    else
      none

namespace Match

variable {source : Text} {captures : Captures}

theorem offset_ofCaptures (source : Text) (groupNames : List (Option Text))
    (captures : Captures) :
    (ofCaptures source groupNames captures).offset = captures.span.start := by
  unfold ofCaptures Captures.span
  cases captures.head?.join with
  | none => rfl
  | some span => rfl

/-- A match holds what stands in the source at the bytes of the whole occurrence.  Without
a group zero it is empty and stands at the front. -/
theorem slice?_eq_whole_ofCaptures (h : ∀ span ∈ captures.head?.join, (source.slice? span).isSome)
    (groupNames : List (Option Text)) :
    source.slice? captures.span = some (ofCaptures source groupNames captures).whole := by
  have hzero : captures.text? source 0 = captures.head?.join.bind source.slice? := by
    rw [Captures.text?, List.head?_eq_getElem?]
  unfold ofCaptures Captures.span
  rw [hzero]
  cases hhead : captures.head?.join with
  | none => exact Text.slice?_eq_some_iff.2 ⟨[], source, rfl, rfl, rfl⟩
  | some span =>
      obtain ⟨part, hpart⟩ := Option.isSome_iff_exists.1 (h span hhead)
      rw [Option.getD_some, Option.bind_some, hpart, Option.getD_some]

/-- A match covers the bytes of the whole occurrence that it is read from. -/
theorem span_ofCaptures (h : ∀ span ∈ captures.head?.join, (source.slice? span).isSome)
    (groupNames : List (Option Text)) :
    (ofCaptures source groupNames captures).span = captures.span := by
  obtain ⟨u, v, -, hstart, hstop⟩ :=
    Text.slice?_eq_some_iff.1 (slice?_eq_whole_ofCaptures h groupNames)
  rw [Text.byteLength_append, hstart] at hstop
  unfold Match.span
  rw [offset_ofCaptures, hstop]

end Match

namespace Findings

/-- The places where the pattern occurs, as matches. -/
def occurrences (findings : Findings) (source : Text) : List Match :=
  findings.captures.map (Match.ofCaptures source findings.groupNames)

/-- The span of group zero. -/
def wholeSpans (findings : Findings) : List Span :=
  findings.captures.filterMap fun captures => captures.head?.join

/-- Every group marks a part of the source, every place has a group zero, and
no place begins before the end of the one that precedes it. -/
structure WellFormed (findings : Findings) (source : Text) : Prop where
  wholes : ∀ captures ∈ findings.captures, captures.head?.join.isSome
  slices : ∀ captures ∈ findings.captures, ∀ span ∈ captures.filterMap id,
    (source.slice? span).isSome
  ordered : findings.wholeSpans.Pairwise fun a b => a.stop ≤ b.start

instance (findings : Findings) (source : Text) : Decidable (findings.WellFormed source) :=
  decidable_of_iff
    ((∀ captures ∈ findings.captures, captures.head?.join.isSome) ∧
      (∀ captures ∈ findings.captures, ∀ span ∈ captures.filterMap id,
        (source.slice? span).isSome) ∧
      findings.wholeSpans.Pairwise fun a b => a.stop ≤ b.start)
    ⟨fun h => ⟨h.1, h.2.1, h.2.2⟩, fun h => ⟨h.wholes, h.slices, h.ordered⟩⟩

end Findings

/-! ### Two sources, one behind the other -/

namespace Captures

/-- The texts that the groups cover, group zero first. -/
def texts (captures : Captures) (source : Text) : List (Option Text) :=
  captures.map fun span? => span?.bind source.slice?

theorem text?_eq_texts (captures : Captures) (source : Text) (n : Nat) :
    captures.text? source n = (captures.texts source)[n]?.join := by
  rw [text?, texts, List.getElem?_map]
  cases captures[n]? with
  | none => rfl
  | some span? => rfl

/-- Groups in a first source cover the same texts when another source stands behind
it. -/
theorem texts_append_left {captures : Captures} {source : Text}
    (h : ∀ span ∈ captures.filterMap id, (source.slice? span).isSome) (behind : Text) :
    captures.texts (source ++ behind) = captures.texts source := by
  refine List.map_congr_left fun span? hmem => ?_
  cases span? with
  | none => rfl
  | some span =>
      have hspan : span ∈ captures.filterMap id := List.mem_filterMap.2 ⟨some span, hmem, rfl⟩
      obtain ⟨part, hpart⟩ := Option.isSome_iff_exists.1 (h span hspan)
      exact (Text.slice?_append_left hpart behind).trans hpart.symm

/-- Groups in a second source cover the same texts from behind the first one. -/
theorem texts_shift (captures : Captures) (front source : Text) :
    (captures.shift front.byteLength).texts (front ++ source) = captures.texts source := by
  rw [texts, shift, List.map_map]
  refine List.map_congr_left fun span? _ => ?_
  cases span? with
  | none => rfl
  | some span => exact Text.slice?_append_shift front source span

theorem head?_join_shift (n : Nat) (captures : Captures) :
    (captures.shift n).head?.join = captures.head?.join.map (Span.shift n) := by
  rw [shift, List.head?_map]
  cases captures.head? with
  | none => rfl
  | some span? => rfl

theorem filterMap_id_shift (n : Nat) (captures : Captures) :
    (captures.shift n).filterMap id = (captures.filterMap id).map (Span.shift n) := by
  rw [shift, List.filterMap_map, List.map_filterMap]
  rfl

end Captures

/-- The offset apart, a match depends on the texts of its groups alone. -/
theorem Match.ofCaptures_congr {source source' : Text} {captures captures' : Captures}
    (h : captures.texts source = captures'.texts source') (groupNames : List (Option Text)) :
    Match.ofCaptures source groupNames captures =
      { Match.ofCaptures source' groupNames captures' with
        offset := (Match.ofCaptures source groupNames captures).offset } := by
  have htext : captures.text? source = captures'.text? source' := by
    funext n
    rw [Captures.text?_eq_texts, Captures.text?_eq_texts, h]
  have htable : NameTable.ofCaptures source groupNames captures =
      NameTable.ofCaptures source' groupNames captures' := by
    simp only [NameTable.ofCaptures, Captures.namedText?, htext]
  have hslots : (captures.tail.map fun span? => span?.bind source.slice?) =
      captures'.tail.map fun span? => span?.bind source'.slice? := by
    rw [List.map_tail, List.map_tail]
    exact congrArg List.tail h
  simp only [Match.ofCaptures, htext, htable, hslots]

namespace Findings.WellFormed

variable {front source : Text} {groupNames : List (Option Text)} {places places' : List Captures}

/-- A whole occurrence ends inside the source. -/
theorem stop_le (h : Findings.WellFormed ⟨groupNames, places⟩ source) {span : Span}
    (hmem : span ∈ Findings.wholeSpans ⟨groupNames, places⟩) : span.stop ≤ source.byteLength := by
  obtain ⟨captures, hcaptures, hhead⟩ := List.mem_filterMap.1 hmem
  obtain ⟨part, hpart⟩ := Option.isSome_iff_exists.1
    (h.slices captures hcaptures span (Captures.mem_of_head?_join hhead))
  exact (Text.bounds_of_slice? hpart).2

/-- The places in a first source, and behind them those in a second one, are places
in the two sources together. -/
theorem append (h : Findings.WellFormed ⟨groupNames, places⟩ front)
    (h' : Findings.WellFormed ⟨groupNames, places'⟩ source) :
    Findings.WellFormed
      ⟨groupNames, places ++ places'.map (Captures.shift front.byteLength)⟩
      (front ++ source) where
  wholes captures hmem := by
    rcases List.mem_append.1 hmem with hfront | hbehind
    · exact h.wholes captures hfront
    · obtain ⟨captures', hmem', rfl⟩ := List.mem_map.1 hbehind
      rw [Captures.head?_join_shift, Option.isSome_map]
      exact h'.wholes captures' hmem'
  slices captures hmem span hspan := by
    rcases List.mem_append.1 hmem with hfront | hbehind
    · obtain ⟨part, hpart⟩ := Option.isSome_iff_exists.1 (h.slices captures hfront span hspan)
      rw [Text.slice?_append_left hpart source]
      rfl
    · obtain ⟨captures', hmem', rfl⟩ := List.mem_map.1 hbehind
      rw [Captures.filterMap_id_shift] at hspan
      obtain ⟨span', hspan', rfl⟩ := List.mem_map.1 hspan
      rw [Text.slice?_append_shift]
      exact h'.slices captures' hmem' span' hspan'
  ordered := by
    have hspans : Findings.wholeSpans
        ⟨groupNames, places ++ places'.map (Captures.shift front.byteLength)⟩ =
          Findings.wholeSpans ⟨groupNames, places⟩ ++
            (Findings.wholeSpans ⟨groupNames, places'⟩).map (Span.shift front.byteLength) := by
      simp only [Findings.wholeSpans, List.filterMap_append, List.filterMap_map,
        List.map_filterMap, Function.comp_def, Captures.head?_join_shift]
    rw [hspans, List.pairwise_append, List.pairwise_map]
    refine ⟨h.ordered, h'.ordered.imp fun hab => Nat.add_le_add_left hab _, ?_⟩
    -- the first source lies between the two places
    intro a ha b hb
    obtain ⟨b', -, rfl⟩ := List.mem_map.1 hb
    have hstop := h.stop_le ha
    show a.stop ≤ front.byteLength + b'.start
    omega

end Findings.WellFormed

end MatchTemplate
