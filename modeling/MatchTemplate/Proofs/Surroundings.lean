import MatchTemplate.Match.Findings
import MatchTemplate.Proofs.CheckedExpansion

/-!
# Before and after a match

A match may claim any place and any text.  Whatever it claims, the texts before and
after it are a beginning and an end of the source that do not overlap, and that the end
of the match has to fit into a word changes neither of them.  Where the match has room
in the source and both of its ends lie between characters, the two texts and the whole
match make up the source exactly if the match tells the truth about it
(`before_whole_after_eq_source_iff`).
-/

namespace MatchTemplate

/-- Cuts that do not cross leave two texts that do not overlap. -/
theorem Text.byteLength_takeBytes_add_dropBytes_le {t : Text} {start stop : Nat}
    (hforward : start ≤ stop) (hinside : stop ≤ t.byteLength) :
    (t.takeBytes start).byteLength + (t.dropBytes stop).byteLength ≤ t.byteLength := by
  have htaken := t.byteLength_takeBytes_le start
  have hleft := Text.add_byteLength_dropBytes_le hinside
  omega

namespace Match

variable (m : Match) (source : Text)

/-! ### Any place, any text -/

theorem byteLength_before_le : (m.before source).byteLength ≤ m.offset := by
  apply Nat.le_trans (source.byteLength_takeBytes_le _)
  exact Nat.min_le_left _ _

theorem byteLength_before_add_after_le :
    (m.before source).byteLength + (m.after source).byteLength ≤ source.byteLength := by
  unfold before after
  apply Text.byteLength_takeBytes_add_dropBytes_le
  · omega
  · exact Nat.min_le_right _ _

/-! ### A place in the source -/

variable {m source}

/-- Between two boundaries of the source, the match can be put back exactly if it holds
what stands there. -/
theorem before_whole_after_eq_iff (hinside : m.offset + m.whole.byteLength ≤ source.byteLength)
    (hstart : source.IsBoundary m.offset)
    (hstop : source.IsBoundary (m.offset + m.whole.byteLength)) :
    m.before source ++ m.whole ++ m.after source = source ↔
      source.slice? m.span = some m.whole := by
  obtain ⟨part, hpart⟩ := Text.exists_slice?_of_isBoundary (Nat.le_add_right _ _) hstart hstop
  obtain ⟨u, v, rfl, hbefore, hbehind⟩ := Text.slice?_eq_some_iff.1 hpart
  change u.byteLength = m.offset at hbefore
  change Text.byteLength (u ++ part) = m.offset + m.whole.byteLength at hbehind
  have htake : m.before (u ++ part ++ v) = u := by
    rw [before, Nat.min_eq_left (by omega), ← hbefore, List.append_assoc, Text.takeBytes_append]
  have hdrop : m.after (u ++ part ++ v) = v := by
    rw [after, Nat.min_eq_left hinside, ← hbehind, Text.dropBytes_append]
  rw [htake, hdrop, show Text.slice? (u ++ part ++ v) m.span = some part from hpart]
  constructor
  · intro hrebuilt
    rw [List.append_cancel_left (List.append_cancel_right hrebuilt)]
  · intro hsame
    rw [Option.some.inj hsame]

/-- A match that holds what stands at its place can be put back there. -/
theorem before_whole_after_of_slice? (h : source.slice? m.span = some m.whole) :
    m.before source ++ m.whole ++ m.after source = source := by
  obtain ⟨hstart, hstop⟩ := Text.isBoundary_of_slice? h
  obtain ⟨-, hinside⟩ := Text.bounds_of_slice? h
  exact (before_whole_after_eq_iff hinside hstart hstop).2 h

variable (m source)

/-- The template that puts the match back where it was found. -/
theorem expansion_before_whole_after :
    m.expansion source ['$', '\x60', '$', '&', '$', '\x27'] =
      m.before source ++ m.whole ++ m.after source := by
  simp [expansion, Token.read_before, Token.read_whole, Token.read_after, Token.value,
    Token.render, insertions]

end Match

/-- The text before a match is a beginning of the source and no longer than the offset,
the text after it is an end of the source, and the two do not overlap, whatever the match
claims.  Both are the same when they are taken by slices that may fault, with the end of
the match cut down to the greatest word.  If the match has room in the source and both of
its ends are boundaries, the three texts, and the template that names them, make up the
source exactly if the match holds what stands at its place.  So they do for every match
that is read off the source. -/
theorem before_whole_after_eq_source_iff :
    (∀ (m : Match) (source : Text),
        m.before source <+: source ∧ (m.before source).byteLength ≤ m.offset ∧
          m.after source <:+ source ∧
          (m.before source).byteLength + (m.after source).byteLength ≤ source.byteLength ∧
          (source.byteLength < Checked.wordCount →
            Checked.before m source = m.before source ∧
              Checked.after m source = m.after source)) ∧
      (∀ (m : Match) (source : Text),
        m.offset + m.whole.byteLength ≤ source.byteLength → source.IsBoundary m.offset →
        source.IsBoundary (m.offset + m.whole.byteLength) →
        (m.before source ++ m.whole ++ m.after source = source ↔
            source.slice? ⟨m.offset, m.offset + m.whole.byteLength⟩ = some m.whole) ∧
          ((expand source (some m) ['$', '\x60', '$', '&', '$', '\x27']).result = some source ↔
            source.slice? ⟨m.offset, m.offset + m.whole.byteLength⟩ = some m.whole)) ∧
      ∀ (source : Text) (groupNames : List (Option Text)) (captures : Captures),
        (∀ span ∈ captures.head?.join, (source.slice? span).isSome) →
        let m := Match.ofCaptures source groupNames captures
        m.before source ++ m.whole ++ m.after source = source ∧
          (expand source (some m) ['$', '\x60', '$', '&', '$', '\x27']).result = some source := by
  have hexpand : ∀ (m : Match) (source : Text),
      (expand source (some m) ['$', '\x60', '$', '&', '$', '\x27']).result =
        some (m.before source ++ m.whole ++ m.after source) :=
    fun m source => congrArg some (m.expansion_before_whole_after source)
  refine ⟨fun m source => ⟨source.takeBytes_prefix _, m.byteLength_before_le source,
    source.dropBytes_suffix _, m.byteLength_before_add_after_le source, fun hword => ?_⟩, ?_, ?_⟩
  · exact ⟨Checked.before_eq m source, Checked.after_eq m source hword⟩
  · intro m source hinside hstart hstop
    have hrebuilt := Match.before_whole_after_eq_iff hinside hstart hstop
    refine ⟨hrebuilt, ?_⟩
    rw [hexpand, Option.some_inj]
    exact hrebuilt
  · intro source groupNames captures hslice m
    have hwhole : source.slice? m.span = some m.whole := by
      rw [Match.span_ofCaptures hslice groupNames]
      exact Match.slice?_eq_whole_ofCaptures hslice groupNames
    have hrebuilt := Match.before_whole_after_of_slice? hwhole
    exact ⟨hrebuilt, by rw [hexpand, hrebuilt]⟩

/-- A match between two characters of two bytes tells the truth, and one of the same length
does not.  The match that is read off the source covers one of these characters. -/
theorem before_whole_after_eq_source_iff_accented :
    (expand ['é', 'a', 'b', 'é'] (some ⟨2, ['a', 'b'], [], none⟩)
        ['$', '\x60', '$', '&', '$', '\x27']).result = some ['é', 'a', 'b', 'é'] ∧
      (expand ['é', 'a', 'b', 'é'] (some ⟨2, ['é'], [], none⟩)
        ['$', '\x60', '$', '&', '$', '\x27']).result ≠ some ['é', 'a', 'b', 'é'] ∧
      (expand ['é', 'a', 'b', 'é']
          (some (Match.ofCaptures ['é', 'a', 'b', 'é'] [none] [some ⟨4, 6⟩]))
        ['$', '\x60', '$', '&', '$', '\x27']).result = some ['é', 'a', 'b', 'é'] := by
  obtain ⟨-, hrebuilt, hread⟩ := before_whole_after_eq_source_iff
  refine ⟨?_, ?_, ?_⟩
  · exact (hrebuilt ⟨2, ['a', 'b'], [], none⟩ _ (by decide) (by decide) (by decide)).2.2 (by decide)
  · exact mt (hrebuilt ⟨2, ['é'], [], none⟩ _ (by decide) (by decide) (by decide)).2.1 (by decide)
  · exact (hread _ [none] [some ⟨4, 6⟩] (by decide)).2

end MatchTemplate
