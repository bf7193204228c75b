import MatchTemplate.Match.Findings
import MatchTemplate.Replacement.Edit
import MatchTemplate.Template.Expansion

/-!
# Replacing matches

The matches of a pattern are replaced by the expansion of a template, in one
pass over the source.  A `Rewriting` is such a pass under way: what it has put
out, the offset up to which it has used the source, and how many matches it has
replaced.  Every expansion is made against the source as it was, so the text
before or after a match is that of the whole source, whatever has been replaced
in it.  A source without matches is kept, and the result says so.

What a pass does to a list of matches is an edit for each of them
(`replaceUpTo_eq_replaceMatches`).
-/

namespace MatchTemplate

/-- Outcome of a replacement.  A text that was edited may be equal to the source
all the same. -/
inductive Replacement where
  /-- There was nothing to replace. -/
  | kept (source : Text)
  /-- At least one match was replaced. -/
  | edited (text : Text)
deriving DecidableEq, Repr

/-- The text that results. -/
def Replacement.text : Replacement → Text
  | kept source => source
  | edited text => text

/-- A pass over a source that is under way. -/
structure Rewriting where
  output : Text
  cursor : Nat
  count : Nat
  notices : List Notice
deriving DecidableEq, Repr

namespace Rewriting

/-- The pass at the front of the source. -/
def start : Rewriting where
  output := []
  cursor := 0
  count := 0
  notices := []

/-- As many matches as the limit allows have been replaced.  A limit of zero
is none. -/
def IsFull (limit : Nat) (pass : Rewriting) : Prop := 0 < limit ∧ pass.count = limit

instance (limit : Nat) (pass : Rewriting) : Decidable (pass.IsFull limit) :=
  inferInstanceAs (Decidable (0 < limit ∧ pass.count = limit))

/-- Replaces one match more.  The text between the cursor and the match is
kept. -/
def replace (source template : Text) (pass : Rewriting) (m : Match) : Rewriting :=
  let expanded := expand source (some m) template
  { output := pass.output ++ source.slice ⟨pass.cursor, m.offset⟩ ++ expanded.result.getD []
    cursor := m.offset + m.whole.byteLength
    count := pass.count + 1
    notices := pass.notices ++ expanded.notices ++ [.replacedMatch m.offset m.whole] }

/-- Replaces matches from left to right until the pass is full. -/
def run (limit : Nat) (source template : Text) : Rewriting → List Match → Rewriting
  | pass, [] => pass
  | pass, m :: rest =>
      if pass.IsFull limit then
        pass
      else
        run limit source template (pass.replace source template m) rest

/-- The outcome of a pass.  The text behind the last match is kept, and the
whole source if no match was replaced. -/
def finish (source : Text) (pass : Rewriting) : Logged Replacement :=
  if pass.count = 0 then
    ⟨.kept source, pass.notices⟩
  else
    ⟨.edited (pass.output ++ source.dropBytes pass.cursor),
      pass.notices ++ [.replacedCount pass.count]⟩

end Rewriting

/-- Replaces matches from left to right, as many as the limit allows.  A limit
of zero is none. -/
def replaceUpTo (limit : Nat) (source : Text) (findings : Findings) (template : Text) :
    Logged Replacement :=
  (Rewriting.start.run limit source template (findings.occurrences source)).finish source

/-- Replaces the first match. -/
def replaceFirst (source : Text) (findings : Findings) (template : Text) :
    Logged Replacement :=
  replaceUpTo 1 source findings template

/-- Replaces every match. -/
def replaceAll (source : Text) (findings : Findings) (template : Text) :
    Logged Replacement :=
  replaceUpTo 0 source findings template

/-- Expands a template against the first match.  That there is none is the
answer then, and it is not reported. -/
def expandFirst (source : Text) (findings : Findings) (template : Text) :
    Logged (Option Text) :=
  match (findings.occurrences source).head? with
  | none => ⟨none, []⟩
  | some m => expand source (some m) template

/-! ### Without a match -/

/-- Where nothing was found there is nothing to expand a template against. -/
theorem expandFirst_of_captures_eq_nil {findings : Findings} (hnone : findings.captures = [])
    (source template : Text) : expandFirst source findings template = ⟨none, []⟩ := by
  rw [expandFirst, Findings.occurrences, hnone]
  rfl

/-- Where nothing was found the source is kept. -/
theorem replaceUpTo_of_captures_eq_nil {findings : Findings} (hnone : findings.captures = [])
    (limit : Nat) (source template : Text) :
    replaceUpTo limit source findings template = ⟨.kept source, []⟩ := by
  rw [replaceUpTo, Findings.occurrences, hnone]
  rfl

/-! ### A pass as a list of edits -/

/-- The members of a list that a limit admits.  A limit of zero admits all. -/
def limited {α : Type} (limit : Nat) (l : List α) : List α :=
  if limit = 0 then l else l.take limit

theorem map_limited {α β : Type} (f : α → β) (limit : Nat) (l : List α) :
    (limited limit l).map f = limited limit (l.map f) := by
  unfold limited
  split
  · rfl
  · exact List.map_take

theorem limited_sublist {α : Type} (limit : Nat) (l : List α) : (limited limit l).Sublist l := by
  unfold limited
  split
  · exact List.Sublist.refl l
  · exact List.take_sublist limit l

/-- The edit that replaces a match. -/
def Match.edit (m : Match) (source template : Text) : Edit where
  span := m.span
  text := m.expansion source template

/-- The notices of a match's expansion, and one of its replacement. -/
def Match.replacementNotices (m : Match) (source template : Text) : List Notice :=
  (expand source (some m) template).notices ++ [.replacedMatch m.offset m.whole]

/-- The source with an edit for each of the given matches. -/
def replaceMatches (source : Text) (ms : List Match) (template : Text) : Logged Replacement :=
  if ms.isEmpty then
    ⟨.kept source, []⟩
  else
    ⟨.edited (splice source 0 (ms.map fun m => m.edit source template)),
      ms.flatMap (fun m => m.replacementNotices source template) ++
        [.replacedCount ms.length]⟩

namespace Rewriting

variable (source template : Text)

/-- A pass replaces the matches that the limit admits, one after the other. -/
theorem run_eq_foldl (limit : Nat) (pass : Rewriting) (ms : List Match)
    (h : limit = 0 ∨ pass.count ≤ limit) :
    pass.run limit source template ms =
      (if limit = 0 then ms else ms.take (limit - pass.count)).foldl
        (replace source template) pass := by
  induction ms generalizing pass with
  | nil => simp [run]
  | cons m rest ih =>
      rw [run]
      split
      · rename_i hfull
        obtain ⟨hpos, hcount⟩ := hfull
        have hlimit : limit ≠ 0 := by omega
        rw [if_neg hlimit, hcount, Nat.sub_self, List.take_zero, List.foldl_nil]
      · rename_i hfull
        have hcount : (pass.replace source template m).count = pass.count + 1 := rfl
        have hnext : limit = 0 ∨ (pass.replace source template m).count ≤ limit := by
          simp only [IsFull, not_and] at hfull
          rw [hcount]
          omega
        rw [ih _ hnext, hcount]
        by_cases hlimit : limit = 0
        · rw [if_pos hlimit, if_pos hlimit, List.foldl_cons]
        · simp only [IsFull, not_and] at hfull
          have hleft : limit - pass.count = limit - (pass.count + 1) + 1 := by omega
          rw [if_neg hlimit, if_neg hlimit, hleft, List.take_succ_cons, List.foldl_cons]

theorem count_foldl_replace (pass : Rewriting) (ms : List Match) :
    (ms.foldl (replace source template) pass).count = pass.count + ms.length := by
  induction ms generalizing pass with
  | nil => rfl
  | cons m rest ih =>
      rw [List.foldl_cons, ih, List.length_cons]
      show pass.count + 1 + rest.length = pass.count + (rest.length + 1)
      omega

theorem notices_foldl_replace (pass : Rewriting) (ms : List Match) :
    (ms.foldl (replace source template) pass).notices =
      pass.notices ++ ms.flatMap fun m => m.replacementNotices source template := by
  induction ms generalizing pass with
  | nil => simp
  | cons m rest ih =>
      rw [List.foldl_cons, ih, List.flatMap_cons]
      simp [replace, Match.replacementNotices]

/-- What has been put out and what is left of the source make up the source
with an edit for every match from the cursor on. -/
theorem output_foldl_replace (pass : Rewriting) (ms : List Match) :
    (ms.foldl (replace source template) pass).output ++
        source.dropBytes (ms.foldl (replace source template) pass).cursor =
      pass.output ++ splice source pass.cursor (ms.map fun m => m.edit source template) := by
  induction ms generalizing pass with
  | nil => rfl
  | cons m rest ih =>
      rw [List.foldl_cons, ih, List.map_cons, splice]
      simp [replace, expand, Match.edit, Match.span]

end Rewriting

/-- A replacement edits the matches that the limit admits. -/
theorem replaceUpTo_eq_replaceMatches (limit : Nat) (source : Text) (findings : Findings)
    (template : Text) :
    replaceUpTo limit source findings template =
      replaceMatches source (limited limit (findings.occurrences source)) template := by
  have hrun := Rewriting.run_eq_foldl source template limit Rewriting.start
    (findings.occurrences source) (Or.inr (Nat.zero_le limit))
  rw [replaceUpTo, hrun]
  show (List.foldl (Rewriting.replace source template) Rewriting.start
    (limited limit (findings.occurrences source))).finish source = _
  generalize limited limit (findings.occurrences source) = ms
  have hcount := Rewriting.count_foldl_replace source template Rewriting.start ms
  have hnotices := Rewriting.notices_foldl_replace source template Rewriting.start ms
  have houtput := Rewriting.output_foldl_replace source template Rewriting.start ms
  simp only [Rewriting.start, Nat.zero_add, List.nil_append] at hcount hnotices houtput
  rw [Rewriting.finish, Rewriting.start, hcount, hnotices, houtput, replaceMatches]
  cases ms with
  | nil => rfl
  | cons m rest => rfl

end MatchTemplate
