import MatchTemplate.Checked.Expansion
import MatchTemplate.Match.Findings
import MatchTemplate.Replacement.Basic

/-!
# Replacement by byte offsets

The matches of a source are replaced from left to right.  The texts of the
groups are cut out of the source, and the cursor and the number of replacements
are computed with checked sums.
-/

namespace MatchTemplate.Checked

/-- The texts that the groups cover at one place. -/
def groupTexts (source : Text) : Captures → Checked (List (Option Text))
  | [] => return []
  | none :: rest => return none :: (← groupTexts source rest)
  | some span :: rest => do
      let text ← slice source span.start span.stop
      return some text :: (← groupTexts source rest)

/-- The names of a pattern's groups, each with the text of its group. -/
def tableOf (groupNames : List (Option Text)) (texts : List (Option Text)) : NameTable :=
  (groupNames.filterMap id).foldl
    (fun table name =>
      table.insert name ((groupNames.idxOf? (some name)).bind fun n => texts[n]?.join))
    NameTable.empty

/-- The match at one place of the source, with every group cut out of it. -/
def ofCaptures (source : Text) (groupNames : List (Option Text)) (captures : Captures) :
    Checked Match := do
  let texts ← groupTexts source captures
  return {
    offset := (captures.head?.join.map Span.start).getD 0
    whole := texts.head?.join.getD []
    slots := texts.tail
    names := if groupNames.any Option.isSome then some (tableOf groupNames texts) else none }

/-- A pass over the source that is under way. -/
structure Pass where
  output : Bytes
  cursor : Nat
  count : Nat
deriving DecidableEq, Repr

namespace Pass

/-- The pass at the front of the source. -/
def start : Pass where
  output := []
  cursor := 0
  count := 0

/-- Replaces one match more. -/
def replace (source : Text) (groupNames : List (Option Text)) (template : Text) (pass : Pass)
    (captures : Captures) : Checked Pass := do
  let m ← ofCaptures source groupNames captures
  let gap ← slice source pass.cursor m.offset
  let expanded ← expand m source template
  let stop ← add m.offset m.whole.byteLength
  let count ← add pass.count 1
  return {
    output := pass.output ++ gap.bytes ++ expanded.output
    cursor := stop
    count := count }

/-- Replaces matches from left to right until the limit is reached.  A limit of
zero is none. -/
def run (limit : Nat) (source : Text) (groupNames : List (Option Text)) (template : Text) :
    Pass → List Captures → Checked Pass
  | pass, [] => return pass
  | pass, captures :: rest =>
      if 0 < limit ∧ pass.count = limit then
        return pass
      else do
        run limit source groupNames template (← pass.replace source groupNames template captures)
          rest

/-- The bytes that result, or nothing when the source is kept. -/
def finish (source : Text) (pass : Pass) : Checked (Option Bytes) :=
  if pass.count = 0 then
    return none
  else do
    let tail ← sliceFrom source pass.cursor
    return some (pass.output ++ tail.bytes)

end Pass

/-- Replaces matches from left to right, as many as the limit allows. -/
def replaceUpTo (limit : Nat) (source : Text) (findings : Findings) (template : Text) :
    Checked (Option Bytes) := do
  let pass ← Pass.start.run limit source findings.groupNames template findings.captures
  pass.finish source

/-- Replaces the first match. -/
def replaceFirst (source : Text) (findings : Findings) (template : Text) :
    Checked (Option Bytes) :=
  replaceUpTo 1 source findings template

/-- Replaces every match. -/
def replaceAll (source : Text) (findings : Findings) (template : Text) :
    Checked (Option Bytes) :=
  replaceUpTo 0 source findings template

/-- The expansion against the first match. -/
def expandFirst (source : Text) (findings : Findings) (template : Text) :
    Checked (Option Bytes) :=
  match findings.captures.head? with
  | none => return none
  | some captures => do
      let m ← ofCaptures source findings.groupNames captures
      let expanded ← expand m source template
      return some expanded.output

end MatchTemplate.Checked
