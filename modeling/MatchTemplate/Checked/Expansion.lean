import MatchTemplate.Checked.Basic
import MatchTemplate.NameTable.Longest
import MatchTemplate.Match.Basic

/-!
# Expansion by byte offsets

A template is read from the front in a loop.  Each turn of it classifies what
stands in front by its first two bytes, appends the bytes it stands for to the
output, and cuts off as many bytes of the template as it covers.  All lengths
are bytes, and every index, sum, difference and slice is checked.
-/

namespace MatchTemplate.Checked

/-- What stands in front of a template.  A reference carries the text that it
stands for, and what is copied carries its number of bytes. -/
inductive Piece where
  /-- The text up to the next sigil. -/
  | literal (width : Nat)
  /-- The pair `$$`. -/
  | sigil
  /-- The whole match, `$&`. -/
  | whole
  /-- The source before the match, `` $` ``. -/
  | before
  /-- The source after the match, `$'`. -/
  | after
  /-- A reference to a slot that is set. -/
  | slot (value : Text)
  /-- A reference to a named group that is set. -/
  | named (value : Text) (nameWidth : Nat)
  /-- A sigil that introduces nothing. -/
  | loneSigil
  /-- A reference that cannot be resolved, or the part of it that is copied. -/
  | copied (width : Nat)
deriving DecidableEq, Repr

/-- The number of bytes that a piece covers. -/
def Piece.width : Piece → Checked Nat
  | literal width => return width
  | copied width => return width
  | loneSigil => return 1
  | named _ nameWidth => add nameWidth 3
  | sigil => return 2
  | whole => return 2
  | before => return 2
  | after => return 2
  | slot _ => return 2

/-- What slot `n` of a match holds. -/
def slot? (m : Match) (n : Nat) : Checked (Option Text) :=
  if n = 0 then
    return some m.whole
  else do
    let index ← sub n 1
    return m.slots[index]?.join

/-- The value and the number of bytes of the longest declared name that begins
two bytes further on and is closed there. -/
def namedGroup (m : Match) (rest : Text) : Checked (Option (Text × Nat)) := do
  let inner ← sliceFrom rest 2
  return m.names.bind fun table =>
    (table.longest? inner).bind fun e =>
      e.value.map fun value => (value, e.name.byteLength)

/-- What the byte after a sigil makes of it. -/
def classifySigil (m : Match) (rest : Text) (second : UInt8) : Checked Piece :=
  if second = '$'.toUInt8 then return .sigil
  else if second = '&'.toUInt8 then return .whole
  else if second = '\x60'.toUInt8 then return .before
  else if second = '\x27'.toUInt8 then return .after
  else if '1'.toUInt8 ≤ second ∧ second ≤ '9'.toUInt8 then do
    let number ← sub second.toNat '0'.toNat
    match ← slot? m number with
    | some value => return .slot value
    | none => return .copied 2
  else if second = '<'.toUInt8 then do
    match ← namedGroup m rest with
    | some (value, nameWidth) => return .named value nameWidth
    | none => return .copied 2
  else return .loneSigil

/-- What stands in front of a template, which must not be empty. -/
def classify (m : Match) (rest : Text) : Checked Piece := do
  let first ← byteAt rest 0
  if first ≠ '$'.toUInt8 then
    return .literal (rest.bytes.findIdx (· == '$'.toUInt8))
  else
    match rest.bytes[1]? with
    | none => return .loneSigil
    | some second => classifySigil m rest second

/-- The source up to the match, or nothing when that slice is a fault. -/
def before (m : Match) (source : Text) : Text :=
  let stop := min m.offset source.byteLength
  (slice source 0 stop).toOption.getD []

/-- The source from the end of the match on, or nothing when that slice is a
fault.  The end of the match is a word even if the match ends further on. -/
def after (m : Match) (source : Text) : Text :=
  let start := min (addUpToLimit m.offset m.whole.byteLength) source.byteLength
  (sliceFrom source start).toOption.getD []

/-- The bytes that the piece in front of `rest` stands for. -/
def emit (m : Match) (source rest : Text) : Piece → Checked Bytes
  | .literal width => return (← slice rest 0 width).bytes
  | .copied width => return (← slice rest 0 width).bytes
  | .sigil => return Text.bytes ['$']
  | .loneSigil => return Text.bytes ['$']
  | .whole => return m.whole.bytes
  | .before => return (before m source).bytes
  | .after => return (after m source).bytes
  | .slot value => return value.bytes
  | .named value _ => return value.bytes

/-- One turn of the loop: a piece and the bytes of the template it covers. -/
structure Step where
  piece : Piece
  span : Span
deriving DecidableEq, Repr

/-- The loop under way.  The steps and the position in the template are kept
for the record. -/
structure Scan where
  rest : Text
  position : Nat
  output : Bytes
  steps : List Step
deriving DecidableEq, Repr

namespace Scan

/-- The loop in front of a template. -/
def start (template : Text) : Scan where
  rest := template
  position := 0
  output := []
  steps := []

/-- One turn of the loop. -/
def step (m : Match) (source : Text) (scan : Scan) : Checked Scan := do
  let piece ← classify m scan.rest
  let emitted ← emit m source scan.rest piece
  let width ← piece.width
  let rest ← sliceFrom scan.rest width
  return {
    rest := rest
    position := scan.position + width
    output := scan.output ++ emitted
    steps := scan.steps ++ [⟨piece, ⟨scan.position, scan.position + width⟩⟩] }

/-- The loop, which has to end after `fuel` turns at most. -/
def run (m : Match) (source : Text) : Nat → Scan → Checked Scan
  | 0, scan => if scan.rest.isEmpty then return scan else throw .stuck
  | fuel + 1, scan =>
      if scan.rest.isEmpty then
        return scan
      else do
        run m source fuel (← scan.step m source)

end Scan

/-- The loop over a whole template.  It has no more turns than the template has
bytes. -/
def expand (m : Match) (source template : Text) : Checked Scan :=
  Scan.run m source template.byteLength (Scan.start template)

/-- The spans lead from one offset to another without gaps, and each of them
covers a byte at least and no more bytes than are left. -/
def Tiles (start stop : Nat) : List Span → Prop
  | [] => start = stop
  | span :: rest =>
      span.start = start ∧ start < span.stop ∧ span.stop ≤ stop ∧ Tiles span.stop stop rest

end MatchTemplate.Checked
