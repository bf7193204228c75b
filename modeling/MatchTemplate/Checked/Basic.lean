import MatchTemplate.Text.Bytes

/-!
# Offsets in machine words

Here offsets are 64-bit words, and nothing is taken for granted: a sum that
does not fit, a difference below zero, an index past the end and a slice that
does not begin and end between two characters are faults.  Where a slice may
begin and end is read off the bytes.  A slice that is no fault is the part of
the text that its span marks (`slice_eq_ok_iff`).
-/

namespace MatchTemplate

/-- What can go wrong in a computation on offsets. -/
inductive Fault where
  /-- A sum does not fit into a word. -/
  | overflow
  /-- A difference would be below zero. -/
  | underflow
  /-- There is no byte at this index. -/
  | outOfRange (index : Nat)
  /-- A text has no part that begins and ends at these offsets. -/
  | cut (span : Span)
  /-- A loop has not come to its end. -/
  | stuck
deriving DecidableEq, Repr

/-- Result of a computation that may fault. -/
abbrev Checked := Except Fault

namespace Checked

/-- The number of words. -/
def wordCount : Nat := 0x10000000000000000

/-- Every text that is stored has fewer bytes than this, which is half the
number of words. -/
def lengthLimit : Nat := 0x8000000000000000

/-- The sum, if it is a word. -/
def add (a b : Nat) : Checked Nat :=
  if a + b < wordCount then .ok (a + b) else .error .overflow

/-- The difference, if it is a word. -/
def sub (a b : Nat) : Checked Nat :=
  if b ≤ a then .ok (a - b) else .error .underflow

/-- The sum, or the greatest word if that is less. -/
def addUpToLimit (a b : Nat) : Nat := min (a + b) (wordCount - 1)

/-- The byte at an index. -/
def byteAt (t : Text) (index : Nat) : Checked UInt8 :=
  match t.bytes[index]? with
  | some b => .ok b
  | none => .error (.outOfRange index)

/-- The text from one offset up to another.  Characters have to begin, or the
text to end, at both of them. -/
def slice (t : Text) (start stop : Nat) : Checked Text :=
  if start ≤ stop ∧ IsCharStart t.bytes start ∧ IsCharStart t.bytes stop then
    .ok (t.slice ⟨start, stop⟩)
  else
    .error (.cut ⟨start, stop⟩)

/-- The text from an offset on. -/
def sliceFrom (t : Text) (start : Nat) : Checked Text := slice t start t.byteLength

@[simp] theorem ok_bind {α β : Type} (a : α) (f : α → Checked β) :
    (Except.ok a >>= f : Checked β) = f a := rfl

@[simp] theorem pure_eq_ok {α : Type} (a : α) : (pure a : Checked α) = .ok a := rfl

theorem add_eq_ok {a b : Nat} (h : a + b < wordCount) : add a b = .ok (a + b) := if_pos h

theorem sub_eq_ok {a b : Nat} (h : b ≤ a) : sub a b = .ok (a - b) := if_pos h

theorem slice_of_isBoundary {t : Text} {start stop : Nat} (hle : start ≤ stop)
    (hstart : t.IsBoundary start) (hstop : t.IsBoundary stop) :
    slice t start stop = .ok (t.slice ⟨start, stop⟩) := by
  rw [← Text.isCharStart_bytes_iff] at hstart hstop
  exact if_pos ⟨hle, hstart, hstop⟩

/-- A slice is taken exactly where the span marks a part of the text. -/
theorem slice_eq_ok_iff {t part : Text} {start stop : Nat} :
    slice t start stop = .ok part ↔ t.slice? ⟨start, stop⟩ = some part := by
  constructor
  · intro h
    unfold slice at h
    split at h
    · rename_i hbounds
      obtain ⟨hle, hstart, hstop⟩ := hbounds
      rw [Text.isCharStart_bytes_iff, Text.isBoundary_iff] at hstart hstop
      obtain ⟨u, behind, rfl, rfl⟩ := hstart
      obtain ⟨u', v, hcut, rfl⟩ := hstop
      obtain ⟨inside, rfl, rfl⟩ := Text.exists_append_of_byteLength_le hcut hle
      have hslice : Text.slice? (u ++ (inside ++ v)) ⟨u.byteLength, (u ++ inside).byteLength⟩ =
          some inside :=
        Text.slice?_eq_some_iff.2 ⟨u, v, (List.append_assoc ..).symm, rfl, rfl⟩
      have hpart : inside = part := by
        rw [Text.slice, hslice, Option.getD_some] at h
        exact Except.ok.inj h
      rw [← hpart]
      exact hslice
    · simp at h
  · intro h
    obtain ⟨hle, -⟩ := Text.bounds_of_slice? h
    obtain ⟨hstart, hstop⟩ := Text.isBoundary_of_slice? h
    rw [slice_of_isBoundary hle hstart hstop, Text.slice, h, Option.getD_some]

/-- A slice that is a fault marks no part of the text. -/
theorem toOption_slice (t : Text) (start stop : Nat) :
    (slice t start stop).toOption = t.slice? ⟨start, stop⟩ := by
  ext part
  rw [← slice_eq_ok_iff]
  cases slice t start stop with
  | error fault => simp [Except.toOption]
  | ok cut => simp [Except.toOption]

/-- A beginning of a text can be cut off, and so can what follows it. -/
theorem slice_zero_append (u v : Text) : slice (u ++ v) 0 u.byteLength = .ok u :=
  slice_eq_ok_iff.2 (Text.slice?_eq_some_iff.2 ⟨[], v, rfl, rfl, rfl⟩)

theorem sliceFrom_append (u v : Text) : sliceFrom (u ++ v) u.byteLength = .ok v :=
  slice_eq_ok_iff.2 (Text.slice?_eq_some_iff.2 ⟨u, [], by simp, rfl, rfl⟩)

end Checked

end MatchTemplate
