import MatchTemplate.Text.Basic

/-!
# Edits of a text

An edit puts a text in place of the bytes of a span.  `splice` makes a list of
edits in one pass from left to right; every span refers to the text as it was
before the first edit.  For edits in order and without overlap that is the
same as making them one after the other, the last one first, and none of them
then meets a span that is no part of the text it finds
(`applyFromLast?_eq_some_splice`).  Edits of two texts, one behind the other, can
be made in each of them alone (`splice_append`).
-/

namespace MatchTemplate

/-- Text that takes the place of a span. -/
structure Edit where
  span : Span
  text : Text
deriving DecidableEq, Repr

/-- The same edit of a text in which `n` bytes more stand in front. -/
def Edit.shift (n : Nat) (e : Edit) : Edit where
  span := e.span.shift n
  text := e.text

/-- The text from the offset `cursor` on, with the edits made in it.  The text
between the cursor and the next edit is kept, and so is all that follows the
last edit. -/
def splice (source : Text) (cursor : Nat) : List Edit → Text
  | [] => source.dropBytes cursor
  | e :: rest =>
      source.slice ⟨cursor, e.span.start⟩ ++ e.text ++ splice source e.span.stop rest

/-- The text with one edit made in it, unless the span marks no part of it. -/
def Edit.make? (e : Edit) (t : Text) : Option Text :=
  (t.slice? e.span).map fun _ => t.takeBytes e.span.start ++ e.text ++ t.dropBytes e.span.stop

/-- The text after all edits, the last one being made first.  No edit then
moves the bytes that an edit still to be made refers to. -/
def applyFromLast? (edits : List Edit) (source : Text) : Option Text :=
  edits.foldr (fun e edited => edited.bind e.make?) (some source)

/-- The edits concern parts of the text from `cursor` on, in their order and
without overlap. -/
structure Fits (source : Text) (cursor : Nat) (edits : List Edit) : Prop where
  boundary : source.IsBoundary cursor
  slices : ∀ e ∈ edits, (source.slice? e.span).isSome
  afterCursor : ∀ e ∈ edits, cursor ≤ e.span.start
  ordered : edits.Pairwise fun a b => a.span.stop ≤ b.span.start

/-- An edit replaces the part that its span marks and keeps what lies around it. -/
theorem Edit.make?_append {e : Edit} {u part : Text} (hstart : u.byteLength = e.span.start)
    (hstop : Text.byteLength (u ++ part) = e.span.stop) (v : Text) :
    e.make? (u ++ part ++ v) = some (u ++ e.text ++ v) := by
  have hslice : Text.slice? (u ++ part ++ v) e.span = some part :=
    Text.slice?_eq_some_iff.2 ⟨u, v, rfl, hstart, hstop⟩
  have htake : Text.takeBytes (u ++ part ++ v) e.span.start = u := by
    rw [← hstart, List.append_assoc]
    exact Text.takeBytes_append u (part ++ v)
  have hdrop : Text.dropBytes (u ++ part ++ v) e.span.stop = v := by
    rw [← hstop]
    exact Text.dropBytes_append (u ++ part) v
  rw [Edit.make?, hslice, Option.map_some, htake, hdrop]

/-- What lies behind the first edit is where the other edits fit. -/
theorem Fits.tail {source : Text} {cursor : Nat} {e : Edit} {rest : List Edit}
    (h : Fits source cursor (e :: rest)) : Fits source e.span.stop rest := by
  obtain ⟨hfollow, hordered⟩ := List.pairwise_cons.1 h.ordered
  obtain ⟨part, hpart⟩ := Option.isSome_iff_exists.1 (h.slices e List.mem_cons_self)
  exact
    { boundary := (Text.isBoundary_of_slice? hpart).2
      slices := fun a ha => h.slices a (List.mem_cons_of_mem e ha)
      afterCursor := hfollow
      ordered := hordered }

/-- One pass from left to right has the effect of all edits from the last to
the first, and each of them can be made. -/
theorem applyFromLast?_eq_some_splice {source : Text} {cursor : Nat} {edits : List Edit}
    (h : Fits source cursor edits) :
    applyFromLast? edits source = some (source.takeBytes cursor ++ splice source cursor edits) := by
  induction edits generalizing cursor with
  | nil =>
      rw [splice, Text.takeBytes_append_dropBytes h.boundary]
      rfl
  | cons e rest ih =>
      have hrest := ih h.tail
      obtain ⟨part, hpart⟩ := Option.isSome_iff_exists.1 (h.slices e List.mem_cons_self)
      obtain ⟨u, v, rfl, hstart, hstop⟩ := Text.slice?_eq_some_iff.1 hpart
      obtain ⟨kept, behind, hcut, rfl⟩ := Text.isBoundary_iff.1 h.boundary
      -- the text kept in front of the edit is what lies before the cursor and a gap
      have hsame : kept ++ behind = u ++ (part ++ v) := by
        rw [← hcut, List.append_assoc]
      have hbefore : kept.byteLength ≤ u.byteLength := by
        rw [hstart]
        exact h.afterCursor e List.mem_cons_self
      obtain ⟨gap, rfl, -⟩ := Text.exists_append_of_byteLength_le hsame hbefore
      have hkeep : Text.takeBytes (kept ++ gap ++ part ++ v) kept.byteLength = kept := by
        rw [List.append_assoc (kept ++ gap), List.append_assoc kept]
        exact Text.takeBytes_append _ _
      have hslice : Text.slice (kept ++ gap ++ part ++ v)
          ⟨kept.byteLength, (kept ++ gap).byteLength⟩ = gap := by
        rw [List.append_assoc (kept ++ gap)]
        exact Text.slice_append kept gap (part ++ v)
      have hlater : Text.takeBytes (kept ++ gap ++ part ++ v) e.span.stop =
          kept ++ gap ++ part := by
        rw [← hstop]
        exact Text.takeBytes_append _ v
      rw [hlater] at hrest
      calc applyFromLast? (e :: rest) (kept ++ gap ++ part ++ v)
          = (applyFromLast? rest (kept ++ gap ++ part ++ v)).bind e.make? := rfl
        _ = e.make? (kept ++ gap ++ part ++
              splice (kept ++ gap ++ part ++ v) e.span.stop rest) := by
          rw [hrest, Option.bind_some]
        _ = some (kept ++ gap ++ e.text ++
              splice (kept ++ gap ++ part ++ v) e.span.stop rest) :=
          Edit.make?_append hstart hstop _
        _ = _ := by
          rw [splice, ← hstart, hslice, hkeep]
          simp only [List.append_assoc]

/-! ### Edits of two texts -/

/-- Behind a first text, edits are made as in the second one alone. -/
theorem splice_shift (u v : Text) (cursor : Nat) (edits : List Edit) :
    splice (u ++ v) (u.byteLength + cursor) (edits.map (Edit.shift u.byteLength)) =
      splice v cursor edits := by
  induction edits generalizing cursor with
  | nil => exact Text.dropBytes_append_add u v cursor
  | cons e rest ih =>
      have hgap : Text.slice (u ++ v) ⟨u.byteLength + cursor, u.byteLength + e.span.start⟩ =
          v.slice ⟨cursor, e.span.start⟩ :=
        congrArg (Option.getD · []) (Text.slice?_append_shift u v ⟨cursor, e.span.start⟩)
      have hrest := ih e.span.stop
      rw [List.map_cons, splice, splice]
      show Text.slice (u ++ v) ⟨u.byteLength + cursor, u.byteLength + e.span.start⟩ ++ e.text ++
        splice (u ++ v) (u.byteLength + e.span.stop) (rest.map (Edit.shift u.byteLength)) = _
      rw [hgap, hrest]

/-- The gap between the last edit of the first text and the first edit of the second
one goes over the joint, and is kept on both sides of it. -/
theorem splice_append {u v : Text} {cursor : Nat} {edits edits' : List Edit}
    (h : Fits u cursor edits) (h' : Fits v 0 edits') :
    splice (u ++ v) cursor (edits ++ edits'.map (Edit.shift u.byteLength)) =
      splice u cursor edits ++ splice v 0 edits' := by
  induction edits generalizing cursor with
  | nil =>
      cases edits' with
      | nil =>
          have hwhole : v.dropBytes 0 = v := Text.dropBytes_append [] v
          rw [List.map_nil, List.append_nil, splice, splice, splice, hwhole]
          exact Text.dropBytes_append_of_isBoundary h.boundary v
      | cons e rest =>
          -- the gap is what is left of the first text and what precedes `e` in the second
          obtain ⟨part, hpart⟩ := Option.isSome_iff_exists.1 (h'.slices e List.mem_cons_self)
          have hstart := (Text.isBoundary_of_slice? hpart).1
          have hgap := Text.slice_append_add h.boundary hstart
          have hrest := splice_shift u v e.span.stop rest
          rw [List.nil_append, List.map_cons, splice, splice, splice, Text.slice_zero]
          show Text.slice (u ++ v) ⟨cursor, u.byteLength + e.span.start⟩ ++ e.text ++
            splice (u ++ v) (u.byteLength + e.span.stop) (rest.map (Edit.shift u.byteLength)) = _
          rw [hgap, hrest]
          simp only [List.append_assoc]
  | cons e rest ih =>
      obtain ⟨part, hpart⟩ := Option.isSome_iff_exists.1 (h.slices e List.mem_cons_self)
      obtain ⟨gap, hgap⟩ := Text.exists_slice?_of_isBoundary (h.afterCursor e List.mem_cons_self)
        h.boundary (Text.isBoundary_of_slice? hpart).1
      -- as long as edits of the first text follow, gaps are parts of it
      have hgap' := Text.slice?_append_left hgap v
      rw [List.cons_append, splice, splice, ih h.tail, Text.slice, Text.slice, hgap, hgap']
      simp only [List.append_assoc]

end MatchTemplate
