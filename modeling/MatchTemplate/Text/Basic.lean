/-!
# Texts measured in bytes

A text is a list of characters, and every length and offset counts the bytes
of its UTF-8 form.  A text can be divided only between two characters:
`splitBytes?` refuses an offset inside a character or past the end, and
`takeBytes` and `dropBytes` answer the empty text there.
-/

namespace MatchTemplate

/-- Sequence of characters. -/
abbrev Text := List Char

/-- Range of bytes from `start` up to, and without, `stop`. -/
structure Span where
  start : Nat
  stop : Nat
deriving DecidableEq, Repr

/-- The same range, `n` bytes further on. -/
def Span.shift (n : Nat) (span : Span) : Span where
  start := n + span.start
  stop := n + span.stop

namespace Text

/-- Number of bytes of the UTF-8 form. -/
def byteLength : Text → Nat
  | [] => 0
  | c :: rest => c.utf8Size + byteLength rest

@[simp] theorem byteLength_nil : byteLength [] = 0 := rfl

@[simp] theorem byteLength_cons (c : Char) (t : Text) :
    byteLength (c :: t) = c.utf8Size + byteLength t := rfl

@[simp] theorem byteLength_append (t u : Text) :
    byteLength (t ++ u) = byteLength t + byteLength u := by
  induction t with
  | nil => simp
  | cons c t ih => simp [ih, Nat.add_assoc]

@[simp] theorem byteLength_eq_zero_iff (t : Text) : byteLength t = 0 ↔ t = [] := by
  cases t with
  | nil => simp
  | cons c t =>
      have := c.utf8Size_pos
      simp only [byteLength_cons, reduceCtorEq, iff_false]
      omega

theorem byteLength_pos {t : Text} (h : t ≠ []) : 0 < byteLength t :=
  Nat.pos_of_ne_zero (mt (byteLength_eq_zero_iff t).1 h)

/-- Two beginnings of one text that have the same number of bytes are the
same beginning. -/
theorem append_inj_of_byteLength {t u t' u' : Text} (h : t ++ u = t' ++ u')
    (hlen : byteLength t = byteLength t') : t = t' ∧ u = u' := by
  induction t generalizing t' with
  | nil =>
      have : t' = [] := (byteLength_eq_zero_iff t').1 hlen.symm
      subst this
      exact ⟨rfl, h⟩
  | cons c t ih =>
      cases t' with
      | nil => simp at hlen; have := c.utf8Size_pos; omega
      | cons c' t' =>
          obtain ⟨rfl, hrest⟩ : c = c' ∧ t ++ u = t' ++ u' := by simpa using h
          obtain ⟨rfl, rfl⟩ := ih hrest (by simpa using hlen)
          exact ⟨rfl, rfl⟩

/-- Of two beginnings of one text the one with fewer bytes begins the other. -/
theorem exists_append_of_byteLength_le {t u t' u' : Text} (h : t ++ u = t' ++ u')
    (hle : byteLength t ≤ byteLength t') : ∃ v, t' = t ++ v ∧ u = v ++ u' := by
  rcases List.append_eq_append_iff.1 h with ⟨v, ht', hu⟩ | ⟨v, ht, hu'⟩
  · exact ⟨v, ht', hu⟩
  · have hv : v = [] := by
      rw [← byteLength_eq_zero_iff]
      have := congrArg byteLength ht
      simp only [byteLength_append] at this
      omega
    exact ⟨[], by simp_all⟩

/-- Divides a text after `n` bytes.  There is no answer when the text is
shorter or when the cut would fall inside a character. -/
def splitBytes? : Text → Nat → Option (Text × Text)
  | t, 0 => some ([], t)
  | [], _ + 1 => none
  | c :: rest, n + 1 =>
      if c.utf8Size ≤ n + 1 then
        (splitBytes? rest (n + 1 - c.utf8Size)).map fun parts => (c :: parts.1, parts.2)
      else
        none

@[simp] theorem splitBytes?_zero (t : Text) : splitBytes? t 0 = some ([], t) := by
  cases t <;> rfl

/-- The end of any beginning of a text is a place where it can be divided. -/
@[simp] theorem splitBytes?_append (u v : Text) :
    splitBytes? (u ++ v) (byteLength u) = some (u, v) := by
  induction u with
  | nil => simp
  | cons c u ih =>
      obtain ⟨n, hn⟩ := Nat.exists_eq_add_of_lt c.utf8Size_pos
      have hle : c.utf8Size ≤ n + byteLength u + 1 := by omega
      have hrest : n + byteLength u + 1 - c.utf8Size = byteLength u := by omega
      have hlen : byteLength (c :: u) = n + byteLength u + 1 := by simp; omega
      rw [hlen]
      simp [splitBytes?, hle, hrest, ih]

private theorem append_of_splitBytes? {t u v : Text} {n : Nat}
    (h : splitBytes? t n = some (u, v)) : t = u ++ v ∧ byteLength u = n := by
  induction t generalizing n u with
  | nil =>
      cases n with
      | zero => simp_all [splitBytes?]
      | succ n => simp [splitBytes?] at h
  | cons c t ih =>
      cases n with
      | zero => simp_all [splitBytes?]
      | succ n =>
          by_cases hle : c.utf8Size ≤ n + 1
          · simp only [splitBytes?, hle, if_true, Option.map_eq_some_iff] at h
            obtain ⟨⟨u', v'⟩, hsplit, hparts⟩ := h
            obtain ⟨rfl, rfl⟩ : c :: u' = u ∧ v' = v := by simpa using hparts
            obtain ⟨rfl, hlen⟩ := ih hsplit
            refine ⟨rfl, ?_⟩
            simp only [byteLength_cons]
            omega
          · simp [splitBytes?, hle] at h

/-- A division consists of two texts that make up the whole, the first of
which has the length that was asked for. -/
theorem splitBytes?_eq_some_iff {t u v : Text} {n : Nat} :
    splitBytes? t n = some (u, v) ↔ t = u ++ v ∧ byteLength u = n := by
  constructor
  · exact append_of_splitBytes?
  · rintro ⟨rfl, rfl⟩
    exact splitBytes?_append u v

/-- The offset `n` lies between two characters of the text, or at one of its
ends. -/
def IsBoundary (t : Text) (n : Nat) : Prop := (splitBytes? t n).isSome

instance (t : Text) (n : Nat) : Decidable (IsBoundary t n) :=
  inferInstanceAs (Decidable ((splitBytes? t n).isSome = true))

theorem isBoundary_iff {t : Text} {n : Nat} :
    IsBoundary t n ↔ ∃ u v, t = u ++ v ∧ byteLength u = n := by
  simp only [IsBoundary, Option.isSome_iff_exists, Prod.exists, splitBytes?_eq_some_iff]

theorem isBoundary_zero (t : Text) : IsBoundary t 0 := isBoundary_iff.2 ⟨[], t, rfl, rfl⟩

/-- The first `n` bytes, or nothing when the text cannot be cut there. -/
def takeBytes (t : Text) (n : Nat) : Text :=
  ((splitBytes? t n).map Prod.fst).getD []

/-- All but the first `n` bytes, or nothing when the text cannot be cut there. -/
def dropBytes (t : Text) (n : Nat) : Text :=
  ((splitBytes? t n).map Prod.snd).getD []

@[simp] theorem takeBytes_append (u v : Text) : takeBytes (u ++ v) (byteLength u) = u := by
  simp [takeBytes]

@[simp] theorem dropBytes_append (u v : Text) : dropBytes (u ++ v) (byteLength u) = v := by
  simp [dropBytes]

theorem takeBytes_append_dropBytes {t : Text} {n : Nat} (h : IsBoundary t n) :
    takeBytes t n ++ dropBytes t n = t := by
  obtain ⟨u, v, rfl, rfl⟩ := isBoundary_iff.1 h
  simp

/-- A text is cut into two parts, the first of the length that was asked for, or
nothing remains of it on either side. -/
theorem takeBytes_dropBytes_cases (t : Text) (n : Nat) :
    (takeBytes t n ++ dropBytes t n = t ∧ byteLength (takeBytes t n) = n) ∨
      (takeBytes t n = [] ∧ dropBytes t n = []) := by
  by_cases h : IsBoundary t n
  · obtain ⟨u, v, rfl, rfl⟩ := isBoundary_iff.1 h
    left
    rw [takeBytes_append, dropBytes_append]
    exact ⟨rfl, rfl⟩
  · right
    have hnone : splitBytes? t n = none := Option.not_isSome_iff_eq_none.1 h
    simp [takeBytes, dropBytes, hnone]

theorem takeBytes_prefix (t : Text) (n : Nat) : takeBytes t n <+: t := by
  rcases takeBytes_dropBytes_cases t n with ⟨hcut, -⟩ | ⟨htake, -⟩
  · exact ⟨dropBytes t n, hcut⟩
  · rw [htake]
    exact List.nil_prefix

theorem dropBytes_suffix (t : Text) (n : Nat) : dropBytes t n <:+ t := by
  rcases takeBytes_dropBytes_cases t n with ⟨hcut, -⟩ | ⟨-, hdrop⟩
  · exact ⟨takeBytes t n, hcut⟩
  · rw [hdrop]
    exact List.nil_suffix

theorem byteLength_takeBytes_le (t : Text) (n : Nat) : byteLength (takeBytes t n) ≤ n := by
  rcases takeBytes_dropBytes_cases t n with ⟨-, hlen⟩ | ⟨htake, -⟩
  · exact Nat.le_of_eq hlen
  · rw [htake]
    exact Nat.zero_le n

/-- What is left of a text does not reach back over the offset. -/
theorem add_byteLength_dropBytes_le {t : Text} {n : Nat} (h : n ≤ byteLength t) :
    n + byteLength (dropBytes t n) ≤ byteLength t := by
  rcases takeBytes_dropBytes_cases t n with ⟨hcut, hlen⟩ | ⟨-, hdrop⟩
  · have hparts := congrArg byteLength hcut
    rw [byteLength_append, hlen] at hparts
    exact Nat.le_of_eq hparts
  · rw [hdrop]
    exact h

/-- The bytes of a span.  There is no answer when the span runs backwards or
an end of it is no boundary of the text. -/
def slice? (t : Text) (span : Span) : Option Text := do
  let (upToStop, _) ← splitBytes? t span.stop
  let (_, inside) ← splitBytes? upToStop span.start
  return inside

/-- A slice is a part of the text that begins and ends where the span does. -/
theorem slice?_eq_some_iff {t part : Text} {span : Span} :
    slice? t span = some part ↔
      ∃ u v, t = u ++ part ++ v ∧ byteLength u = span.start ∧
        byteLength (u ++ part) = span.stop := by
  simp only [slice?, Option.bind_eq_bind, Option.bind_eq_some_iff, Option.pure_def,
    Option.some.injEq, Prod.exists, splitBytes?_eq_some_iff]
  constructor
  · rintro ⟨_, v, ⟨rfl, hstop⟩, u, _, ⟨rfl, hstart⟩, rfl⟩
    exact ⟨u, v, rfl, hstart, hstop⟩
  · rintro ⟨u, v, rfl, hstart, hstop⟩
    exact ⟨_, v, ⟨rfl, hstop⟩, u, _, ⟨rfl, hstart⟩, rfl⟩

/-- Where a slice can be taken, the text can be divided at both ends of it. -/
theorem isBoundary_of_slice? {t part : Text} {span : Span} (h : slice? t span = some part) :
    IsBoundary t span.start ∧ IsBoundary t span.stop := by
  obtain ⟨u, v, hcut, hstart, hstop⟩ := slice?_eq_some_iff.1 h
  constructor
  · rw [List.append_assoc] at hcut
    exact isBoundary_iff.2 ⟨u, part ++ v, hcut, hstart⟩
  · exact isBoundary_iff.2 ⟨u ++ part, v, hcut, hstop⟩

theorem bounds_of_slice? {t part : Text} {span : Span} (h : slice? t span = some part) :
    span.start ≤ span.stop ∧ span.stop ≤ byteLength t := by
  obtain ⟨u, v, rfl, hstart, hstop⟩ := slice?_eq_some_iff.1 h
  rw [byteLength_append] at hstop
  rw [byteLength_append, byteLength_append]
  omega

/-- The bytes of a span, or nothing when it does not mark a part of the text. -/
def slice (t : Text) (span : Span) : Text := (slice? t span).getD []

theorem slice_append (u part v : Text) :
    slice (u ++ part ++ v) ⟨byteLength u, byteLength (u ++ part)⟩ = part := by
  have h : slice? (u ++ part ++ v) ⟨byteLength u, byteLength (u ++ part)⟩ = some part :=
    slice?_eq_some_iff.2 ⟨u, v, rfl, rfl, rfl⟩
  simp only [slice, h, Option.getD_some]

/-- Between two boundaries there is a part of the text. -/
theorem exists_slice?_of_isBoundary {t : Text} {start stop : Nat} (hle : start ≤ stop)
    (hstart : IsBoundary t start) (hstop : IsBoundary t stop) :
    ∃ part, slice? t ⟨start, stop⟩ = some part := by
  obtain ⟨u, behind, hcut, rfl⟩ := isBoundary_iff.1 hstart
  obtain ⟨upToStop, v, rfl, rfl⟩ := isBoundary_iff.1 hstop
  obtain ⟨part, rfl, rfl⟩ := exists_append_of_byteLength_le hcut.symm hle
  exact ⟨part, slice?_eq_some_iff.2 ⟨u, v, rfl, rfl, rfl⟩⟩

/-- The part up to an offset is what the text is cut to there. -/
theorem slice?_zero (t : Text) (n : Nat) :
    slice? t ⟨0, n⟩ = (splitBytes? t n).map Prod.fst := by
  ext part
  rw [slice?_eq_some_iff, Option.map_eq_some_iff]
  constructor
  · rintro ⟨u, v, rfl, hstart, hstop⟩
    obtain rfl : u = [] := (byteLength_eq_zero_iff u).1 hstart
    exact ⟨(part, v), splitBytes?_eq_some_iff.2 ⟨rfl, hstop⟩, rfl⟩
  · rintro ⟨⟨_, v⟩, hsplit, rfl⟩
    obtain ⟨rfl, hlen⟩ := splitBytes?_eq_some_iff.1 hsplit
    exact ⟨[], v, rfl, rfl, hlen⟩

/-- The part from an offset on is what is left of the text there. -/
theorem slice?_byteLength (t : Text) (n : Nat) :
    slice? t ⟨n, byteLength t⟩ = (splitBytes? t n).map Prod.snd := by
  ext part
  rw [slice?_eq_some_iff, Option.map_eq_some_iff]
  constructor
  · rintro ⟨u, v, rfl, hstart, hstop⟩
    simp only [byteLength_append] at hstop
    obtain rfl : v = [] := (byteLength_eq_zero_iff v).1 (by omega)
    rw [List.append_nil]
    exact ⟨(u, part), splitBytes?_eq_some_iff.2 ⟨rfl, hstart⟩, rfl⟩
  · rintro ⟨⟨u, _⟩, hsplit, rfl⟩
    obtain ⟨rfl, hlen⟩ := splitBytes?_eq_some_iff.1 hsplit
    exact ⟨u, [], (List.append_nil _).symm, hlen, rfl⟩

theorem slice_zero (t : Text) (n : Nat) : slice t ⟨0, n⟩ = takeBytes t n := by
  rw [slice, slice?_zero]
  rfl

/-! ### A text up to a character -/

/-- Where a text does not hold the character, it is all that stands in front of it. -/
theorem takeWhile_append_cons {stop : Char} {t : Text} (h : stop ∉ t) (u : Text) :
    (t ++ stop :: u).takeWhile (· ≠ stop) = t := by
  have hne : ∀ c ∈ t, decide (c ≠ stop) = true := by
    intro c hmem
    exact decide_eq_true (fun hc => h (hc ▸ hmem))
  rw [List.takeWhile_append_of_pos hne]
  simp

/-- Two texts that end in front of a character they do not hold are told apart by it. -/
theorem append_cons_inj {stop : Char} {t t' u u' : Text} (h : stop ∉ t) (h' : stop ∉ t')
    (heq : t ++ stop :: u = t' ++ stop :: u') : t = t' ∧ u = u' := by
  have hfront : t = t' := by
    rw [← takeWhile_append_cons h u, heq, takeWhile_append_cons h' u']
  subst hfront
  exact ⟨rfl, (List.cons.inj (List.append_cancel_left heq)).2⟩

/-! ### Two texts, one behind the other -/

/-- Behind the first text, the two can be divided where the second one can. -/
theorem splitBytes?_append_add (u v : Text) (n : Nat) :
    splitBytes? (u ++ v) (byteLength u + n) =
      (splitBytes? v n).map fun parts => (u ++ parts.1, parts.2) := by
  ext ⟨front, back⟩
  rw [splitBytes?_eq_some_iff, Option.map_eq_some_iff]
  constructor
  · rintro ⟨hcut, hlen⟩
    obtain ⟨w, rfl, rfl⟩ := exists_append_of_byteLength_le hcut (by omega)
    rw [byteLength_append] at hlen
    exact ⟨(w, back), splitBytes?_eq_some_iff.2 ⟨rfl, by omega⟩, rfl⟩
  · rintro ⟨⟨w, back'⟩, hsplit, hparts⟩
    obtain ⟨rfl, rfl⟩ := splitBytes?_eq_some_iff.1 hsplit
    obtain ⟨rfl, rfl⟩ : u ++ w = front ∧ back' = back := by simpa using hparts
    exact ⟨(List.append_assoc ..).symm, byteLength_append u w⟩

theorem dropBytes_append_add (u v : Text) (n : Nat) :
    dropBytes (u ++ v) (byteLength u + n) = dropBytes v n := by
  rw [dropBytes, splitBytes?_append_add, Option.map_map]
  rfl

theorem dropBytes_append_of_isBoundary {u : Text} {n : Nat} (h : IsBoundary u n) (v : Text) :
    dropBytes (u ++ v) n = dropBytes u n ++ v := by
  obtain ⟨front, back, rfl, rfl⟩ := isBoundary_iff.1 h
  rw [List.append_assoc, dropBytes_append, dropBytes_append]

/-- A part of the first text is the same part of both. -/
theorem slice?_append_left {u part : Text} {span : Span} (h : slice? u span = some part)
    (v : Text) : slice? (u ++ v) span = some part := by
  obtain ⟨front, back, rfl, hstart, hstop⟩ := slice?_eq_some_iff.1 h
  exact slice?_eq_some_iff.2 ⟨front, back ++ v, by simp, hstart, hstop⟩

/-- The parts of the second text lie behind the first one. -/
theorem slice?_append_shift (u v : Text) (span : Span) :
    slice? (u ++ v) (span.shift (byteLength u)) = slice? v span := by
  ext part
  rw [slice?_eq_some_iff, slice?_eq_some_iff]
  constructor
  · rintro ⟨front, back, hcut, hstart, hstop⟩
    simp only [Span.shift, byteLength_append] at hstart hstop
    rw [List.append_assoc] at hcut
    obtain ⟨w, rfl, rfl⟩ := exists_append_of_byteLength_le hcut (by omega)
    rw [byteLength_append] at hstart hstop
    exact ⟨w, back, (List.append_assoc ..).symm, by omega, by rw [byteLength_append]; omega⟩
  · rintro ⟨front, back, rfl, hstart, hstop⟩
    refine ⟨u ++ front, back, by simp, ?_, ?_⟩
    · rw [byteLength_append, hstart]
      rfl
    · rw [List.append_assoc, byteLength_append, hstop]
      rfl

/-- A part that begins in the first text and ends in the second one. -/
theorem slice_append_add {u v : Text} {start stop : Nat} (hstart : IsBoundary u start)
    (hstop : IsBoundary v stop) :
    slice (u ++ v) ⟨start, byteLength u + stop⟩ = dropBytes u start ++ takeBytes v stop := by
  obtain ⟨front, gap, rfl, rfl⟩ := isBoundary_iff.1 hstart
  obtain ⟨gap', back, rfl, rfl⟩ := isBoundary_iff.1 hstop
  rw [dropBytes_append, takeBytes_append]
  have hslice := slice_append front (gap ++ gap') back
  rw [byteLength_append, byteLength_append, ← Nat.add_assoc, ← byteLength_append] at hslice
  simpa [List.append_assoc] using hslice

end Text

end MatchTemplate
