import MatchTemplate.Text.Basic

/-!
# The bytes of a text

A text is stored as the bytes of its UTF-8 form.  Each character begins with a
byte of its own kind, so the places where a text can be divided are seen in the
bytes alone (`isCharStart_bytes_iff`).  Characters below 128 are single bytes,
and no byte of another character is below 128: a byte such as that of the sigil
is never a part of something else.
-/

namespace MatchTemplate

/-- Sequence of bytes. -/
abbrev Bytes := List UInt8

/-- The byte goes on with a character that began before it. -/
def IsContinuation (b : UInt8) : Prop := 128 ≤ b.toNat ∧ b.toNat < 192

instance (b : UInt8) : Decidable (IsContinuation b) :=
  inferInstanceAs (Decidable (128 ≤ b.toNat ∧ b.toNat < 192))

/-- The offset is that of an end of the sequence, or of a byte that begins a
character. -/
def IsCharStart (s : Bytes) (n : Nat) : Prop :=
  n = 0 ∨ n = s.length ∨ ∃ b ∈ s[n]?, ¬ IsContinuation b

instance (s : Bytes) (n : Nat) : Decidable (IsCharStart s n) :=
  inferInstanceAs (Decidable (n = 0 ∨ n = s.length ∨ ∃ b ∈ s[n]?, ¬ IsContinuation b))

namespace Text

/-- The UTF-8 form of a text. -/
def bytes (t : Text) : Bytes := t.flatMap String.utf8EncodeChar

@[simp] theorem bytes_nil : bytes [] = [] := rfl

@[simp] theorem bytes_cons (c : Char) (t : Text) :
    bytes (c :: t) = String.utf8EncodeChar c ++ bytes t := rfl

@[simp] theorem bytes_append (t u : Text) : bytes (t ++ u) = bytes t ++ bytes u :=
  List.flatMap_append

@[simp] theorem length_bytes (t : Text) : (bytes t).length = byteLength t := by
  induction t with
  | nil => rfl
  | cons c t ih => simp [ih]

theorem isValidUTF8_bytes (t : Text) : (bytes t).toByteArray.IsValidUTF8 :=
  ByteArray.isValidUTF8_utf8Encode

/-- A character below 128 is a single byte, which is its code.  Any other
character begins with a byte above all those that go on with one. -/
theorem encode_cases (c : Char) :
    ∃ b more, String.utf8EncodeChar c = b :: more ∧ (∀ a ∈ more, IsContinuation a) ∧
      (c.toNat < 128 ∧ b.toNat = c.toNat ∧ more = [] ∨ 128 ≤ c.toNat ∧ 192 ≤ b.toNat) := by
  have htail : ∀ n : Nat, IsContinuation (UInt8.ofNat (n % 0x40 + 0x80)) := by
    intro n
    simp only [IsContinuation, UInt8.toNat_ofNat']
    omega
  have hcode : c.val.toNat = c.toNat := rfl
  unfold String.utf8EncodeChar
  simp only [hcode]
  split
  · refine ⟨_, _, rfl, by simp, Or.inl ⟨by omega, ?_, rfl⟩⟩
    rw [UInt8.toNat_ofNat']
    omega
  -- of two, three or four bytes all but the first carry six bits of the code
  split
  · refine ⟨_, _, rfl, ?_, Or.inr ⟨by omega, ?_⟩⟩
    · simp only [List.forall_mem_singleton, htail]
    · rw [UInt8.toNat_ofNat']
      omega
  split
  · refine ⟨_, _, rfl, ?_, Or.inr ⟨by omega, ?_⟩⟩
    · simp only [List.forall_mem_cons, htail, List.not_mem_nil, false_imp_iff, implies_true,
        and_self]
    · rw [UInt8.toNat_ofNat']
      omega
  · refine ⟨_, _, rfl, ?_, Or.inr ⟨by omega, ?_⟩⟩
    · simp only [List.forall_mem_cons, htail, List.not_mem_nil, false_imp_iff, implies_true,
        and_self]
    · rw [UInt8.toNat_ofNat']
      omega

/-- A text begins with a byte that begins a character. -/
theorem not_isContinuation_of_head? {t : Text} {b : UInt8} (h : (bytes t).head? = some b) :
    ¬ IsContinuation b := by
  cases t with
  | nil => simp at h
  | cons c t =>
      obtain ⟨first, more, hencode, -, hcases⟩ := encode_cases c
      obtain rfl : first = b := by simpa [hencode] using h
      simp only [IsContinuation]
      omega

theorem isBoundary_cons_iff (c : Char) (t : Text) (n : Nat) :
    IsBoundary (c :: t) n ↔ n = 0 ∨ c.utf8Size ≤ n ∧ IsBoundary t (n - c.utf8Size) := by
  cases n with
  | zero => simp [IsBoundary]
  | succ n =>
      by_cases hle : c.utf8Size ≤ n + 1
      · simp [IsBoundary, splitBytes?, hle]
      · simp [IsBoundary, splitBytes?, hle]

/-- No offset inside a character is one where a character begins. -/
theorem not_isCharStart_inside {c : Char} {n : Nat} (hpos : 0 < n) (hlt : n < c.utf8Size)
    (t : Text) : ¬ IsCharStart (bytes (c :: t)) n := by
  obtain ⟨b, more, hencode, hmore, -⟩ := encode_cases c
  have hlength : more.length + 1 = c.utf8Size := by
    rw [← String.length_utf8EncodeChar, hencode, List.length_cons]
  obtain ⟨k, rfl⟩ : ∃ k, n = k + 1 := ⟨n - 1, by omega⟩
  have hk : k < more.length := by omega
  have hget : (bytes (c :: t))[k + 1]? = some more[k] := by
    rw [bytes_cons, hencode, List.cons_append, List.getElem?_cons_succ,
      List.getElem?_append_left hk, List.getElem?_eq_getElem hk]
  rintro (hzero | hend | ⟨a, ha, hstart⟩)
  · omega
  · rw [length_bytes, byteLength_cons] at hend
    omega
  · rw [hget] at ha
    obtain rfl : more[k] = a := by simpa using ha
    exact hstart (hmore _ (List.getElem_mem hk))

/-- Behind the first character a text can be divided as the rest of it can. -/
theorem isCharStart_cons_iff {c : Char} {n : Nat} (hle : c.utf8Size ≤ n) (t : Text) :
    IsCharStart (bytes (c :: t)) n ↔ IsCharStart (bytes t) (n - c.utf8Size) := by
  have hpos := c.utf8Size_pos
  have hget : (bytes (c :: t))[n]? = (bytes t)[n - c.utf8Size]? := by
    rw [bytes_cons, List.getElem?_append_right (by simpa using hle), String.length_utf8EncodeChar]
  have hlength : (bytes (c :: t)).length = c.utf8Size + (bytes t).length := by
    rw [length_bytes, length_bytes, byteLength_cons]
  unfold IsCharStart
  rw [hget, hlength]
  constructor
  · rintro (hzero | hend | hstart)
    · omega
    · exact Or.inr (Or.inl (by omega))
    · exact Or.inr (Or.inr hstart)
  · rintro (hzero | hend | hstart)
    -- the rest of the text is empty here, or its first byte begins a character
    · cases hhead : (bytes t).head? with
      | none =>
          have hnil : bytes t = [] := List.head?_eq_none_iff.1 hhead
          rw [hnil, List.length_nil]
          exact Or.inr (Or.inl (by omega))
      | some b =>
          refine Or.inr (Or.inr ⟨b, ?_, not_isContinuation_of_head? hhead⟩)
          rw [hzero, ← List.head?_eq_getElem?, hhead]
          rfl
    · have hsum : n = c.utf8Size + (bytes t).length := by omega
      exact Or.inr (Or.inl hsum)
    · exact Or.inr (Or.inr hstart)

/-- The bytes show where a text can be divided. -/
theorem isCharStart_bytes_iff (t : Text) (n : Nat) : IsCharStart (bytes t) n ↔ IsBoundary t n := by
  induction t generalizing n with
  | nil =>
      cases n with
      | zero => simp [IsCharStart, IsBoundary]
      | succ n => simp [IsCharStart, IsBoundary, splitBytes?]
  | cons c t ih =>
      rw [isBoundary_cons_iff]
      by_cases hzero : n = 0
      · simp [hzero, IsCharStart]
      · by_cases hle : c.utf8Size ≤ n
        · rw [isCharStart_cons_iff hle, ih]
          simp [hzero, hle]
        · have hinside := not_isCharStart_inside (Nat.pos_of_ne_zero hzero) (Nat.lt_of_not_le hle) t
          simp only [hinside, hzero, hle, false_and, or_self]

theorem toNat_toUInt8 {c : Char} (hc : c.toNat < 128) : c.toUInt8.toNat = c.toNat := by
  have hcode : c.val.toNat = c.toNat := rfl
  show c.val.toUInt8.toNat = c.toNat
  rw [UInt32.toNat_toUInt8]
  omega

/-- The first byte of a character tells whether it is a given one below 128,
and its other bytes are not that one. -/
theorem exists_lead (d : Char) :
    ∃ b more, String.utf8EncodeChar d = b :: more ∧ (b.toNat < 128 → d.toNat = b.toNat) ∧
      ∀ c : Char, c.toNat < 128 → (b = c.toUInt8 ↔ d = c) ∧ c.toUInt8 ∉ more := by
  obtain ⟨b, more, hencode, hmore, hcases⟩ := encode_cases d
  refine ⟨b, more, hencode, by omega, fun c hc => ⟨?_, fun hmem => ?_⟩⟩
  · rw [← UInt8.toNat_inj, toNat_toUInt8 hc, ← Char.toNat_inj]
    omega
  · have hcont := (hmore _ hmem).1
    rw [toNat_toUInt8 hc] at hcont
    omega

/-- The first place of a character below 128 is found among the bytes. -/
theorem findIdx_bytes {c : Char} (hc : c.toNat < 128) (t : Text) :
    (bytes t).findIdx (· == c.toUInt8) = byteLength (t.takeWhile (· != c)) := by
  induction t with
  | nil => rfl
  | cons d t ih =>
      obtain ⟨b, more, hencode, -, hlead⟩ := exists_lead d
      obtain ⟨hbyte, hmore⟩ := hlead c hc
      by_cases hd : d = c
      · have hb : b = c.toUInt8 := hbyte.2 hd
        rw [bytes_cons, hencode, hb, List.cons_append, List.findIdx_cons]
        simp [hd]
      · have hb : b ≠ c.toUInt8 := fun h => hd (hbyte.1 h)
        have hnone : (String.utf8EncodeChar d).findIdx (· == c.toUInt8) =
            (String.utf8EncodeChar d).length := by
          rw [List.findIdx_eq_length, hencode]
          intro a ha
          rcases List.mem_cons.1 ha with rfl | hmem
          · simpa using hb
          · have hne : a ≠ c.toUInt8 := fun h => hmore (h ▸ hmem)
            simpa using hne
        rw [bytes_cons, List.findIdx_append, hnone, if_neg (Nat.lt_irrefl _), ih]
        simp [hd, Nat.add_comm]

end Text

end MatchTemplate
