import MatchTemplate.Text.Basic
import MatchTemplate.Text.Extending
import MatchTemplate.Text.Unprintable

/-!
# Quoted text

A quoted text stands between two double quotes on one line.  The quote and the
backslash are written with a backslash before them, and NUL, tab, line feed
and carriage return as `\0`, `\t`, `\n` and `\r`.  Any other character that
cannot be shown on its own is written as its code point, in lowercase
hexadecimal digits without leading zeros, between braces after `\u`.

So a text is quoted as it is exactly if all of it can be shown and it holds
neither a quote nor a backslash (`quoted_eq_iff`).  What is between the quotes
can always be shown (`isShown_of_mem_quoted`), and it tells what was quoted and
where that ends (`quoted_append_inj`).
-/

namespace MatchTemplate.Text

/-- The code point lies in one of the ranges. -/
def inRanges (ranges : List (Nat × Nat)) (codePoint : Nat) : Bool :=
  ranges.any fun range => range.1 ≤ codePoint && codePoint ≤ range.2

/-- Whether a character can be shown as it is and on its own.  Of the first
128 characters all from the space to the tilde can; of the rest, those that
are printable, visible and no mark on the character before. -/
def isShown (c : Char) : Bool :=
  if c.toNat < 128 then
    32 ≤ c.toNat && c.toNat < 127
  else
    !inRanges unprintableRanges c.toNat && !inRanges extendingRanges c.toNat &&
      !inRanges ignorableRanges c.toNat

/-- The characters that are written as a backslash and a letter, each with its
letter. -/
def escapes : List (Char × Char) :=
  [('\x00', '0'), ('\t', 't'), ('\n', 'n'), ('\r', 'r'), ('\x22', '\x22'), ('\\', '\\')]

/-- The code point of a character in braces. -/
def codePointEscape (c : Char) : Text :=
  ['\\', 'u', '\x7b'] ++ Nat.toDigits 16 c.toNat ++ ['\x7d']

/-- One character as it is written between the quotes. -/
def quotedChar (c : Char) : Text :=
  match escapes.lookup c with
  | some letter => ['\\', letter]
  | none => if isShown c then [c] else codePointEscape c

/-- The text in quotes. -/
def quoted (t : Text) : Text :=
  '\x22' :: (t.flatMap quotedChar ++ ['\x22'])

/-! ### Digits -/

/-- The digits of a number are those of the numbers below the base. -/
theorem exists_digitChar_of_mem_toDigits {b n : Nat} {d : Char} (hb : 1 < b)
    (h : d ∈ Nat.toDigits b n) : ∃ k < b, d = Nat.digitChar k := by
  induction n using Nat.strongRecOn with
  | ind n ih =>
      by_cases hn : n < b
      · rw [Nat.toDigits_of_lt_base hn] at h
        exact ⟨n, hn, List.mem_singleton.1 h⟩
      · rw [Nat.toDigits_of_base_le hb (Nat.le_of_not_lt hn)] at h
        rcases List.mem_append.1 h with hfront | hlast
        · exact ih (n / b) (Nat.div_lt_self (by omega) hb) hfront
        · exact ⟨n % b, Nat.mod_lt n (by omega), List.mem_singleton.1 hlast⟩

/-- Numbers with the same hexadecimal digits are the same. -/
theorem toDigits_sixteen_inj {n k : Nat} (h : Nat.toDigits 16 n = Nat.toDigits 16 k) : n = k := by
  have hdigit : ∀ i < 16, ∀ j < 16, Nat.digitChar i = Nat.digitChar j → i = j := by decide
  induction n using Nat.strongRecOn generalizing k with
  | ind n ih =>
      have hshort : n < 16 ↔ k < 16 := by
        have hn := @Nat.length_toDigits_le_iff 16 n 1 (by decide) (by decide)
        have hk := @Nat.length_toDigits_le_iff 16 k 1 (by decide) (by decide)
        rw [Nat.pow_one] at hn hk
        rw [← hn, ← hk, h]
      by_cases hn : n < 16
      · have hk := hshort.1 hn
        rw [Nat.toDigits_of_lt_base hn, Nat.toDigits_of_lt_base hk] at h
        exact hdigit n hn k hk (List.singleton_inj.1 h)
      · have hk := mt hshort.2 hn
        rw [Nat.toDigits_of_base_le (by decide) (Nat.le_of_not_lt hn),
          Nat.toDigits_of_base_le (by decide) (Nat.le_of_not_lt hk)] at h
        obtain ⟨hfront, hlast⟩ := List.append_inj' h rfl
        have hquotient : n / 16 = k / 16 := ih (n / 16) (by omega) hfront
        have hremainder : n % 16 = k % 16 :=
          hdigit _ (Nat.mod_lt n (by decide)) _ (Nat.mod_lt k (by decide))
            (List.singleton_inj.1 hlast)
        omega

/-! ### One character -/

/-- A character is quoted as it is, or by an escape of its own, or by its code point. -/
theorem quotedChar_cases (c : Char) :
    (quotedChar c = [c] ∧ isShown c ∧ c ≠ '\x22' ∧ c ≠ '\\') ∨
      (∃ letter, (c, letter) ∈ escapes ∧ quotedChar c = ['\\', letter]) ∨
      (¬ isShown c ∧ quotedChar c = codePointEscape c) := by
  unfold quotedChar
  cases hlookup : escapes.lookup c with
  | some letter =>
      obtain ⟨front, back, hsplit, -⟩ := List.lookup_eq_some_iff.1 hlookup
      have hmem : (c, letter) ∈ escapes := by simp [hsplit]
      exact Or.inr (Or.inl ⟨letter, hmem, rfl⟩)
  | none =>
      have hplain : ∀ entry ∈ escapes, c ≠ entry.1 := by
        simpa using List.lookup_eq_none_iff.1 hlookup
      by_cases hshown : isShown c
      · refine Or.inl ⟨if_pos hshown, hshown, ?_, ?_⟩
        · exact hplain ('\x22', '\x22') (by decide)
        · exact hplain ('\\', '\\') (by decide)
      · exact Or.inr (Or.inr ⟨hshown, if_neg hshown⟩)

/-- The characters that are quoted as they are. -/
theorem quotedChar_eq_iff (c : Char) :
    quotedChar c = [c] ↔ isShown c ∧ c ≠ '\x22' ∧ c ≠ '\\' := by
  rcases quotedChar_cases c with ⟨hquoted, hplain⟩ | ⟨letter, hmem, hquoted⟩ | ⟨hshown, hquoted⟩
  · exact iff_of_true hquoted hplain
  · -- of the characters with an escape only the quote and the backslash can be shown
    have hescaped : ∀ entry ∈ escapes,
        ¬ (isShown entry.1 ∧ entry.1 ≠ '\x22' ∧ entry.1 ≠ '\\') := by decide
    exact iff_of_false (by simp [hquoted]) (hescaped _ hmem)
  · refine iff_of_false ?_ (fun h => hshown h.1)
    rw [hquoted, codePointEscape]
    simp

/-- No quoted character begins with a quote, and what is not quoted as it is begins with
a backslash. -/
theorem quotedChar_eq_cons (c : Char) :
    ∃ first more, quotedChar c = first :: more ∧ first ≠ '\x22' ∧
      (first = '\\' ∨ quotedChar c = [c]) := by
  rcases quotedChar_cases c with ⟨hquoted, -, hquote, -⟩ | ⟨letter, -, hquoted⟩ | ⟨-, hquoted⟩
  · exact ⟨c, [], hquoted, hquote, Or.inr hquoted⟩
  · exact ⟨'\\', [letter], hquoted, by decide, Or.inl rfl⟩
  · exact ⟨'\\', _, hquoted, by decide, Or.inl rfl⟩

theorem isShown_digitChar : ∀ k < 16, isShown (Nat.digitChar k) ∧ Nat.digitChar k ≠ '\x7d' := by
  decide

/-- However a character is quoted, all of that can be shown. -/
theorem isShown_of_mem_quotedChar {c d : Char} (h : d ∈ quotedChar c) : isShown d := by
  rcases quotedChar_cases c with ⟨hquoted, hshown, -⟩ | ⟨letter, hmem, hquoted⟩ | ⟨-, hquoted⟩
  · rw [hquoted, List.mem_singleton] at h
    exact h ▸ hshown
  · have hletters : ∀ entry ∈ escapes, isShown entry.2 := by decide
    rw [hquoted] at h
    rcases List.mem_cons.1 h with rfl | hletter
    · decide
    · rw [List.mem_singleton.1 hletter]
      exact hletters _ hmem
  · rw [hquoted, codePointEscape, List.append_assoc] at h
    rcases List.mem_append.1 h with hopening | hrest
    · have hall : ∀ d ∈ ['\\', 'u', '\x7b'], isShown d :=
        List.all_eq_true.1 (by decide)
      exact hall d hopening
    · rcases List.mem_append.1 hrest with hdigits | hclosing
      · obtain ⟨k, hk, rfl⟩ := exists_digitChar_of_mem_toDigits (by decide) hdigits
        exact (isShown_digitChar k hk).1
      · rw [List.mem_singleton.1 hclosing]
        decide

theorem codePointEscape_append_inj {c d : Char} {u v : Text}
    (h : codePointEscape c ++ u = codePointEscape d ++ v) : c = d ∧ u = v := by
  have hclosing : ∀ n, '\x7d' ∉ Nat.toDigits 16 n := by
    intro n hmem
    obtain ⟨k, hk, hdigit⟩ := exists_digitChar_of_mem_toDigits (by decide) hmem
    exact (isShown_digitChar k hk).2 hdigit.symm
  have hdigits : Nat.toDigits 16 c.toNat ++ '\x7d' :: u =
      Nat.toDigits 16 d.toNat ++ '\x7d' :: v := by
    simpa [codePointEscape] using h
  obtain ⟨hcode, hrest⟩ := append_cons_inj (hclosing _) (hclosing _) hdigits
  exact ⟨Char.toNat_inj.1 (toDigits_sixteen_inj hcode), hrest⟩

/-- What is quoted as it is cannot be mistaken for an escape. -/
theorem cons_eq_quotedChar_append {c d : Char} {u v : Text} (hc : c ≠ '\\')
    (h : c :: u = quotedChar d ++ v) : c = d ∧ u = v := by
  obtain ⟨first, more, hd, -, hkind⟩ := quotedChar_eq_cons d
  have hfirst : c = first := by
    rw [hd] at h
    exact (List.cons.inj h).1
  rcases hkind with hescape | hplain
  · exact absurd (hfirst.trans hescape) hc
  · rw [hplain] at h
    exact List.cons.inj h

/-- A quoted character is told from any other one, whatever follows it. -/
theorem quotedChar_append_inj {c d : Char} {u v : Text}
    (h : quotedChar c ++ u = quotedChar d ++ v) : c = d ∧ u = v := by
  have hletters : ∀ entry ∈ escapes, entry.2 ≠ 'u' := by decide
  rcases quotedChar_cases c with ⟨hc, -, -, hplain⟩ | ⟨letter, hmem, hc⟩ | ⟨-, hc⟩
  · rw [hc] at h
    exact cons_eq_quotedChar_append hplain h
  · rcases quotedChar_cases d with ⟨hd, -, -, hplain⟩ | ⟨letter', hmem', hd⟩ | ⟨-, hd⟩
    · rw [hd] at h
      obtain ⟨rfl, rfl⟩ := cons_eq_quotedChar_append hplain h.symm
      exact ⟨rfl, rfl⟩
    · have hdistinct : ∀ entry ∈ escapes, ∀ other ∈ escapes,
          entry.2 = other.2 → entry.1 = other.1 := by decide
      rw [hc, hd] at h
      obtain ⟨hletter, hrest⟩ := List.cons.inj (List.cons.inj h).2
      exact ⟨hdistinct _ hmem _ hmem' hletter, hrest⟩
    · rw [hc, hd] at h
      exact absurd (List.cons.inj (List.cons.inj h).2).1 (hletters _ hmem)
  · rcases quotedChar_cases d with ⟨hd, -, -, hplain⟩ | ⟨letter', hmem', hd⟩ | ⟨-, hd⟩
    · rw [hd] at h
      obtain ⟨rfl, rfl⟩ := cons_eq_quotedChar_append hplain h.symm
      exact ⟨rfl, rfl⟩
    · rw [hc, hd] at h
      exact absurd (List.cons.inj (List.cons.inj h).2).1.symm (hletters _ hmem')
    · rw [hc, hd] at h
      exact codePointEscape_append_inj h

/-! ### Whole texts -/

theorem length_le_length_flatMap_quotedChar (t : Text) :
    t.length ≤ (t.flatMap quotedChar).length := by
  induction t with
  | nil => exact Nat.le_refl 0
  | cons c t ih =>
      obtain ⟨first, more, hquoted, -⟩ := quotedChar_eq_cons c
      rw [List.flatMap_cons, hquoted]
      simp only [List.length_cons, List.length_append]
      omega

/-- A text is quoted as it is exactly if all of it can be shown, and it holds neither a
quote nor a backslash. -/
theorem quoted_eq_iff (t : Text) :
    quoted t = '\x22' :: (t ++ ['\x22']) ↔ ∀ c ∈ t, isShown c ∧ c ≠ '\x22' ∧ c ≠ '\\' := by
  simp only [← quotedChar_eq_iff, quoted, List.cons.injEq, List.append_cancel_right_eq, true_and]
  induction t with
  | nil => simp
  | cons c t ih =>
      rw [List.flatMap_cons, List.forall_mem_cons, ← ih]
      constructor
      · intro h
        -- no character is quoted by none, so this one is quoted by one
        have hlater := length_le_length_flatMap_quotedChar t
        have hlength := congrArg List.length h
        obtain ⟨first, more, hquoted, -⟩ := quotedChar_eq_cons c
        rw [hquoted] at hlength
        simp only [List.length_append, List.length_cons] at hlength
        have hone : (quotedChar c).length = [c].length := by
          rw [hquoted, List.length_cons, List.length_singleton]
          omega
        exact List.append_inj h hone
      · rintro ⟨hquoted, hlater⟩
        rw [hquoted, hlater]
        rfl

/-- A quoted text can be shown, whatever it quotes; it stands on one line. -/
theorem isShown_of_mem_quoted {t : Text} {d : Char} (h : d ∈ quoted t) : isShown d := by
  rcases List.mem_cons.1 h with rfl | hlater
  · decide
  · rcases List.mem_append.1 hlater with hinside | hclosing
    · obtain ⟨c, -, hmem⟩ := List.mem_flatMap.1 hinside
      exact isShown_of_mem_quotedChar hmem
    · rw [List.mem_singleton.1 hclosing]
      decide

/-- A quoted text tells what it quotes and where it ends. -/
theorem quoted_append_inj {t u v w : Text} (h : quoted t ++ v = quoted u ++ w) :
    t = u ∧ v = w := by
  have hinside : t.flatMap quotedChar ++ '\x22' :: v = u.flatMap quotedChar ++ '\x22' :: w := by
    simpa [quoted] using h
  clear h
  induction t generalizing u with
  | nil =>
      cases u with
      | nil => exact ⟨rfl, (List.cons.inj hinside).2⟩
      | cons d u =>
          obtain ⟨first, more, hd, hquote, -⟩ := quotedChar_eq_cons d
          rw [List.flatMap_cons, hd] at hinside
          exact absurd (List.cons.inj hinside).1.symm hquote
  | cons c t ih =>
      cases u with
      | nil =>
          obtain ⟨first, more, hc, hquote, -⟩ := quotedChar_eq_cons c
          rw [List.flatMap_cons, hc] at hinside
          exact absurd (List.cons.inj hinside).1 hquote
      | cons d u =>
          rw [List.flatMap_cons, List.flatMap_cons, List.append_assoc, List.append_assoc] at hinside
          obtain ⟨rfl, hlater⟩ := quotedChar_append_inj hinside
          obtain ⟨rfl, hrest⟩ := ih hlater
          exact ⟨rfl, hrest⟩

example :
    quoted ['a', '\x22', '\n', '\x1b', 'é', '\u200b'] =
      "\"a\\\"\\n\\u\x7b1b\x7dé\\u\x7b200b\x7d\"".toList := by
  decide +kernel

end MatchTemplate.Text
