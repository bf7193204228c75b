import MatchTemplate.NameTable.Spelled
import MatchTemplate.Template.Rules

/-!
# Expansion one character at a time

`Match.interpret` reads a template character by character.  It forms no runs
of text and no tokens: the characters in front decide what is put out and how
many of them are used up, and reading goes on with the others.  A reference by
name is found in the text alone, by trying its beginnings from the longest to
the empty one (`spelled?`).  The expansion of a template is what this
reader puts out (`expand_eq_interpret`).
-/

namespace MatchTemplate

/-- What a template stands for, read from the front one character at a time. -/
def Match.interpret (m : Match) (source : Text) : Text → Text
  | [] => []
  | ['$'] => ['$']
  | '$' :: '$' :: t => '$' :: interpret m source t
  | '$' :: '&' :: t => m.whole ++ interpret m source t
  | '$' :: '\x60' :: t => m.before source ++ interpret m source t
  | '$' :: '\x27' :: t => m.after source ++ interpret m source t
  | '$' :: '<' :: t =>
      match spelled? m.table.declares t with
      | none => '$' :: '<' :: interpret m source t
      | some name =>
          match m.value? name with
          | none => '$' :: '<' :: interpret m source t
          | some text => text ++ interpret m source (t.drop (name.length + 1))
  | '$' :: c :: t =>
      if '1' ≤ c ∧ c ≤ '9' then
        (m.slot? (c.toNat - '0'.toNat)).getD ['$', c] ++ interpret m source t
      else
        '$' :: interpret m source (c :: t)
  | c :: t => c :: interpret m source t
termination_by t => t.length
decreasing_by
  all_goals simp only [List.length_cons, List.length_drop]
  all_goals omega

/-! ### The reader follows the rules -/

/-- The slot that a digit refers to is counted from the character for zero. -/
theorem Token.exists_slotDigit_of_digit {c : Char} (h : '1' ≤ c ∧ c ≤ '9') :
    ∃ index : Fin 9, c = Token.slotDigit index ∧ c.toNat - '0'.toNat = index + 1 := by
  have hlow : 49 ≤ c.toNat := UInt32.le_iff_toNat_le.1 h.1
  have hhigh : c.toNat ≤ 57 := UInt32.le_iff_toNat_le.1 h.2
  obtain ⟨index, hc, hcode⟩ := Token.exists_slotDigit hlow hhigh
  refine ⟨index, hc, ?_⟩
  show c.toNat - 48 = index + 1
  omega

theorem Token.slotIndex?_eq_none {c : Char} (h : ¬ ('1' ≤ c ∧ c ≤ '9')) :
    Token.slotIndex? c = none := by
  have hrange : ¬ (49 ≤ c.toNat ∧ c.toNat < 58) := by
    rintro ⟨hlow, hhigh⟩
    have hnine : c.toNat ≤ 57 := by omega
    exact h ⟨UInt32.le_iff_toNat_le.2 hlow, UInt32.le_iff_toNat_le.2 hnine⟩
  exact dif_neg hrange

/-- The rules derive what the reader puts out. -/
theorem Match.exists_expands_interpret (m : Match) (source template : Text) :
    ∃ rests, Expands m source template (m.interpret source template) rests := by
  fun_induction Match.interpret m source template with
  | case1 => exact ⟨_, .nil⟩
  | case2 => exact ⟨_, .atEnd⟩
  | case3 t ih =>
      obtain ⟨rests, h⟩ := ih
      exact ⟨_, .doubled h⟩
  | case4 t ih =>
      obtain ⟨rests, h⟩ := ih
      exact ⟨_, .whole h⟩
  | case5 t ih =>
      obtain ⟨rests, h⟩ := ih
      exact ⟨_, .before h⟩
  | case6 t ih =>
      obtain ⟨rests, h⟩ := ih
      exact ⟨_, .after h⟩
  | case7 t hspelled ih =>
      obtain ⟨rests, h⟩ := ih
      refine ⟨_, .unresolved (fun name hlongest => ?_) h⟩
      exact absurd hlongest (NameTable.not_isLongest_of_spelled?_eq_none hspelled name)
  | case8 t name hspelled hvalue ih =>
      obtain ⟨rests, h⟩ := ih
      refine ⟨_, .unresolved (fun other hlongest => ?_) h⟩
      rw [hlongest.eq (NameTable.isLongest_of_spelled?_eq_some hspelled)]
      exact hvalue
  | case9 t name hspelled text hvalue ih =>
      obtain ⟨rests, h⟩ := ih
      have hlongest := NameTable.isLongest_of_spelled?_eq_some hspelled
      obtain ⟨tail, rfl⟩ := hlongest.heads
      have htail : (name ++ ['>'] ++ tail).drop (name.length + 1) = tail := by
        simp
      rw [htail] at h ⊢
      rw [List.append_assoc] at hlongest ⊢
      exact ⟨_, .named hlongest hvalue h⟩
  | case10 c t _ _ _ _ _ hdigit ih =>
      obtain ⟨rests, h⟩ := ih
      obtain ⟨index, rfl, hindex⟩ := Token.exists_slotDigit_of_digit hdigit
      rw [hindex]
      cases hslot : m.slot? (index + 1) with
      | none => exact ⟨_, .emptySlot hslot h⟩
      | some text => exact ⟨_, .slot hslot h⟩
  | case11 c t hsigil hwhole hbefore hafter hbracket hdigit ih =>
      obtain ⟨rests, h⟩ := ih
      exact ⟨_, .other
        (Token.not_mem_referenceChars hsigil hwhole hbefore hafter hbracket
          (Token.slotIndex?_eq_none hdigit)) h⟩
  | case12 c t hend _ _ _ _ _ hsecond ih =>
      obtain ⟨rests, h⟩ := ih
      -- a sigil would stand at the end or in front of some character
      have hc : c ≠ '$' := by
        rintro rfl
        cases t with
        | nil => exact hend rfl rfl
        | cons d t => exact hsecond d t rfl rfl
      exact ⟨_, .copied hc h⟩

/-- Expanding a template is reading it one character at a time. -/
theorem expand_eq_interpret (source : Text) (m : Match) (template : Text) :
    (expand source (some m) template).result = some (m.interpret source template) := by
  obtain ⟨rests, h⟩ := m.exists_expands_interpret source template
  have hexpansion : m.expansion source template = m.interpret source template :=
    h.eq_expansion.1
  simp only [expand, hexpansion]

end MatchTemplate
