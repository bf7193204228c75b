import MatchTemplate.Text.Basic

/-!
# Tokens of a template

A template is text in which the sigil `$` introduces references to a match.
It is divided into tokens.  A token says which part of a match it refers to,
or that it stands for itself; it does not hold a value.  Text that looks like
a reference but has nothing to refer to is a token of its own, which covers
only as much as has to be copied before reading goes on.
-/

namespace MatchTemplate

/-- Piece of a template. -/
inductive Token where
  /-- A longest run of text without a sigil. -/
  | literal (run : Text)
  /-- The pair `$$`, which stands for one sigil. -/
  | sigil
  /-- The whole match, `$&`. -/
  | whole
  /-- The source before the match, `` $` ``. -/
  | before
  /-- The source after the match, `$'`. -/
  | after
  /-- A reference to a slot that is set: index zero is `$1`. -/
  | slot (index : Fin 9)
  /-- A reference to a slot that is not set, which stands for itself. -/
  | emptySlot (index : Fin 9)
  /-- A reference `$<name>` to a group that is set. -/
  | named (name : Text)
  /-- The opening `$<` where no group that is set is named. -/
  | openBracket
  /-- A sigil that introduces nothing. -/
  | loneSigil
deriving DecidableEq, Repr

namespace Token

/-- The digit that refers to a slot. -/
def slotDigit (index : Fin 9) : Char := Char.ofNat (49 + index)

/-- The slot that a character refers to, which has to be a digit from one to
nine. -/
def slotIndex? (c : Char) : Option (Fin 9) :=
  if h : 49 ≤ c.toNat ∧ c.toNat < 58 then some ⟨c.toNat - 49, by omega⟩ else none

/-- The characters that make a sigil in front of them more than a sigil. -/
def referenceChars : List Char :=
  ['$', '&', '\x60', '\x27', '<'] ++ List.ofFn slotDigit

/-- The part of the template that a token covers. -/
def lexeme : Token → Text
  | literal run => run
  | sigil => ['$', '$']
  | whole => ['$', '&']
  | before => ['$', '\x60']
  | after => ['$', '\x27']
  | slot index => ['$', slotDigit index]
  | emptySlot index => ['$', slotDigit index]
  | named name => '$' :: '<' :: (name ++ ['>'])
  | openBracket => ['$', '<']
  | loneSigil => ['$']

/-- The text that a list of tokens covers. -/
def lexemes (tokens : List Token) : Text := tokens.flatMap lexeme

/-- The text from each unresolved opening bracket to the end. -/
def openings : List Token → List Text
  | [] => []
  | token :: rest =>
      if token = openBracket then lexemes (token :: rest) :: openings rest else openings rest

@[simp] theorem lexemes_nil : lexemes [] = [] := rfl

@[simp] theorem lexemes_cons (token : Token) (tokens : List Token) :
    lexemes (token :: tokens) = token.lexeme ++ lexemes tokens := rfl

theorem slotIndex?_eq_some_iff (c : Char) (index : Fin 9) :
    slotIndex? c = some index ↔ c = slotDigit index := by
  constructor
  · intro h
    simp only [slotIndex?, Option.dite_none_right_eq_some, Option.some.injEq] at h
    obtain ⟨hrange, rfl⟩ := h
    have hsum : 49 + (c.toNat - 49) = c.toNat := by omega
    simp [slotDigit, hsum]
  · rintro rfl
    revert index
    decide

theorem toNat_slotDigit (index : Fin 9) : (slotDigit index).toNat = index + 49 := by
  revert index
  decide

theorem slotDigit_ne (index : Fin 9) :
    slotDigit index ≠ '$' ∧ slotDigit index ≠ '&' ∧ slotDigit index ≠ '\x60' ∧
      slotDigit index ≠ '\x27' ∧ slotDigit index ≠ '<' := by
  revert index
  decide

/-- Every character from one to nine refers to a slot. -/
theorem exists_slotDigit {c : Char} (hlow : 49 ≤ c.toNat) (hhigh : c.toNat ≤ 57) :
    ∃ index : Fin 9, c = slotDigit index ∧ c.toNat = index + 49 := by
  have hrange : 49 ≤ c.toNat ∧ c.toNat < 58 := ⟨hlow, by omega⟩
  refine ⟨⟨c.toNat - 49, by omega⟩, ?_, ?_⟩
  · rw [← slotIndex?_eq_some_iff, slotIndex?, dif_pos hrange]
  · show c.toNat = c.toNat - 49 + 49
    omega

theorem mem_referenceChars_iff (c : Char) :
    c ∈ referenceChars ↔ c = '$' ∨ c = '&' ∨ c = '\x60' ∨ c = '\x27' ∨ c = '<' ∨
      ∃ index, slotDigit index = c := by
  simp only [referenceChars, List.mem_append, List.mem_cons, List.not_mem_nil, or_false,
    List.mem_ofFn, or_assoc]

theorem not_mem_referenceChars {c : Char} (hsigil : c ≠ '$') (hwhole : c ≠ '&')
    (hbefore : c ≠ '\x60') (hafter : c ≠ '\x27') (hbracket : c ≠ '<')
    (hindex : slotIndex? c = none) : c ∉ referenceChars := by
  rw [mem_referenceChars_iff]
  rintro (h | h | h | h | h | ⟨index, h⟩)
  · exact hsigil h
  · exact hwhole h
  · exact hbefore h
  · exact hafter h
  · exact hbracket h
  · rw [(slotIndex?_eq_some_iff c index).2 h.symm] at hindex
    exact absurd hindex (Option.some_ne_none index)

end Token

end MatchTemplate
