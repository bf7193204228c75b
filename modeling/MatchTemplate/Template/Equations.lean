import MatchTemplate.Template.Expansion

/-!
# Reading, case by case

Every kind of reference is read on its own, so the tokens of a template can be
computed from the front (`read_doubled` and the lemmas after it).  A run of
text is one token, but its expansion is that of its characters
(`expansion_cons_of_ne`).
-/

namespace MatchTemplate

namespace Token

variable (m : Match)

theorem read_of_ofSigil {rest tail : Text} {token : Token}
    (h : ofSigil m.references rest = token) (htail : '$' :: rest = token.lexeme ++ tail) :
    read m ('$' :: rest) = token :: read m tail :=
  scan_of_ofSigil m.references h htail

theorem read_doubled (t : Text) : read m ('$' :: '$' :: t) = sigil :: read m t :=
  read_of_ofSigil m rfl rfl

theorem read_whole (t : Text) : read m ('$' :: '&' :: t) = whole :: read m t :=
  read_of_ofSigil m rfl rfl

theorem read_before (t : Text) : read m ('$' :: '\x60' :: t) = before :: read m t :=
  read_of_ofSigil m rfl rfl

theorem read_after (t : Text) : read m ('$' :: '\x27' :: t) = after :: read m t :=
  read_of_ofSigil m rfl rfl

theorem read_atEnd : read m ['$'] = [loneSigil] :=
  @read_of_ofSigil m [] [] loneSigil rfl rfl

theorem isSet_references (index : Fin 9) :
    m.references.isSet index = (m.slot? (index + 1)).isSome := rfl

theorem name?_references (t : Text) :
    m.references.name? t = (m.table.resolve? t).map Entry.name := rfl

theorem read_slot {index : Fin 9} (h : (m.slot? (index + 1)).isSome) (t : Text) :
    read m ('$' :: slotDigit index :: t) = slot index :: read m t :=
  read_of_ofSigil m (by rw [ofSigil_slotDigit, isSet_references, if_pos h]) rfl

theorem read_emptySlot {index : Fin 9} (h : m.slot? (index + 1) = none) (t : Text) :
    read m ('$' :: slotDigit index :: t) = emptySlot index :: read m t :=
  read_of_ofSigil m (by simp [ofSigil_slotDigit, isSet_references, h]) rfl

theorem read_named {t : Text} {e : Entry} (h : m.table.resolve? (e.name ++ '>' :: t) = some e) :
    read m ('$' :: '<' :: (e.name ++ '>' :: t)) = named e.name :: read m t :=
  read_of_ofSigil m (by simp [ofSigil_bracket, name?_references, h]) (by simp [lexeme])

theorem read_openBracket {t : Text} (h : m.table.resolve? t = none) :
    read m ('$' :: '<' :: t) = openBracket :: read m t :=
  read_of_ofSigil m (by simp [ofSigil_bracket, name?_references, h]) rfl

theorem read_other {c : Char} (h : c ∉ referenceChars) (t : Text) :
    read m ('$' :: c :: t) = loneSigil :: read m (c :: t) :=
  read_of_ofSigil m (ofSigil_other m.references h t) rfl

/-- A run of text up to a sigil or to the end of the template is one token. -/
theorem read_run {run t : Text} (hne : run ≠ []) (hrun : ∀ c ∈ run, c ≠ '$')
    (ht : ∀ c ∈ t.head?, c = '$') : read m (run ++ t) = literal run :: read m t := by
  cases run with
  | nil => exact absurd rfl hne
  | cons c run =>
      have htake : (run ++ t).takeWhile (· != '$') = run := by
        rw [List.takeWhile_append_of_pos fun a ha => by simp [hrun a (by simp [ha])]]
        cases t with
        | nil => simp
        | cons d t => simp [ht d (by simp)]
      have hfirst : first m.references c (run ++ t) = literal (c :: run) := by
        rw [first_of_ne m.references (hrun c List.mem_cons_self), htake]
      exact scan_of_next (lawful_first m.references) hfirst rfl

end Token

namespace Match

variable (m : Match) (source : Text)

/-- Divides a template into the run before its first sigil and what follows. -/
theorem exists_run (t : Text) :
    ∃ run rest, t = run ++ rest ∧ (∀ c ∈ run, c ≠ '$') ∧ ∀ c ∈ rest.head?, c = '$' := by
  induction t with
  | nil => exact ⟨[], [], by simp⟩
  | cons c t ih =>
      by_cases hc : c = '$'
      · exact ⟨[], c :: t, by simp [hc]⟩
      · obtain ⟨run, rest, rfl, hrun, hrest⟩ := ih
        exact ⟨c :: run, rest, rfl, by simpa [hc] using hrun, hrest⟩

/-- A first token contributes what it stands for, and is reported if it is an
unresolved bracket. -/
theorem expansion_of_read {t tail : Text} {token : Token}
    (h : Token.read m t = token :: Token.read m tail) :
    m.expansion source t = token.value m source ++ m.expansion source tail ∧
      m.unresolved t = (if token = .openBracket then [t] else []) ++ m.unresolved tail := by
  have hlexemes := Token.lexemes_read m t
  rw [h] at hlexemes
  constructor
  · rw [expansion, h, List.flatMap_cons]
    rfl
  · rw [unresolved, h, Token.openings, hlexemes]
    split
    · rfl
    · rfl

theorem expansion_run {run t : Text} (hrun : ∀ c ∈ run, c ≠ '$')
    (ht : ∀ c ∈ t.head?, c = '$') :
    m.expansion source (run ++ t) = run ++ m.expansion source t ∧
      m.unresolved (run ++ t) = m.unresolved t := by
  by_cases hne : run = []
  · simp [hne]
  · exact m.expansion_of_read source (Token.read_run m hne hrun ht)

/-- A character that is not a sigil is copied, whatever follows it. -/
theorem expansion_cons_of_ne {c : Char} (hc : c ≠ '$') (t : Text) :
    m.expansion source (c :: t) = c :: m.expansion source t ∧
      m.unresolved (c :: t) = m.unresolved t := by
  obtain ⟨run, rest, rfl, hrun, hrest⟩ := exists_run t
  have hcons : ∀ d ∈ c :: run, d ≠ '$' := by simpa [hc] using hrun
  have h := expansion_run m source hrun hrest
  have h' := expansion_run m source hcons hrest
  simp only [List.cons_append] at h'
  exact ⟨by rw [h'.1, h.1], by rw [h'.2, h.2]⟩

end Match

end MatchTemplate
