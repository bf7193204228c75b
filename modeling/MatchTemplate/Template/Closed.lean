import MatchTemplate.Template.Equations

/-!
# Templates that can be continued

What follows a template can change how its end is read in two ways only.  A
sigil at the very end pairs with the next character, and an opening bracket may
turn out to begin a declared name, or a longer one than it seemed to.  A template
is closed when neither can happen: it ends in an even number of sigils, and from
no bracket on is it the beginning of a reference that breaks off.  What stands
behind a closed template is expanded on its own (`Match.expansion_append`).
-/

namespace MatchTemplate

/-- The number of sigils at the end of a text, with nothing else between them. -/
def trailingSigils (t : Text) : Nat := (t.reverse.takeWhile (· == '$')).length

namespace Token

/-- The text from each token to the end.  These are the places where reading
stands. -/
def rests : List Token → List Text
  | [] => []
  | token :: later => lexemes (token :: later) :: rests later

/-- The text is the beginning of a reference to `name`, and not all of it. -/
def BreaksOff (name rest : Text) : Prop :=
  rest <+: lexeme (named name) ∧ rest ≠ lexeme (named name)

instance (name rest : Text) : Decidable (BreaksOff name rest) :=
  inferInstanceAs (Decidable (rest <+: lexeme (named name) ∧ rest ≠ lexeme (named name)))

end Token

/-- Whatever follows the template, it is read as it is on its own.  A name counts
here whether it is set or not. -/
structure Match.IsClosed (m : Match) (template : Text) : Prop where
  sigils : trailingSigils template % 2 = 0
  brackets : ∀ rest ∈ Token.rests (Token.read m template), ['$', '<'] <+: rest →
    ∀ e ∈ m.table.entries, ¬ Token.BreaksOff e.name rest

instance (m : Match) (template : Text) : Decidable (m.IsClosed template) :=
  decidable_of_iff
    (trailingSigils template % 2 = 0 ∧
      ∀ rest ∈ Token.rests (Token.read m template), ['$', '<'] <+: rest →
        ∀ e ∈ m.table.entries, ¬ Token.BreaksOff e.name rest)
    ⟨fun h => ⟨h.1, h.2⟩, fun h => ⟨h.sigils, h.brackets⟩⟩

/-! ### Sigils at the end -/

theorem trailingSigils_append_of_forall {v : Text} (h : ∀ c ∈ v, c = '$') (u : Text) :
    trailingSigils (u ++ v) = trailingSigils u + v.length := by
  have hall : ∀ c ∈ v.reverse, (c == '$') = true := by simpa using h
  rw [trailingSigils, List.reverse_append, List.takeWhile_append_of_pos hall,
    List.length_append, List.length_reverse, Nat.add_comm]
  rfl

theorem trailingSigils_append_of_mem {v : Text} {c : Char} (hmem : c ∈ v) (hc : c ≠ '$')
    (u : Text) : trailingSigils (u ++ v) = trailingSigils v := by
  -- the sigils at the end cannot make up all of `v`, or `c` would be one of them
  have hshort : (v.reverse.takeWhile (· == '$')).length ≠ v.reverse.length := by
    intro hlen
    have hself := (List.takeWhile_sublist (· == '$')).eq_of_length hlen
    have hall := List.all_takeWhile (p := (· == '$')) (l := v.reverse)
    rw [hself, List.all_eq_true] at hall
    exact hc (by simpa using hall c (List.mem_reverse.2 hmem))
  rw [trailingSigils, List.reverse_append, List.takeWhile_append, if_neg hshort]
  rfl

/-- A text that ends in another character ends in no sigil. -/
theorem trailingSigils_concat {c : Char} (hc : c ≠ '$') (t : Text) :
    trailingSigils (t ++ [c]) = 0 := by
  simp [trailingSigils, hc]

theorem trailingSigils_of_forall_ne {t : Text} (h : ∀ c ∈ t, c ≠ '$') : trailingSigils t = 0 := by
  rcases t.eq_nil_or_concat with rfl | ⟨front, c, hend⟩
  · rfl
  · rw [List.concat_eq_append] at hend
    subst hend
    exact trailingSigils_concat (h c (by simp)) front

namespace Token

variable (refs : References)

/-- In front of a character that is no sigil stands a run without sigils. -/
theorem exists_first_eq_literal {c : Char} (hc : c ≠ '$') (rest : Text) :
    ∃ run, first refs c rest = literal run ∧ ∀ d ∈ run, d ≠ '$' := by
  refine ⟨c :: rest.takeWhile (· != '$'), first_of_ne refs hc rest, fun d hd => ?_⟩
  rcases List.mem_cons.1 hd with rfl | hlater
  · exact hc
  · have hall := List.all_takeWhile (p := (· != '$')) (l := rest)
    rw [List.all_eq_true] at hall
    simpa using hall d hlater

/-- A reference covers an even number of sigils at its end: two if it is `$$`, and
none otherwise. -/
theorem trailingSigils_ofSigil {d : Char} (hd : d ∈ referenceChars) (t : Text) :
    trailingSigils (ofSigil refs (d :: t)).lexeme % 2 = 0 := by
  rcases (mem_referenceChars_iff d).1 hd with rfl | rfl | rfl | rfl | rfl | ⟨index, rfl⟩
  · show trailingSigils ['$', '$'] % 2 = 0
    decide
  · rfl
  · rfl
  · rfl
  · rw [ofSigil_bracket]
    cases refs.name? t with
    | none => rfl
    | some name => exact congrArg (· % 2) (trailingSigils_concat (by decide) ('$' :: '<' :: name))
  · have hdigit : slotDigit index ≠ '$' := (slotDigit_ne index).1
    rw [ofSigil_slotDigit]
    split
    · exact congrArg (· % 2) (trailingSigils_concat hdigit ['$'])
    · exact congrArg (· % 2) (trailingSigils_concat hdigit ['$'])

/-- A first token that only sigils follow covers an even number of sigils at its
end, if there is an even number in all. -/
theorem trailingSigils_first {c : Char} {rest tail : Text}
    (hcover : c :: rest = (first refs c rest).lexeme ++ tail)
    (heven : trailingSigils (c :: rest) % 2 = 0) (hall : ∀ d ∈ tail, d = '$') :
    trailingSigils (first refs c rest).lexeme % 2 = 0 := by
  by_cases hc : c = '$'
  · subst hc
    rw [first_sigil] at hcover ⊢
    cases rest with
    | nil => exact absurd heven (by decide)
    | cons d t =>
        by_cases hd : d ∈ referenceChars
        · exact trailingSigils_ofSigil refs hd t
        · -- a sigil on its own is followed by another character
          rw [ofSigil_other refs hd] at hcover
          obtain rfl : d :: t = tail := by simpa [lexeme] using hcover
          have hsigil : d = '$' := hall d List.mem_cons_self
          exact absurd (hsigil ▸ (mem_referenceChars_iff '$').2 (Or.inl rfl)) hd
  · obtain ⟨run, hfirst, hrun⟩ := exists_first_eq_literal refs hc rest
    have hnone : trailingSigils run = 0 := trailingSigils_of_forall_ne hrun
    rw [hfirst]
    exact congrArg (· % 2) hnone

/-- Behind the first token there is an even number of sigils at the end if there
is one in all. -/
theorem trailingSigils_tail {c : Char} {rest tail : Text}
    (hcover : c :: rest = (first refs c rest).lexeme ++ tail)
    (heven : trailingSigils (c :: rest) % 2 = 0) : trailingSigils tail % 2 = 0 := by
  by_cases hall : ∀ d ∈ tail, d = '$'
  · have hlexeme := trailingSigils_first refs hcover heven hall
    have htail : trailingSigils tail = 0 + tail.length := trailingSigils_append_of_forall hall []
    rw [hcover, trailingSigils_append_of_forall hall] at heven
    omega
  · obtain ⟨d, hmem, hd⟩ : ∃ d ∈ tail, d ≠ '$' := by simpa using hall
    rwa [hcover, trailingSigils_append_of_mem hmem hd] at heven

end Token

/-- What follows the first token of a closed template is closed. -/
theorem Match.IsClosed.tail {m : Match} {c : Char} {rest tail : Text}
    (h : m.IsClosed (c :: rest))
    (hcover : c :: rest = (Token.first m.references c rest).lexeme ++ tail)
    (hread : Token.read m (c :: rest) = Token.first m.references c rest :: Token.read m tail) :
    m.IsClosed tail where
  sigils := Token.trailingSigils_tail m.references hcover h.sigils
  brackets := by
    have hbrackets := h.brackets
    rw [hread] at hbrackets
    exact fun later hlater => hbrackets later (List.mem_cons_of_mem _ hlater)

/-! ### Names at the end -/

namespace NameTable

/-- What is added to a text closes a name at its head only if the text breaks off
inside the name or its closing bracket. -/
theorem heads_append_iff {e : Entry} {t : Text} (h : t <+: e.name ++ ['>'] → t = e.name ++ ['>'])
    (b : Text) : e.Heads (t ++ b) ↔ e.Heads t := by
  constructor
  · intro hheads
    -- both the closed name and `t` begin the joined text, so one of them begins the other
    rcases List.prefix_or_prefix_of_prefix hheads (List.prefix_append t b) with hname | hbroken
    · exact hname
    · exact h hbroken ▸ List.prefix_rfl
  · intro hheads
    exact hheads.trans (List.prefix_append t b)

/-- A reference means the same whatever follows, unless a name breaks off. -/
theorem resolve?_append {table : NameTable} {t : Text}
    (h : ∀ e ∈ table.entries, t <+: e.name ++ ['>'] → t = e.name ++ ['>']) (b : Text) :
    table.resolve? (t ++ b) = table.resolve? t := by
  have hfilter : (table.entries.filter fun e => e.Heads (t ++ b)) =
      table.entries.filter fun e => e.Heads t := by
    refine List.filter_congr fun e he => ?_
    rw [decide_eq_decide]
    exact heads_append_iff (h e he) b
  simp only [resolve?, resolveIn, longestIn, hfilter]

end NameTable

/-- Reading stands in front of the template before anything else. -/
theorem Token.cons_mem_rests (m : Match) (c : Char) (rest : Text) :
    c :: rest ∈ Token.rests (Token.read m (c :: rest)) := by
  have hlexemes := Token.lexemes_read m (c :: rest)
  cases hread : Token.read m (c :: rest) with
  | nil => simp [hread] at hlexemes
  | cons token later =>
      rw [hread] at hlexemes
      exact hlexemes ▸ List.mem_cons_self

namespace Match.IsClosed

variable {m : Match} {rest : Text}

/-- What a sigil begins is the same whatever follows a closed template. -/
theorem ofSigil_append (h : m.IsClosed ('$' :: rest)) (b : Text) :
    Token.ofSigil m.references (rest ++ b) = Token.ofSigil m.references rest := by
  cases rest with
  | nil => exact absurd h.sigils (by decide)
  | cons d t =>
      rw [List.cons_append]
      by_cases hd : d ∈ Token.referenceChars
      · rcases (Token.mem_referenceChars_iff d).1 hd with
          rfl | rfl | rfl | rfl | rfl | ⟨index, rfl⟩
        · rfl
        · rfl
        · rfl
        · rfl
        · rw [Token.ofSigil_bracket, Token.ofSigil_bracket, Token.name?_references,
            Token.name?_references, NameTable.resolve?_append]
          intro e he hbegun
          -- the bracket at hand is one that reading stands at
          have hwhole := h.brackets _ (Token.cons_mem_rests m '$' ('<' :: t)) ⟨t, rfl⟩ e he
          simpa [Token.BreaksOff, Token.lexeme, hbegun] using hwhole
        · rw [Token.ofSigil_slotDigit, Token.ofSigil_slotDigit]
      · rw [Token.ofSigil_other _ hd, Token.ofSigil_other _ hd]

end Match.IsClosed

/-! ### Closed templates -/

namespace Match

variable (m : Match) (source : Text)

/-- Text without sigils is copied, whatever follows it. -/
theorem expansion_append_of_forall_ne {run : Text} (hrun : ∀ c ∈ run, c ≠ '$') (t : Text) :
    m.expansion source (run ++ t) = run ++ m.expansion source t ∧
      m.unresolved (run ++ t) = m.unresolved t := by
  induction run with
  | nil => exact ⟨rfl, rfl⟩
  | cons c run ih =>
      obtain ⟨hc, hlater⟩ := List.forall_mem_cons.1 hrun
      obtain ⟨hexpansion, hunresolved⟩ := m.expansion_cons_of_ne source hc (run ++ t)
      obtain ⟨hexpansion', hunresolved'⟩ := ih hlater
      rw [List.cons_append, hexpansion, hunresolved, hexpansion', hunresolved']
      exact ⟨rfl, rfl⟩

variable {m}

/-- A closed template is expanded on its own, and so is what follows it.  The
places where it names nothing are the same, with a longer rest. -/
theorem expansion_append {a : Text} (h : m.IsClosed a) (b : Text) :
    m.expansion source (a ++ b) = m.expansion source a ++ m.expansion source b ∧
      m.unresolved (a ++ b) = (m.unresolved a).map (· ++ b) ++ m.unresolved b := by
  induction a using Token.scan_induction (Token.lawful_first m.references) with
  | nil => exact ⟨rfl, rfl⟩
  | token c rest tail hcover hscan ih =>
      obtain ⟨hexpansion, hunresolved⟩ := ih (h.tail hcover hscan)
      by_cases hc : c = '$'
      · subst hc
        -- the same token is read in front of what follows
        obtain ⟨hfront, hfront'⟩ := m.expansion_of_read source hscan
        have hsame := h.ofSigil_append b
        rw [Token.first_sigil] at hcover hfront hfront'
        have hcover' : '$' :: (rest ++ b) =
            (Token.ofSigil m.references rest).lexeme ++ (tail ++ b) := by
          rw [← List.cons_append, hcover, List.append_assoc]
        have hread := Token.read_of_ofSigil m hsame hcover'
        obtain ⟨hjoined, hjoined'⟩ := m.expansion_of_read source hread
        rw [List.cons_append]
        constructor
        · rw [hjoined, hexpansion, hfront, List.append_assoc]
        · rw [hjoined', hunresolved, hfront', List.map_append, List.append_assoc]
          split
          · rfl
          · rfl
      · obtain ⟨run, hfirst, hrun⟩ := Token.exists_first_eq_literal m.references hc rest
        -- the run may go on in what follows, so it is copied character by character
        have hrest : c :: rest = run ++ tail := by
          rw [hcover, hfirst]
          rfl
        obtain ⟨hfront, hfront'⟩ := m.expansion_append_of_forall_ne source hrun tail
        obtain ⟨hjoined, hjoined'⟩ := m.expansion_append_of_forall_ne source hrun (tail ++ b)
        rw [hrest, List.append_assoc, hjoined, hjoined', hfront, hfront', hexpansion, hunresolved,
          List.append_assoc]
        exact ⟨rfl, rfl⟩

end Match

end MatchTemplate
