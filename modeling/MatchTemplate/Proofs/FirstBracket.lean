import MatchTemplate.NameTable.Spelled
import MatchTemplate.Template.Expansion

/-!
# Names without a bracket

The plain way to read a reference by name takes the text up to the first `>` for the name
and looks it up.  It differs from the reading by longest names only where a declared name
itself contains a `>`.  Where none does, at most one name is closed at the head of a text,
the one that ends at the first bracket, and both readings come to the same expansion
(`expand_eq_bracketedExpansion`).
-/

namespace MatchTemplate

/-! ### The text up to the first bracket -/

/-- Two names without a bracket that are closed at the head of one text are the same. -/
theorem eq_of_closed {name other t : Text} (hname : '>' ∉ name) (hother : '>' ∉ other)
    (h : other ++ ['>'] <+: name ++ '>' :: t) : other = name := by
  obtain ⟨tail, htail⟩ := h
  rw [List.append_assoc, List.singleton_append] at htail
  exact (Text.append_cons_inj hother hname htail).1

namespace NameTable

/-- The entry for the text up to the first `>`, provided that it is declared
and set. -/
def bracketed? (table : NameTable) (rest : Text) : Option Entry :=
  if '>' ∈ rest then
    let name := rest.takeWhile (· ≠ '>')
    (table.value? name).map fun text => ⟨name, some text⟩
  else
    none

variable (table : NameTable)

theorem bracketed?_closed {name : Text} (h : '>' ∉ name) (t : Text) :
    table.bracketed? (name ++ '>' :: t) =
      (table.value? name).map fun text => ⟨name, some text⟩ := by
  have hmem : '>' ∈ name ++ '>' :: t := List.mem_append_right name List.mem_cons_self
  rw [bracketed?, if_pos hmem, Text.takeWhile_append_cons h]

theorem bracketed?_of_not_mem {rest : Text} (h : '>' ∉ rest) : table.bracketed? rest = none :=
  if_neg h

theorem heads_of_bracketed? {rest : Text} {e : Entry} (h : table.bracketed? rest = some e) :
    e.Heads rest := by
  by_cases hmem : '>' ∈ rest
  · obtain ⟨name, t, rfl, hname⟩ := List.eq_append_cons_of_mem hmem
    rw [bracketed?_closed table hname] at h
    obtain ⟨text, -, rfl⟩ := Option.map_eq_some_iff.1 h
    exact ⟨t, by simp⟩
  · rw [bracketed?_of_not_mem table hmem] at h
    exact absurd h.symm (Option.some_ne_none e)

variable {table}

/-- Among names without a bracket, the longest one at the head of a text is the text up
to the first bracket. -/
theorem resolve?_eq_bracketed? (h : ∀ name, table.declares name → '>' ∉ name) (rest : Text) :
    table.resolve? rest = table.bracketed? rest := by
  by_cases hmem : '>' ∈ rest
  · obtain ⟨name, t, rfl, hname⟩ := List.eq_append_cons_of_mem hmem
    have honly : ∀ other, (table.find? other).isSome → other ++ ['>'] <+: name ++ '>' :: t →
        other = name := fun other hother hheads => eq_of_closed hname (h other hother) hheads
    rw [bracketed?_closed table hname]
    cases hvalue : table.value? name with
    | none =>
        apply (resolve?_eq_none_iff table _).2
        intro other hlongest
        rw [honly other hlongest.declared hlongest.heads]
        exact hvalue
    | some text =>
        apply (resolve?_eq_some_iff_value? table _ ⟨name, some text⟩).2
        refine ⟨⟨?_, ⟨t, by simp⟩, fun other hother hheads => ?_⟩, hvalue, rfl⟩
        · exact Option.isSome_of_eq_some (Option.join_eq_some_iff.1 hvalue)
        · exact Nat.le_of_eq (congrArg Text.byteLength (honly other hother hheads))
  · rw [bracketed?_of_not_mem table hmem]
    apply (resolve?_eq_none_iff table rest).2
    intro other hlongest
    exact absurd (hlongest.heads.subset (by simp)) hmem

end NameTable

/-! ### Reading by brackets -/

namespace Match

/-- What a template can refer to in a match, where a reference by name ends at the first
`>` that follows it. -/
def bracketedReferences (m : Match) : References :=
  m.referencesBy m.table.bracketed? (NameTable.heads_of_bracketed? m.table)

/-- Both ways to read a reference by name come to the same where no name contains a
bracket. -/
theorem bracketedReferences_eq {m : Match}
    (h : ∀ name, m.table.declares name → '>' ∉ name) : m.bracketedReferences = m.references :=
  m.referencesBy_eq (NameTable.heads_of_bracketed? m.table) fun rest =>
    (NameTable.resolve?_eq_bracketed? h rest).symm

end Match

/-- The tokens of a template whose references by name end at the first `>`. -/
def Token.readBracketed (m : Match) (template : Text) : List Token :=
  scan (first m.bracketedReferences) template

namespace Match

/-- The expansion of a template whose references by name end at the first `>`. -/
def bracketedExpansion (m : Match) (source template : Text) : Text :=
  (Token.readBracketed m template).flatMap (Token.value m source)

variable (m : Match) (source : Text)

/-- A token that a sigil begins contributes what it stands for. -/
theorem bracketedExpansion_of_ofSigil {rest tail : Text} {token : Token}
    (h : Token.ofSigil m.bracketedReferences rest = token)
    (htail : '$' :: rest = token.lexeme ++ tail) :
    m.bracketedExpansion source ('$' :: rest) =
      token.value m source ++ m.bracketedExpansion source tail := by
  rw [bracketedExpansion, Token.readBracketed, Token.scan_of_ofSigil _ h htail, List.flatMap_cons]
  rfl

/-- A reference up to the first bracket gives way to its value.  If there is none, only
the opening is copied, and reading goes on inside. -/
theorem bracketedExpansion_closed {name : Text} (h : '>' ∉ name) (t : Text) :
    m.bracketedExpansion source ('$' :: '<' :: (name ++ '>' :: t)) =
      match m.value? name with
      | some text => text ++ m.bracketedExpansion source t
      | none => '$' :: '<' :: m.bracketedExpansion source (name ++ '>' :: t) := by
  have hbracketed : m.bracketedReferences.name? (name ++ '>' :: t) =
      ((m.value? name).map fun text => (⟨name, some text⟩ : Entry)).map Entry.name :=
    congrArg (Option.map Entry.name) (NameTable.bracketed?_closed m.table h t)
  have hsigil := Token.ofSigil_bracket m.bracketedReferences (name ++ '>' :: t)
  rw [hbracketed] at hsigil
  cases hvalue : m.value? name with
  | none =>
      rw [hvalue] at hsigil
      exact m.bracketedExpansion_of_ofSigil source hsigil rfl
  | some text =>
      have hcover : '$' :: '<' :: (name ++ '>' :: t) = (Token.named name).lexeme ++ t := by
        simp [Token.lexeme]
      rw [hvalue] at hsigil
      exact Token.value_named hvalue source ▸ m.bracketedExpansion_of_ofSigil source hsigil hcover

/-- Without a closing bracket only the opening is copied. -/
theorem bracketedExpansion_unclosed {t : Text} (h : '>' ∉ t) :
    m.bracketedExpansion source ('$' :: '<' :: t) =
      '$' :: '<' :: m.bracketedExpansion source t := by
  have hbracketed : m.bracketedReferences.name? t = none :=
    congrArg (Option.map Entry.name) (NameTable.bracketed?_of_not_mem m.table h)
  have hsigil := Token.ofSigil_bracket m.bracketedReferences t
  rw [hbracketed] at hsigil
  exact m.bracketedExpansion_of_ofSigil source hsigil rfl

end Match

/-! ### The same expansion -/

/-- If no declared name contains a bracket, a template expands as it does when every
reference by name is read up to the first bracket and looked up.  By that reading a name
that is declared and set gives way to its text, with its bracket.  Where the name is not
declared or not set, or there is no bracket, only the opening is copied, and references
inside are read. -/
theorem expand_eq_bracketedExpansion {m : Match}
    (hnames : ∀ name, m.table.declares name → '>' ∉ name) (source : Text) :
    (∀ template, expand source (some m) template =
        ⟨some (m.bracketedExpansion source template),
          (Token.openings (Token.readBracketed m template)).map .unresolvedName⟩) ∧
      (∀ name t, '>' ∉ name →
        m.bracketedExpansion source ('$' :: '<' :: (name ++ '>' :: t)) =
          match m.value? name with
          | some text => text ++ m.bracketedExpansion source t
          | none => '$' :: '<' :: m.bracketedExpansion source (name ++ '>' :: t)) ∧
      ∀ t, '>' ∉ t →
        m.bracketedExpansion source ('$' :: '<' :: t) =
          '$' :: '<' :: m.bracketedExpansion source t := by
  refine ⟨fun template => ?_, fun name t h => ?_, fun t h => ?_⟩
  · unfold Match.bracketedExpansion Token.readBracketed
    rw [Match.bracketedReferences_eq hnames]
    rfl
  · exact m.bracketedExpansion_closed source h t
  · exact m.bracketedExpansion_unclosed source h

/-- One name is the beginning of another, and a third one is empty.  The brackets that
name nothing hold a reference that does. -/
theorem expand_eq_bracketedExpansion_nested :
    let m : Match := ⟨0, ['é'], [], some (((NameTable.empty.insert ['n'] (some ['a'])).insert
      ['n', '$', '1'] (some ['b'])).insert [] none)⟩
    (∀ name, m.table.declares name → '>' ∉ name) ∧
      (expand ['é'] (some m)
          ['$', '<', 'n', '$', '1', '>', '$', '<', '$', '<', 'n', '>', '>', '$', '<', '>']).result =
        some ['b', '$', '<', 'a', '>', '$', '<', '>'] := by
  intro m
  have hnames : ∀ name, m.table.declares name → '>' ∉ name := by
    intro name hdeclared
    obtain ⟨e, he, rfl⟩ := (NameTable.find?_isSome_iff m.table name).1 hdeclared
    have hall : ∀ e ∈ m.table.entries, '>' ∉ e.name := by decide
    exact hall e he
  refine ⟨hnames, ?_⟩
  rw [(expand_eq_bracketedExpansion hnames ['é']).1]
  decide

end MatchTemplate
