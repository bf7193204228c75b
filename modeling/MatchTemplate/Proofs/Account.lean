import MatchTemplate.Proofs.RightToLeft
import MatchTemplate.Template.Closed
import MatchTemplate.Template.Rules

/-!
# The account of a run

What is recorded tells exactly what was done.  An expansion leaves one record for each
place where reading stands in front of a `$<` that names nothing, in the order of these
places (`Token.openings_read`).  These brackets are the ones that are copied, so there are
as many of them as records (`Token.countP_read`).  A replacement leaves for each match the
records of its expansion and one of its own, and in the end one with the number of
matches, unless there is none (`records_replaceMatches`).
-/

namespace MatchTemplate

/-- A `$<` stands at the head of `rest`, and no longest declared name behind it is set. -/
def Match.LeavesOpen (m : Match) (rest : Text) : Prop :=
  ∃ inner, rest = '$' :: '<' :: inner ∧
    ∀ name, m.table.IsLongest name inner → m.value? name = none

/-- What is recorded of the replacement of some matches. -/
def replacementAccount (source template : Text) (ms : List Match) : List (Level × Text) :=
  ms.flatMap (fun m =>
      (expand source (some m) template).records ++
        [(.trace, "replaced match at ".toList ++ Nat.toDigits 10 m.offset ++ ": ".toList ++
          m.whole.quoted)]) ++
    if ms = [] then
      []
    else
      [(.debug, "replaced ".toList ++ Nat.toDigits 10 ms.length ++ " match(es)".toList)]

/-! ### Open brackets -/

theorem Match.leavesOpen_iff (m : Match) (rest : Text) :
    m.LeavesOpen rest ↔ ['$', '<'] <+: rest ∧ m.table.resolve? (rest.drop 2) = none := by
  constructor
  · rintro ⟨inner, rfl, hnone⟩
    exact ⟨⟨inner, rfl⟩, (NameTable.resolve?_eq_none_iff m.table inner).2 hnone⟩
  · rintro ⟨⟨inner, rfl⟩, hnone⟩
    exact ⟨inner, rfl, (NameTable.resolve?_eq_none_iff m.table inner).1 hnone⟩

instance (m : Match) (rest : Text) : Decidable (m.LeavesOpen rest) :=
  decidable_of_iff _ (m.leavesOpen_iff rest).symm

namespace Token

variable {m : Match} {c : Char} {rest : Text}

theorem first_of_leavesOpen (h : m.LeavesOpen (c :: rest)) :
    first m.references c rest = openBracket := by
  obtain ⟨inner, hinner, hnone⟩ := h
  obtain ⟨rfl, rfl⟩ := List.cons.inj hinner
  rw [first_sigil, ofSigil_bracket, name?_references,
    (NameTable.resolve?_eq_none_iff m.table inner).2 hnone]
  rfl

/-- A first token that covers no more than a sigil and a bracket leaves the bracket open. -/
theorem leavesOpen_of_lexeme_first (h : (first m.references c rest).lexeme = ['$', '<']) :
    m.LeavesOpen (c :: rest) := by
  obtain ⟨inner, hcover⟩ := (lawful_first m.references).append c rest
  rw [h] at hcover
  obtain ⟨rfl, rfl⟩ : c = '$' ∧ rest = '<' :: inner := by simpa using hcover
  rw [first_sigil, ofSigil_bracket, name?_references] at h
  refine ⟨inner, rfl, (NameTable.resolve?_eq_none_iff m.table inner).1 ?_⟩
  -- a name that is found would be covered as well
  cases hresolve : m.table.resolve? inner with
  | none => rfl
  | some e => simp [hresolve, lexeme] at h

theorem first_eq_openBracket_iff :
    first m.references c rest = openBracket ↔ m.LeavesOpen (c :: rest) :=
  ⟨fun h => leavesOpen_of_lexeme_first (congrArg lexeme h), first_of_leavesOpen⟩

theorem lexeme_first_eq_iff :
    (first m.references c rest).lexeme = ['$', '<'] ↔ first m.references c rest = openBracket :=
  ⟨fun h => first_of_leavesOpen (leavesOpen_of_lexeme_first h), congrArg lexeme⟩

/-- The brackets that are reported are those in front of which reading stands and that are
left open. -/
theorem openings_read (m : Match) (template : Text) :
    openings (read m template) =
      (rests (read m template)).filter fun rest => m.LeavesOpen rest := by
  induction template using scan_induction (lawful_first m.references) with
  | nil => rfl
  | token c rest tail _ hscan ih =>
      have hread : read m (c :: rest) = first m.references c rest :: read m tail := hscan
      have hlexemes := lexemes_read m (c :: rest)
      rw [hread] at hlexemes ⊢
      rw [rests, openings, hlexemes, ih, List.filter_cons]
      simp only [first_eq_openBracket_iff, decide_eq_true_eq]

theorem length_openings (tokens : List Token) :
    (openings tokens).length = tokens.count openBracket := by
  induction tokens with
  | nil => rfl
  | cons token later ih =>
      rw [openings, List.count_cons]
      split
      · rename_i hopen
        simp [ih, hopen]
      · rename_i hopen
        simp [ih, hopen]

/-- The tokens that cover a bracket and stand for it are the brackets that are left open. -/
theorem countP_read (m : Match) (source template : Text) :
    (read m template).countP (fun token =>
        token.lexeme = ['$', '<'] ∧ token.value m source = ['$', '<']) =
      (read m template).count openBracket := by
  refine List.countP_congr fun token hmem => ?_
  obtain ⟨c, rest, rfl⟩ := exists_of_mem_scan (lawful_first m.references) hmem
  rw [decide_eq_true_eq, beq_iff_eq, lexeme_first_eq_iff]
  constructor
  · exact And.left
  · intro h
    rw [h]
    exact ⟨rfl, rfl⟩

end Token

/-! ### Records of a replacement -/

theorem Match.map_record_replacementNotices (m : Match) (source template : Text) :
    (m.replacementNotices source template).map Notice.record =
      (expand source (some m) template).records ++
        [(.trace, "replaced match at ".toList ++ Nat.toDigits 10 m.offset ++ ": ".toList ++
          m.whole.quoted)] := by
  rw [replacementNotices, List.map_append]
  rfl

theorem records_replaceMatches (source template : Text) (ms : List Match) :
    (replaceMatches source ms template).records = replacementAccount source template ms := by
  by_cases hnone : ms = []
  · rw [hnone]
    rfl
  · have hsome : ¬ ms.isEmpty = true := by simpa using hnone
    rw [replaceMatches, if_neg hsome, replacementAccount, if_neg hnone, Logged.records,
      List.map_append, List.map_flatMap]
    simp only [Match.map_record_replacementNotices]
    rfl

/-! ### The account -/

/-- Without a match, an expansion records that there is none.  With a match it records the
places where reading stands in front of a `$<` for which no longest name is set, in their
order and each with the template from there on, and nothing else.  By the rules of
expansion these are the places that are left open, and there are as many of them as tokens
that copy a `$<`.  A replacement records for each of its matches what the expansion does,
then where the match begins and what stands there in the source, and in the end how many
matches there were; without a match it records nothing.  Replacing all matches accounts for
all of them, replacing the first one for this one, and an expansion against the first
match for the expansion alone. -/
theorem records_eq_account (source template : Text) :
    (expand source none template).records =
        [(.debug, "no match, skipping template expansion".toList)] ∧
      (∀ m : Match,
        let places := (Token.rests (Token.read m template)).filter fun rest => m.LeavesOpen rest
        (expand source (some m) template).records =
            places.map (fun rest => (.trace, "no named group matches at ".toList ++ rest.quoted)) ∧
          Expands m source template (m.expansion source template) places ∧
          places.length = (Token.read m template).countP fun token =>
            token.lexeme = ['$', '<'] ∧ token.value m source = ['$', '<']) ∧
      ∀ findings : Findings, findings.WellFormed source →
        let ms := findings.occurrences source
        (replaceAll source findings template).records = replacementAccount source template ms ∧
          (replaceFirst source findings template).records =
            replacementAccount source template (ms.take 1) ∧
          (expandFirst source findings template).records =
            (ms.take 1).flatMap (fun m => (expand source (some m) template).records) ∧
          ∀ captures ∈ findings.captures,
            let m := Match.ofCaptures source findings.groupNames captures
            m.offset = captures.span.start ∧ source.slice? captures.span = some m.whole := by
  refine ⟨rfl, fun m => ?_, fun findings h => ⟨?_, ?_, ?_, fun captures hmem => ⟨?_, ?_⟩⟩⟩
  · have hplaces : m.unresolved template =
        (Token.rests (Token.read m template)).filter fun rest => m.LeavesOpen rest :=
      Token.openings_read m template
    rw [← hplaces]
    refine ⟨List.map_map, expands_iff.2 ⟨rfl, rfl⟩, ?_⟩
    rw [Token.countP_read]
    exact Token.length_openings (Token.read m template)
  · rw [replaceAll, replaceUpTo_eq_replaceMatches, records_replaceMatches]
    rfl
  · rw [replaceFirst, replaceUpTo_eq_replaceMatches, records_replaceMatches]
    rfl
  · rw [expandFirst]
    cases findings.occurrences source with
    | nil => rfl
    | cons m later => simp
  · exact Match.offset_ofCaptures source findings.groupNames captures
  · apply Match.slice?_eq_whole_ofCaptures
    intro span hspan
    exact h.slices captures hmem span (Captures.mem_of_head?_join hspan)

/-- The group is set in the first of two matches only, so its reference is left open in
the second one.  A doubled sigil in front of a bracket opens nothing, and the `$<` at the
end is open in both. -/
theorem records_eq_account_twice :
    let findings : Findings :=
      ⟨[none, some ['n']], [[some ⟨0, 1⟩, some ⟨0, 1⟩], [some ⟨3, 4⟩, none]]⟩
    let template := ['$', '<', 'n', '>', '$', '$', '<', '$', '<']
    findings.WellFormed ['a', 'é', 'b'] ∧
      (replaceAll ['a', 'é', 'b'] findings template).records =
        [(.trace, "no named group matches at \"$<\"".toList),
          (.trace, "replaced match at 0: \"a\"".toList),
          (.trace, "no named group matches at \"$<n>$$<$<\"".toList),
          (.trace, "no named group matches at \"$<\"".toList),
          (.trace, "replaced match at 3: \"b\"".toList),
          (.debug, "replaced 2 match(es)".toList)] ∧
      (replaceFirst ['a', 'é', 'b'] findings template).records =
        [(.trace, "no named group matches at \"$<\"".toList),
          (.trace, "replaced match at 0: \"a\"".toList),
          (.debug, "replaced 1 match(es)".toList)] := by
  intro findings template
  have hformed : findings.WellFormed ['a', 'é', 'b'] := by decide
  obtain ⟨-, -, haccount⟩ := records_eq_account ['a', 'é', 'b'] template
  obtain ⟨hall, hfirst, -, -⟩ := haccount findings hformed
  exact ⟨hformed, hall.trans (by decide +kernel), hfirst.trans (by decide +kernel)⟩

end MatchTemplate
