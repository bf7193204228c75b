import MatchTemplate.Template.Closed

/-!
# Templates one after the other

A template that is closed can be continued by any other one: the two are
expanded side by side (`expand_append`).  An escaped text is such a template, of
the plainest kind.  It stands for the text it was made from in front of every
template and against every match, and nothing in it is reported
(`expand_escape_append`).
-/

namespace MatchTemplate

/-! ### Closed templates -/

/-- The expansion of a closed template and another one behind it is made up of
their two expansions.  Every unresolved bracket of the first one is reported with
all that follows it, and those of the other one as they are on its own. -/
theorem expand_append {m : Match} {a : Text} (h : m.IsClosed a) (source b : Text) :
    ∃ left right,
      (expand source (some m) a).result = some left ∧
        (expand source (some m) b).result = some right ∧
        (expand source (some m) (a ++ b)).result = some (left ++ right) ∧
        (expand source (some m) (a ++ b)).notices =
          (m.unresolved a).map (fun rest => .unresolvedName (rest ++ b)) ++
            (expand source (some m) b).notices := by
  obtain ⟨hexpansion, hunresolved⟩ := Match.expansion_append source h b
  refine ⟨m.expansion source a, m.expansion source b, rfl, rfl, ?_, ?_⟩
  · exact congrArg some hexpansion
  · show (m.unresolved (a ++ b)).map Notice.unresolvedName = _
    rw [hunresolved, List.map_append, List.map_map]
    rfl

/-- Two pairs of sigils stand at the joint, and the second template begins with a
digit.  The name that is read is also the beginning of a longer declared one, but
it does not break off inside that. -/
theorem expand_append_pairs :
    let m : Match := ⟨0, [], [some ['y']],
      some ((NameTable.empty.insert ['k'] (some ['v'])).insert ['k', '>', 'x'] none)⟩
    m.IsClosed ['$', '<', '$', '<', 'k', '>', '$', '$', '$', '$'] ∧
      (expand [] (some m)
          (['$', '<', '$', '<', 'k', '>', '$', '$', '$', '$'] ++
            ['1', 'x', '>', '$', '1'])).result =
        some ['$', '<', 'v', '$', '$', '1', 'x', '>', 'y'] := by
  intro m
  have hclosed : m.IsClosed ['$', '<', '$', '<', 'k', '>', '$', '$', '$', '$'] := by decide
  obtain ⟨left, right, hleft, hright, hjoined, -⟩ :=
    expand_append hclosed [] ['1', 'x', '>', '$', '1']
  have hleft' : some ['$', '<', 'v', '$', '$'] = some left := hleft
  have hright' : some ['1', 'x', '>', 'y'] = some right := hright
  obtain rfl := Option.some.inj hleft'
  obtain rfl := Option.some.inj hright'
  exact ⟨hclosed, hjoined⟩

/-- Neither condition can be left out: a sigil at the end pairs with what follows,
and a name that breaks off goes on. -/
example :
    let m : Match := ⟨0, [], [some ['y']],
      some ((NameTable.empty.insert ['k'] (some ['v'])).insert ['k', '>', 'x'] none)⟩
    m.expansion [] (['$'] ++ ['1']) ≠ m.expansion [] ['$'] ++ m.expansion [] ['1'] ∧
      m.expansion [] (['$', '<', 'k', '>'] ++ ['x', '>']) ≠
        m.expansion [] ['$', '<', 'k', '>'] ++ m.expansion [] ['x', '>'] := by
  decide

/-! ### Escaped texts -/

/-- An escaped text is copied without the doubling, whatever follows it, and no
place in it is unresolved. -/
theorem Match.expansion_escape_append (m : Match) (source t u : Text) :
    m.expansion source (escape t ++ u) = t ++ m.expansion source u ∧
      m.unresolved (escape t ++ u) = m.unresolved u := by
  induction t with
  | nil => exact ⟨rfl, rfl⟩
  | cons c t ih =>
      obtain ⟨hexpansion, hunresolved⟩ := ih
      by_cases hc : c = '$'
      · subst hc
        obtain ⟨hpair, hpair'⟩ := m.expansion_of_read source (Token.read_doubled m (escape t ++ u))
        have hescape : escape ('$' :: t) ++ u = '$' :: '$' :: (escape t ++ u) := rfl
        rw [hescape, hpair, hpair', hexpansion, hunresolved]
        exact ⟨rfl, rfl⟩
      · obtain ⟨hcopied, hcopied'⟩ := m.expansion_cons_of_ne source hc (escape t ++ u)
        have hescape : escape (c :: t) ++ u = c :: (escape t ++ u) := by
          simp [escape, hc]
        rw [hescape, hcopied, hcopied', hexpansion, hunresolved]
        exact ⟨rfl, rfl⟩

/-- An escaped text in front of a template puts the text itself in front of the
expansion, and what is reported stays the same.  On its own it expands to the text,
and nothing is reported. -/
theorem expand_escape_append (source : Text) (m : Match) (t : Text) :
    (∀ u, ∃ out notices,
        expand source (some m) u = ⟨some out, notices⟩ ∧
          expand source (some m) (escape t ++ u) = ⟨some (t ++ out), notices⟩) ∧
      expand source (some m) (escape t) = ⟨some t, []⟩ := by
  constructor
  · intro u
    obtain ⟨hexpansion, hunresolved⟩ := m.expansion_escape_append source t u
    refine ⟨m.expansion source u, (m.unresolved u).map .unresolvedName, rfl, ?_⟩
    rw [expand, hexpansion, hunresolved]
  · obtain ⟨hexpansion, hunresolved⟩ := m.expansion_escape_append source t []
    rw [List.append_nil] at hexpansion hunresolved
    rw [expand, hexpansion, hunresolved, Match.expansion_nil, List.append_nil]
    rfl

end MatchTemplate
