import MatchTemplate.Proofs.FirstBracket
import MatchTemplate.Proofs.GroupByGroup
import MatchTemplate.Template.Closed

/-!
# A group by its name and by its number

A reference by name and one by number are looked up in different places and cover texts
of different lengths, and what is copied where nothing is found differs as well.  Each of
them is all the same replaced by what the group holds, or by its own spelling if the
group is not set (`Match.expansion_named_append`, `Match.expansion_slot_append`).  In a
match that is read off a source both find the same, so one can be written for the other
behind every closed template (`expand_name_eq_expand_number`).
-/

namespace MatchTemplate

namespace Match

variable {m : Match} (source : Text)

/-- Where no declared name contains a bracket, a closed reference is a look-up. -/
theorem resolve?_closed (hnames : ∀ name, m.table.declares name → '>' ∉ name) {name : Text}
    (hname : '>' ∉ name) (t : Text) :
    m.table.resolve? (name ++ '>' :: t) = (m.value? name).map fun text => ⟨name, some text⟩ :=
  (NameTable.resolve?_eq_bracketed? hnames _).trans (m.table.bracketed?_closed hname t)

/-- A reference by name gives way to what the group holds.  If that is nothing, reading
goes on inside the reference, where there is no other one. -/
theorem expansion_named_append (hnames : ∀ name, m.table.declares name → '>' ∉ name)
    {name : Text} (hbracket : '>' ∉ name) (hsigil : '$' ∉ name) (t : Text) :
    m.expansion source ((Token.named name).lexeme ++ t) =
      (m.value? name).getD (Token.named name).lexeme ++ m.expansion source t := by
  have hlexeme : (Token.named name).lexeme ++ t = '$' :: '<' :: (name ++ '>' :: t) := by
    simp [Token.lexeme]
  have hresolve := resolve?_closed hnames hbracket t
  rw [hlexeme]
  cases hvalue : m.value? name with
  | none =>
      rw [hvalue, Option.map_none] at hresolve
      have hrun : ∀ c ∈ name ++ ['>'], c ≠ '$' := by
        intro c hmem hc
        rcases List.mem_append.1 hmem with hinside | hclosing
        · exact hsigil (hc ▸ hinside)
        · exact absurd (hc ▸ List.mem_singleton.1 hclosing) (by decide)
      have hinside := (m.expansion_append_of_forall_ne source hrun t).1
      rw [List.append_assoc, List.singleton_append] at hinside
      rw [(m.expansion_of_read source (Token.read_openBracket m hresolve)).1, hinside]
      simp [Token.value, Token.render, Token.lexeme]
  | some text =>
      rw [hvalue, Option.map_some] at hresolve
      have hread := Token.read_named m (e := ⟨name, some text⟩) hresolve
      rw [(m.expansion_of_read source hread).1, Token.value_named hvalue, Option.getD_some]

/-- A reference by number gives way to what the slot holds, and is copied if that is
nothing. -/
theorem expansion_slot_append (m : Match) (index : Fin 9) (t : Text) :
    m.expansion source ((Token.slot index).lexeme ++ t) =
      (m.slot? (index + 1)).getD (Token.slot index).lexeme ++ m.expansion source t := by
  have hlexeme : (Token.slot index).lexeme ++ t = '$' :: Token.slotDigit index :: t := rfl
  rw [hlexeme]
  cases hslot : m.slot? (index + 1) with
  | none =>
      rw [(m.expansion_of_read source (Token.read_emptySlot m hslot t)).1]
      rfl
  | some text =>
      have hset : (m.slot? (index + 1)).isSome := Option.isSome_of_eq_some hslot
      rw [(m.expansion_of_read source (Token.read_slot m hset t)).1, Token.value_slot hslot,
        Option.getD_some]

/-- A reference behind a closed template is replaced on its own. -/
theorem expansion_between {a reference held t : Text} (ha : m.IsClosed a)
    (h : m.expansion source (reference ++ t) = held ++ m.expansion source t) :
    m.expansion source (a ++ reference ++ t) =
      m.expansion source a ++ held ++ m.expansion source t := by
  rw [List.append_assoc, (expansion_append source ha _).1, h, List.append_assoc]

end Match

/-- Let the names of the groups be distinct, without sigils and closing brackets, and let
the spans be parts of the source.  A reference to a named group by its name and one by its
number, behind a closed template and in front of any other one, give way to the same text
if the group took part.  If it did not, each of them is copied as it stands.  What is in
front and what follows expands as it does on its own. -/
theorem expand_name_eq_expand_number {source : Text} {groupNames : List (Option Text)}
    {captures : Captures} (hdistinct : (groupNames.filterMap id).Nodup)
    (hplain : ∀ name, some name ∈ groupNames → '>' ∉ name ∧ '$' ∉ name)
    (hslices : ∀ span ∈ captures.filterMap id, (source.slice? span).isSome)
    {index : Fin 9} {name : Text} (hname : groupNames[(index : Nat) + 1]? = some (some name))
    {a : Text} (ha : (Match.ofCaptures source groupNames captures).IsClosed a) (text t : Text) :
    let m := Match.ofCaptures source groupNames captures
    let byName := '$' :: '<' :: (name ++ ['>'])
    let byNumber := ['$', Token.slotDigit index]
    ∃ left right,
      (expand text (some m) a).result = some left ∧
        (expand text (some m) t).result = some right ∧
        (captures[(index : Nat) + 1]?.join.isSome →
          ∃ value, captures.text? source (index + 1) = some value ∧
            (expand text (some m) (a ++ byName ++ t)).result =
              (expand text (some m) (a ++ byNumber ++ t)).result ∧
            (expand text (some m) (a ++ byNumber ++ t)).result =
              some (left ++ value ++ right)) ∧
        (captures[(index : Nat) + 1]?.join = none →
          (expand text (some m) (a ++ byName ++ t)).result = some (left ++ byName ++ right) ∧
            (expand text (some m) (a ++ byNumber ++ t)).result =
              some (left ++ byNumber ++ right)) := by
  intro m byName byNumber
  have hmem : some name ∈ groupNames := List.mem_of_getElem? hname
  obtain ⟨hbracket, hsigil⟩ := hplain name hmem
  have hnames : ∀ other, m.table.declares other → '>' ∉ other := fun other hother =>
    (hplain other ((Match.declares_ofCaptures source groupNames captures other).1 hother)).1
  -- both references find the text of the group
  have hslot : m.slot? (index + 1) = captures.text? source (index + 1) :=
    Match.slot?_ofCaptures source groupNames captures index
  have hvalue : m.value? name = captures.text? source (index + 1) :=
    (Match.value?_ofCaptures_succ source captures hdistinct hname).trans hslot
  have hbyName := Match.expansion_between text ha
    (Match.expansion_named_append text hnames hbracket hsigil t)
  have hbyNumber := Match.expansion_between text ha (m.expansion_slot_append text index t)
  rw [hvalue] at hbyName
  rw [hslot] at hbyNumber
  have htook := Captures.isSome_text? hslices (index + 1)
  refine ⟨m.expansion text a, m.expansion text t, rfl, rfl, fun hsome => ?_, fun hnone => ?_⟩
  · rw [← htook] at hsome
    obtain ⟨value, htext⟩ := Option.isSome_iff_exists.1 hsome
    rw [htext, Option.getD_some] at hbyName hbyNumber
    exact ⟨value, htext, congrArg some (hbyName.trans hbyNumber.symm), congrArg some hbyNumber⟩
  · rw [hnone, Option.isSome_none, Option.isSome_eq_false_iff, Option.isNone_iff_eq_none] at htook
    rw [htook, Option.getD_none] at hbyName hbyNumber
    exact ⟨congrArg some hbyName, congrArg some hbyNumber⟩

/-- The first group took part and the third one did not.  The template in front holds a
pair of sigils and a bracket, and neither reaches over the joint. -/
theorem expand_name_eq_expand_number_optional :
    let groupNames := [none, some ['é'], none, some ['n']]
    let captures : Captures := [some ⟨0, 4⟩, some ⟨1, 3⟩, some ⟨3, 4⟩, none]
    let m := Match.ofCaptures ['a', 'é', 'b'] groupNames captures
    let a := ['$', '$', '$', '<', 'x']
    (groupNames.filterMap id).Nodup ∧
      (∀ name, some name ∈ groupNames → '>' ∉ name ∧ '$' ∉ name) ∧
      (∀ span ∈ captures.filterMap id, (Text.slice? ['a', 'é', 'b'] span).isSome) ∧
      m.IsClosed a ∧
      (expand [] (some m) (a ++ ['$', '<', 'é', '>'] ++ ['$', '2'])).result =
        (expand [] (some m) (a ++ ['$', '1'] ++ ['$', '2'])).result ∧
      (expand [] (some m) (a ++ ['$', '<', 'n', '>'] ++ ['$', '2'])).result =
        some ['$', '$', '<', 'x', '$', '<', 'n', '>', 'b'] ∧
      (expand [] (some m) (a ++ ['$', '3'] ++ ['$', '2'])).result =
        some ['$', '$', '<', 'x', '$', '3', 'b'] := by
  intro groupNames captures m a
  have hdistinct : (groupNames.filterMap id).Nodup := by decide
  have hplain : ∀ name, some name ∈ groupNames → '>' ∉ name ∧ '$' ∉ name := by
    intro name hmem
    have hname : name = ['é'] ∨ name = ['n'] := by simpa [groupNames] using hmem
    rcases hname with rfl | rfl
    · decide
    · decide
  have hslices : ∀ span ∈ captures.filterMap id, (Text.slice? ['a', 'é', 'b'] span).isSome := by
    decide
  have hclosed : m.IsClosed a := by decide
  have hfirst : groupNames[((0 : Fin 9) : Nat) + 1]? = some (some ['é']) := rfl
  have hthird : groupNames[((2 : Fin 9) : Nat) + 1]? = some (some ['n']) := rfl
  obtain ⟨_, _, -, -, htook, -⟩ :=
    expand_name_eq_expand_number hdistinct hplain hslices hfirst hclosed [] ['$', '2']
  obtain ⟨_, -, hsame, -⟩ := htook rfl
  obtain ⟨left, right, hleft, hright, -, hmissed⟩ :=
    expand_name_eq_expand_number hdistinct hplain hslices hthird hclosed [] ['$', '2']
  have hleft' : some ['$', '$', '<', 'x'] = some left := hleft
  have hright' : some ['b'] = some right := hright
  obtain rfl := Option.some.inj hleft'
  obtain rfl := Option.some.inj hright'
  exact ⟨hdistinct, hplain, hslices, hclosed, hsame, hmissed rfl⟩

end MatchTemplate
