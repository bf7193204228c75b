import MatchTemplate.Match.Group
import MatchTemplate.Template.Equations

/-!
# The rules of expansion

`Expands` gives the meaning of templates rule by rule, without dividing them
into tokens: a character that is not a sigil is copied, and every kind of
reference has a rule of its own.  The names that a reference may mean are
described by look-ups alone.  `expands_iff` says that the expansion of a
template follows these rules, and that nothing else does.
-/

namespace MatchTemplate

/-- A template, what it expands to, and its texts from each unresolved `$<` to
the end. -/
inductive Expands (m : Match) (source : Text) : Text → Text → List Text → Prop where
  | nil : Expands m source [] [] []
  | copied {c : Char} {t out : Text} {rests : List Text} :
      c ≠ '$' → Expands m source t out rests →
      Expands m source (c :: t) (c :: out) rests
  | atEnd : Expands m source ['$'] ['$'] []
  | doubled {t out : Text} {rests : List Text} :
      Expands m source t out rests →
      Expands m source ('$' :: '$' :: t) ('$' :: out) rests
  | whole {t out : Text} {rests : List Text} :
      Expands m source t out rests →
      Expands m source ('$' :: '&' :: t) (m.whole ++ out) rests
  | before {t out : Text} {rests : List Text} :
      Expands m source t out rests →
      Expands m source ('$' :: '\x60' :: t) (m.before source ++ out) rests
  | after {t out : Text} {rests : List Text} :
      Expands m source t out rests →
      Expands m source ('$' :: '\x27' :: t) (m.after source ++ out) rests
  | slot {index : Fin 9} {text t out : Text} {rests : List Text} :
      m.slot? (index + 1) = some text → Expands m source t out rests →
      Expands m source ('$' :: Token.slotDigit index :: t) (text ++ out) rests
  | emptySlot {index : Fin 9} {t out : Text} {rests : List Text} :
      m.slot? (index + 1) = none → Expands m source t out rests →
      Expands m source ('$' :: Token.slotDigit index :: t)
        ('$' :: Token.slotDigit index :: out) rests
  | named {name text t out : Text} {rests : List Text} :
      m.table.IsLongest name (name ++ '>' :: t) → m.value? name = some text →
      Expands m source t out rests →
      Expands m source ('$' :: '<' :: (name ++ '>' :: t)) (text ++ out) rests
  | unresolved {t out : Text} {rests : List Text} :
      (∀ name, m.table.IsLongest name t → m.value? name = none) →
      Expands m source t out rests →
      Expands m source ('$' :: '<' :: t) ('$' :: '<' :: out) (('$' :: '<' :: t) :: rests)
  | other {c : Char} {t out : Text} {rests : List Text} :
      c ∉ Token.referenceChars → Expands m source (c :: t) out rests →
      Expands m source ('$' :: c :: t) ('$' :: out) rests

namespace Expands

variable {m : Match} {source : Text}

/-- Whatever the rules derive is the expansion. -/
theorem eq_expansion {t out : Text} {rests : List Text} (h : Expands m source t out rests) :
    m.expansion source t = out ∧ m.unresolved t = rests := by
  induction h with
  | nil => exact ⟨rfl, rfl⟩
  | copied hc _ ih =>
      obtain ⟨hout, hrests⟩ := m.expansion_cons_of_ne source hc _
      exact ⟨by rw [hout, ih.1], by rw [hrests, ih.2]⟩
  | atEnd =>
      have hread : Token.read m ['$'] = Token.loneSigil :: Token.read m [] := Token.read_atEnd m
      exact m.expansion_of_read source hread
  | doubled _ ih =>
      obtain ⟨rfl, rfl⟩ := ih
      exact m.expansion_of_read source (Token.read_doubled m _)
  | whole _ ih =>
      obtain ⟨rfl, rfl⟩ := ih
      exact m.expansion_of_read source (Token.read_whole m _)
  | before _ ih =>
      obtain ⟨rfl, rfl⟩ := ih
      exact m.expansion_of_read source (Token.read_before m _)
  | after _ ih =>
      obtain ⟨rfl, rfl⟩ := ih
      exact m.expansion_of_read source (Token.read_after m _)
  | @slot index text t out rests hset _ ih =>
      obtain ⟨rfl, rfl⟩ := ih
      have hread := Token.read_slot m (Option.isSome_of_eq_some hset) t
      exact Token.value_slot hset source ▸ m.expansion_of_read source hread
  | emptySlot hunset _ ih =>
      obtain ⟨rfl, rfl⟩ := ih
      exact m.expansion_of_read source (Token.read_emptySlot m hunset _)
  | @named name text t out rests hlongest hset _ ih =>
      obtain ⟨rfl, rfl⟩ := ih
      have hresolve : m.table.resolve? (name ++ '>' :: t) = some ⟨name, some text⟩ :=
        (NameTable.resolve?_eq_some_iff_value? _ _ _).2 ⟨hlongest, hset, rfl⟩
      have hread := Token.read_named m (e := ⟨name, some text⟩) hresolve
      exact Token.value_named hset source ▸ m.expansion_of_read source hread
  | unresolved hnone _ ih =>
      obtain ⟨rfl, rfl⟩ := ih
      have hresolve := (NameTable.resolve?_eq_none_iff m.table _).2 hnone
      exact m.expansion_of_read source (Token.read_openBracket m hresolve)
  | other hc _ ih =>
      obtain ⟨rfl, rfl⟩ := ih
      exact m.expansion_of_read source (Token.read_other m hc _)

end Expands

/-- The rules derive an expansion for every template. -/
theorem Match.exists_expands (m : Match) (source : Text) (t : Text) :
    ∃ out rests, Expands m source t out rests := by
  match t with
  | [] => exact ⟨_, _, .nil⟩
  | c :: rest =>
      by_cases hc : c = '$'
      · subst hc
        cases rest with
        | nil => exact ⟨_, _, .atEnd⟩
        | cons d rest =>
            by_cases hd : d ∈ Token.referenceChars
            · -- every kind of reference but a resolved name ends with `d`
              obtain ⟨out, rests, h⟩ := m.exists_expands source rest
              rcases (Token.mem_referenceChars_iff d).1 hd with
                rfl | rfl | rfl | rfl | rfl | ⟨index, rfl⟩
              · exact ⟨_, _, .doubled h⟩
              · exact ⟨_, _, .whole h⟩
              · exact ⟨_, _, .before h⟩
              · exact ⟨_, _, .after h⟩
              · cases hresolve : m.table.resolve? rest with
                | none =>
                    exact ⟨_, _, .unresolved ((NameTable.resolve?_eq_none_iff _ _).1 hresolve) h⟩
                | some e =>
                    obtain ⟨hlongest, hfind, hset⟩ :=
                      (NameTable.resolve?_eq_some_iff _ _ e).1 hresolve
                    obtain ⟨text, htext⟩ := Option.isSome_iff_exists.1 hset
                    obtain ⟨tail, rfl⟩ := hlongest.heads
                    obtain ⟨out', rests', h'⟩ := m.exists_expands source tail
                    have hvalue : m.value? e.name = some text := by
                      simp [Match.value?, NameTable.value?, hfind, htext]
                    exact ⟨_, _, by simpa using .named (by simpa using hlongest) hvalue h'⟩
              · cases hslot : m.slot? (index + 1) with
                | none => exact ⟨_, _, .emptySlot hslot h⟩
                | some text => exact ⟨_, _, .slot hslot h⟩
            · obtain ⟨out, rests, h⟩ := m.exists_expands source (d :: rest)
              exact ⟨_, _, .other hd h⟩
      · obtain ⟨out, rests, h⟩ := m.exists_expands source rest
        exact ⟨_, _, .copied hc h⟩
termination_by t.length

/-- The expansion of a template follows the rules, and nothing else does. -/
theorem expands_iff {m : Match} {source t out : Text} {rests : List Text} :
    Expands m source t out rests ↔
      m.expansion source t = out ∧ m.unresolved t = rests := by
  refine ⟨Expands.eq_expansion, ?_⟩
  rintro ⟨rfl, rfl⟩
  obtain ⟨out, rests, h⟩ := m.exists_expands source t
  obtain ⟨rfl, rfl⟩ := h.eq_expansion
  exact h

example :
    (Match.ofGroups 5 "123".toList [.slot (some "123".toList)]).expansion
      "hello123world".toList "[$1] $$1 $2 $`".toList = "[123] $1 $2 hello".toList := by
  decide

end MatchTemplate
