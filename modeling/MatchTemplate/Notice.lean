import MatchTemplate.Text.Quoted

/-!
# Notices

What is done with a template is reported in notices.  A notice is a fact; its
level and its wording are functions of that fact.  A computation that reports
returns its result together with its notices, in the order in which they
arose.  Whatever texts a notice is about, its wording is one line of characters
that can be shown (`isShown_of_mem_message`).
-/

namespace MatchTemplate

/-- How much detail a notice adds. -/
inductive Level where
  | trace
  | debug
deriving DecidableEq, Repr

/-- Fact that is reported. -/
inductive Notice where
  /-- There was no match to expand a template against. -/
  | noMatch
  /-- The template has a `$<` here that names no group that is set; `rest` is
  the template from there on. -/
  | unresolvedName (rest : Text)
  /-- A match was replaced. -/
  | replacedMatch (offset : Nat) (whole : Text)
  /-- The number of matches that were replaced. -/
  | replacedCount (count : Nat)
deriving DecidableEq, Repr

namespace Notice

/-- Single tokens and matches are traced; what concerns a whole call is for
debugging. -/
def level : Notice → Level
  | noMatch => .debug
  | unresolvedName _ => .trace
  | replacedMatch _ _ => .trace
  | replacedCount _ => .debug

/-- The wording of a notice. -/
def message : Notice → Text
  | noMatch => "no match, skipping template expansion".toList
  | unresolvedName rest => "no named group matches at ".toList ++ rest.quoted
  | replacedMatch offset whole =>
      "replaced match at ".toList ++ Nat.toDigits 10 offset ++ ": ".toList ++ whole.quoted
  | replacedCount count =>
      "replaced ".toList ++ Nat.toDigits 10 count ++ " match(es)".toList

/-- A notice as it is recorded. -/
def record (notice : Notice) : Level × Text := (notice.level, notice.message)

theorem isShown_of_mem_toDigits {n : Nat} {d : Char} (h : d ∈ Nat.toDigits 10 n) :
    Text.isShown d := by
  obtain ⟨k, hk, rfl⟩ := Text.exists_digitChar_of_mem_toDigits (by decide) h
  exact (Text.isShown_digitChar k (by omega)).1

/-- No text that a notice is about can break its line or hide in it. -/
theorem isShown_of_mem_message {notice : Notice} {d : Char} (h : d ∈ notice.message) :
    Text.isShown d := by
  cases notice with
  | noMatch =>
      have hwording : ∀ d ∈ noMatch.message, Text.isShown d :=
        List.all_eq_true.1 (by decide)
      exact hwording d h
  | unresolvedName rest =>
      have hwording : ∀ d ∈ "no named group matches at ".toList, Text.isShown d :=
        List.all_eq_true.1 (by decide)
      rcases List.mem_append.1 h with hwords | hquoted
      · exact hwording d hwords
      · exact Text.isShown_of_mem_quoted hquoted
  | replacedMatch offset whole =>
      have hwording : ∀ d ∈ "replaced match at ".toList, Text.isShown d :=
        List.all_eq_true.1 (by decide)
      have hrest : ∀ d ∈ ": ".toList, Text.isShown d :=
        List.all_eq_true.1 (by decide)
      rcases List.mem_append.1 h with hcounted | hquoted
      · rcases List.mem_append.1 hcounted with hoffset | hcolon
        · rcases List.mem_append.1 hoffset with hwords | hdigits
          · exact hwording d hwords
          · exact isShown_of_mem_toDigits hdigits
        · exact hrest d hcolon
      · exact Text.isShown_of_mem_quoted hquoted
  | replacedCount count =>
      have hwording : ∀ d ∈ "replaced ".toList, Text.isShown d :=
        List.all_eq_true.1 (by decide)
      have hrest : ∀ d ∈ " match(es)".toList, Text.isShown d :=
        List.all_eq_true.1 (by decide)
      rcases List.mem_append.1 h with hcounted | hnoun
      · rcases List.mem_append.1 hcounted with hwords | hdigits
        · exact hwording d hwords
        · exact isShown_of_mem_toDigits hdigits
      · exact hrest d hnoun

end Notice

/-- Result of a computation with the notices that led up to it. -/
structure Logged (α : Type) where
  result : α
  notices : List Notice
deriving DecidableEq, Repr

/-- Changes the result and keeps the notices. -/
def Logged.map {α β : Type} (f : α → β) (logged : Logged α) : Logged β where
  result := f logged.result
  notices := logged.notices

/-- The records of a computation, in the order of its notices. -/
def Logged.records {α : Type} (logged : Logged α) : List (Level × Text) :=
  logged.notices.map Notice.record

end MatchTemplate
