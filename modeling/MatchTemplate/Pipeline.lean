import MatchTemplate.Replacement.Basic

/-!
# Operations one after another

An operation takes the findings of a search, unless the pattern could not be
used, and a template.  In a pipeline each operation works on the text that the
ones before it left (`getElem?_runAll`): the text changes when an operation
yields one, and stays when it yields none or fails.  A stage is idle when its
search failed or found nothing; then it reports nothing and leaves the text as
it is (`run_of_isIdle`), so the stages behind it work as they would without it
(`runAll_append_of_isIdle`).
-/

namespace MatchTemplate

/-- Why an operation has no outcome. -/
inductive Error where
  /-- The pattern is not valid, for the given reason. -/
  | pattern (reason : Text)
deriving DecidableEq, Repr

/-- The wording of an error. -/
def Error.message : Error → Text
  | pattern reason => "failed to compile pattern: ".toList ++ reason

/-- An error tells its reason. -/
theorem Error.message_injective {e e' : Error} (h : e.message = e'.message) : e = e' := by
  cases e with
  | pattern reason =>
      cases e' with
      | pattern reason' => rw [List.append_cancel_left h]

/-- What can be done with the findings of a search. -/
inductive Operation where
  | expandFirst
  | replaceFirst
  | replaceAll
deriving DecidableEq, Repr

/-- What an operation yields. -/
inductive Outcome where
  /-- An expansion, if there was a match. -/
  | expanded (text? : Option Text)
  /-- A source with some of its matches replaced. -/
  | replaced (replacement : Replacement)
deriving DecidableEq, Repr

/-- The text that an operation yields, if any. -/
def Outcome.text? : Outcome → Option Text
  | expanded text? => text?
  | replaced replacement => some replacement.text

/-- Carries out an operation on a source. -/
def Operation.run (operation : Operation) (source : Text) (findings : Findings)
    (template : Text) : Logged Outcome :=
  match operation with
  | expandFirst => (MatchTemplate.expandFirst source findings template).map .expanded
  | replaceFirst => (MatchTemplate.replaceFirst source findings template).map .replaced
  | replaceAll => (MatchTemplate.replaceAll source findings template).map .replaced

/-- One operation of a pipeline, with what the search for its pattern reported. -/
structure Stage where
  operation : Operation
  search : Except Error Findings
  template : Text

namespace Stage

/-- Carries out the operation, unless the search failed. -/
def run (stage : Stage) (source : Text) : Logged (Except Error Outcome) :=
  match stage.search with
  | .error e => ⟨.error e, []⟩
  | .ok findings => (stage.operation.run source findings stage.template).map .ok

/-- The text on which the next operation works. -/
def textAfter (source : Text) (outcome : Except Error Outcome) : Text :=
  (outcome.toOption.bind Outcome.text?).getD source

/-- The answers of a pipeline, one for each of its stages. -/
def runAll (source : Text) : List Stage → List (Logged (Except Error Outcome))
  | [] => []
  | stage :: rest =>
      let answer := stage.run source
      answer :: runAll (textAfter source answer.result) rest

/-- The text that a pipeline leaves. -/
def textAfterAll (source : Text) (stages : List Stage) : Text :=
  stages.foldl (fun text stage => textAfter text (stage.run text).result) source

/-- The search of the stage failed or found nothing. -/
def IsIdle (stage : Stage) : Prop :=
  ∀ findings ∈ stage.search.toOption, findings.captures = []

instance (stage : Stage) : Decidable stage.IsIdle :=
  inferInstanceAs (Decidable (∀ findings ∈ stage.search.toOption, findings.captures = []))

/-! ### One stage -/

/-- A stage fails exactly where its search does, and for the same reason. -/
theorem result_run_eq_error_iff {stage : Stage} {source : Text} {e : Error} :
    (stage.run source).result = .error e ↔ stage.search = .error e := by
  unfold run
  cases stage.search with
  | error e' => simp
  | ok findings => simp [Logged.map]

/-- An idle stage reports nothing and leaves the text as it is. -/
theorem run_of_isIdle {stage : Stage} (h : stage.IsIdle) (source : Text) :
    (stage.run source).notices = [] ∧ textAfter source (stage.run source).result = source := by
  unfold run
  cases hsearch : stage.search with
  | error e => exact ⟨rfl, rfl⟩
  | ok findings =>
      have hnone : findings.captures = [] := h findings (by rw [hsearch]; rfl)
      cases hoperation : stage.operation with
      | expandFirst =>
          simp only [Operation.run, expandFirst_of_captures_eq_nil hnone]
          exact ⟨rfl, rfl⟩
      | replaceFirst =>
          simp only [Operation.run, replaceFirst, replaceUpTo_of_captures_eq_nil hnone]
          exact ⟨rfl, rfl⟩
      | replaceAll =>
          simp only [Operation.run, replaceAll, replaceUpTo_of_captures_eq_nil hnone]
          exact ⟨rfl, rfl⟩

/-! ### Whole pipelines -/

/-- Every stage works on the text that the stages before it left. -/
theorem getElem?_runAll (source : Text) (stages : List Stage) (i : Nat) :
    (runAll source stages)[i]? =
      stages[i]?.map fun stage => stage.run (textAfterAll source (stages.take i)) := by
  induction stages generalizing source i with
  | nil => rfl
  | cons stage rest ih =>
      cases i with
      | zero => rfl
      | succ i =>
          rw [runAll, List.getElem?_cons_succ, List.getElem?_cons_succ, ih]
          rfl

theorem runAll_append (source : Text) (front back : List Stage) :
    runAll source (front ++ back) =
      runAll source front ++ runAll (textAfterAll source front) back := by
  induction front generalizing source with
  | nil => rfl
  | cons stage rest ih =>
      rw [List.cons_append, runAll, runAll, ih]
      rfl

/-- Idle stages leave the text as it is. -/
theorem textAfterAll_of_isIdle {stages : List Stage} (h : ∀ stage ∈ stages, stage.IsIdle)
    (source : Text) : textAfterAll source stages = source := by
  induction stages with
  | nil => rfl
  | cons stage rest ih =>
      obtain ⟨hstage, hrest⟩ := List.forall_mem_cons.1 h
      have hsame := (run_of_isIdle hstage source).2
      show textAfterAll (textAfter source (stage.run source).result) rest = source
      rw [hsame]
      exact ih hrest

/-- Stages behind idle ones work as they would without them. -/
theorem runAll_append_of_isIdle {front : List Stage} (h : ∀ stage ∈ front, stage.IsIdle)
    (source : Text) (back : List Stage) :
    runAll source (front ++ back) = runAll source front ++ runAll source back := by
  rw [runAll_append, textAfterAll_of_isIdle h]

end Stage

end MatchTemplate
