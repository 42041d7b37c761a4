import BoundSql.Binding
import BoundSql.Proofs.Result

/-!
# Steps carried out one after the other

* `runSteps_append_ok`   the steps of two lists;
* `Yields`               the arguments that steps add behind the ones in front of them;
* `Record.Answers`       a record that keeps the arguments it gets and adds one value for each column;
* `yields_push`, `yields_row`, `yields_assign`   steps that ask no record.
-/

namespace BoundSql

theorem runSteps_append_ok {s : Subject} {c c' : Collected} {ss : List Step}
    (h : (runSteps s c ss).2 = .ok c') (rs : List Step) :
    runSteps s c (ss ++ rs) =
      ((runSteps s c ss).1 ++ (runSteps s c' rs).1, (runSteps s c' rs).2) := by
  induction ss generalizing c with
  | nil =>
    cases h
    rfl
  | cons step ss ih =>
    cases hstep : step.run s c with
    | error e =>
      rw [runSteps_cons_error hstep] at h
      cases h
    | ok d =>
      rw [runSteps_cons_ok hstep] at h
      rw [List.cons_append, runSteps_cons_ok hstep, runSteps_cons_ok hstep, ih h, List.append_assoc]

/-- behind the arguments `before`, the steps succeed and add `new` -/
def Yields (s : Subject) (before : Arguments) (steps : List Step) (new : Arguments) : Prop :=
  ∀ c : Collected, c.args = before →
    ∃ c', (runSteps s c steps).2 = .ok c' ∧ c'.args = before ++ new

section
variable {s : Subject} {before new new' : Arguments} {ss rs : List Step}

theorem yields_nil : Yields s before [] [] := by
  intro c hc
  exact ⟨c, rfl, by rw [hc, List.append_nil]⟩

theorem Yields.append (hs : Yields s before ss new) (hr : Yields s (before ++ new) rs new') :
    Yields s before (ss ++ rs) (new ++ new') := by
  intro c hc
  obtain ⟨d, hd, hdargs⟩ := hs c hc
  obtain ⟨c', hc', hargs⟩ := hr d hdargs
  exact ⟨c', by rw [runSteps_append_ok hd, hc'], by rw [hargs, List.append_assoc]⟩

theorem yields_step {step : Step}
    (h : ∀ c : Collected, c.args = before → ∃ c', step.run s c = .ok c' ∧ c'.args = before ++ new) :
    Yields s before [step] new := by
  intro c hc
  obtain ⟨c', hrun, hargs⟩ := h c hc
  exact ⟨c', by rw [runSteps_cons_ok hrun, runSteps_nil], hargs⟩

theorem yields_push (s : Subject) (before as : Arguments) : Yields s before (as.map .push) as := by
  induction as generalizing before with
  | nil => exact yields_nil
  | cons a as ih =>
    have hstep : Yields s before [.push a] [a] :=
      yields_step fun c hc => ⟨_, rfl, congrArg (· ++ [a]) hc⟩
    exact hstep.append (ih (before ++ [a]))

end

/-! ## records -/

/-- the record keeps the arguments it gets and adds one value for each column -/
def Record.Answers (r : Record) (p : Argument → Prop) (kind : StatementKind) (part : Part)
    (columns : List String) : Prop :=
  ∀ args, ∃ values, r.assemble kind part args columns = .ok (args ++ values) ∧
    values.length = columns.length ∧ ∀ v ∈ values, p v

theorem Collected.ask_ok {c : Collected} {r : Record} {kind : StatementKind} {part : Part}
    {columns : List String} {values : Arguments}
    (h : r.assemble kind part c.args columns = .ok (c.args ++ values))
    (hlength : values.length = columns.length) :
    c.ask r kind part columns = .ok { c with args := c.args ++ values } := by
  have hfits : ¬ (decide ((c.args ++ values).length < c.args.length) ||
      decide ((c.args ++ values).length - c.args.length ≠ columns.length)) = true := by
    simp [hlength]
  unfold Collected.ask
  rw [h]
  exact if_neg hfits

theorem yields_row {s : Subject} (h : s.suppliesRow = false) (before : Arguments)
    (columns : List String) : Yields s before [.row columns] [] := by
  refine yields_step fun c hc => ⟨c, ?_, by rw [hc, List.append_nil]⟩
  exact if_pos (.inr h)

/-- without a record, a marker stands for every column to be set -/
theorem yields_assign {s : Subject} (h : s.record = none) (before : Arguments)
    (columns : List String) : Yields s before [.assign columns] (columns.map fun _ => .pending) := by
  refine yields_step fun c hc => ?_
  by_cases hcolumns : columns = []
  · refine ⟨c, if_pos hcolumns, ?_⟩
    rw [hc, hcolumns]
    exact (List.append_nil _).symm
  · refine ⟨{ c with args := c.args ++ columns.map fun _ => .pending }, ?_, congrArg (· ++ _) hc⟩
    show (if columns = [] then _ else _) = _
    rw [if_neg hcolumns, h]

end BoundSql
