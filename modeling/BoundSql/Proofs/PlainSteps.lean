import BoundSql.Proofs.Nesting
import BoundSql.Statement

/-!
# The steps of a statement

Only the beginning of a statement's steps asks records for values: the assignments of an UPDATE, or
the rows of an INSERT.  All other steps add a known argument or a marker.

* `Step.IsPlain`               a step that asks no record;
* `Step.IsFixed`               a step that does the same whoever the steps are carried out for;
* `Select.plain_steps`         a SELECT has plain steps only;
* `Statement.steps_eq_append`  the steps of a statement of any kind.
-/

namespace BoundSql

namespace Step

/-- a known argument, a marker for a deferred value, or a failure -/
def IsPlain : Step → Prop
  | .push _ | .defer _ | .fail _ => True
  | _ => False

/-- a known argument, a row of a record that the statement holds, or a row that nobody supplies -/
def IsFixed : Step → Prop
  | .push _ | .given _ _ | .row _ => True
  | _ => False

theorem IsPlain.within {step : Step} (h : step.IsPlain) (place : String) :
    (step.within place).IsPlain := by
  cases step <;> exact h

end Step

def Plain (steps : List Step) : Prop := ∀ step ∈ steps, step.IsPlain

theorem plain_nil : Plain [] := by
  intro step h
  cases h
theorem plain_singleton {step : Step} (h : step.IsPlain) : Plain [step] := by
  intro other hother
  rw [List.mem_singleton.mp hother]
  exact h
theorem Plain.append {ss rs : List Step} (hs : Plain ss) (hr : Plain rs) : Plain (ss ++ rs) := by
  intro step h
  rcases List.mem_append.mp h with h | h
  · exact hs step h
  · exact hr step h
theorem plain_flatMap {α : Type} {as : List α} {f : α → List Step} (h : ∀ a ∈ as, Plain (f a)) :
    Plain (as.flatMap f) := by
  intro step hstep
  obtain ⟨a, ha, hstep⟩ := List.mem_flatMap.mp hstep
  exact h a ha step hstep
theorem plain_push (as : Arguments) : Plain (as.map .push) := by
  intro step h
  obtain ⟨a, _, rfl⟩ := List.mem_map.mp h
  trivial
theorem Plain.within {ss : List Step} (h : Plain ss) (place : String) :
    Plain (ss.map (·.within place)) := by
  intro step hstep
  obtain ⟨inner, hinner, rfl⟩ := List.mem_map.mp hstep
  exact (h inner hinner).within place

/-! ## SELECT -/

theorem ConditionOf.plain_operandSteps {op : Option Operator} {n : Nat} {step : Step}
    (h : step.IsPlain) : Plain (operandSteps op n step) := by
  unfold operandSteps
  split
  · exact plain_singleton trivial
  · split
    · exact plain_singleton h
    · exact plain_nil

theorem ConditionOf.plain_steps {c : ConditionOf (List Step)}
    (h : ∀ ss, c.subselect = some ss → Plain ss) : Plain c.steps := by
  unfold steps
  split
  · split
    · split
      · exact plain_operandSteps trivial
      · exact plain_nil
    · exact plain_push _
  · split
    · rename_i select hselect
      exact (h select hselect).within _
    · split
      · exact plain_operandSteps trivial
      · split
        · exact plain_operandSteps trivial
        · exact plain_nil
  · exact plain_nil

theorem plain_clauseSteps {clause : Clause} {cs : List (ConditionOf (List Step))}
    (h : ∀ ss ∈ subselects cs, Plain ss) : Plain (clauseSteps clause cs) := by
  induction cs with
  | nil => exact plain_nil
  | cons c cs ih =>
    have hrest := ih fun ss hss => h ss
      (subselects_append [c] cs ▸ List.mem_append_right (subselects [c]) hss)
    have hc : Plain c.steps :=
      ConditionOf.plain_steps fun ss hss => h ss (mem_subselects (List.mem_cons_self ..) hss)
    unfold clauseSteps
    split
    · split
      · exact plain_nil
      · exact hrest
    · exact hrest
    · exact hrest
    · exact hc.append hrest

theorem SelectOf.plain_steps {s : SelectOf (List Step)} (h : ∀ ss ∈ s.nested, Plain ss) :
    Plain s.steps := by
  unfold steps
  split
  · exact plain_singleton trivial
  · exact plain_push _
  · have hcolumns : Plain (s.columns.flatMap ConditionOf.steps) := plain_flatMap fun c hc =>
      ConditionOf.plain_steps fun ss hss => h ss (mem_nested_of_columns (mem_subselects hc hss))
    have hderived : Plain (s.derived.getD []) := by
      cases hd : s.derived with
      | none => exact plain_nil
      | some ss => exact h ss (mem_nested_of_derived hd)
    have hjoins : Plain (s.joins.flatMap fun j => clauseSteps .join j.on) := plain_flatMap fun j hj =>
      plain_clauseSteps fun ss hss => h ss (mem_nested_of_join hj hss)
    have hwheres : Plain (clauseSteps .filter s.wheres) :=
      plain_clauseSteps fun ss hss => h ss (mem_nested_of_wheres hss)
    have hhavings : Plain (clauseSteps .having s.havings) :=
      plain_clauseSteps fun ss hss => h ss (mem_nested_of_havings hss)
    exact (((hcolumns.append hderived).append hjoins).append hwheres).append hhavings

theorem Select.plain_steps (s : Select) : Plain s.steps := by
  induction s using nested_induction with
  | h s ih =>
    rw [steps_mk]
    refine SelectOf.plain_steps fun ss hss => ?_
    rw [SelectOf.nested_map] at hss
    obtain ⟨t, ht, rfl⟩ := List.mem_map.mp hss
    exact ih t ht

/-! ## statements -/

theorem plain_clause (clause : Clause) (cs : List Condition) : Plain (clause.steps cs) := by
  refine plain_clauseSteps fun ss hss => ?_
  obtain ⟨c, hc, hss⟩ := List.mem_filterMap.mp hss
  obtain ⟨d, _, rfl⟩ := List.mem_map.mp hc
  obtain ⟨t, _, rfl⟩ := Option.map_eq_some_iff.mp hss
  exact t.plain_steps

theorem Update.plain_assignedSteps (value : Assigned) : Plain (assignedSteps value) := by
  cases value with
  | argument a => exact plain_singleton trivial
  | computed c =>
    refine ConditionOf.plain_steps fun ss hss => ?_
    obtain ⟨t, _, rfl⟩ := Option.map_eq_some_iff.mp hss
    exact t.plain_steps

theorem Insert.plain_onDuplicate (value : OnDuplicate) : Plain (OnDuplicate.steps value) := by
  cases value with
  | inserted => exact plain_nil
  | argument a => exact plain_singleton trivial
  | expression sql args => exact plain_push args

theorem Union.plain_steps (u : Union) : Plain u.steps := by
  have hmembers : ∀ (ss : List Select) (i : Nat), Plain (memberSteps i ss) := by
    intro ss
    induction ss with
    | nil =>
      intro i
      exact plain_nil
    | cons s ss ih =>
      intro i
      exact (s.plain_steps.within _).append (ih (i + 1))
  unfold steps
  split
  · exact plain_singleton trivial
  · exact hmembers u.members 0

theorem Query.plain_steps (q : Query) : Plain q.steps := by
  cases q with
  | select s => exact s.plain_steps
  | union u => exact u.plain_steps

theorem With.plain_steps (w : With) : Plain w.steps := by
  unfold steps
  split
  · exact plain_singleton trivial
  · rename_i query _
    exact (plain_flatMap fun t _ => t.query.plain_steps.within _).append query.plain_steps

/-- assignments of an UPDATE's own columns come first, and so do the rows of an INSERT -/
theorem Statement.steps_eq_append (s : Statement) :
    ∃ front rest, s.steps = front ++ rest ∧ Plain rest ∧
      ((∃ columns, front = [.assign columns]) ∨ ∀ step ∈ front, step.IsFixed) := by
  have hplain : ∀ steps : List Step, Plain steps → ∃ front rest, steps = front ++ rest ∧
      Plain rest ∧ ((∃ columns, front = [.assign columns]) ∨ ∀ step ∈ front, step.IsFixed) :=
    fun steps h => ⟨[], steps, rfl, h, .inr fun step hstep => by cases hstep⟩
  cases s with
  | select s => exact hplain _ s.plain_steps
  | delete d => exact hplain _ (plain_clause .filter d.wheres)
  | union u => exact hplain _ u.plain_steps
  | «with» w => exact hplain _ w.plain_steps
  | update u =>
    show ∃ front rest, u.steps = front ++ rest ∧ _
    unfold Update.steps
    split
    · exact hplain _ (plain_singleton trivial)
    · exact hplain _ (plain_push _)
    · refine ⟨[.assign u.recordColumns], _, rfl, ?_, .inl ⟨_, rfl⟩⟩
      exact (plain_flatMap fun pair _ => Update.plain_assignedSteps pair.2).append
        (plain_clause .filter u.wheres)
  | insert i =>
    show ∃ front rest, i.steps = front ++ rest ∧ _
    unfold Insert.steps
    split
    · exact hplain _ (plain_singleton trivial)
    · have hselect : Plain ((i.select.map Select.steps).getD []) := by
        cases i.select with
        | none => exact plain_nil
        | some select => exact select.plain_steps
      refine ⟨i.rows.flatMap (fun row => row.map .push) ++ i.records.map (.given · i.columns) ++
        [.row i.columns], _, List.append_assoc _ _ _,
        hselect.append (plain_flatMap fun pair _ => Insert.plain_onDuplicate pair.2), .inr ?_⟩
      intro step hstep
      rcases List.mem_append.mp hstep with hstep | hstep
      · rcases List.mem_append.mp hstep with hstep | hstep
        · obtain ⟨row, _, hstep⟩ := List.mem_flatMap.mp hstep
          obtain ⟨a, _, rfl⟩ := List.mem_map.mp hstep
          trivial
        · obtain ⟨r, _, rfl⟩ := List.mem_map.mp hstep
          trivial
      · rw [List.mem_singleton.mp hstep]
        trivial

end BoundSql
