import BoundSql.Proofs.Inclusion
import BoundSql.Proofs.Walk.Update

/-!
# A text tells its arguments

Whatever has a text can also tell its arguments: once the text is written, none of its steps fails.

* `refuses_append`, `refuses_flatMap`, `refuses_within`   where the steps of several pieces fail;
* `Tells`                                  no step fails once the text is there;
* `ConditionOf.tells`, `clause_tells`      a condition and a clause over such sub-selects;
* `Select.tells`                           a SELECT;
* `Update.tells`                           the assignments and the conditions of an UPDATE.

The selected columns must be bare columns or expressions, as every edit checks: of any other column
only the name would be written, while its operand would be among the steps.
-/

namespace BoundSql

/-! ## failing steps -/

theorem not_refuses_nil : ¬ Refuses [] := by
  rintro ⟨e, he⟩
  cases he

theorem refuses_append {ss rs : List Step} : Refuses (ss ++ rs) ↔ Refuses ss ∨ Refuses rs := by
  unfold Refuses
  simp only [List.mem_append, exists_or]

theorem refuses_flatMap {α : Type} {as : List α} {f : α → List Step} :
    Refuses (as.flatMap f) ↔ ∃ a ∈ as, Refuses (f a) := by
  constructor
  · rintro ⟨e, he⟩
    obtain ⟨a, ha, he⟩ := List.mem_flatMap.mp he
    exact ⟨a, ha, e, he⟩
  · rintro ⟨a, ha, e, he⟩
    exact ⟨e, List.mem_flatMap.mpr ⟨a, ha, he⟩⟩

theorem not_refuses_push (as : Arguments) : ¬ Refuses (as.map .push) := by
  rintro ⟨e, he⟩
  obtain ⟨a, _, ha⟩ := List.mem_map.mp he
  cases ha

theorem refuses_within {ss : List Step} {place : String} :
    Refuses (ss.map (·.within place)) ↔ Refuses ss := by
  refine ⟨?_, fun h => h.within place⟩
  rintro ⟨e, he⟩
  obtain ⟨step, hstep, hfail⟩ := List.mem_map.mp he
  cases step with
  | fail e' => exact ⟨e', hstep⟩
  | push | defer | assign | row | given => cases hfail

/-- once the text is there, no step fails -/
def Tells (text : Except Error Text) (steps : List Step) : Prop :=
  ∀ t, text = .ok t → ¬ Refuses steps

/-! ## conditions and clauses -/

namespace ConditionOf

variable {σ : Type}

/-- an operand whose comparison is written has its step, or no placeholder -/
theorem operandSteps_tells {op : Option Operator} {n : Nat} {c : Comparison} {step : Step}
    (h : Comparison.ofOperand op n = .ok c) (hstep : ¬ Refuses [step]) :
    ¬ Refuses (operandSteps op n step) := by
  unfold operandSteps
  rw [h]
  show ¬ Refuses (if 0 < c.slots then [step] else [])
  split
  · exact hstep
  · exact not_refuses_nil

theorem expression_tells (c : ConditionOf σ) : Tells c.expressionText c.expressionSteps := by
  intro t h
  unfold expressionText at h
  unfold expressionSteps
  simp only at h
  split at h
  · rename_i hzero
    rw [if_pos hzero]
    split
    · rename_i a ha
      simp only [ha] at h
      obtain ⟨comparison, hcomparison, _⟩ := bind_ok h
      exact operandSteps_tells hcomparison (not_refuses_push [a])
    · exact not_refuses_nil
  · rename_i hmarks
    rw [if_neg hmarks]
    exact not_refuses_push c.exprArgs

theorem column_tells (c : ConditionOf σ) : Tells c.columnText c.columnSteps := by
  intro t h
  obtain ⟨_, _, h⟩ := bind_ok h
  obtain ⟨comparison, hcomparison, _⟩ := bind_ok h
  unfold operandLength at hcomparison
  unfold columnSteps
  split at hcomparison
  · rename_i hdeferred
    rw [if_pos hdeferred]
    refine operandSteps_tells hcomparison ?_
    rintro ⟨e, he⟩
    cases List.mem_singleton.mp he
  · rename_i hdeferred
    rw [if_neg hdeferred]
    split
    · rename_i a ha
      rw [ha] at hcomparison
      exact operandSteps_tells hcomparison (not_refuses_push [a])
    · exact not_refuses_nil

section
variable {text : σ → Except Error Text} {steps : σ → List Step} {c : ConditionOf σ}
variable (hsub : ∀ s, c.subselect = some s → Tells (text s) (steps s))
include hsub

theorem tells : Tells (c.map text).body (c.map steps).steps := by
  intro t h
  obtain ⟨_, _, h⟩ := bind_ok h
  unfold ConditionOf.steps
  cases hk : c.kind with
  | expression =>
    simp only [ConditionOf.map, hk] at h ⊢
    exact expression_tells c t h
  | column =>
    cases hs : c.subselect with
    | none =>
      simp only [ConditionOf.map, hk, hs] at h ⊢
      exact column_tells c t h
    | some select =>
      simp only [ConditionOf.map, hk, hs, Option.map_some, subselectText_eq] at h ⊢
      obtain ⟨_, _, h⟩ := bind_ok h
      obtain ⟨_, _, h⟩ := bind_ok h
      obtain ⟨inner, hinner, _⟩ := bind_ok h
      rw [refuses_within]
      exact hsub select hs inner (within_eq_ok hinner)
  | groupOpen | groupClose | shared _ =>
    simp only [ConditionOf.map, hk] at h
    cases h

/-- only the name of a selected column is written, and it has no steps -/
theorem projection_tells {lenient : Bool} (hp : c.isProjection) :
    Tells ((c.map text).projection lenient) (c.map steps).steps := by
  intro t h
  by_cases hk : c.kind = .expression
  · rw [projection_eq] at h
    obtain ⟨selected, hselected, _⟩ := bind_ok h
    unfold selectedText at hselected
    rw [if_pos (show (c.map text).kind = .expression from hk)] at hselected
    exact tells hsub selected hselected
  · rw [steps_of_isProjection hp hk]
    exact not_refuses_nil

end

end ConditionOf

section
variable {σ : Type} {text : σ → Except Error Text} {steps : σ → List Step} {clause : Clause}

/-- the members that are written have no failing step, in whatever state the clause stands -/
theorem members_tell {g : Grouping} {cs : List (ConditionOf σ)}
    (hsub : ∀ c ∈ cs, ∀ s, c.subselect = some s → Tells (text s) (steps s)) :
    Tells (itemsText clause g ((cs.map (·.map text)).map ConditionOf.item))
      (clauseSteps clause (cs.map (·.map steps))) := by
  induction cs generalizing g with
  | nil => exact fun _ _ => not_refuses_nil
  | cons c cs ih =>
    have ih := fun g => @ih g fun d hd => hsub d (List.mem_cons_of_mem _ hd)
    intro t h
    simp only [List.map_cons] at h ⊢
    unfold clauseSteps
    obtain ⟨rest, ⟨hleaf, hrest, body, hbody, -⟩ | ⟨hk, hrest, -⟩ | ⟨hk, -, -, hrest, -⟩⟩ :=
      itemsText_cons_inv h
    · have hc := ConditionOf.tells (hsub c (List.mem_cons_self ..)) body hbody
      have hboth : ¬ Refuses ((c.map steps).steps ++ clauseSteps clause (cs.map (·.map steps))) :=
        fun hr => (refuses_append.mp hr).elim hc (ih _ rest hrest)
      rcases hleaf with hk | hk
      · rw [show (c.map steps).kind = .column from hk]
        exact hboth
      · rw [show (c.map steps).kind = .expression from hk]
        exact hboth
    · rw [show (c.map steps).kind = .groupOpen from hk]
      exact ih _ rest hrest
    · rw [show (c.map steps).kind = .groupClose from hk]
      exact ih _ rest hrest

theorem clause_tells {cs : List (ConditionOf σ)}
    (hsub : ∀ c ∈ cs, ∀ s, c.subselect = some s → Tells (text s) (steps s)) :
    Tells (clauseText clause (cs.map (·.map text))) (clauseSteps clause (cs.map (·.map steps))) := by
  intro t h
  cases cs with
  | nil => exact not_refuses_nil
  | cons c cs =>
    by_cases hj : c.EndsJoin clause
    · rw [List.map_cons, clauseSteps_of_endsJoin (c := c.map steps) hj]
      exact not_refuses_nil
    · rw [List.map_cons, clauseText_of_not_endsJoin (c := c.map text) hj] at h
      obtain ⟨members, hmembers, _⟩ := bind_ok h
      exact members_tell hsub members hmembers

/-! ## SELECT -/

namespace SelectOf

variable {s : SelectOf σ} (hsub : ∀ q ∈ s.nested, Tells (text q) (steps q))
include hsub

theorem columns_tell (hp : s.Projected) :
    Tells (s.map text).columnsText ((s.map steps).columns.flatMap ConditionOf.steps) := by
  intro t h
  rw [refuses_flatMap]
  rintro ⟨_, hmem, hrefuses⟩
  obtain ⟨c, hc, rfl⟩ := List.mem_map.mp hmem
  have hsome : (s.map text).columns.isEmpty = false := by
    rw [List.isEmpty_eq_false_iff]
    exact List.ne_nil_of_mem (List.mem_map_of_mem hc)
  unfold columnsText at h
  rw [hsome, if_neg Bool.false_ne_true] at h
  obtain ⟨texts, htexts, _⟩ := bind_ok h
  obtain ⟨column, hcolumn⟩ := ok_of_mapM htexts (c.map text) (List.mem_map_of_mem hc)
  refine ConditionOf.projection_tells (fun q hq => hsub q ?_) (hp c hc) column hcolumn hrefuses
  exact mem_nested_of_columns (mem_subselects hc hq)

theorem derived_tells : Tells (s.map text).sourceText ((s.map steps).derived.getD []) := by
  intro t h
  unfold sourceText at h
  cases hd : s.derived with
  | none =>
    rw [show (s.map steps).derived = none from congrArg (Option.map steps) hd]
    exact not_refuses_nil
  | some q =>
    rw [show (s.map text).derived = some (text q) from congrArg (Option.map text) hd] at h
    rw [show (s.map steps).derived = some (steps q) from congrArg (Option.map steps) hd]
    obtain ⟨inner, hinner, _⟩ := bind_ok h
    exact hsub q (mem_nested_of_derived hd) inner (within_eq_ok hinner)

theorem joins_tell {ts : List Text} (h : (s.map text).joins.mapM JoinOf.text = .ok ts) :
    ¬ Refuses ((s.map steps).joins.flatMap fun j => clauseSteps .join j.on) := by
  rw [refuses_flatMap]
  rintro ⟨_, hmem, hrefuses⟩
  obtain ⟨j, hj, rfl⟩ := List.mem_map.mp hmem
  obtain ⟨_, hjoin⟩ := ok_of_mapM h (j.map text) (List.mem_map_of_mem hj)
  obtain ⟨_, _, hjoin⟩ := bind_ok hjoin
  obtain ⟨_, _, hjoin⟩ := bind_ok hjoin
  obtain ⟨on, hon, _⟩ := bind_ok hjoin
  refine clause_tells (fun c hc q hq => hsub q ?_) on hon hrefuses
  exact mem_nested_of_join hj (mem_subselects hc hq)

theorem tells (hp : s.Projected) : Tells (s.map text).text (s.map steps).steps := by
  intro t h
  unfold SelectOf.text at h
  unfold SelectOf.steps
  split at h
  · cases h
  · rename_i sql args hfailed hraw
    rw [show (s.map steps).failed = none from hfailed, show (s.map steps).raw = some _ from hraw]
    exact not_refuses_push args
  · rename_i hfailed hraw
    rw [show (s.map steps).failed = none from hfailed, show (s.map steps).raw = none from hraw]
    obtain ⟨columns, hcolumns, h⟩ := bind_ok h
    obtain ⟨source, hsource, h⟩ := bind_ok h
    obtain ⟨joins, hjoins, h⟩ := bind_ok h
    obtain ⟨wheres, hwheres, h⟩ := bind_ok h
    obtain ⟨_, _, h⟩ := bind_ok h
    obtain ⟨havings, hhavings, _⟩ := bind_ok h
    have hcolumns := columns_tell hsub hp columns hcolumns
    have hsource := derived_tells hsub source hsource
    have hjoins := joins_tell hsub hjoins
    have hwheres : ¬ Refuses (clauseSteps .filter (s.map steps).wheres) :=
      clause_tells (fun c hc q hq => hsub q (mem_nested_of_wheres (mem_subselects hc hq)))
        wheres hwheres
    have hhavings : ¬ Refuses (clauseSteps .having (s.map steps).havings) :=
      clause_tells (fun c hc q hq => hsub q (mem_nested_of_havings (mem_subselects hc hq)))
        havings hhavings
    simp only [refuses_append, not_or]
    exact ⟨⟨⟨⟨hcolumns, hsource⟩, hjoins⟩, hwheres⟩, hhavings⟩

end SelectOf

end

theorem Select.tells {s : Select} (hp : s.Everywhere SelectOf.Projected) : Tells s.text s.steps := by
  induction hp with
  | mk s hp _ ih =>
    rw [text_mk, steps_mk]
    exact SelectOf.tells ih hp

/-! ## UPDATE -/

/-- what the record's columns leave to be told -/
theorem Update.tells {u : Update} (hp : ∀ q ∈ u.selects, q.Everywhere SelectOf.Projected) :
    Tells u.clausesText (u.sets.flatMap (fun (_, value) => assignedSteps value) ++
      Clause.steps .filter u.wheres) := by
  intro t h
  obtain ⟨_, _, _, wheres, _, _, _, hsets, hwheres, _⟩ := clausesText_ok h
  obtain ⟨own, _, hsets⟩ := bind_ok hsets
  obtain ⟨others, hothers, _⟩ := bind_ok hsets
  have hassigned : ¬ Refuses (u.sets.flatMap fun pair => assignedSteps pair.2) := by
    rw [refuses_flatMap]
    rintro ⟨⟨column, value⟩, hpair, hrefuses⟩
    obtain ⟨_, hset⟩ := ok_of_mapM hothers _ hpair
    obtain ⟨_, _, hset⟩ := bind_ok hset
    obtain ⟨assigned, hassigned, _⟩ := bind_ok hset
    cases value with
    | argument a => exact not_refuses_push [a] hrefuses
    | computed c =>
      refine ConditionOf.tells (fun q hq => Select.tells (hp q ?_)) assigned hassigned hrefuses
      exact mem_selects_of_sets hpair (mem_subselects (List.mem_singleton_self c) hq)
  have hfilter : ¬ Refuses (Clause.steps .filter u.wheres) := by
    refine clause_tells (fun c hc q hq => Select.tells (hp q ?_)) wheres hwheres
    exact List.mem_append_right _ (mem_subselects hc hq)
  rw [refuses_append, not_or]
  exact ⟨hassigned, hfilter⟩

end BoundSql
