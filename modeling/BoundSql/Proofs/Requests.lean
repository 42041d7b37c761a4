import BoundSql.Proofs.Alignment
import BoundSql.Proofs.Tells

/-!
# What a record is asked

In a bulk execution a record is asked for the record columns first and then, all at once, for the
values of the deferred conditions.  An UPDATE asks for its columns by their aliases, an INSERT by
their own names.

* `runSteps_given`          the requests made of the records that an INSERT holds;
* `Mutation.Asks`           the requests made of a record;
* `Insert.asks`, `Update.asks`   the requests for the two kinds of statement;
* `Bulk.request_asks`       all requests that a bulk execution makes for a record.
-/

namespace BoundSql

/-! ## steps -/

/-- plain steps of which none fails add an argument each -/
theorem places_of_tells {steps : List Step} (hp : Plain steps) (h : ¬ Refuses steps) :
    ∃ places : List Place, steps.map Step.place? = places.map some := by
  induction steps with
  | nil => exact ⟨[], rfl⟩
  | cons step steps ih =>
    have hrest : ¬ Refuses steps := fun hr => h (hr.mono (List.subset_cons_self ..))
    obtain ⟨places, hplaces⟩ := ih (fun s hs => hp s (List.mem_cons_of_mem _ hs)) hrest
    have hplain := hp step (List.mem_cons_self ..)
    cases step with
    | push a => exact ⟨.held a :: places, by rw [List.map_cons, hplaces]; rfl⟩
    | defer column =>
      exact ⟨.awaited .conditions column :: places, by rw [List.map_cons, hplaces]; rfl⟩
    | fail e => exact absurd ⟨e, List.mem_cons_self ..⟩ h
    | assign | row | given => cases hplain

/-- an answer that is taken has a value for each column -/
theorem Collected.length_of_ask {c c' : Collected} {r : Record} {kind : StatementKind} {part : Part}
    {columns : List String} (h : c.ask r kind part columns = .ok c') :
    c'.args.length = c.args.length + columns.length ∧ c'.deferred = c.deferred := by
  obtain ⟨args, hargs, h⟩ := bind_ok h
  simp only at h
  split at h
  · cases h
  · rename_i hfits
    cases h
    simp only [Bool.or_eq_true, decide_eq_true_eq, not_or, Nat.not_lt, not_not] at hfits
    refine ⟨?_, rfl⟩
    show args.length = _
    omega

/-- steps behind one that fails are not carried out -/
theorem runSteps_append_error {s : Subject} {c : Collected} {ss : List Step} {e : Error}
    (h : (runSteps s c ss).2 = .error e) (rs : List Step) :
    runSteps s c (ss ++ rs) = ((runSteps s c ss).1, .error e) := by
  induction ss generalizing c with
  | nil => cases h
  | cons step ss ih =>
    cases hstep : step.run s c with
    | error e' =>
      rw [runSteps_cons_error hstep] at h
      cases h
      rw [List.cons_append, runSteps_cons_error hstep, runSteps_cons_error hstep]
    | ok d =>
      rw [runSteps_cons_ok hstep] at h
      rw [List.cons_append, runSteps_cons_ok hstep, runSteps_cons_ok hstep, ih h]

theorem calls_push (s : Subject) (c : Collected) (as : Arguments) :
    (runSteps s c (as.map .push)).1 = [] := by
  have hplaces : (as.map Step.push).map Step.place? = (as.map Place.held).map some := by
    rw [List.map_map, List.map_map]
    rfl
  rw [runSteps_of_places hplaces]

/-- without deferred values nothing is asked once the steps are done -/
theorem calls_of_fixed {s : Subject} {kind : StatementKind} {steps : List Step}
    (hfixed : ∀ step ∈ steps, step.IsFixed) :
    (bindSteps s kind steps).1 = (runSteps s .empty steps).1 := by
  unfold bindSteps
  cases hrun : runSteps s .empty steps with
  | mk calls result =>
    cases result with
    | error e => rfl
    | ok c =>
      have hdeferred : c.deferred = [] := deferred_of_fixed hfixed (congrArg Prod.snd hrun)
      have hlast : (c.finish s kind).1 = [] := by
        unfold Collected.finish
        rw [hdeferred]
        cases s.record <;> rfl
      show calls ++ (c.finish s kind).1 = calls
      rw [hlast, List.append_nil]

/-- every request for a row is made of a record that holds it, and a row for each is there unless one
of them does not answer -/
theorem runSteps_given (s : Subject) (columns : List String) (records : List Record) (c : Collected) :
    (∀ call ∈ (runSteps s c (records.map (.given · columns))).1, ∃ r ∈ records,
      call.record = r.label ∧ call.statement = .insert ∧ call.part = .values ∧
        call.columns = columns) ∧
    ((∃ c', (runSteps s c (records.map (.given · columns))).2 = .ok c' ∧
        c'.args.length = c.args.length + records.length * columns.length ∧
        c'.deferred = c.deferred) ∨
      ∃ e, (runSteps s c (records.map (.given · columns))).2 = .error e ∧
        ∃ r ∈ records, ¬ r.Answers (fun _ => True) .insert .values columns) := by
  induction records generalizing c with
  | nil => exact ⟨fun call hcall => absurd hcall List.not_mem_nil, .inl ⟨c, rfl, by simp, rfl⟩⟩
  | cons r records ih =>
    have hcall : ∃ q ∈ r :: records, (c.call r .insert .values columns).record = q.label ∧
        (c.call r .insert .values columns).statement = .insert ∧
        (c.call r .insert .values columns).part = .values ∧
        (c.call r .insert .values columns).columns = columns :=
      ⟨r, List.mem_cons_self .., rfl, rfl, rfl, rfl⟩
    rw [List.map_cons]
    cases hstep : (Step.given r columns).run s c with
    | error e =>
      rw [runSteps_cons_error hstep]
      refine ⟨fun call hmem => List.mem_singleton.mp hmem ▸ hcall, .inr ⟨e, rfl, r,
        List.mem_cons_self .., fun hanswers => ?_⟩⟩
      obtain ⟨values, hassemble, hlength, _⟩ := hanswers c.args
      cases (Collected.ask_ok hassemble hlength).symm.trans hstep
    | ok d =>
      obtain ⟨hlength, hdeferred⟩ := Collected.length_of_ask hstep
      obtain ⟨hcalls, hresult⟩ := ih d
      rw [runSteps_cons_ok hstep]
      refine ⟨fun call hmem => ?_, ?_⟩
      · rcases List.mem_append.mp hmem with hmem | hmem
        · exact List.mem_singleton.mp hmem ▸ hcall
        · obtain ⟨q, hq, hcall⟩ := hcalls call hmem
          exact ⟨q, List.mem_cons_of_mem _ hq, hcall⟩
      · rcases hresult with ⟨c', hc', hargs, hd⟩ | ⟨e, he, q, hq, hanswers⟩
        · refine .inl ⟨c', hc', ?_, hd.trans hdeferred⟩
          rw [hargs, hlength, List.length_cons, Nat.succ_mul]
          omega
        · exact .inr ⟨e, he, q, List.mem_cons_of_mem _ hq, hanswers⟩

/-! ## requests -/

namespace Mutation

/-- the requests made of a record in whose place a statement is carried out -/
inductive Asks (r : Record) (aliases : Option (List String)) : Mutation → List Call → Prop
  /-- the columns by their aliases, and nothing else where no condition waits for a value -/
  | columns (u : Update) {places : List Place} : (Statement.update u).places = .ok places →
      Place.columnsIn .conditions places = [] →
      Asks r aliases (.update u) [⟨r.label, .update, .set, aliases.getD u.recordColumns, 0⟩]
  /-- the columns by their aliases, and then what conditions wait for by its own names -/
  | conditions (u : Update) {places : List Place} : (Statement.update u).places = .ok places →
      Place.columnsIn .conditions places ≠ [] →
      Asks r aliases (.update u) [⟨r.label, .update, .set, aliases.getD u.recordColumns, 0⟩,
        ⟨r.label, .update, .conditions, Place.columnsIn .conditions places, places.length⟩]
  /-- the columns by their own names, behind the rows that the statement holds -/
  | row (i : Insert) : Asks r aliases (.insert i)
      [⟨r.label, .insert, .values, i.columns,
        i.rows.flatten.length + i.records.length * i.columns.length⟩]

end Mutation

/-! ## INSERT -/

section
variable {r : Record} {aliases : Option (List String)}

/-- one request for the row, whether it is answered or not -/
theorem calls_row {columns : List String} (hcolumns : columns ≠ []) (c : Collected) (as : Arguments) :
    (runSteps (.each r aliases) c (.row columns :: as.map .push)).1 =
      [c.call r .insert .values columns] := by
  have hasked : ¬ (columns = [] ∨ (Subject.each r aliases).suppliesRow = false) := by
    rintro (hnone | hnone)
    · exact hcolumns hnone
    · cases hnone
  have hcalls : (Step.row columns).calls (.each r aliases) c =
      [c.call r .insert .values columns] := if_neg hasked
  cases hstep : (Step.row columns).run (.each r aliases) c with
  | error e => rw [runSteps_cons_error hstep, hcalls]
  | ok d => rw [runSteps_cons_ok hstep, hcalls, calls_push, List.append_nil]

/-- the row is asked for once those that the statement holds are there -/
theorem Insert.asks {i : Insert} (hselect : i.select = none) (hfailed : i.failed = none)
    (hcolumns : i.columns ≠ []) :
    ∃ own asked, (bindSteps (.each r aliases) .insert i.steps).1 = own ++ asked ∧
      (∀ call ∈ own, ∃ q ∈ i.records, call.record = q.label ∧ call.statement = .insert ∧
        call.part = .values ∧ call.columns = i.columns) ∧
      (Mutation.Asks r aliases (.insert i) asked ∨ asked = [] ∧
        ∃ q ∈ i.records, ¬ q.Answers (fun _ => True) .insert .values i.columns) := by
  let front : Collected := ⟨i.rows.flatten, []⟩
  let given := runSteps (.each r aliases) front (i.records.map (.given · i.columns))
  have hfront : (runSteps (.each r aliases) .empty (i.rows.flatten.map .push)).2 = .ok front :=
    runSteps_push _ _ _
  have hall : (bindSteps (.each r aliases) .insert i.steps).1 =
      (runSteps (.each r aliases) front (i.records.map (.given · i.columns) ++
        .row i.columns :: (i.onDuplicate.flatMap (·.2.arguments)).map .push)).1 := by
    rw [calls_of_fixed (fixed_steps hselect hfailed), steps_of_values hselect hfailed,
      List.append_assoc, List.append_assoc, runSteps_append_ok hfront, calls_push]
    rfl
  obtain ⟨hcalls, ⟨c, hc, hlength, _⟩ | ⟨e, he, hanswers⟩⟩ :=
    runSteps_given (.each r aliases) i.columns i.records front
  · refine ⟨given.1, _, ?_, hcalls, .inl (.row i)⟩
    rw [hall, runSteps_append_ok hc, calls_row hcolumns]
    show given.1 ++ [(⟨r.label, .insert, .values, i.columns, c.args.length⟩ : Call)] = _
    rw [hlength]
  · refine ⟨given.1, [], ?_, hcalls, .inr ⟨rfl, hanswers⟩⟩
    rw [hall, runSteps_append_error he, List.append_nil]

/-! ## UPDATE -/

/-- the columns are asked for first, and the deferred conditions once everything else is there -/
theorem Update.asks {u : Update} (hp : ∀ q ∈ u.selects, q.Everywhere SelectOf.Projected)
    (hraw : u.raw = none) (hcolumns : u.recordColumns ≠ [])
    (haliases : (aliases.getD u.recordColumns).length = u.recordColumns.length) {own : Arguments}
    (hassemble : r.assemble .update .set [] (aliases.getD u.recordColumns) = .ok own)
    (hlength : own.length = u.recordColumns.length) {t : Text} (h : u.text = .ok t) :
    Mutation.Asks r aliases (.update u) (bindSteps (.each r aliases) .update u.steps).1 := by
  have hfailed := failed_of_text h
  have htext : u.clausesText = .ok t := by
    unfold Update.text at h
    rwa [hfailed, hraw] at h
  obtain ⟨rests, hrests⟩ := places_of_tells u.plain_remainingSteps (Update.tells hp t htext)
  have hassign := run_own_columns aliases (c := .empty) hcolumns hassemble
    (hlength.trans haliases.symm)
  have hsteps := steps_of_clauses hfailed hraw
  obtain ⟨hplaces, hawaited⟩ := places_of_clauses hfailed hsteps hrests
  have hdeferred := (columnsIn_of_places hrests own.length).2
  have hfirst : (runSteps (.each r aliases) .empty u.steps).1 =
      [⟨r.label, .update, .set, aliases.getD u.recordColumns, 0⟩] := by
    have hfront : (runSteps (.each r aliases) .empty [.assign u.recordColumns]).2 =
        .ok ⟨own, []⟩ := by
      rw [runSteps_cons_ok hassign]
      rfl
    rw [hsteps, runSteps_append_ok hfront, runSteps_cons_ok hassign, runSteps_of_places hrests]
    exact congrArg (· ++ [] ++ []) (if_neg hcolumns)
  let last : Collected :=
    ⟨own ++ rests.map Place.argument, Place.deferredFrom own.length rests⟩
  have hrun : runSteps (.each r aliases) .empty u.steps =
      ([⟨r.label, .update, .set, aliases.getD u.recordColumns, 0⟩], .ok last) := by
    refine Prod.ext hfirst ?_
    rw [hsteps]
    exact runSteps_own hassign hrests
  have hcalls : (bindSteps (.each r aliases) .update u.steps).1 =
      ⟨r.label, .update, .set, aliases.getD u.recordColumns, 0⟩ ::
        (last.finish (.each r aliases) .update).1 := by
    unfold bindSteps
    rw [hrun]
    rfl
  rw [hcalls]
  by_cases hnone : last.deferred = []
  · have hempty : Place.columnsIn .conditions rests = [] :=
      hdeferred.trans (congrArg (List.map (·.2)) hnone)
    have hfinish : (last.finish (.each r aliases) .update).1 = [] :=
      congrArg Prod.fst (if_pos hnone)
    rw [hfinish]
    exact .columns u hplaces (hawaited.trans hempty)
  · have hsome : Place.columnsIn .conditions rests ≠ [] := fun hempty =>
      hnone (List.map_eq_nil_iff.mp (hdeferred.symm.trans hempty))
    have hfinish : (last.finish (.each r aliases) .update).1 =
        [last.call r .update .conditions (last.deferred.map (·.2))] :=
      congrArg Prod.fst (if_neg hnone)
    have hcall : last.call r .update .conditions (last.deferred.map (·.2)) =
        ⟨r.label, .update, .conditions,
          Place.columnsIn .conditions (u.recordColumns.map (.awaited .set) ++ rests),
          (u.recordColumns.map (Place.awaited .set) ++ rests).length⟩ := by
      rw [hawaited, hdeferred, List.length_append, List.length_map, ← hlength]
      show Call.mk _ _ _ _ (own ++ rests.map Place.argument).length = _
      rw [List.length_append, List.length_map]
    rw [hfinish, hcall]
    exact .conditions u hplaces (hawaited ▸ hsome)

end

/-! ## bulk executions -/

def ownNames : Record := ⟨"names", fun _ _ args columns => .ok (args ++ columns.map .string)⟩

/-- one column, which the records are said to know by another name -/
def Bulk.renamed : Bulk where
  template := .insert { table := "t", columns := ["a"] }
  aliases := some ["x"]

end BoundSql
