import BoundSql.Proofs.Deferred
import BoundSql.Proofs.Interpolated
import BoundSql.Proofs.Walk.Filled
import BoundSql.Proofs.Walk.Statement

/-!
# The arguments of a record

The text for one record is written by a walk that binds the record's own values between those that
the statement knows.

* `Mutation.Sources`          where each value comes from, in the order of the placeholders;
* `Insert.sources`            rows of the statement, rows of its records, the record's row, and
                              values for rows that are there already;
* `Update.sources`            the record's columns, the other assignments, and conditions, with each
                              deferred value in its own place;
* `Mutation.Answered`         the record answers the requests that are made of it;
* `Bulk.recordArgs_sources`   the arguments of a record are what the walk of its text binds.
-/

namespace BoundSql

open Placeholder

/-! ## steps and records -/

theorem Yields.unique {s : Subject} {before new new' : Arguments} {steps : List Step}
    (h : Yields s before steps new) (h' : Yields s before steps new') : new = new' := by
  obtain ⟨c, hc, hargs⟩ := h ⟨before, []⟩ rfl
  obtain ⟨c', hc', hargs'⟩ := h' ⟨before, []⟩ rfl
  cases hc.symm.trans hc'
  exact List.append_cancel_left (hargs.symm.trans hargs')

theorem Record.Answers.mono {r : Record} {p q : Argument → Prop} {kind : StatementKind}
    {part : Part} {columns : List String} (h : r.Answers p kind part columns)
    (hpq : ∀ a, p a → q a) : r.Answers q kind part columns := fun args =>
  let ⟨values, hassemble, hlength, hvalues⟩ := h args
  ⟨values, hassemble, hlength, fun v hv => hpq v (hvalues v hv)⟩

/-- what a record gave has the property of its answers -/
theorem Record.Gave.forall_mem {r : Record} {p : Argument → Prop} {kind : StatementKind}
    {part : Part} {columns : List String} {values : Arguments} (h : r.Gave kind part columns values)
    (hr : columns ≠ [] → r.Answers p kind part columns) : ∀ v ∈ values, p v := by
  obtain ⟨hlength, hgave⟩ := h
  by_cases hempty : columns = []
  · rw [hempty, List.length_nil, List.length_eq_zero_iff] at hlength
    rw [hlength]
    exact fun _ hv => absurd hv List.not_mem_nil
  · obtain ⟨before, hassemble⟩ := hgave.resolve_left hempty
    obtain ⟨values', hassemble', _, hvalues⟩ := hr hempty before
    rw [List.append_cancel_left (Except.ok.inj (hassemble.symm.trans hassemble'))]
    exact hvalues

theorem forall_suppliedRows {p : Argument → Prop} {columns : List String} {records : List Record}
    (hr : ∀ r ∈ records, r.Answers p .insert .values columns) {before : Arguments}
    {rows : List Arguments} (h : suppliedRows columns before records = .ok rows) :
    ∀ row ∈ rows, ∀ a ∈ row, p a := by
  induction records generalizing before rows with
  | nil =>
    cases h
    exact fun _ hrow => absurd hrow List.not_mem_nil
  | cons r records ih =>
    obtain ⟨values, hassemble, _, hvalues⟩ := hr r (List.mem_cons_self ..) before
    obtain ⟨args, hargs, h⟩ := bind_ok h
    obtain ⟨rest, hrest, h⟩ := bind_ok h
    cases h
    cases hassemble.symm.trans hargs
    rw [List.drop_left]
    intro row hrow
    rcases List.mem_cons.mp hrow with rfl | hrow
    · exact hvalues
    · exact ih (fun r hr' => hr r (List.mem_cons_of_mem _ hr')) hrest row hrow

/-- a step that defers nothing leaves the deferred values alone -/
theorem Step.IsFixed.deferred_eq {s : Subject} {c c' : Collected} {step : Step}
    (hfixed : step.IsFixed) (h : step.run s c = .ok c') : c'.deferred = c.deferred := by
  cases step with
  | push a =>
    cases h
    rfl
  | given record columns => exact (Collected.ask_inv h).2
  | row columns =>
    simp only [Step.run] at h
    split at h
    · cases h
      rfl
    · split at h
      · cases h
        rfl
      · exact (Collected.ask_inv h).2
  | assign | defer | fail => cases hfixed

theorem deferred_of_fixed {s : Subject} {c c' : Collected} {steps : List Step}
    (hfixed : ∀ step ∈ steps, step.IsFixed) (h : (runSteps s c steps).2 = .ok c') :
    c'.deferred = c.deferred := by
  induction steps generalizing c with
  | nil =>
    cases h
    rfl
  | cons step steps ih =>
    cases hstep : step.run s c with
    | error e =>
      rw [runSteps_cons_error hstep] at h
      cases h
    | ok d =>
      rw [runSteps_cons_ok hstep] at h
      rw [ih (fun other hother => hfixed other (List.mem_cons_of_mem _ hother)) h,
        (hfixed step (List.mem_cons_self ..)).deferred_eq hstep]

/-- without deferred values, the arguments are what the steps add -/
theorem bindSteps_of_fixed {s : Subject} {kind : StatementKind} {steps : List Step}
    {new : Arguments} (hfixed : ∀ step ∈ steps, step.IsFixed) (h : Yields s [] steps new) :
    (bindSteps s kind steps).2 = .ok new := by
  obtain ⟨c, hrun, hargs⟩ := h .empty rfl
  have hfinish : c.finish s kind = ([], .ok new) := by
    have hnew : c.args = new := hargs
    unfold Collected.finish
    rw [deferred_of_fixed hfixed hrun, hnew]
    cases s.record <;> rfl
  rw [bindSteps_of_run (Prod.ext rfl hrun) hfinish]

section
variable {r : Record} {aliases : Option (List String)} {values before : Arguments}
variable {columns : List String}

theorem yields_own_row (hcolumns : columns ≠ [])
    (hassemble : r.assemble .insert .values before columns = .ok (before ++ values))
    (hlength : values.length = columns.length) :
    Yields (.each r aliases) before [.row columns] values := by
  refine yields_step fun c hc => ⟨{ c with args := c.args ++ values }, ?_, congrArg (· ++ _) hc⟩
  have hasked : ¬ (columns = [] ∨ (Subject.each r aliases).suppliesRow = false) := by
    rintro (hnone | hnone)
    · exact hcolumns hnone
    · cases hnone
  show (if _ then _ else _) = _
  rw [if_neg hasked]
  exact Collected.ask_ok (hc ▸ hassemble) hlength

variable (aliases) in
theorem run_own_columns {c : Collected} (hcolumns : columns ≠ [])
    (hassemble : r.assemble .update .set c.args (aliases.getD columns) = .ok (c.args ++ values))
    (hlength : values.length = (aliases.getD columns).length) :
    (Step.assign columns).run (.each r aliases) c = .ok { c with args := c.args ++ values } := by
  show (if _ then _ else _) = _
  rw [if_neg hcolumns]
  exact Collected.ask_ok hassemble hlength

end

/-! ## sources -/

/-- the arguments for a column of a row that is there already -/
def OnDuplicate.arguments : OnDuplicate → Arguments
  | .inserted => []
  | .argument a => [a]
  | .expression _ args => args

theorem Insert.onDuplicate_steps (value : OnDuplicate) :
    OnDuplicate.steps value = value.arguments.map .push := by
  cases value <;> rfl

/-- all arguments of the statement for a record, with the rows that its own records and that record
supply -/
def Insert.recordArguments (i : Insert) (given : List Arguments) (row : Arguments) : Arguments :=
  i.rows.flatten ++ given.flatten ++ row ++ i.onDuplicate.flatMap (·.2.arguments)

/-- the steps behind the columns that a record supplies -/
def Update.remainingSteps (u : Update) : List Step :=
  u.sets.flatMap (fun (_, value) => assignedSteps value) ++ Clause.steps .filter u.wheres

/-- the arguments of a record's statement, each with its source, and the walk that binds them -/
inductive Mutation.Sources (r : Record) (aliases : Option (List String)) :
    Mutation → Arguments → Walk → Prop
  | insert (i : Insert) {given : List Arguments} {row : Arguments} {w : Walk} :
      suppliedRows i.columns i.rows.flatten i.records = .ok given →
      r.assemble .insert .values (i.rows ++ given).flatten i.columns =
        .ok ((i.rows ++ given).flatten ++ row) →
      row.length = i.columns.length → i.walkWith [row] = .ok w →
      Sources r aliases (.insert i) (i.recordArguments given row) w
  | update (u : Update) {own conditions out : Arguments} {places : List Place} {w : Walk} :
      r.assemble .update .set [] (aliases.getD u.recordColumns) = .ok own →
      own.length = u.recordColumns.length →
      u.remainingSteps.map Step.place? = places.map some →
      r.Gave .update .conditions (Place.columnsIn .conditions places) conditions →
      Fills places ((Place.columnsIn .conditions places).zip conditions) out →
      u.walkWith own = .ok w →
      Sources r aliases (.update u) (own ++ out) (w.fill conditions)

/-! ## INSERT -/

namespace Insert

theorem select_of_recordText {i : Insert} {t : Text} (h : i.recordText = .ok t) :
    i.select = none ∧ i.failed = none := by
  have h : i.textWith 1 = .ok t := h
  unfold textWith at h
  cases hfailed : i.failed with
  | some e =>
    rw [hfailed] at h
    cases h
  | none =>
    simp only [hfailed] at h
    split at h
    · cases h
    · obtain ⟨_, _, h⟩ := bind_ok h
      obtain ⟨_, _, h⟩ := bind_ok h
      obtain ⟨source, hsource, _⟩ := bind_ok h
      refine ⟨?_, rfl⟩
      cases hselect : i.select with
      | none => rfl
      | some select =>
        unfold sourceText at hsource
        simp [hselect] at hsource

section
variable {i : Insert} (hselect : i.select = none) (hfailed : i.failed = none)
include hselect hfailed

theorem steps_of_values :
    i.steps = i.rows.flatten.map .push ++ i.records.map (.given · i.columns) ++ [.row i.columns] ++
      (i.onDuplicate.flatMap (·.2.arguments)).map .push := by
  have hrows : i.rows.flatMap (fun row => row.map Step.push) = i.rows.flatten.map .push := by
    rw [List.flatMap_def, ← List.map_flatten]
  have hduplicates : i.onDuplicate.flatMap (fun pair => OnDuplicate.steps pair.2) =
      (i.onDuplicate.flatMap (·.2.arguments)).map .push := by
    rw [List.map_flatMap]
    exact List.flatMap_congr fun pair _ => onDuplicate_steps pair.2
  rw [steps_of_failed_eq_none hfailed, hselect, hrows, ← hduplicates]
  rfl

theorem fixed_steps : ∀ step ∈ i.steps, step.IsFixed := by
  rw [steps_of_values hselect hfailed]
  intro step hstep
  simp only [List.mem_append, List.mem_map, List.mem_singleton] at hstep
  rcases hstep with ((⟨_, _, rfl⟩ | ⟨_, _, rfl⟩) | rfl) | ⟨_, _, rfl⟩
  all_goals trivial

variable {given : List Arguments} {row : Arguments}

theorem yields_recordArguments {s : Subject}
    (hgiven : Yields s i.rows.flatten (i.records.map (.given · i.columns)) given.flatten)
    (hrow : Yields s (i.rows ++ given).flatten [.row i.columns] row) :
    Yields s [] i.steps (i.recordArguments given row) := by
  rw [steps_of_values hselect hfailed]
  refine Yields.append (Yields.append (Yields.append ?_ ?_) ?_) (yields_push _ _ _)
  · exact yields_push _ _ _
  · exact hgiven
  · rw [← List.flatten_append]
    exact hrow

theorem known_recordArguments (hown : ∀ a, .push a ∈ i.steps → IsKnown a)
    (hgiven : ∀ other ∈ given, ∀ a ∈ other, IsKnown a) (hrow : ∀ a ∈ row, IsKnown a) :
    ∀ a ∈ i.recordArguments given row, IsKnown a := by
  rw [steps_of_values hselect hfailed] at hown
  intro a ha
  simp only [recordArguments, List.mem_append] at ha
  rcases ha with ((ha | ha) | ha) | ha
  · refine hown a ?_
    simp only [List.mem_append]
    exact .inl (.inl (.inl (List.mem_map_of_mem ha)))
  · obtain ⟨other, hother, ha⟩ := List.mem_flatten.mp ha
    exact hgiven other hother a ha
  · exact hrow a ha
  · exact hown a (List.mem_append_right _ (List.mem_map_of_mem ha))

end

section
variable {i : Insert} {r : Record} {aliases : Option (List String)} {t : Text}
variable (hm : i.Made) (hc : i.Closed) (hcolumns : i.columns ≠ [])
  (hcount : i.rowCount.getD 0 ≤ i.boundRows)
  (hrecords : ∀ r ∈ i.records, r.Answers IsSingle .insert .values i.columns)
  (hr : r.Answers IsSingle .insert .values i.columns)
  (hown : ∀ a, .push a ∈ i.steps → IsKnown a) (h : i.recordText = .ok t)
include hm hc hcolumns hcount hrecords hr hown h

theorem sources : ∃ args w, (bindSteps (.each r aliases) .insert i.steps).2 = .ok args ∧
    Mutation.Sources r aliases (.insert i) args w ∧ w.text = t ∧ Placeholder.split t = w.cut ∧
    args.flatten = .ok w.bound := by
  obtain ⟨hselect, hfailed⟩ := select_of_recordText h
  have hscalar : ∀ r ∈ i.records, r.Answers IsScalar .insert .values i.columns :=
    fun r hr => (hrecords r hr).mono fun _ ha => ha.2
  obtain ⟨given, hgiven, _, _, hyields⟩ := yields_given hscalar i.rows.flatten
  obtain ⟨row, hassemble, hlength, hrow⟩ := hr (i.rows ++ given).flatten
  have hown_row : Yields (.each r aliases) (i.rows ++ given).flatten [.row i.columns] row :=
    yields_own_row hcolumns hassemble hlength
  obtain ⟨w, new, hw, hp⟩ := @projects i (Made.scalar hm) hc hcount hscalar
    (fun s hs => by rw [selects, hselect] at hs; cases hs) [row]
    (fun other hother => by
      rw [List.mem_singleton.mp hother, rowWidth_of_columns hcolumns]
      exact ⟨hlength, fun a ha => (hrow a ha).2⟩) _
    (fun given' hgiven' => by
      cases hgiven.symm.trans hgiven'
      rw [List.flatten_singleton]
      exact hown_row) t h
  have hnew : new = i.recordArguments given row :=
    hp.yields.unique (yields_recordArguments hselect hfailed (hyields _) hown_row)
  have hknown : ∀ a ∈ new, IsKnown a := hnew ▸ known_recordArguments hselect hfailed hown
    (fun other hother a ha => (forall_suppliedRows hrecords hgiven other hother a ha).1)
    fun a ha => (hrow a ha).1
  refine ⟨new, w, ?_, ?_, hp.text_eq, hp.text_eq ▸ Walk.splitFrom_text hp.whole.sound, ?_⟩
  · exact bindSteps_of_fixed (fixed_steps hselect hfailed) hp.yields
  · rw [hnew]
    exact .insert i hgiven hassemble hlength hw
  · rw [Arguments.flatten_known hknown, hp.members_eq]

end

end Insert

/-! ## UPDATE -/

namespace Update

/-- a text of the caller's has no record columns -/
theorem Made.recordColumns_of_raw {u : Update} (h : u.Made) :
    u.raw ≠ none → u.recordColumns = [] := by
  refine h.invariant (p := fun u => u.raw ≠ none → u.recordColumns = [])
    (fun _ hraw => absurd rfl hraw) (fun _ _ _ => rfl) ?_ (fun _ _ hu => hu)
  intro u e u' hu _ happly
  cases e with
  | named | interpolate =>
    cases happly
    exact hu
  | recordColumns names =>
    obtain ⟨_, hstructured, happly⟩ := bind_ok happly
    cases happly
    intro hraw
    cases hu' : u.raw with
    | none => exact absurd hu' hraw
    | some raw =>
      rw [hu'] at hstructured
      cases hstructured
  | filter | orderBy | limit =>
    obtain ⟨_, _, happly⟩ := bind_ok happly
    cases happly
    exact hu
  | set column value =>
    obtain ⟨_, _, happly⟩ := bind_ok happly
    simp only at happly
    split at happly
    · cases happly
    · cases happly
      exact hu
  | compute column value =>
    obtain ⟨_, _, happly⟩ := bind_ok happly
    obtain ⟨_, _, happly⟩ := bind_ok happly
    cases happly
    exact hu

theorem failed_of_text {u : Update} {t : Text} (h : u.text = .ok t) : u.failed = none := by
  unfold Update.text at h
  cases hfailed : u.failed with
  | none => rfl
  | some e =>
    rw [hfailed] at h
    cases h

theorem plain_remainingSteps (u : Update) : Plain u.remainingSteps :=
  (plain_flatMap fun pair _ => plain_assignedSteps pair.2).append (plain_clause .filter u.wheres)

theorem steps_of_clauses {u : Update} (hfailed : u.failed = none) (hraw : u.raw = none) :
    u.steps = [.assign u.recordColumns] ++ u.remainingSteps := by
  unfold Update.steps
  rw [hfailed, hraw]
  rfl

/-- without a record, the columns of a record wait in front of everything else -/
theorem places_of_clauses {u : Update} (hfailed : u.failed = none)
    (hsteps : u.steps = [.assign u.recordColumns] ++ u.remainingSteps) {rests : List Place}
    (hrests : u.remainingSteps.map Step.place? = rests.map some) :
    (Statement.update u).places = .ok (u.recordColumns.map (.awaited .set) ++ rests) ∧
      Place.columnsIn .conditions (u.recordColumns.map (.awaited .set) ++ rests) =
        Place.columnsIn .conditions rests := by
  have hvalid : (Statement.update u).validate = .ok () := by
    unfold Statement.validate
    rw [show (Statement.update u).failed = none from hfailed]
  have hset : Place.columnsIn .conditions (u.recordColumns.map (.awaited .set)) = [] :=
    List.filterMap_eq_nil_iff.mpr fun place hplace => by
      obtain ⟨column, _, rfl⟩ := List.mem_map.mp hplace
      rfl
  refine ⟨?_, by rw [Place.columnsIn_append, hset, List.nil_append]⟩
  unfold Statement.places
  rw [hvalid]
  show u.steps.foldlM Step.placed [] = _
  rw [hsteps, List.foldlM_append]
  exact foldlM_placed hrests _

section
variable {r : Record} {aliases : Option (List String)} {columns : List String}
variable {rest : List Step} {places : List Place} {own : Arguments}
variable (hassign : (Step.assign columns).run (.each r aliases) .empty = .ok ⟨own, []⟩)
  (hplaces : rest.map Step.place? = places.map some)
include hassign hplaces

theorem runSteps_own : (runSteps (.each r aliases) .empty ([.assign columns] ++ rest)).2 =
    .ok ⟨own ++ places.map Place.argument, Place.deferredFrom own.length places⟩ := by
  have hfront : (runSteps (.each r aliases) .empty [.assign columns]).2 = .ok ⟨own, []⟩ := by
    rw [runSteps_cons_ok hassign]
    rfl
  rw [runSteps_append_ok hfront, runSteps_of_places hplaces]
  rfl

/-- conditions are asked for once the record's columns and all other values are there -/
theorem bindSteps_own (hr : Place.columnsIn .conditions places ≠ [] →
    r.Answers IsValue .update .conditions (Place.columnsIn .conditions places)) :
    ∃ conditions out, r.Gave .update .conditions (Place.columnsIn .conditions places) conditions ∧
      Fills places ((Place.columnsIn .conditions places).zip conditions) out ∧
      (bindSteps (.each r aliases) .update ([.assign columns] ++ rest)).2 = .ok (own ++ out) := by
  obtain ⟨conditions, out, last, he⟩ := finish_of_places hplaces own hr
  refine ⟨conditions, out, he.gave, he.fills, ?_⟩
  rw [bindSteps_of_run (Prod.ext rfl (runSteps_own hassign hplaces)) he.finished]

end

section
variable {u : Update} {r : Record} {aliases : Option (List String)} {t : Text}
variable (hm : (Statement.update u).Made) (hc : (Statement.update u).Closed)
  (hcolumns : u.recordColumns ≠ [])
  (haliases : (aliases.getD u.recordColumns).length = u.recordColumns.length)
  (hset : r.Answers IsSingle .update .set (aliases.getD u.recordColumns))
  (hconditions : ∀ places, (Statement.update u).places = .ok places →
    Place.columnsIn .conditions places ≠ [] →
      r.Answers IsSingle .update .conditions (Place.columnsIn .conditions places))
  (hown : ∀ a, .push a ∈ u.steps → IsKnown a) (h : u.text = .ok t)
include hm hc hcolumns haliases hset hconditions hown h

theorem sources : ∃ args w, (bindSteps (.each r aliases) .update u.steps).2 = .ok args ∧
    Mutation.Sources r aliases (.update u) args w ∧ w.text = t ∧ Placeholder.split t = w.cut ∧
    args.flatten = .ok w.bound := by
  have hsteps : u.steps = [.assign u.recordColumns] ++ u.remainingSteps :=
    steps_of_clauses (failed_of_text h)
      (not_not.mp fun hraw => hcolumns (Made.recordColumns_of_raw hm hraw))
  obtain ⟨own, hassemble, hlength, hsingle⟩ := hset []
  have hassign := run_own_columns aliases (c := .empty) hcolumns hassemble hlength
  obtain ⟨w, new, hw, hp⟩ := projects (Made.scalar hm) hc.own
    (Select.agrees_of_made hm.selects hc.selects) (hlength.trans haliases)
    (fun a ha => (hsingle a ha).2)
    (yields_step fun c hcargs => ⟨_, run_own_columns aliases hcolumns (hcargs ▸ hassemble) hlength,
      congrArg (· ++ own) hcargs⟩) h
  obtain ⟨c, hrun, hargs⟩ := hp.yields .empty rfl
  rw [hsteps] at hrun
  obtain ⟨_, _, hrest⟩ := runSteps_append_inv hrun
  obtain ⟨rests, hrests⟩ := places_of_plain u.plain_remainingSteps hrest
  have hasked : Place.columnsIn .conditions rests ≠ [] →
      r.Answers IsSingle .update .conditions (Place.columnsIn .conditions rests) := by
    obtain ⟨hplaces, hawaited⟩ := places_of_clauses (failed_of_text h) hsteps hrests
    have hanswers := hconditions _ hplaces
    rwa [hawaited] at hanswers
  obtain ⟨conditions, out, hgave, hout, hbind⟩ := bindSteps_own hassign hrests
    fun hsome => (hasked hsome).mono fun _ ha => ha.1.2
  have hnew : new = own ++ rests.map Place.argument := by
    cases hrun.symm.trans (runSteps_own hassign hrests)
    exact hargs.symm
  have hheld : ∀ a, .held a ∈ rests → IsKnown a := fun a ha =>
    hown a (hsteps ▸ List.mem_append_right _ (mem_steps_of_held hrests ha))
  have hanswers : ∀ answer ∈ (Place.columnsIn .conditions rests).zip conditions,
      IsSingle answer.2 := fun answer ha =>
    hgave.forall_mem hasked _ (List.of_mem_zip ha).2
  have hknown : ∀ a ∈ own ++ out, IsKnown a := List.forall_mem_append.mpr
    ⟨fun a ha => (hsingle a ha).1, hout.forall_mem hheld fun answer ha => (hanswers answer ha).1⟩
  have hbound := Walk.bound_fill_of_fills (hnew ▸ hp.members_eq) hout hsingle
    (fun a ha => (hheld a ha).2) fun answer ha => (hanswers answer ha).2
  rw [List.map_snd_zip (Nat.le_of_eq hgave.1)] at hbound
  refine ⟨own ++ out, w.fill conditions, hsteps ▸ hbind, ?_, ?_, ?_, ?_⟩
  · exact .update u hassemble (hlength.trans haliases) hrests hgave hout hw
  · rw [Walk.text_fill, hp.text_eq]
  · rw [Walk.cut_fill, ← hp.text_eq]
    exact Walk.splitFrom_text hp.whole.sound
  · rw [Arguments.flatten_known hknown, hbound]

end

end Update

/-! ## records of a bulk execution -/

namespace Mutation

/-- no row of an INSERT waits for its values, and its records give one known value a column -/
def Supplied : Mutation → Prop
  | .insert i => i.rowCount.getD 0 ≤ i.boundRows ∧
      ∀ r ∈ i.records, r.Answers IsSingle .insert .values i.columns
  | .update _ => True

/-- the record answers the requests made of it in whose place the statement is carried out: for the
row of an INSERT, or for the columns of an UPDATE, by their aliases, and for what its conditions wait
for, if anything -/
def Answered (r : Record) (aliases : Option (List String)) : Mutation → Prop
  | .insert i => r.Answers IsSingle .insert .values i.columns
  | .update u => r.Answers IsSingle .update .set (aliases.getD u.recordColumns) ∧
      ∀ places, (Statement.update u).places = .ok places →
        Place.columnsIn .conditions places ≠ [] →
          r.Answers IsSingle .update .conditions (Place.columnsIn .conditions places)

variable {m : Mutation} {r : Record} {aliases : Option (List String)} {t : Text}
variable (hm : m.statement.Made) (hc : m.statement.Closed) (hs : m.Supplied)
  (hcolumns : m.recordColumns ≠ [])
  (haliases : (aliases.getD m.recordColumns).length = m.recordColumns.length)
  (hr : m.Answered r aliases) (hown : ∀ a, .push a ∈ m.statement.steps → IsKnown a)
  (h : m.recordText = .ok t)
include hm hc hs hcolumns haliases hr hown h

theorem sources : ∃ args w, (m.recordArgs r aliases).2 = .ok args ∧ Sources r aliases m args w ∧
    w.text = t ∧ Placeholder.split t = w.cut ∧ args.flatten = .ok w.bound := by
  obtain ⟨_, hvalid, htext⟩ := bind_ok h
  have hbind : m.recordArgs r aliases =
      bindSteps (.each r aliases) m.statement.kind m.statement.steps := by
    unfold recordArgs
    rw [hvalid]
  rw [hbind]
  cases m with
  | insert i => exact Insert.sources hm hc.own hcolumns hs.1 hs.2 hr hown htext
  | update u => exact Update.sources hm hc hcolumns haliases hr.1 hr.2 hown htext

end Mutation

namespace Bulk

theorem checkColumns_inv {columns : List String} {aliases : Option (List String)}
    (h : checkColumns columns aliases = .ok ()) :
    columns ≠ [] ∧ (aliases.getD columns).length = columns.length := by
  unfold checkColumns at h
  split at h
  · cases h
  · rename_i hcolumns
    refine ⟨hcolumns, ?_⟩
    cases aliases with
    | none => rfl
    | some names =>
      simp only at h
      split at h
      · cases h
      · rename_i hlength
        exact not_not.mp hlength

def merging : Bulk where
  template := .insert Statement.upsert

def moved : Update where
  table := "t"
  recordColumns := ["a"]
  sets := [("b", .argument (.int 7))]
  wheres := [(ConditionOf.column "k").placeholder, (ConditionOf.column "m").arg (.int 3)]

def moving : Bulk where
  template := .update moved
  aliases := some ["x"]

/-- a record with a value of its own for each column -/
theorem answers_map {f : String → Argument} (hf : ∀ column, IsSingle (f column)) (label : String)
    (kind : StatementKind) (part : Part) (columns : List String) :
    Record.Answers ⟨label, fun _ _ args columns => .ok (args ++ columns.map f)⟩ IsSingle kind part
      columns := by
  intro args
  refine ⟨columns.map f, rfl, List.length_map _, fun v hv => ?_⟩
  obtain ⟨column, _, rfl⟩ := List.mem_map.mp hv
  exact hf column

theorem isSingle_string (t : String) : IsSingle (.string t) := ⟨⟨rfl, Argument.noConfusion⟩, rfl⟩

theorem made_moved : (Statement.update moved).Made := by
  have hcolumns : Update.Made { table := "t", recordColumns := ["a"] } :=
    .edit _ (.recordColumns ["a"]) (.ofTable "t") fun _ h => by cases h
  have hset : Update.Made { table := "t", recordColumns := ["a"], sets := moved.sets } :=
    .edit _ (.set "b" (.int 7)) hcolumns fun _ h => by cases h
  exact .edit _ (.filter moved.wheres) hset fun _ h => by cases h

theorem known_merging (a : Argument) (ha : .push a ∈ merging.template.statement.steps) :
    IsKnown a := by
  have hsteps : merging.template.statement.steps = [.push (.int 1), .push .null,
      .given Statement.questions ["a", "b"], .row ["a", "b"], .push (.int 2)] := rfl
  rw [hsteps] at ha
  simp only [List.mem_cons, Step.push.injEq, List.not_mem_nil, or_false, reduceCtorEq,
    false_or] at ha
  rcases ha with rfl | rfl | rfl <;> exact ⟨rfl, Argument.noConfusion⟩

theorem known_moving (a : Argument) (ha : .push a ∈ moving.template.statement.steps) :
    IsKnown a := by
  have hsteps : moving.template.statement.steps =
      [.assign ["a"], .push (.int 7), .defer "k", .push (.int 3)] := rfl
  rw [hsteps] at ha
  simp only [List.mem_cons, Step.push.injEq, List.not_mem_nil, or_false, reduceCtorEq,
    false_or] at ha
  rcases ha with rfl | rfl <;> exact ⟨rfl, Argument.noConfusion⟩

section
set_option maxRecDepth 10000

theorem name_k : nameText "k" false = .ok "`k`".toList := by cbv
theorem name_m : nameText "m" false = .ok "`m`".toList := by cbv
theorem name_t : nameText moved.table false = .ok "`t`".toList := by cbv
theorem sets_moved : moved.setTexts = .ok ["`a`=?".toList, "`b`=?".toList] := by
  show (do
    let own ← ["a"].mapM (Update.setText · (.ok ['?']))
    let others ← [("b", Except.ok ['?'])].mapM fun (column, value) => Update.setText column value
    return own ++ others) = _
  cbv

theorem closed_moved : (Statement.update moved).Closed where
  selects := by
    intro t ht
    cases ht
  own :=
    { raw := fun sql args h => by cases h
      sets := fun column c h => by cases List.mem_singleton.mp h
      wheres := fun c hc => by
        simp only [moved, List.mem_cons, List.not_mem_nil, or_false] at hc
        rcases hc with rfl | rfl <;> exact fun hkind => by cases hkind
      orderBy := fun term h => by cases h }

/-- the text in pieces: the conditions are written by a recursion over sub-selects -/
theorem plan_moving : moving.plan =
    .ok ⟨"UPDATE `t` SET `a`=?, `b`=? WHERE (`k` = ?) AND (`m` = ?)".toList, 4, false⟩ := by
  have hwheres : Clause.text .filter moved.wheres =
      .ok " WHERE (`k` = ?) AND (`m` = ?)".toList := by
    show (do return Clause.keyword .filter ++ (← itemsText .filter .start
      [.leaf .and (do return (← nameText "k" false) ++ " = ?".toList),
        .leaf .and (do return (← nameText "m" false) ++ " = ?".toList)]) : Except Error Text) = _
    rw [name_k, name_m]
    rfl
  have htext : moved.text =
      .ok "UPDATE `t` SET `a`=?, `b`=? WHERE (`k` = ?) AND (`m` = ?)".toList := by
    show moved.clausesText = _
    unfold Update.clausesText
    rw [name_t, sets_moved, hwheres]
    rfl
  show (moved.text >>= fun sql => Except.ok (Plan.mk sql (Placeholder.count sql) false)) = _
  rw [htext]
  rfl

end

theorem answered_merging : merging.template.Answered (knowing ["a", "b"]) merging.aliases :=
  answers_knowing isSingle_string (by decide) _ _

theorem answered_moving : moving.template.Answered (knowing ["x", "k"]) moving.aliases := by
  refine ⟨answers_knowing isSingle_string (by decide) _ _, fun places h _ => ?_⟩
  have hplaces : (Statement.update moved).places =
      .ok [.awaited .set "a", .held (.int 7), .awaited .conditions "k", .held (.int 3)] := by rfl
  cases hplaces.symm.trans h
  exact answers_knowing isSingle_string (by decide) _ _

end Bulk

end BoundSql
