import BoundSql.Proofs.RecordBinding

/-!
# What records supply, whatever it is

A record that keeps the arguments it gets may add lists, markers and driver values.  Where the
arguments of its statement come about at all, they and the text are still those of a walk with one
argument for each column.

* `Record.Extends`            the record keeps the arguments it gets;
* `Collected.ask_appended`, `Collected.fill_inv`   what a request that succeeds has added;
* `Insert.recordArgs_inv`, `Update.recordArgs_inv`   the arguments of a record;
* `Insert.walkWith_of_text`, `Update.walkWith_of_text`   the walk of the text for a record.
-/

namespace BoundSql

open Placeholder

/-- wherever the record answers, its values come behind the arguments that it was handed -/
def Record.Extends (r : Record) : Prop :=
  ∀ kind part args columns out, r.assemble kind part args columns = .ok out →
    ∃ values, out = args ++ values

/-! ## steps -/

theorem Collected.ask_appended {c c' : Collected} {r : Record} {kind : StatementKind} {part : Part}
    {columns : List String} (hr : r.Extends) (h : c.ask r kind part columns = .ok c') :
    ∃ values, r.assemble kind part c.args columns = .ok (c.args ++ values) ∧
      values.length = columns.length ∧ c' = { c with args := c.args ++ values } := by
  obtain ⟨args, hargs, h⟩ := bind_ok h
  obtain ⟨values, rfl⟩ := hr _ _ _ _ _ hargs
  simp only at h
  split at h
  · cases h
  · rename_i hfits
    cases h
    refine ⟨values, hargs, ?_, rfl⟩
    simpa using hfits

theorem runSteps_push (s : Subject) (c : Collected) (as : Arguments) :
    (runSteps s c (as.map .push)).2 = .ok { c with args := c.args ++ as } := by
  induction as generalizing c with
  | nil => rw [List.append_nil]; rfl
  | cons a as ih =>
    have hrest := ih (c.push a)
    rw [Collected.push, List.append_assoc] at hrest
    rw [List.map_cons, runSteps_cons_ok rfl]
    exact hrest

theorem given_inv {s : Subject} {columns : List String} {records : List Record}
    (hr : ∀ r ∈ records, r.Extends) {c c' : Collected}
    (h : (runSteps s c (records.map (.given · columns))).2 = .ok c') :
    ∃ rows, suppliedRows columns c.args records = .ok rows ∧ rows.length = records.length ∧
      (∀ row ∈ rows, row.length = columns.length) ∧
      c' = { c with args := c.args ++ rows.flatten } := by
  induction records generalizing c with
  | nil =>
    cases h
    exact ⟨[], rfl, rfl, fun _ hrow => absurd hrow List.not_mem_nil, by simp⟩
  | cons r records ih =>
    rw [List.map_cons] at h
    cases hstep : (Step.given r columns).run s c with
    | error e =>
      rw [runSteps_cons_error hstep] at h
      cases h
    | ok d =>
      rw [runSteps_cons_ok hstep] at h
      obtain ⟨values, hassemble, hlength, rfl⟩ :=
        Collected.ask_appended (hr r (List.mem_cons_self ..)) hstep
      obtain ⟨rows, hrows, hcount, hwidth, rfl⟩ :=
        ih (fun other hother => hr other (List.mem_cons_of_mem _ hother)) h
      refine ⟨values :: rows, ?_, congrArg (· + 1) hcount, ?_, ?_⟩
      · unfold suppliedRows
        rw [hassemble]
        show (suppliedRows columns (c.args ++ values) records >>= _) = _
        rw [hrows]
        show Except.ok ((c.args ++ values).drop c.args.length :: rows) = _
        rw [List.drop_left]
      · exact List.forall_mem_cons.mpr ⟨hlength, hwidth⟩
      · rw [List.flatten_cons, List.append_assoc]

/-- values that have been moved are as many as their positions -/
theorem length_of_backfill {args : Arguments} {positions : List Nat} {before : Nat}
    (h : (backfill args positions before).2 = .ok ()) :
    args.length = before + positions.length := by
  unfold backfill at h
  split at h
  · cases h
  · split at h
    · cases h
    · omega

theorem Binds.push_eq {as values : Arguments} (h : Binds (as.map .push) values) :
    values = as.flatMap Argument.members := by
  obtain ⟨bs, hbs, rfl⟩ := h
  have hpushed : (as.map Step.push).map Step.planted = as.map some := List.map_map
  rw [List.map_injective_iff.mpr (Option.some_injective _) (hpushed.symm.trans hbs)]

theorem Binds.eq_of_places {steps : List Step} {values : Arguments} (hbinds : Binds steps values)
    {places : List Place} (h : steps.map Step.place? = places.map some) :
    values = (places.map Place.argument).flatMap Argument.members := by
  obtain ⟨as, has, rfl⟩ := hbinds
  have hstep : ∀ step : Step, step.place?.map Place.argument = step.planted := by
    intro step
    cases step <;> rfl
  have hplanted : steps.map Step.planted = (places.map Place.argument).map some := by
    have hplaces := congrArg (List.map (Option.map Place.argument)) h
    rw [List.map_map, List.map_map] at hplaces
    rw [← List.map_congr_left fun step _ => hstep step, List.map_map]
    exact hplaces
  rw [List.map_injective_iff.mpr (Option.some_injective _) (has.symm.trans hplanted)]

section
variable {steps : List Step} {places : List Place} (h : steps.map Step.place? = places.map some)
include h

/-- values for deferred conditions have come to their places -/
theorem Collected.fill_inv {r : Record} (hr : r.Extends) {kind : StatementKind}
    {front args : Arguments}
    (hfill : Collected.fill ⟨front ++ places.map Place.argument,
      Place.deferredFrom front.length places⟩ r kind = .ok args) :
    ∃ conditions out, r.Gave kind .conditions (Place.columnsIn .conditions places) conditions ∧
      Fills places ((Place.columnsIn .conditions places).zip conditions) out ∧
      args = front ++ out := by
  have hcolumns := (columnsIn_of_places h front.length).2
  obtain ⟨all, hassemble, hmoved⟩ := bind_ok hfill
  rw [← hcolumns] at hassemble
  obtain ⟨conditions, rfl⟩ := hr _ _ _ _ _ hassemble
  obtain ⟨_, houtcome, hfilled⟩ := bind_ok hmoved
  have hlength : conditions.length = (Place.columnsIn .conditions places).length := by
    have hcount := length_of_backfill houtcome
    rw [List.length_append, List.length_map] at hcount
    rw [hcolumns, List.length_map]
    exact Nat.add_left_cancel hcount
  obtain ⟨out, hout⟩ := exists_fills h hlength
  have hbackfill := backfill_of_fills hout front
  rw [List.map_snd_zip (Nat.le_of_eq hlength)] at hbackfill
  refine ⟨conditions, out, ⟨hlength, .inr ⟨_, hassemble⟩⟩, hout, ?_⟩
  cases hfilled
  exact congrArg Prod.fst hbackfill

theorem Collected.finish_inv {r : Record} (hr : r.Extends) {aliases : Option (List String)}
    {kind : StatementKind} {front args : Arguments}
    (hfinish : (Collected.finish (.each r aliases) kind ⟨front ++ places.map Place.argument,
      Place.deferredFrom front.length places⟩).2 = .ok args) :
    ∃ conditions out, r.Gave kind .conditions (Place.columnsIn .conditions places) conditions ∧
      Fills places ((Place.columnsIn .conditions places).zip conditions) out ∧
      args = front ++ out := by
  have hcolumns := (columnsIn_of_places h front.length).2
  by_cases hnone : Place.deferredFrom front.length places = []
  · have hempty : Place.columnsIn .conditions places = [] := by rw [hcolumns, hnone]; rfl
    have hlength : ([] : Arguments).length = (Place.columnsIn .conditions places).length := by
      rw [hempty]
      rfl
    obtain ⟨out, hout⟩ := exists_fills h hlength
    have hnothing : Fills places [] out := by rwa [hempty] at hout
    refine ⟨[], out, ⟨hlength, .inl hempty⟩, hout, ?_⟩
    rw [hnothing.eq_of_nil]
    have hdone := (congrArg Prod.snd (if_pos hnone)).symm.trans hfinish
    exact (Except.ok.inj hdone).symm
  · have hasked := (congrArg Prod.snd (if_neg hnone)).symm.trans hfinish
    exact Collected.fill_inv h hr hasked

end

/-! ## INSERT -/

namespace Insert

section
variable {i : Insert} {r : Record} {aliases : Option (List String)} {args : Arguments}
variable (hselect : i.select = none) (hfailed : i.failed = none) (hcolumns : i.columns ≠ [])
  (hrecords : ∀ r ∈ i.records, r.Extends) (hr : r.Extends)
include hselect hfailed hcolumns hrecords hr

theorem recordArgs_inv (h : (bindSteps (.each r aliases) .insert i.steps).2 = .ok args) :
    ∃ given row, suppliedRows i.columns i.rows.flatten i.records = .ok given ∧
      given.length = i.records.length ∧ (∀ other ∈ given, other.length = i.columns.length) ∧
      r.assemble .insert .values (i.rows ++ given).flatten i.columns =
        .ok ((i.rows ++ given).flatten ++ row) ∧
      row.length = i.columns.length ∧ args = i.recordArguments given row := by
  obtain ⟨c, hrun, hfinish⟩ := bindSteps_ok h
  have hdone : args = c.args := by
    have hdeferred := deferred_of_fixed (fixed_steps hselect hfailed) hrun
    unfold Collected.finish at hfinish
    rw [hdeferred] at hfinish
    exact (Except.ok.inj hfinish).symm
  rw [steps_of_values hselect hfailed] at hrun
  obtain ⟨c₃, hrun, hduplicates⟩ := runSteps_append_inv hrun
  obtain ⟨c₂, hrun, hrow⟩ := runSteps_append_inv hrun
  obtain ⟨c₁, hrows, hgivens⟩ := runSteps_append_inv hrun
  cases (runSteps_push _ _ _).symm.trans hrows
  obtain ⟨given, hgiven, hcount, hwidth, rfl⟩ := given_inv hrecords hgivens
  have hasked : ¬ (i.columns = [] ∨ (Subject.each r aliases).suppliesRow = false) := by
    rintro (hnone | hnone)
    · exact hcolumns hnone
    · cases hnone
  cases hstep : (Step.row i.columns).run (.each r aliases) _ with
  | error e =>
    rw [runSteps_cons_error hstep] at hrow
    cases hrow
  | ok d =>
    rw [runSteps_cons_ok hstep] at hrow
    cases hrow
    obtain ⟨row, hassemble, hlength, rfl⟩ :=
      Collected.ask_appended hr ((if_neg hasked).symm.trans hstep)
    cases (runSteps_push _ _ _).symm.trans hduplicates
    refine ⟨given, row, hgiven, hcount, hwidth, ?_, hlength, ?_⟩
    · rw [List.flatten_append]
      exact hassemble
    · rw [hdone, recordArguments]
      rfl

end

section
variable {i : Insert} {given : List Arguments} {row : Arguments} {t : Text}
variable (hscalar : i.Scalar) (hclosed : i.Closed) (hselect : i.select = none)
  (hcolumns : i.columns ≠ [])
  (hgiven : suppliedRows i.columns i.rows.flatten i.records = .ok given)
  (hcount : given.length = i.records.length)
  (hwidth : ∀ other ∈ given, other.length = i.columns.length)
  (hlength : row.length = i.columns.length)
include hcolumns hgiven hcount hwidth hlength

/-- rows of the statement, of its records and of the record, and rows that wait -/
theorem valuesWalk_of_text (h : i.valuesText 1 = .ok t) :
    ∃ w, i.valuesWalk [row] = .ok w ∧ w.text = t ∧ w.Whole ∧
      w.bound = (i.rows ++ given ++ [row] ++ i.waitingRows).flatten := by
  obtain ⟨_, hrows, rfl⟩ := valuesText_ok h
  rw [rowWidth_of_columns hcolumns] at hrows ⊢
  have hall : ∀ other ∈ i.rows ++ given ++ [row] ++ i.waitingRows,
      other.length = i.columns.length := by
    intro other hother
    simp only [List.mem_append, List.mem_singleton] at hother
    rcases hother with ((hother | hother) | rfl) | hother
    · exact hrows other hother
    · exact hwidth other hother
    · exact hlength
    · rw [List.eq_of_mem_replicate hother, List.length_replicate, rowWidth_of_columns hcolumns]
  have hnumber : (i.rows ++ given ++ [row] ++ i.waitingRows).length =
      max (i.rowCount.getD 0) i.boundRows + 1 := by
    simp only [List.length_append, List.length_singleton, waitingRows, List.length_replicate,
      hcount, boundRows]
    omega
  refine ⟨_, ?_, ?_, (Walk.whole_literal (t := " VALUES ".toList) (by decide)).append
    (whole_rowsWalk (i.rows ++ given ++ [row] ++ i.waitingRows)), ?_⟩
  · unfold valuesWalk
    rw [hgiven]
    rfl
  · rw [Walk.text_append, Walk.text_literal, text_rowsWalk hall, hnumber]
  · rw [Walk.bound_append, Walk.bound_literal, bound_rowsWalk]
    rfl

include hscalar hclosed hselect in
theorem walkWith_of_text (h : i.recordText = .ok t) :
    ∃ w, i.walkWith [row] = .ok w ∧ w.text = t ∧ w.Whole ∧
      w.bound = (i.rows ++ given ++ [row] ++ i.waitingRows).flatten ++
        (i.onDuplicate.flatMap (·.2.arguments)).flatMap Argument.members := by
  obtain ⟨hfailed, table, columns, source, duplicates, htable, hcolumnsText, hsource, hduplicates,
    rfl⟩ := textWith_ok h
  have hvalues : i.valuesText 1 = .ok source := by
    unfold sourceText at hsource
    simpa only [hselect] using hsource
  obtain ⟨w, hw, htext, hwhole, hbound⟩ :=
    valuesWalk_of_text hcolumns hgiven hcount hwidth hlength hvalues
  obtain ⟨v, hv, hd⟩ := agrees_duplicates hscalar hclosed duplicates hduplicates
  have hbinds : Binds ((i.onDuplicate.flatMap (·.2.arguments)).map .push) v.bound := by
    have hsteps : (i.onDuplicate.flatMap (·.2.arguments)).map Step.push =
        i.onDuplicate.flatMap fun pair => OnDuplicate.steps pair.2 := by
      rw [List.map_flatMap]
      exact List.flatMap_congr fun pair _ => (onDuplicate_steps pair.2).symm
    rw [hsteps]
    exact hd.binds
  have hhead : Inert ((if i.ignore then "INSERT IGNORE INTO " else "INSERT INTO ").toList ++
      table ++ columns) := by
    refine (Inert.append ?_ (inert_strictName htable)).append (inert_columnsText hcolumnsText)
    cases i.ignore <;> decide
  have hsourceWalk : i.sourceWalk [row] = .ok w := by
    unfold sourceWalk
    rw [hselect]
    exact hw
  have hwalk : i.walkWith [row] = .ok (Walk.literal ((if i.ignore then "INSERT IGNORE INTO "
      else "INSERT INTO ").toList ++ table ++ columns) ++ w ++ v) := by
    unfold walkWith
    rw [hfailed, htable, hcolumnsText, hsourceWalk, hv]
    rfl
  refine ⟨_, hwalk, ?_, ((Walk.whole_literal hhead).append hwhole).append hd.whole, ?_⟩
  · rw [Walk.text_append, Walk.text_append, Walk.text_literal, htext, hd.text_eq]
  · rw [Walk.bound_append, Walk.bound_append, Walk.bound_literal, hbound, hbinds.push_eq]
    rfl

end

end Insert

/-! ## UPDATE -/

namespace Update

section
variable {u : Update} {r : Record} {aliases : Option (List String)} {args : Arguments}
variable (hfailed : u.failed = none) (hraw : u.raw = none) (hcolumns : u.recordColumns ≠ [])
  (hr : r.Extends)
include hfailed hraw hcolumns hr

theorem recordArgs_inv (h : (bindSteps (.each r aliases) .update u.steps).2 = .ok args) :
    ∃ own places conditions out,
      r.assemble .update .set [] (aliases.getD u.recordColumns) = .ok own ∧
      own.length = (aliases.getD u.recordColumns).length ∧
      u.remainingSteps.map Step.place? = places.map some ∧
      r.Gave .update .conditions (Place.columnsIn .conditions places) conditions ∧
      Fills places ((Place.columnsIn .conditions places).zip conditions) out ∧
      args = own ++ out := by
  rw [steps_of_clauses hfailed hraw] at h
  obtain ⟨c, hrun, hfinish⟩ := bindSteps_ok h
  obtain ⟨d, hassigned, hrest⟩ := runSteps_append_inv hrun
  cases hstep : (Step.assign u.recordColumns).run (.each r aliases) .empty with
  | error e =>
    rw [runSteps_cons_error hstep] at hassigned
    cases hassigned
  | ok d' =>
    rw [runSteps_cons_ok hstep] at hassigned
    cases hassigned
    obtain ⟨own, hassemble, hlength, rfl⟩ :=
      Collected.ask_appended hr ((if_neg hcolumns).symm.trans hstep)
    obtain ⟨places, hplaces⟩ := places_of_plain u.plain_remainingSteps hrest
    cases (congrArg Prod.snd (runSteps_of_places hplaces _ _)).symm.trans hrest
    obtain ⟨conditions, out, hgave, hout, hargs⟩ :=
      @Collected.finish_inv _ _ hplaces r hr aliases .update own args hfinish
    exact ⟨own, places, conditions, out, hassemble, hlength, hplaces, hgave, hout, hargs⟩

end

/-- the assignments of a record's columns, each with its own value -/
theorem ownWalks_of_texts {columns : List String} {own : Arguments}
    (hlength : own.length = columns.length) {ts : List Text}
    (h : columns.mapM (setText · (.ok ['?'])) = .ok ts) :
    ∃ ws, (columns.zip own).mapM (fun (column, a) => setWalk column (.ok [.mark a])) = .ok ws ∧
      ws.map Walk.text = ts ∧ (∀ w ∈ ws, w.Whole) ∧ ws.flatMap Walk.bound = own := by
  induction columns generalizing own ts with
  | nil =>
    cases h
    rw [List.length_eq_zero_iff.mp hlength]
    exact ⟨[], rfl, rfl, fun _ hw => absurd hw List.not_mem_nil, rfl⟩
  | cons column columns ih =>
    obtain ⟨a, own, rfl⟩ := List.exists_cons_of_length_eq_add_one hlength
    obtain ⟨t, ts, ht, hts, rfl⟩ := mapM_cons_ok h
    obtain ⟨name, hname, ht⟩ := bind_ok ht
    cases ht
    obtain ⟨ws, hws, htexts, hwhole, hbound⟩ := ih (Nat.succ.inj hlength) hts
    have hfirst : setWalk column (.ok [.mark a]) =
        .ok (Walk.literal (name ++ ['=']) ++ [.mark a]) := by
      unfold setWalk
      rw [hname]
      rfl
    refine ⟨_ :: ws, cons_mapM_ok hfirst hws, ?_, ?_, ?_⟩
    · rw [List.map_cons, htexts, Walk.text_append, Walk.text_literal, List.append_assoc]
      rfl
    · refine List.forall_mem_cons.mpr ⟨?_, hwhole⟩
      exact (Walk.whole_literal ((inert_strictName hname).append (by decide))).append
        (Walk.whole_mark a)
    · rw [List.flatMap_cons, hbound, Walk.bound_append, Walk.bound_literal]
      rfl

section
variable {u : Update} {own : Arguments} (hscalar : u.Scalar) (hu : u.Closed)
  (hsub : ∀ t ∈ u.selects, Agrees t.text t.steps t.walk)
  (hlength : own.length = u.recordColumns.length)
include hscalar hu hsub hlength

theorem setWalks_of_texts {ts : List Text} (h : u.setTexts = .ok ts) :
    ∃ ws values, u.setWalks own = .ok ws ∧ ws.map Walk.text = ts ∧ (∀ w ∈ ws, w.Whole) ∧
      ws.flatMap Walk.bound = own ++ values ∧
      Binds (u.sets.flatMap fun (_, value) => assignedSteps value) values := by
  obtain ⟨front, hfront, h⟩ := bind_ok h
  obtain ⟨others, hothers, h⟩ := bind_ok h
  cases h
  obtain ⟨ws, hws, htexts, hwhole, hbound⟩ := ownWalks_of_texts hlength hfront
  obtain ⟨vs, hvs, hms⟩ : ∃ vs,
      u.sets.mapM (fun (column, value) => setWalk column (assignedWalk value)) = .ok vs ∧
        MatchesAll vs others (u.sets.flatMap fun (_, value) => assignedSteps value) := by
    refine matchesAll_of_mapM (fun pair hpair => ?_) hothers
    obtain ⟨column, value⟩ := pair
    refine agrees_set (agrees_assigned ?_ ?_ ?_)
    · rintro a rfl
      exact hscalar column a hpair
    · rintro c rfl
      exact hu.sets column c hpair
    · rintro c rfl t ht
      exact hsub t (mem_selects_of_sets hpair ht)
  refine ⟨ws ++ vs, vs.flatMap Walk.bound, ?_, ?_, ?_, ?_, hms.binds⟩
  · unfold setWalks
    rw [hws, hvs]
    rfl
  · rw [List.map_append, htexts, hms.texts_eq]
  · exact List.forall_mem_append.mpr ⟨hwhole, hms.whole⟩
  · rw [List.flatMap_append, hbound]

theorem clausesWalk_of_text {t : Text} (h : u.clausesText = .ok t) :
    ∃ w values, u.clausesWalk own = .ok w ∧ w.text = t ∧ w.Whole ∧ w.bound = own ++ values ∧
      Binds u.remainingSteps values := by
  obtain ⟨table, name, sets, wheres, orderBy, htable, hname, hsets, hwheres, horderBy, rfl⟩ :=
    clausesText_ok h
  obtain ⟨ws, values, hws, htexts, hwhole, hbound, hbinds⟩ :=
    setWalks_of_texts hscalar hu hsub hlength hsets
  obtain ⟨v, hv, hm⟩ := agrees_wheres hu.wheres
    (fun t ht => hsub t (List.mem_append_right _ ht)) wheres hwheres
  have hhead : Inert ("UPDATE ".toList ++ table ++ name ++ " SET ".toList) :=
    ((Inert.append (by decide) (inert_strictName htable)).append
      (inert_aliasText hname)).append (by decide)
  refine ⟨Walk.literal ("UPDATE ".toList ++ table ++ name ++ " SET ".toList) ++
    Walk.separated ", ".toList ws ++ v ++ Walk.literal orderBy ++
    Walk.literal (limitText u.limit none), values ++ v.bound, ?_, ?_, ?_, ?_,
    hbinds.append hm.binds⟩
  · unfold clausesWalk
    rw [htable, hname, hws, hv, horderBy]
    rfl
  · rw [Walk.text_append, Walk.text_append, Walk.text_append, Walk.text_append,
      Walk.text_literal, Walk.text_literal, Walk.text_literal, Walk.text_separated, htexts,
      hm.text_eq]
  · have hsets : (Walk.literal ("UPDATE ".toList ++ table ++ name ++ " SET ".toList) ++
        Walk.separated ", ".toList ws).Whole :=
      (Walk.whole_literal hhead).append (Walk.whole_separated (by decide) hwhole)
    exact ((hsets.append hm.whole).append (Walk.whole_literal
      (inert_termsText (by decide) hu.orderBy horderBy))).append
      (Walk.whole_literal (inert_limitText u.limit none))
  · rw [Walk.bound_append, Walk.bound_append, Walk.bound_append, Walk.bound_append,
      Walk.bound_literal, Walk.bound_literal, Walk.bound_literal, Walk.bound_separated, hbound]
    simp only [List.nil_append, List.append_nil, List.append_assoc]

theorem walkWith_of_text (hraw : u.raw = none) {places : List Place}
    (hplaces : u.remainingSteps.map Step.place? = places.map some) {t : Text}
    (h : u.text = .ok t) :
    ∃ w, u.walkWith own = .ok w ∧ w.text = t ∧ w.Whole ∧
      w.bound = own ++ (places.map Place.argument).flatMap Argument.members := by
  have hfailed := failed_of_text h
  unfold Update.text at h
  unfold walkWith
  simp only [hfailed, hraw] at h ⊢
  obtain ⟨w, values, hw, htext, hwhole, hbound, hbinds⟩ :=
    clausesWalk_of_text hscalar hu hsub hlength h
  refine ⟨w, hw, htext, hwhole, ?_⟩
  rw [hbound, hbinds.eq_of_places hplaces]

end

end Update

end BoundSql
