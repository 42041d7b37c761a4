import BoundSql.Proofs.Binding
import BoundSql.Proofs.Places
import BoundSql.Proofs.PlainSteps

/-!
# Deferred values

The arguments for a record are the arguments without one, each marker replaced by the value that
the record gives for the marker's own column.

* `Step.placed`, `Statement.places`   the arguments without a record, with a column for each marker;
* `Statement.Unmarked`                nobody but the statement puts markers among the arguments;
* `Record.Gave`                       the answer of a record to one request;
* `Record.AnswersAt`                  the answers to the requests that the places ask for;
* `Begun`, `Ended`, `BoundFor`        the steps in front, the plain ones behind them, and all of them;
* `Statement.buildArgs_deferred`      the arguments for a record.
-/

namespace BoundSql

/-! ## places -/

/-- the step carried out without a record; markers remember their columns -/
def Step.placed (places : List Place) : Step → Except Error (List Place)
  | .push a => .ok (places ++ [.held a])
  | .defer column => .ok (places ++ [.awaited .conditions column])
  | .assign columns => .ok (places ++ columns.map (.awaited .set))
  | .row _ => .ok places
  | .given record columns => do
    let c ← Collected.ask ⟨places.map Place.argument, []⟩ record .insert .values columns
    return c.args.map .held
  | .fail e => .error e

/-- the arguments without a record, with a column for each marker -/
def Statement.places (s : Statement) : Except Error (List Place) := do
  s.validate
  s.steps.foldlM Step.placed []

/-- the place of the argument that a plain step adds -/
def Step.place? : Step → Option Place
  | .push a => some (.held a)
  | .defer column => some (.awaited .conditions column)
  | _ => none

/-! ## records -/

/-- the values are the record's answer to a request for the columns; nothing is asked for no
columns -/
def Record.Gave (r : Record) (kind : StatementKind) (part : Part) (columns : List String)
    (values : Arguments) : Prop :=
  values.length = columns.length ∧
    (columns = [] ∨ ∃ before, r.assemble kind part before columns = .ok (before ++ values))

/-- the record answers the requests for the columns that the places wait for, if there are any -/
structure Record.AnswersAt (r : Record) (p : Argument → Prop) (kind : StatementKind)
    (places : List Place) : Prop where
  set : Place.columnsIn .set places ≠ [] →
    r.Answers p .update .set (Place.columnsIn .set places)
  conditions : Place.columnsIn .conditions places ≠ [] →
    r.Answers p kind .conditions (Place.columnsIn .conditions places)

/-- no marker is put among the arguments by the caller or by a record that the statement holds -/
def Step.Unmarked : Step → Prop
  | .push a => a ≠ .pending
  | .given record columns => ∀ args out, record.assemble .insert .values args columns = .ok out →
      .pending ∉ args → .pending ∉ out
  | _ => True

def Statement.Unmarked (s : Statement) : Prop := ∀ step ∈ s.steps, step.Unmarked

/-! ## plain steps -/

theorem runSteps_append_inv {s : Subject} {c c' : Collected} {ss rs : List Step}
    (h : (runSteps s c (ss ++ rs)).2 = .ok c') :
    ∃ d, (runSteps s c ss).2 = .ok d ∧ (runSteps s d rs).2 = .ok c' := by
  induction ss generalizing c with
  | nil => exact ⟨c, rfl, h⟩
  | cons step ss ih =>
    cases hstep : step.run s c with
    | error e =>
      rw [List.cons_append, runSteps_cons_error hstep] at h
      cases h
    | ok d =>
      rw [List.cons_append, runSteps_cons_ok hstep] at h
      rw [runSteps_cons_ok hstep]
      exact ih h

/-- plain steps that succeed add an argument each -/
theorem places_of_plain {s : Subject} {c c' : Collected} {steps : List Step} (hp : Plain steps)
    (h : (runSteps s c steps).2 = .ok c') :
    ∃ places : List Place, steps.map Step.place? = places.map some := by
  induction steps generalizing c with
  | nil => exact ⟨[], rfl⟩
  | cons step steps ih =>
    have hrest : ∀ d, step.run s c = .ok d →
        ∃ places : List Place, steps.map Step.place? = places.map some := by
      intro d hd
      rw [runSteps_cons_ok hd] at h
      exact ih (fun step hstep => hp step (List.mem_cons_of_mem _ hstep)) h
    have hplain := hp step (List.mem_cons_self ..)
    cases step with
    | push a =>
      obtain ⟨places, hplaces⟩ := hrest _ rfl
      exact ⟨.held a :: places, by rw [List.map_cons, hplaces]; rfl⟩
    | defer column =>
      obtain ⟨places, hplaces⟩ := hrest _ rfl
      exact ⟨.awaited .conditions column :: places, by rw [List.map_cons, hplaces]; rfl⟩
    | fail e => cases h
    | assign | row | given => cases hplain

section
variable {steps : List Step} {places : List Place} (h : steps.map Step.place? = places.map some)
include h

/-- what plain steps add does not depend on the subject -/
theorem runSteps_of_places (s : Subject) (c : Collected) :
    runSteps s c steps = ([], .ok ⟨c.args ++ places.map Place.argument,
      c.deferred ++ Place.deferredFrom c.args.length places⟩) := by
  induction steps generalizing places c with
  | nil =>
    cases places with
    | nil => simp [runSteps, Place.deferredFrom]
    | cons p places => cases h
  | cons step steps ih =>
    cases places with
    | nil => cases h
    | cons p places =>
      obtain ⟨hp, hplaces⟩ := List.cons.inj h
      cases step with
      | push a =>
        cases hp
        rw [runSteps_cons_ok rfl, ih hplaces]
        simp [Step.calls, Collected.push, Place.argument, Place.deferredFrom]
      | defer column =>
        cases hp
        rw [runSteps_cons_ok rfl, ih hplaces]
        simp [Step.calls, Collected.defer, Place.argument, Place.deferredFrom]
      | assign | row | given | fail => cases hp

theorem foldlM_placed (front : List Place) :
    steps.foldlM Step.placed front = .ok (front ++ places) := by
  induction steps generalizing places front with
  | nil =>
    cases places with
    | nil => exact congrArg Except.ok (List.append_nil front).symm
    | cons p places => cases h
  | cons step steps ih =>
    cases places with
    | nil => cases h
    | cons p places =>
      obtain ⟨hp, hplaces⟩ := List.cons.inj h
      have hrest := ih hplaces (front ++ [p])
      rw [List.append_assoc] at hrest
      cases step with
      | push a =>
        cases hp
        exact hrest
      | defer column =>
        cases hp
        exact hrest
      | assign | row | given | fail => cases hp

theorem columnsIn_of_places (start : Nat) :
    Place.columnsIn .set places = [] ∧
      Place.columnsIn .conditions places = (Place.deferredFrom start places).map (·.2) := by
  induction steps generalizing places start with
  | nil =>
    cases places with
    | nil => exact ⟨rfl, rfl⟩
    | cons p places => cases h
  | cons step steps ih =>
    cases places with
    | nil => cases h
    | cons p places =>
      obtain ⟨hp, hplaces⟩ := List.cons.inj h
      obtain ⟨hset, hconditions⟩ := ih hplaces (start + 1)
      cases step with
      | push a =>
        cases hp
        exact ⟨hset, hconditions⟩
      | defer column =>
        cases hp
        exact ⟨hset, congrArg (column :: ·) hconditions⟩
      | assign | row | given | fail => cases hp

theorem mem_steps_of_held {a : Argument} (ha : .held a ∈ places) : .push a ∈ steps := by
  have hmem : some (Place.held a) ∈ steps.map Step.place? := by
    rw [h]
    exact List.mem_map_of_mem ha
  obtain ⟨step, hstep, hplace⟩ := List.mem_map.mp hmem
  cases step with
  | push b =>
    cases hplace
    exact hstep
  | defer | assign | row | given | fail => cases hplace

end

/-! ## the beginning of the steps -/

theorem Collected.ask_inv {c c' : Collected} {r : Record} {kind : StatementKind} {part : Part}
    {columns : List String} (h : c.ask r kind part columns = .ok c') :
    r.assemble kind part c.args columns = .ok c'.args ∧ c'.deferred = c.deferred := by
  obtain ⟨args, hargs, h⟩ := bind_ok h
  simp only at h
  split at h
  · cases h
  · cases h
    exact ⟨hargs, rfl⟩

/-- steps carried out without a record and for one: what they add, what the record gives for columns
to be set, and what it is asked -/
structure Begun (r : Record) (front : List Step) (places : List Place) (given args : Arguments)
    (calls : List Call) : Prop where
  placed : front.foldlM Step.placed [] = .ok places
  without : (runSteps (.filling none) .empty front).2 = .ok ⟨places.map Place.argument, []⟩
  filled : runSteps (.filling (some r)) .empty front = (calls, .ok ⟨args, []⟩)
  gave : r.Gave .update .set (Place.columnsIn .set places) given
  fills : Fills places ((Place.columnsIn .set places).zip given) args
  conditions : Place.columnsIn .conditions places = []
  held : ∀ a, .held a ∈ places → a ≠ .pending
  unmarked : .pending ∉ given
  sets : (calls.filter fun call => call.part = .set).length ≤ 1
  others : calls.filter (fun call => call.part = .conditions) = []

theorem columnsIn_held (part : Part) (as : Arguments) :
    Place.columnsIn part (as.map .held) = [] := by
  induction as with
  | nil => rfl
  | cons a as ih => exact ih

theorem columnsIn_awaited (part : Part) (columns : List String) :
    Place.columnsIn part (columns.map (.awaited part)) = columns := by
  have hsome : Place.awaits? part ∘ Place.awaited part = some := by
    funext column
    exact if_pos rfl
  unfold Place.columnsIn
  rw [List.filterMap_map, hsome, List.filterMap_some]

/-- a fixed step does the same with and without a record -/
theorem step_of_fixed (r : Record) {step : Step} (hfixed : step.IsFixed) (hmark : step.Unmarked)
    {args : Arguments} (hargs : .pending ∉ args) {d : Collected}
    (h : step.run (.filling none) ⟨args, []⟩ = .ok d) :
    ∃ args', d = ⟨args', []⟩ ∧ .pending ∉ args' ∧
      step.placed (args.map .held) = .ok (args'.map .held) ∧
      step.run (.filling (some r)) ⟨args, []⟩ = .ok d ∧
      step.calls (.filling (some r)) ⟨args, []⟩ = step.calls (.filling none) ⟨args, []⟩ ∧
      ∀ call ∈ step.calls (.filling none) ⟨args, []⟩, call.part = .values := by
  cases step with
  | push a =>
    cases h
    refine ⟨args ++ [a], rfl, fun hmem => ?_, ?_, rfl, rfl, fun call hcall => by cases hcall⟩
    · rcases List.mem_append.mp hmem with hmem | hmem
      · exact hargs hmem
      · exact hmark (List.mem_singleton.mp hmem).symm
    · rw [List.map_append]
      rfl
  | row columns =>
    have hrun : ∀ record : Option Record,
        (Step.row columns).run (.filling record) ⟨args, []⟩ = .ok ⟨args, []⟩ :=
      fun record => if_pos (.inr rfl)
    have hcalls : (Step.row columns).calls (.filling (some r)) ⟨args, []⟩ = [] := if_pos (.inr rfl)
    rw [hrun] at h
    cases h
    exact ⟨args, rfl, hargs, rfl, hrun (some r), hcalls, fun call hcall => by cases hcall⟩
  | given record columns =>
    obtain ⟨hassemble, hdeferred⟩ := Collected.ask_inv h
    obtain ⟨args', deferred⟩ := d
    cases hdeferred
    refine ⟨args', rfl, hmark args args' hassemble hargs, ?_, h, rfl, fun call hcall => ?_⟩
    · have hask : Collected.ask ⟨(args.map Place.held).map Place.argument, []⟩ record .insert
          .values columns = .ok ⟨args', []⟩ := by
        rw [Place.map_argument_held]
        exact h
      show (Collected.ask _ record .insert .values columns >>= _) = _
      rw [hask]
      rfl
    · rw [List.mem_singleton.mp hcall]
      rfl
  | assign | defer | fail => cases hfixed

theorem run_of_fixed (r : Record) {front : List Step} (hfixed : ∀ step ∈ front, step.IsFixed)
    (hunmarked : ∀ step ∈ front, step.Unmarked) {args : Arguments} (hargs : .pending ∉ args)
    {c : Collected} (h : (runSteps (.filling none) ⟨args, []⟩ front).2 = .ok c) :
    ∃ args', c = ⟨args', []⟩ ∧ .pending ∉ args' ∧
      front.foldlM Step.placed (args.map .held) = .ok (args'.map .held) ∧
      ∃ calls, runSteps (.filling (some r)) ⟨args, []⟩ front = (calls, .ok c) ∧
        ∀ call ∈ calls, call.part = .values := by
  induction front generalizing args with
  | nil =>
    cases h
    exact ⟨args, rfl, hargs, rfl, [], rfl, fun call hcall => by cases hcall⟩
  | cons step front ih =>
    cases hstep : step.run (.filling none) ⟨args, []⟩ with
    | error e =>
      rw [runSteps_cons_error hstep] at h
      cases h
    | ok d =>
      rw [runSteps_cons_ok hstep] at h
      obtain ⟨args₁, rfl, hargs₁, hplaced, hrun, hcalls, hpart⟩ := step_of_fixed r
        (hfixed step (List.mem_cons_self ..)) (hunmarked step (List.mem_cons_self ..)) hargs hstep
      obtain ⟨args', hc, hargs', hfold, calls, hruns, hparts⟩ :=
        ih (fun step hs => hfixed step (List.mem_cons_of_mem _ hs))
          (fun step hs => hunmarked step (List.mem_cons_of_mem _ hs)) hargs₁ h
      refine ⟨args', hc, hargs', ?_, step.calls (.filling (some r)) ⟨args, []⟩ ++ calls, ?_,
        fun call hcall => ?_⟩
      · rw [List.foldlM_cons, hplaced]
        exact hfold
      · rw [runSteps_cons_ok hrun, hruns]
      · rcases List.mem_append.mp hcall with hcall | hcall
        · rw [hcalls] at hcall
          exact hpart call hcall
        · exact hparts call hcall

/-- a value that a record may give -/
def IsValue (a : Argument) : Prop := a ≠ .pending

theorem begun_of_fixed (r : Record) {front : List Step} (hfixed : ∀ step ∈ front, step.IsFixed)
    (hunmarked : ∀ step ∈ front, step.Unmarked) {c : Collected}
    (h : (runSteps (.filling none) .empty front).2 = .ok c) :
    ∃ places args calls, Begun r front places [] args calls := by
  obtain ⟨args, rfl, hargs, hfold, calls, hruns, hparts⟩ :=
    run_of_fixed r hfixed hunmarked List.not_mem_nil h
  have hset := columnsIn_held .set args
  refine ⟨args.map .held, args, calls, hfold, ?_, hruns, ?_, ?_, columnsIn_held _ args, ?_,
    List.not_mem_nil, ?_, ?_⟩
  · rw [Place.map_argument_held]
    exact h
  · rw [hset]
    exact ⟨rfl, .inl rfl⟩
  · rw [hset]
    exact fills_held args
  · intro a ha hpending
    obtain ⟨b, hb, hab⟩ := List.mem_map.mp ha
    cases hab
    exact hargs (hpending ▸ hb)
  · rw [List.filter_eq_nil_iff.mpr fun call hcall => by simp [hparts call hcall]]
    exact Nat.zero_le 1
  · exact List.filter_eq_nil_iff.mpr fun call hcall => by simp [hparts call hcall]

theorem begun_of_assign {r : Record} {columns : List String}
    (hr : columns ≠ [] → r.Answers IsValue .update .set columns) :
    ∃ places given args calls, Begun r [.assign columns] places given args calls := by
  have hset := columnsIn_awaited .set columns
  have hmarkers : (columns.map (Place.awaited .set)).map Place.argument =
      columns.map fun _ => .pending := List.map_map
  by_cases hcolumns : columns = []
  · subst hcolumns
    exact ⟨[], [], [], [], rfl, rfl, rfl, ⟨rfl, .inl rfl⟩, .nil, rfl, by simp, by simp, by simp, rfl⟩
  · obtain ⟨values, hassemble, hlength, hvalues⟩ := hr hcolumns []
    have hwithout : (Step.assign columns).run (.filling none) .empty =
        .ok ⟨columns.map fun _ => .pending, []⟩ := by
      show (if columns = [] then _ else _) = _
      rw [if_neg hcolumns]
      rfl
    have hfilled : (Step.assign columns).run (.filling (some r)) .empty = .ok ⟨values, []⟩ := by
      show (if columns = [] then _ else _) = _
      rw [if_neg hcolumns]
      exact Collected.ask_ok hassemble hlength
    have hcalls : (Step.assign columns).calls (.filling (some r)) .empty =
        [Collected.empty.call r .update .set columns] := if_neg hcolumns
    refine ⟨columns.map (.awaited .set), values, values,
      [Collected.empty.call r .update .set columns], rfl, ?_, ?_, ?_, ?_, ?_, ?_, ?_, ?_, rfl⟩
    · rw [runSteps_cons_ok hwithout, hmarkers]
      rfl
    · rw [runSteps_cons_ok hfilled, hcalls]
      rfl
    · rw [hset]
      exact ⟨hlength, .inr ⟨[], hassemble⟩⟩
    · rw [hset]
      exact fills_awaited .set hlength
    · refine List.filterMap_eq_nil_iff.mpr fun place hplace => ?_
      obtain ⟨column, _, rfl⟩ := List.mem_map.mp hplace
      rfl
    · intro a ha
      obtain ⟨column, _, hcolumn⟩ := List.mem_map.mp ha
      cases hcolumn
    · exact fun hmem => hvalues _ hmem rfl
    · exact Nat.le_refl 1

/-! ## deferred conditions -/

/-- the list of values fits the columns of deferred conditions -/
theorem exists_fills {steps : List Step} {places : List Place}
    (h : steps.map Step.place? = places.map some) {values : Arguments}
    (hlength : values.length = (Place.columnsIn .conditions places).length) :
    ∃ out, Fills places ((Place.columnsIn .conditions places).zip values) out := by
  induction steps generalizing places values with
  | nil =>
    cases places with
    | nil =>
      exact ⟨[], .nil⟩
    | cons p places => cases h
  | cons step steps ih =>
    cases places with
    | nil => cases h
    | cons p places =>
      obtain ⟨hp, hplaces⟩ := List.cons.inj h
      cases step with
      | push a =>
        cases hp
        obtain ⟨out, hout⟩ := ih hplaces hlength
        exact ⟨a :: out, .held a hout⟩
      | defer column =>
        cases hp
        cases values with
        | nil => cases hlength
        | cons v values =>
          obtain ⟨out, hout⟩ := ih hplaces (Nat.succ.inj hlength)
          exact ⟨v :: out, .awaited .conditions column v hout⟩
      | assign | row | given | fail => cases hp

/-- plain steps behind other arguments, once they are done: the record answers for all deferred
conditions at once, and each value moves to its marker -/
structure Ended (r : Record) (kind : StatementKind) (rest : List Step) (front : Arguments)
    (places : List Place) (given args : Arguments) (calls : List Call) : Prop where
  placed : rest.map Step.place? = places.map some
  gave : r.Gave kind .conditions (Place.columnsIn .conditions places) given
  unmarked : .pending ∉ given
  fills : Fills places ((Place.columnsIn .conditions places).zip given) args
  finished : Collected.finish (.filling (some r)) kind
    ⟨front ++ places.map Place.argument, Place.deferredFrom front.length places⟩ =
      (calls, .ok (front ++ args))
  once : calls.length ≤ 1
  part : ∀ call ∈ calls, call.part = .conditions

theorem finish_of_places {r : Record} {kind : StatementKind} {steps : List Step}
    {places : List Place} (h : steps.map Step.place? = places.map some) (front : Arguments)
    (hr : Place.columnsIn .conditions places ≠ [] →
      r.Answers IsValue kind .conditions (Place.columnsIn .conditions places)) :
    ∃ given out calls, Ended r kind steps front places given out calls := by
  have hcolumns := (columnsIn_of_places h front.length).2
  by_cases hnone : Place.deferredFrom front.length places = []
  · rw [hnone] at hcolumns
    have hempty : Place.columnsIn .conditions places = [] := hcolumns
    obtain ⟨out, hout⟩ := @exists_fills steps places h [] (by rw [hempty]; rfl)
    have hfinish : Collected.finish (.filling (some r)) kind
        ⟨front ++ places.map Place.argument, Place.deferredFrom front.length places⟩ =
          ([], .ok (front ++ out)) := by
      have hnothing := hout
      rw [List.zip_nil_right] at hnothing
      rw [hnothing.eq_of_nil]
      exact if_pos hnone
    refine ⟨[], out, [], h, ⟨by rw [hempty]; rfl, .inl hempty⟩, List.not_mem_nil, hout, hfinish,
      Nat.zero_le 1, fun call hcall => ?_⟩
    cases hcall
  · have hsome : Place.columnsIn .conditions places ≠ [] := fun hempty =>
      hnone (List.map_eq_nil_iff.mp (hcolumns.symm.trans hempty))
    obtain ⟨given, hassemble, hlength, hgiven⟩ := hr hsome (front ++ places.map Place.argument)
    obtain ⟨out, hout⟩ := exists_fills h hlength
    have hvalues : ((Place.columnsIn .conditions places).zip given).map (·.2) = given :=
      List.map_snd_zip (Nat.le_of_eq hlength)
    have hbackfill := backfill_of_fills hout front
    rw [hvalues] at hbackfill
    let c : Collected := ⟨front ++ places.map Place.argument, Place.deferredFrom front.length places⟩
    have hfill : c.fill r kind = .ok (front ++ out) := by
      unfold Collected.fill
      rw [← hcolumns, hassemble]
      let moved := backfill (front ++ places.map Place.argument ++ given)
        ((Place.deferredFrom front.length places).map (·.1))
        (front ++ places.map Place.argument).length
      show (moved.2 >>= fun _ => Except.ok moved.1) = _
      rw [show moved = (front ++ out, .ok ()) from hbackfill]
      rfl
    have hfinish : c.finish (.filling (some r)) kind =
        ([c.call r kind .conditions (c.deferred.map (·.2))], c.fill r kind) := if_neg hnone
    rw [hfill] at hfinish
    refine ⟨given, out, _, h, ⟨hlength, .inr ⟨_, hassemble⟩⟩, fun hmem => hgiven _ hmem rfl, hout,
      hfinish, Nat.le_refl 1, fun call hcall => ?_⟩
    rw [List.mem_singleton.mp hcall]
    rfl

/-! ## arguments for a record -/

theorem bindSteps_ok {s : Subject} {kind : StatementKind} {steps : List Step} {args : Arguments}
    (h : (bindSteps s kind steps).2 = .ok args) :
    ∃ c, (runSteps s .empty steps).2 = .ok c ∧ (c.finish s kind).2 = .ok args := by
  unfold bindSteps at h
  cases hrun : runSteps s .empty steps with
  | mk calls result =>
    rw [hrun] at h
    cases result with
    | error e => cases h
    | ok c => exact ⟨c, rfl, h⟩

theorem bindSteps_of_run {s : Subject} {kind : StatementKind} {steps : List Step}
    {calls last : List Call} {c : Collected} {args : Arguments}
    (hrun : runSteps s .empty steps = (calls, .ok c)) (hfinish : c.finish s kind = (last, .ok args)) :
    bindSteps s kind steps = (calls ++ last, .ok args) := by
  unfold bindSteps
  rw [hrun]
  show ((calls ++ (c.finish s kind).1, (c.finish s kind).2) : _ × _) = _
  rw [hfinish]

/-- the beginning of a statement's steps without a record and with one -/
theorem exists_begun {r : Record} {front : List Step}
    (hfront : (∃ columns, front = [.assign columns]) ∨ ∀ step ∈ front, step.IsFixed)
    (hr : ∀ columns, front = [.assign columns] → columns ≠ [] →
      r.Answers IsValue .update .set columns)
    (hunmarked : ∀ step ∈ front, step.Unmarked) {c : Collected}
    (h : (runSteps (.filling none) .empty front).2 = .ok c) :
    ∃ places given args calls, Begun r front places given args calls ∧
      c = ⟨places.map Place.argument, []⟩ := by
  have hbegun : ∃ places given args calls, Begun r front places given args calls := by
    rcases hfront with ⟨columns, rfl⟩ | hfixed
    · exact begun_of_assign (hr columns rfl)
    · obtain ⟨places, args, calls, hb⟩ := begun_of_fixed r hfixed hunmarked h
      exact ⟨places, [], args, calls, hb⟩
  obtain ⟨places, given, args, calls, hb⟩ := hbegun
  refine ⟨places, given, args, calls, hb, ?_⟩
  rw [hb.without] at h
  exact (Except.ok.inj h).symm

/-- what the steps of a statement come to: their places, what the record gives for columns to be set
and for deferred conditions, and the arguments with all of it in place -/
structure BoundFor (r : Record) (kind : StatementKind) (steps : List Step) (places : List Place)
    (sets conditions args : Arguments) : Prop where
  placed : steps.foldlM Step.placed [] = .ok places
  bound : (bindSteps (.filling (some r)) kind steps).2 = .ok args
  gaveSets : r.Gave .update .set (Place.columnsIn .set places) sets
  gaveConditions : r.Gave kind .conditions (Place.columnsIn .conditions places) conditions
  fills : Fills places ((Place.columnsIn .set places).zip sets ++
    (Place.columnsIn .conditions places).zip conditions) args
  unmarked : .pending ∉ args
  onceSets : ((bindSteps (.filling (some r)) kind steps).1.filter
    fun call => call.part = .set).length ≤ 1
  onceConditions : ((bindSteps (.filling (some r)) kind steps).1.filter
    fun call => call.part = .conditions).length ≤ 1

section
variable {r : Record} {kind : StatementKind} {front rest : List Step} {fronts rests : List Place}
variable {sets staged conditions out : Arguments} {calls last : List Call}
variable (hb : Begun r front fronts sets staged calls)
  (he : Ended r kind rest staged rests conditions out last)
include hb he

theorem Begun.columnsIn_append :
    Place.columnsIn .set (fronts ++ rests) = Place.columnsIn .set fronts ∧
      Place.columnsIn .conditions (fronts ++ rests) = Place.columnsIn .conditions rests := by
  rw [Place.columnsIn_append, Place.columnsIn_append, (columnsIn_of_places he.placed 0).1,
    hb.conditions, List.append_nil, List.nil_append]
  exact ⟨rfl, rfl⟩

theorem Begun.bindSteps_append :
    bindSteps (.filling (some r)) kind (front ++ rest) = (calls ++ last, .ok (staged ++ out)) := by
  have hstaged : (runSteps (.filling (some r)) .empty front).2 = .ok ⟨staged, []⟩ := by
    rw [hb.filled]
  refine bindSteps_of_run ?_ he.finished
  rw [runSteps_append_ok hstaged, hb.filled, runSteps_of_places he.placed]
  simp

theorem Begun.unmarked_append (hunmarked : ∀ step ∈ rest, step.Unmarked) :
    .pending ∉ staged ++ out := by
  refine (hb.fills.append he.fills).unmarked ?_ ?_
  · intro a ha
    rcases List.mem_append.mp ha with ha | ha
    · exact hb.held a ha
    · exact hunmarked _ (mem_steps_of_held he.placed ha)
  · intro answer hanswer hpending
    rcases List.mem_append.mp hanswer with hanswer | hanswer
    · exact hb.unmarked (hpending ▸ (List.of_mem_zip hanswer).2)
    · exact he.unmarked (hpending ▸ (List.of_mem_zip hanswer).2)

theorem Begun.bound (hunmarked : ∀ step ∈ rest, step.Unmarked) :
    BoundFor r kind (front ++ rest) (fronts ++ rests) sets conditions (staged ++ out) := by
  obtain ⟨hsets, hconditions⟩ := hb.columnsIn_append he
  have hbind := hb.bindSteps_append he
  refine ⟨?_, congrArg Prod.snd hbind, hsets ▸ hb.gave, hconditions ▸ he.gave, ?_,
    hb.unmarked_append he hunmarked, ?_, ?_⟩
  · rw [List.foldlM_append, hb.placed]
    exact foldlM_placed he.placed fronts
  · rw [hsets, hconditions]
    exact hb.fills.append he.fills
  · have hnone : last.filter (fun call => call.part = .set) = [] :=
      List.filter_eq_nil_iff.mpr fun call hcall => by simp [he.part call hcall]
    rw [hbind, List.filter_append, hnone, List.append_nil]
    exact hb.sets
  · rw [hbind, List.filter_append, hb.others, List.nil_append]
    exact Nat.le_trans (List.length_filter_le _ _) he.once

end

/-- what the record answers for the places of all steps, it answers for those of either half -/
theorem exists_bound {r : Record} {kind : StatementKind} {front rest : List Step}
    (hr : ∀ places, (front ++ rest).foldlM Step.placed [] = .ok places →
      r.AnswersAt IsValue kind places) (hplain : Plain rest)
    (hfront : (∃ columns, front = [.assign columns]) ∨ ∀ step ∈ front, step.IsFixed)
    (hunmarked : ∀ step ∈ front ++ rest, step.Unmarked) {args : Arguments}
    (h : (bindSteps (.filling none) kind (front ++ rest)).2 = .ok args) :
    ∃ places sets conditions filled, args = places.map Place.argument ∧
      BoundFor r kind (front ++ rest) places sets conditions filled := by
  obtain ⟨c, hrun, hargs⟩ := bindSteps_ok h
  obtain ⟨d, hrunFront, hrunRest⟩ := runSteps_append_inv hrun
  obtain ⟨rests, hrests⟩ := places_of_plain hplain hrunRest
  have hanswers : ∀ fronts, front.foldlM Step.placed [] = .ok fronts →
      r.AnswersAt IsValue kind (fronts ++ rests) := by
    intro fronts hfronts
    refine hr _ ?_
    rw [List.foldlM_append, hfronts]
    exact foldlM_placed hrests fronts
  have hassigned : ∀ columns, front = [.assign columns] → columns ≠ [] →
      r.Answers IsValue .update .set columns := by
    rintro columns rfl hcolumns
    have hset := (hanswers (columns.map (.awaited .set)) rfl).set
    rw [Place.columnsIn_append, columnsIn_awaited, (columnsIn_of_places hrests 0).1,
      List.append_nil] at hset
    exact hset hcolumns
  obtain ⟨fronts, sets, staged, calls, hb, rfl⟩ := exists_begun hfront hassigned
    (fun step hstep => hunmarked step (List.mem_append_left _ hstep)) hrunFront
  have hconditions := (hanswers fronts hb.placed).conditions
  rw [Place.columnsIn_append, hb.conditions, List.nil_append] at hconditions
  obtain ⟨conditions, out, last, he⟩ := finish_of_places hrests staged hconditions
  have hplaces : args = (fronts ++ rests).map Place.argument := by
    rw [runSteps_of_places hrests] at hrunRest
    cases hrunRest
    cases hargs
    exact List.map_append.symm
  exact ⟨fronts ++ rests, sets, conditions, staged ++ out, hplaces,
    hb.bound he fun step hstep => hunmarked step (List.mem_append_right _ hstep)⟩

def scattered : Update where
  table := "t"
  recordColumns := ["a", "b"]
  wheres :=
    [(ConditionOf.column "k").placeholder,
      ((ConditionOf.column "x").op .inList).sub (.mk
        { table := "u",
          wheres := [(ConditionOf.column "y").arg (.int 7), (ConditionOf.column "z").placeholder] }),
      (ConditionOf.column "m").placeholder]

/-- a record that gives the columns it knows their own names, and refuses all others -/
def knowing (names : List String) : Record where
  label := "known"
  assemble _ _ args columns :=
    match columns.find? (· ∉ names) with
    | some column => .error (.reported .notSupported ("column " ++ column))
    | none => .ok (args ++ columns.map .string)

theorem answers_knowing {p : Argument → Prop} (hp : ∀ t, p (.string t)) {names columns : List String}
    (h : ∀ column ∈ columns, column ∈ names) (kind : StatementKind) (part : Part) :
    (knowing names).Answers p kind part columns := by
  intro args
  have hnone : columns.find? (· ∉ names) = none := by simpa using h
  refine ⟨columns.map .string, ?_, List.length_map _, fun v hv => ?_⟩
  · simp only [knowing, hnone]
  · obtain ⟨column, _, rfl⟩ := List.mem_map.mp hv
    exact hp column

theorem not_answers_knowing {names : List String} {column : String} (h : column ∉ names)
    (p : Argument → Prop) (kind : StatementKind) (part : Part) :
    ¬ (knowing names).Answers p kind part [column] := by
  intro hanswers
  obtain ⟨values, hassemble, _⟩ := hanswers []
  have hsome : [column].find? (· ∉ names) = some column := by simp [h]
  simp only [knowing, hsome] at hassemble
  cases hassemble

theorem unmarked_scattered : (Statement.update scattered).Unmarked := by
  have hsteps : (Statement.update scattered).steps =
      [.assign ["a", "b"], .defer "k", .push (.int 7), .defer "z", .defer "m"] := by rfl
  intro step hstep
  rw [hsteps] at hstep
  simp only [List.mem_cons, List.not_mem_nil, or_false] at hstep
  rcases hstep with rfl | rfl | rfl | rfl | rfl
  case inr.inr.inl => exact Argument.noConfusion
  all_goals trivial

theorem answersAt_scattered (places : List Place)
    (h : (Statement.update scattered).places = .ok places) :
    (knowing ["a", "b", "k", "z", "m"]).AnswersAt IsValue .update places := by
  have hplaces : (Statement.update scattered).places =
      .ok [.awaited .set "a", .awaited .set "b", .awaited .conditions "k", .held (.int 7),
        .awaited .conditions "z", .awaited .conditions "m"] := by rfl
  cases hplaces.symm.trans h
  have hvalue : ∀ t, IsValue (.string t) := fun t => Argument.noConfusion
  exact ⟨fun _ => answers_knowing hvalue (by decide) _ _,
    fun _ => answers_knowing hvalue (by decide) _ _⟩

end BoundSql
