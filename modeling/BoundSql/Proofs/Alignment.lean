import BoundSql.Proofs.Schedule
import BoundSql.Proofs.Supplied

/-!
# Values at their placeholders

The prepared text takes the values of a record once their number is right.  The number is right with
one value for each argument, and then every value stands at the placeholder of its own column.  It
can also be right with an empty list that makes up for a longer one.

* `Argument.Gives`              the one value of an argument;
* `Arguments.one_or_uneven`     arguments with as many values as there are arguments;
* `Mutation.Carries`            what records supply for a statement, all of its arguments, and the
                                walk with each argument in its place;
* `Insert.carried`, `Update.carried`   what a statement carries when the number of values is right;
* `Bulk.request_carried`        the values bound for a record;
* `Bulk.run_aligned`            the values that reach a driver, in any run;
* `Bulk.run_aligned_shifted`    a run in which an empty list makes up for a longer one.
-/

namespace BoundSql

open Happening Placeholder

/-! ## one value for each argument -/

/-- the argument has one value, and this is it -/
def Argument.Gives (a v : Argument) : Prop := a.scalars = .ok [v]

theorem Argument.gives_members {a : Argument} {values : Arguments} (h : a.scalars = .ok values) :
    List.Forall₂ Gives a.members values := by
  cases a with
  | bools vs | ints vs | floats vs | strings vs | bytesList vs | times vs =>
    cases h
    refine List.forall₂_same.mpr fun v hv => ?_
    obtain ⟨_, _, rfl⟩ := List.mem_map.mp hv
    rfl
  | value identity look resolved =>
    obtain ⟨scalar, rfl⟩ : ∃ scalar, values = [scalar] :=
      List.length_eq_one_iff.mp (Argument.length_scalars h)
    exact .cons h .nil
  | pending => cases h
  | null | bool | int | float | string | bytes | time =>
    cases h
    exact .cons rfl .nil

namespace Arguments

theorem flatten_append_inv {as bs values : Arguments} (h : (as ++ bs).flatten = .ok values) :
    ∃ us vs, as.flatten = .ok us ∧ bs.flatten = .ok vs ∧ values = us ++ vs := by
  induction as generalizing values with
  | nil => exact ⟨[], values, rfl, h, rfl⟩
  | cons a as ih =>
    obtain ⟨first, hfirst, h⟩ := bind_ok h
    obtain ⟨rest, hrest, h⟩ := bind_ok h
    cases h
    obtain ⟨us, vs, hus, hvs, rfl⟩ := ih hrest
    exact ⟨first ++ us, vs, flatten_cons_ok hfirst hus, hvs, (List.append_assoc ..).symm⟩

theorem gives_append {as bs us vs : Arguments} (h : List.Forall₂ Argument.Gives as us)
    (h' : List.Forall₂ Argument.Gives bs vs) :
    List.Forall₂ Argument.Gives (as ++ bs) (us ++ vs) := List.rel_append h h'

theorem gives_members {as values : Arguments} (h : as.flatten = .ok values) :
    List.Forall₂ Argument.Gives (as.flatMap Argument.members) values := by
  induction as generalizing values with
  | nil =>
    cases h
    exact .nil
  | cons a as ih =>
    obtain ⟨first, hfirst, h⟩ := bind_ok h
    obtain ⟨rest, hrest, h⟩ := bind_ok h
    cases h
    exact gives_append (Argument.gives_members hfirst) (ih hrest)

theorem gives_of_slots {as values : Arguments} (hslots : ∀ a ∈ as, a.slots = 1)
    (h : as.flatten = .ok values) : List.Forall₂ Argument.Gives as values := by
  induction as generalizing values with
  | nil =>
    cases h
    exact .nil
  | cons a as ih =>
    obtain ⟨first, hfirst, h⟩ := bind_ok h
    obtain ⟨rest, hrest, h⟩ := bind_ok h
    cases h
    obtain ⟨v, rfl⟩ := List.length_eq_one_iff.mp
      ((Argument.length_scalars hfirst).trans (hslots a (List.mem_cons_self ..)))
    exact .cons hfirst (ih (fun b hb => hslots b (List.mem_cons_of_mem _ hb)) hrest)

theorem unmarked_of_flatten {as values : Arguments} (h : as.flatten = .ok values) :
    .pending ∉ as := by
  induction as generalizing values with
  | nil => exact List.not_mem_nil
  | cons a as ih =>
    obtain ⟨first, hfirst, h⟩ := bind_ok h
    obtain ⟨rest, hrest, h⟩ := bind_ok h
    intro hmem
    rcases List.mem_cons.mp hmem with rfl | hmem
    · cases hfirst
    · exact ih hrest hmem

theorem slotCount_le {as : Arguments} (h : ∀ a ∈ as, a.slots ≤ 1) :
    as.slotCount ≤ as.length ∧ (as.slotCount = as.length → ∀ a ∈ as, a.slots = 1) := by
  induction as with
  | nil => exact ⟨Nat.le_refl 0, fun _ _ ha => absurd ha List.not_mem_nil⟩
  | cons a as ih =>
    have ha := h a (List.mem_cons_self ..)
    obtain ⟨hle, hall⟩ := ih fun b hb => h b (List.mem_cons_of_mem _ hb)
    rw [slotCount_cons, List.length_cons]
    refine ⟨by omega, fun heq => List.forall_mem_cons.mpr ⟨by omega, hall (by omega)⟩⟩

theorem length_le_slotCount {as : Arguments} (h : ∀ a ∈ as, 1 ≤ a.slots) :
    as.length ≤ as.slotCount ∧ ((∃ a ∈ as, 1 < a.slots) → as.length < as.slotCount) := by
  induction as with
  | nil => exact ⟨Nat.le_refl 0, fun ⟨_, ha, _⟩ => absurd ha List.not_mem_nil⟩
  | cons a as ih =>
    have ha := h a (List.mem_cons_self ..)
    obtain ⟨hle, hlt⟩ := ih fun b hb => h b (List.mem_cons_of_mem _ hb)
    rw [slotCount_cons, List.length_cons]
    refine ⟨by omega, fun ⟨b, hb, hmany⟩ => ?_⟩
    rcases List.mem_cons.mp hb with rfl | hb
    · omega
    · have := hlt ⟨b, hb, hmany⟩
      omega

/-- with a value for each argument and `waiting` more, either every argument has one, or a list is
longer and something is short of values -/
theorem one_or_uneven {as : Arguments} {waiting : Nat} (h : as.slotCount = as.length + waiting) :
    ((∀ a ∈ as, a.slots = 1) ∧ waiting = 0) ∨
      ((∃ a ∈ as, 1 < a.slots) ∧ ((∃ a ∈ as, a.slots = 0) ∨ 0 < waiting)) := by
  by_cases hmany : ∃ a ∈ as, 1 < a.slots
  · refine .inr ⟨hmany, ?_⟩
    by_contra hshort
    obtain ⟨hnone, hwaiting⟩ := not_or.mp hshort
    have hlt := (length_le_slotCount fun a ha =>
      Nat.one_le_iff_ne_zero.mpr fun hzero => hnone ⟨a, ha, hzero⟩).2 hmany
    omega
  · have hfew : ∀ a ∈ as, a.slots ≤ 1 := fun a ha =>
      Nat.le_of_not_lt fun hlt => hmany ⟨a, ha, hlt⟩
    obtain ⟨hle, hall⟩ := slotCount_le hfew
    exact .inl ⟨hall (by omega), by omega⟩

end Arguments

/-! ## values for deferred conditions -/

namespace Fills

variable {places : List Place} {answers : List (String × Argument)} {out : Arguments}

theorem slotCount_eq (h : Fills places answers out) :
    out.slotCount + answers.length =
      Arguments.slotCount (places.map Place.argument) + Arguments.slotCount (answers.map (·.2)) := by
  induction h with
  | nil => rfl
  | held a _ ih =>
    rw [List.map_cons, Arguments.slotCount_cons, Arguments.slotCount_cons, Place.argument]
    omega
  | awaited part column v _ ih =>
    rw [List.map_cons, List.map_cons, Arguments.slotCount_cons, Arguments.slotCount_cons,
      Arguments.slotCount_cons, List.length_cons, Place.argument]
    have hmarker : Argument.pending.slots = 1 := rfl
    show v.slots + _ + _ = _ + (v.slots + _)
    omega

theorem gives (h : Fills places answers out) (hslots : ∀ answer ∈ answers, answer.2.slots = 1)
    {values : Arguments} (hvalues : out.flatten = .ok values) :
    List.Forall₂ Argument.Gives
      (supply ((places.map Place.argument).flatMap Argument.members) (answers.map (·.2))) values := by
  induction h generalizing values with
  | nil =>
    cases hvalues
    exact .nil
  | held a _ ih =>
    have hmarked := Arguments.unmarked_of_flatten hvalues
    obtain ⟨first, hfirst, h⟩ := bind_ok hvalues
    obtain ⟨rest, hrest, h⟩ := bind_ok h
    cases h
    have ha : a ≠ .pending := fun he => hmarked (he ▸ List.mem_cons_self ..)
    rw [List.map_cons, List.flatMap_cons, Place.argument,
      supply_append (Argument.pending_not_mem_members ha)]
    exact Arguments.gives_append (Argument.gives_members hfirst) (ih hslots hrest)
  | awaited part column v _ ih =>
    obtain ⟨first, hfirst, h⟩ := bind_ok hvalues
    obtain ⟨rest, hrest, h⟩ := bind_ok h
    cases h
    obtain ⟨value, rfl⟩ := List.length_eq_one_iff.mp
      ((Argument.length_scalars hfirst).trans (hslots _ (List.mem_cons_self ..)))
    exact .cons hfirst (ih (fun answer ha => hslots answer (List.mem_cons_of_mem _ ha)) hrest)

end Fills

/-! ## statements and what they carry -/

namespace Mutation

def heldRecords : Mutation → List Record
  | .insert i => i.records
  | .update _ => []

/-- a row waits for values that no record supplies -/
def Waits : Mutation → Prop
  | .insert i => i.boundRows < i.rowCount.getD 0
  | .update _ => False

/-- what records supply in order, all arguments, and the walk that has each argument in its place:
those for a row in the order of the columns, those for assignments next to their columns, and those
for deferred conditions at the markers of these conditions -/
inductive Carries (r : Record) (aliases : Option (List String)) :
    Mutation → Arguments → Arguments → Walk → Prop
  | insert (i : Insert) {given : List Arguments} {row : Arguments} {w : Walk} :
      suppliedRows i.columns i.rows.flatten i.records = .ok given →
      r.assemble .insert .values (i.rows ++ given).flatten i.columns =
        .ok ((i.rows ++ given).flatten ++ row) →
      row.length = i.columns.length → i.walkWith [row] = .ok w →
      Carries r aliases (.insert i) (given.flatten ++ row) (i.recordArguments given row) w
  | update (u : Update) {own conditions out : Arguments} {places : List Place} {w : Walk} :
      r.assemble .update .set [] (aliases.getD u.recordColumns) = .ok own →
      own.length = u.recordColumns.length →
      u.remainingSteps.map Step.place? = places.map some →
      r.Gave .update .conditions (Place.columnsIn .conditions places) conditions →
      Fills places ((Place.columnsIn .conditions places).zip conditions) out →
      u.walkWith own = .ok w →
      Carries r aliases (.update u) (own ++ conditions) (own ++ out) (w.fill conditions)

variable {r : Record} {aliases : Option (List String)} {m : Mutation} {supplied args : Arguments}
variable {w : Walk}

theorem Carries.sources (h : Carries r aliases m supplied args w) :
    Sources r aliases m args w := by
  cases h with
  | insert i hgiven hassemble hlength hw => exact .insert i hgiven hassemble hlength hw
  | update u hown hlength hplaces hgave hout hw => exact .update u hown hlength hplaces hgave hout hw

end Mutation

namespace Insert

variable {i : Insert} {r : Record} {aliases : Option (List String)} {t : Text}
variable {args values : Arguments}

theorem carried (hscalar : i.Scalar) (hclosed : i.Closed) (hcolumns : i.columns ≠ [])
    (hrecords : ∀ r ∈ i.records, r.Extends) (hr : r.Extends) (ht : i.recordText = .ok t)
    (hargs : (bindSteps (.each r aliases) .insert i.steps).2 = .ok args)
    (hvalues : args.flatten = .ok values) (hcount : values.length = count t) :
    ∃ supplied w, Mutation.Carries r aliases (.insert i) supplied args w ∧ w.text = t ∧
      split t = w.cut ∧
      ((∀ a ∈ supplied, a.slots = 1) ∧ List.Forall₂ Argument.Gives w.bound values ∨
        (∃ a ∈ supplied, 1 < a.slots) ∧
          ((∃ a ∈ supplied, a.slots = 0) ∨ Mutation.Waits (.insert i))) := by
  obtain ⟨hselect, hfailed⟩ := select_of_recordText ht
  obtain ⟨given, row, hgiven, hnumber, hwidth, hassemble, hlength, rfl⟩ :=
    recordArgs_inv hselect hfailed hcolumns hrecords hr hargs
  obtain ⟨w, hw, htext, hwhole, hbound⟩ :=
    walkWith_of_text hscalar hclosed hselect hcolumns hgiven hnumber hwidth hlength ht
  refine ⟨_, w, .insert i hgiven hassemble hlength hw, htext,
    htext ▸ Walk.splitFrom_text hwhole.sound, ?_⟩
  have hrows : ∀ a ∈ i.rows.flatten, a.isList = false := fun a ha =>
    let ⟨row, hrow, ha⟩ := List.mem_flatten.mp ha
    hscalar.rows row hrow a ha
  have hslots : Arguments.slotCount (given.flatten ++ row) =
      (given.flatten ++ row).length + i.waitingRows.flatten.length := by
    have hmarks : count t = w.bound.length := htext ▸ Walk.countFrom_text hwhole.sound
    rw [Arguments.length_flatten hvalues, hmarks, hbound, recordArguments] at hcount
    simp only [Arguments.slotCount_append, Arguments.slotCount_of_scalars hrows, List.length_append,
      List.flatten_append, List.flatten_singleton, Arguments.length_members] at hcount ⊢
    omega
  rcases Arguments.one_or_uneven hslots with ⟨hone, hnone⟩ | ⟨hmany, hshort⟩
  · refine .inl ⟨hone, ?_⟩
    rw [hbound, List.flatten_append, List.flatten_append, List.flatten_append,
      List.eq_nil_of_length_eq_zero hnone, List.append_nil, List.flatten_singleton]
    obtain ⟨front, behind, hfront, hbehind, rfl⟩ := Arguments.flatten_append_inv hvalues
    rw [List.append_assoc] at hfront
    obtain ⟨own, supplied, hown, hsupplied, rfl⟩ := Arguments.flatten_append_inv hfront
    rw [List.append_assoc i.rows.flatten]
    refine Arguments.gives_append (Arguments.gives_append ?_ ?_) ?_
    · refine Arguments.gives_of_slots (fun a ha => ?_) hown
      rw [Argument.slots, hrows a ha]
      rfl
    · exact Arguments.gives_of_slots hone hsupplied
    · exact Arguments.gives_members hbehind
  · refine .inr ⟨hmany, hshort.imp id fun hwaiting => ?_⟩
    by_contra hnone
    have hnothing : i.rowCount.getD 0 - i.boundRows = 0 :=
      Nat.sub_eq_zero_of_le (Nat.le_of_not_lt hnone)
    rw [waitingRows, hnothing] at hwaiting
    exact absurd hwaiting (Nat.lt_irrefl 0)

end Insert

namespace Update

variable {u : Update} {r : Record} {aliases : Option (List String)} {t : Text}
variable {args values : Arguments}

theorem carried (hm : (Statement.update u).Made) (hc : (Statement.update u).Closed)
    (hcolumns : u.recordColumns ≠ [])
    (haliases : (aliases.getD u.recordColumns).length = u.recordColumns.length)
    (hr : r.Extends) (ht : u.text = .ok t)
    (hargs : (bindSteps (.each r aliases) .update u.steps).2 = .ok args)
    (hvalues : args.flatten = .ok values) (hcount : values.length = count t) :
    ∃ supplied w, Mutation.Carries r aliases (.update u) supplied args w ∧ w.text = t ∧
      split t = w.cut ∧
      ((∀ a ∈ supplied, a.slots = 1) ∧ List.Forall₂ Argument.Gives w.bound values ∨
        (∃ a ∈ supplied, 1 < a.slots) ∧
          ((∃ a ∈ supplied, a.slots = 0) ∨ Mutation.Waits (.update u))) := by
  have hraw : u.raw = none := not_not.mp fun hraw => hcolumns (Made.recordColumns_of_raw hm hraw)
  obtain ⟨own, places, conditions, out, hown, hlength, hplaces, hgave, hout, rfl⟩ :=
    recordArgs_inv (failed_of_text ht) hraw hcolumns hr hargs
  obtain ⟨w, hw, htext, hwhole, hbound⟩ := walkWith_of_text (Made.scalar hm) hc.own
    (Select.agrees_of_made hm.selects hc.selects) (hlength.trans haliases) hraw hplaces ht
  refine ⟨own ++ conditions, w.fill conditions,
    .update u hown (hlength.trans haliases) hplaces hgave hout hw,
    (Walk.text_fill w conditions).trans htext,
    htext ▸ (Walk.splitFrom_text hwhole.sound).trans (Walk.cut_fill w conditions).symm, ?_⟩
  have hanswers : ((Place.columnsIn .conditions places).zip conditions).map (·.2) = conditions :=
    List.map_snd_zip (Nat.le_of_eq hgave.1)
  have hslots : (own ++ conditions).slotCount = (own ++ conditions).length + 0 := by
    have hmarks : count t = w.bound.length := htext ▸ Walk.countFrom_text hwhole.sound
    have hmoved := hout.slotCount_eq
    rw [hanswers, List.length_zip, Nat.min_eq_right (Nat.le_of_eq hgave.1)] at hmoved
    rw [Arguments.length_flatten hvalues, hmarks, hbound] at hcount
    simp only [Arguments.slotCount_append, List.length_append, Arguments.length_members]
      at hcount ⊢
    omega
  rcases Arguments.one_or_uneven hslots with ⟨hone, _⟩ | ⟨hmany, hshort⟩
  · obtain ⟨first, rest, hfirst, hrest, rfl⟩ := Arguments.flatten_append_inv hvalues
    refine .inl ⟨hone, ?_⟩
    rw [Walk.bound_fill, hbound, supply_append (Arguments.unmarked_of_flatten hfirst)]
    refine Arguments.gives_append ?_ ?_
    · exact Arguments.gives_of_slots (fun a ha => hone a (List.mem_append_left _ ha)) hfirst
    · rw [← hanswers]
      refine hout.gives (fun answer ha => ?_) hrest
      exact hone _ (List.mem_append_right _ (List.of_mem_zip ha).2)
  · exact .inr ⟨hmany, hshort.imp id fun h => absurd h (Nat.lt_irrefl 0)⟩

end Update

/-! ## records of a bulk execution -/

theorem Happening.ended_of_executed {b : Bulk} {plan : Plan} {records : List Record}
    {history : List Happening} {ctx : Context} {request : Request}
    (h : .executed ctx request ∈ history.flatMap (entries b plan records)) :
    ∃ i outcome, .ended i request outcome ∈ history := by
  have hasked : ∀ i : Nat, Entry.executed ctx request ∉
      records[i]?.toList.flatMap (b.questions plan) := by
    intro i hmem
    obtain ⟨record, _, hquestion⟩ := List.mem_flatMap.mp hmem
    obtain ⟨call, _, hcall⟩ := List.mem_map.mp hquestion
    cases hcall
  obtain ⟨x, hx, hentry⟩ := List.mem_flatMap.mp h
  cases x with
  | began i other => exact absurd hentry (hasked i)
  | refused i e => exact absurd hentry (hasked i)
  | ended i other outcome =>
    cases List.mem_singleton.mp hentry
    exact ⟨i, outcome, hx⟩

namespace Bulk

/-- The values bound for a record.  Either every argument that records supply has one value, and the
walk of the planned text binds each value at the place of its argument; or an argument has several
values, and another one, or a row that waits, has none. -/
def Placed (b : Bulk) (plan : Plan) (r : Record) (values : Arguments) : Prop :=
  ∃ supplied args w, (b.template.recordArgs r b.aliases).2 = .ok args ∧
    Mutation.Carries r b.aliases b.template supplied args w ∧ w.text = plan.sql ∧
    split plan.sql = w.cut ∧
    ((∀ a ∈ supplied, a.slots = 1) ∧ List.Forall₂ Argument.Gives w.bound values ∨
      (∃ a ∈ supplied, 1 < a.slots) ∧ ((∃ a ∈ supplied, a.slots = 0) ∨ b.template.Waits))

variable {δ : Type}

section
variable {b : Bulk} {plan : Plan} {r : Record}

/-- what is sent without literals are the values of the arguments, one for each placeholder -/
theorem request_prepared_inv (hbound : plan.interpolated = false) {request : Request}
    (h : (b.request plan r).2 = .ok request) :
    ∃ args values, (b.template.recordArgs r b.aliases).2 = .ok args ∧
      request = .prepared values ∧ args.flatten = .ok values ∧
      values.length = plan.placeholders := by
  obtain ⟨args, hargs, h⟩ := bind_ok
    (show (b.template.recordArgs r b.aliases).2 >>= requestOf plan = _ from h)
  unfold requestOf at h
  rw [hbound, if_neg Bool.false_ne_true] at h
  obtain ⟨values, hvalues, h⟩ := bind_ok h
  cases h
  obtain ⟨_, hflatten, hvalues⟩ := bind_ok hvalues
  simp only at hvalues
  split at hvalues
  · cases hvalues
  · rename_i hcount
    cases hvalues
    exact ⟨args, values, hargs, rfl, hflatten, not_not.mp hcount⟩

variable (hm : b.template.statement.Made) (hc : b.template.statement.Closed)
  (hheld : ∀ r ∈ b.template.heldRecords, r.Extends) (hplan : b.plan = .ok plan)
  (hbound : plan.interpolated = false)
include hm hc hheld hplan hbound

theorem request_carried (hr : r.Extends) {request : Request}
    (h : (b.request plan r).2 = .ok request) :
    ∃ values, request = .prepared values ∧ b.Placed plan r values := by
  obtain ⟨args, values, hargs, hrequest, hflatten, hcount⟩ := request_prepared_inv hbound h
  rw [placeholders_of_plan hplan] at hcount
  obtain ⟨hvalid, hcolumns, hsql, _⟩ := plan_inv hplan
  obtain ⟨hnonempty, hlength⟩ := checkColumns_inv hcolumns
  obtain ⟨_, _, htext⟩ := bind_ok hsql
  refine ⟨values, hrequest, ?_⟩
  have hbind : (bindSteps (.each r b.aliases) b.template.statement.kind
      b.template.statement.steps).2 = .ok args := by
    unfold Mutation.recordArgs at hargs
    rwa [hvalid] at hargs
  unfold Placed
  generalize b.template = m at *
  cases m with
  | insert i =>
    obtain ⟨supplied, w, hcarries, hw⟩ := Insert.carried (Insert.Made.scalar hm) hc.own hnonempty
      hheld hr htext hbind hflatten hcount
    exact ⟨supplied, args, w, hargs, hcarries, hw⟩
  | update u =>
    obtain ⟨supplied, w, hcarries, hw⟩ := Update.carried hm hc hnonempty hlength hr htext hbind
      hflatten hcount
    exact ⟨supplied, args, w, hargs, hcarries, hw⟩

end

/-! an UPDATE for a record with a list of one member, and an INSERT for a record whose empty list
makes up for one of two -/

def movedPlan : Plan :=
  ⟨"UPDATE `t` SET `a`=?, `b`=? WHERE (`k` = ?) AND (`m` = ?)".toList, 4, false⟩

/-- the list of one member for a column to be set, and the name of the column elsewhere -/
def listedOnce : Record :=
  ⟨"once", fun _ part args columns =>
    .ok (args ++ columns.map fun column => if part = .set then .ints [5] else .string column)⟩

theorem extends_listedOnce : listedOnce.Extends := by
  intro kind part args columns out h
  cases h
  exact ⟨_, rfl⟩

theorem slots_listedOnce {kind : StatementKind} {part : Part} {before : Arguments}
    {columns : List String} {values : Arguments}
    (h : listedOnce.assemble kind part before columns = .ok (before ++ values)) :
    ∀ a ∈ values, a.slots = 1 := by
  rw [← List.append_cancel_left (Except.ok.inj h)]
  intro a ha
  obtain ⟨column, _, rfl⟩ := List.mem_map.mp ha
  split <;> rfl

theorem slots_of_moving {aliases : Option (List String)} {supplied args : Arguments} {w : Walk}
    (h : Mutation.Carries listedOnce aliases moving.template supplied args w) :
    ∀ a ∈ supplied, a.slots = 1 := by
  obtain _ | ⟨_, hown, _, _, ⟨hlength, hnone | ⟨before, hconditions⟩⟩, _, _⟩ := h
  · rw [hnone, List.length_nil, List.length_eq_zero_iff] at hlength
    rw [hlength, List.append_nil]
    exact slots_listedOnce hown
  · exact List.forall_mem_append.mpr ⟨slots_listedOnce hown, slots_listedOnce hconditions⟩

def shifted : Bulk where
  template := .insert { table := "t", columns := ["a", "b"] }

def shiftedPlan : Plan := ⟨"INSERT INTO `t` (`a`,`b`) VALUES (?,?)".toList, 2, false⟩

def uneven : Record :=
  ⟨"uneven", fun _ _ args columns =>
    .ok (args ++ columns.map fun column => if column = "a" then .ints [1, 2] else .ints [])⟩

end Bulk

end BoundSql
