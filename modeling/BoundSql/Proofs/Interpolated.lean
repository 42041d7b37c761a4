import BoundSql.Bulk
import BoundSql.Proofs.Render

/-!
# Records with and without literals

A record is carried out with literals in the text, or with values bound to the prepared text.

* `Bulk.bound`            the same execution without literals, `plan_bound`, `recordArgs_bound`;
* `boundValues_ok`        the prepared text takes the values of a record;
* `request_of_literals`   whatever is sent with literals would be bound to the prepared text, unless
                          a list stands at a single placeholder;
* `request_list_apart`    there the two differ.
-/

namespace BoundSql

/-! ## values of arguments -/

theorem Argument.scalars_of_literal {a : Argument} {t : Text} (h : a.literal = .ok t) :
    ∃ values, a.scalars = .ok values := by
  cases a with
  | value identity look resolved =>
    obtain ⟨scalar, hscalar, _⟩ := bind_ok h
    refine ⟨[scalar], ?_⟩
    show (resolve look resolved).map ([·]) = .ok [scalar]
    rw [hscalar]
    rfl
  | pending => cases h
  | _ => exact ⟨_, rfl⟩

theorem scalars_of_argumentText {a : Argument} {before behind t : Text}
    (h : argumentText a before behind = .ok t) : ∃ values, a.scalars = .ok values := by
  unfold argumentText at h
  split at h
  · obtain ⟨values, hvalues, _⟩ := bind_ok h
    exact ⟨values, hvalues⟩
  · exact Argument.scalars_of_literal h

namespace Arguments

theorem length_flatten {args values : Arguments} (h : args.flatten = .ok values) :
    values.length = args.slotCount := by
  induction args generalizing values with
  | nil =>
    cases h
    rfl
  | cons a args ih =>
    obtain ⟨first, hfirst, h⟩ := bind_ok h
    obtain ⟨rest, hrest, h⟩ := bind_ok h
    cases h
    rw [List.length_append, Argument.length_scalars hfirst, ih hrest, slotCount_cons]

theorem slotCount_of_scalars {args : Arguments} (h : ∀ a ∈ args, a.isList = false) :
    args.slotCount = args.length := by
  induction args with
  | nil => rfl
  | cons a args ih =>
    have ha : a.slots = 1 := by
      rw [Argument.slots, h a (List.mem_cons_self ..)]
      rfl
    rw [slotCount_cons, ha, ih fun b hb => h b (List.mem_cons_of_mem _ hb), List.length_cons,
      Nat.add_comm]

theorem flatten_of_argumentTexts {args : Arguments} {gaps : List (Text × Text)}
    {fills : List Text} (hlength : gaps.length = args.length)
    (h : argumentTexts args gaps = .ok fills) : ∃ values, args.flatten = .ok values := by
  induction args generalizing gaps fills with
  | nil => exact ⟨[], rfl⟩
  | cons a args ih =>
    obtain ⟨⟨before, behind⟩, gaps, rfl⟩ := List.exists_cons_of_length_eq_add_one hlength
    obtain ⟨fill, hfill, h⟩ := bind_ok h
    obtain ⟨rest, hrest, _⟩ := bind_ok h
    obtain ⟨first, hfirst⟩ := scalars_of_argumentText hfill
    obtain ⟨values, hvalues⟩ := ih (Nat.succ.inj hlength) hrest
    exact ⟨first ++ values, flatten_cons_ok hfirst hvalues⟩

end Arguments

/-! ## the two ways to carry out a record -/

def Mutation.bound : Mutation → Mutation
  | .insert i => .insert { i with interpolated := false }
  | .update u => .update { u with interpolated := false }

namespace Mutation

variable (m : Mutation)

theorem validate_bound : m.bound.statement.validate = m.statement.validate := by cases m <;> rfl
theorem recordColumns_bound : m.bound.recordColumns = m.recordColumns := by cases m <;> rfl
theorem recordText_bound : m.bound.recordText = m.recordText := by cases m <;> rfl
theorem recordArgs_bound : m.bound.recordArgs = m.recordArgs := by cases m <;> rfl
theorem interpolated_bound : m.bound.statement.interpolated = false := by cases m <;> rfl

end Mutation

namespace Bulk

/-- the execution with values bound to the prepared text -/
def bound (b : Bulk) : Bulk := { b with template := b.template.bound }

section
variable {b : Bulk} {plan : Plan}

/-- what is the same for all records: a valid statement, columns that fit, and a text -/
theorem plan_inv (h : b.plan = .ok plan) : b.template.statement.validate = .ok () ∧
    checkColumns b.template.recordColumns b.aliases = .ok () ∧
    b.template.recordText = .ok plan.sql ∧
    plan = ⟨plan.sql, Placeholder.count plan.sql, b.template.statement.interpolated⟩ := by
  obtain ⟨_, hvalid, h⟩ := bind_ok h
  obtain ⟨_, hcolumns, h⟩ := bind_ok h
  obtain ⟨sql, hsql, h⟩ := bind_ok h
  cases h
  exact ⟨hvalid, hcolumns, hsql, rfl⟩

theorem placeholders_of_plan (h : b.plan = .ok plan) :
    plan.placeholders = Placeholder.count plan.sql := by
  rw [(plan_inv h).2.2.2]

theorem plan_bound (h : b.plan = .ok plan) :
    b.bound.plan = .ok { plan with interpolated := false } := by
  obtain ⟨hvalid, hcolumns, hsql, hplan⟩ := plan_inv h
  rw [hplan]
  unfold Bulk.plan bound
  rw [Mutation.validate_bound, Mutation.recordColumns_bound, Mutation.recordText_bound,
    Mutation.interpolated_bound, hvalid, hcolumns, hsql]
  rfl

theorem request_bound (record : Record) :
    b.bound.request plan record = b.request plan record := by
  unfold request bound
  rw [Mutation.recordArgs_bound]

theorem request_of_args {record : Record} {args : Arguments}
    (h : (b.template.recordArgs record b.aliases).2 = .ok args) :
    (b.request plan record).2 = requestOf plan args := by
  show (b.template.recordArgs record b.aliases).2.bind (requestOf plan) = _
  rw [h]
  rfl

/-- what is sent with literals is the rendered text, and it binds nothing -/
theorem request_direct_inv {record : Record} {sql : Text} {sent : Arguments}
    (h : (b.request plan record).2 = .ok (.direct sql sent)) :
    ∃ args, (b.template.recordArgs record b.aliases).2 = .ok args ∧
      render plan.sql args = .ok sql ∧ sent = [] := by
  obtain ⟨args, hargs, h⟩ := bind_ok
    (show (b.template.recordArgs record b.aliases).2 >>= requestOf plan = _ from h)
  refine ⟨args, hargs, ?_⟩
  unfold requestOf at h
  split at h
  · obtain ⟨out, hout, h⟩ := bind_ok h
    cases h
    exact ⟨hout, rfl⟩
  · obtain ⟨values, _, h⟩ := bind_ok h
    cases h

end

section
variable {plan : Plan} {args values : Arguments} (h : args.flatten = .ok values)
include h

theorem boundValues_ok (hcount : args.slotCount = plan.placeholders) :
    boundValues plan args = .ok values := by
  have hlength : ¬ values.length ≠ plan.placeholders :=
    not_not.mpr ((Arguments.length_flatten h).trans hcount)
  rw [boundValues, h]
  show (if values.length ≠ plan.placeholders then _ else _) = _
  rw [if_neg hlength]
  rfl

theorem boundValues_error (hcount : args.slotCount ≠ plan.placeholders) :
    boundValues plan args =
      .error (.mismatch (.boundValues args.slotCount plan.placeholders)) := by
  rw [← Arguments.length_flatten h] at hcount ⊢
  rw [boundValues, h]
  show (if values.length ≠ plan.placeholders then _ else _) = _
  rw [if_pos hcount]
  rfl

end

/-- what is sent for a record with literals: where its arguments have a value for each placeholder,
the same values would be bound to the prepared text, and the text sent is the prepared one with their
literals; otherwise a list stands at a single placeholder, and the prepared text would be refused -/
theorem request_of_literals {b : Bulk} {plan : Plan} {record : Record} {sql : Text}
    {sent : Arguments} (hplan : b.plan = .ok plan)
    (hsent : (b.request plan record).2 = .ok (.direct sql sent)) :
    ∃ args other, (b.template.recordArgs record b.aliases).2 = .ok args ∧ sent = [] ∧
      b.bound.plan = .ok other ∧ other = { plan with interpolated := false } ∧
      (b.bound.request other record).1 = (b.request plan record).1 ∧
      (args.slotCount = plan.placeholders → ∃ values fills,
        (b.bound.request other record).2 = .ok (.prepared values) ∧
        values.length = plan.placeholders ∧
        List.Forall₂ (fun v fill => Argument.literal v = .ok fill) values fills ∧
        sql = Placeholder.weave (Placeholder.split plan.sql) fills) ∧
      (args.slotCount ≠ plan.placeholders →
        args.length = plan.placeholders ∧ (∃ a ∈ args, a.isList = true) ∧
        (b.bound.request other record).2 =
          .error (.mismatch (.boundValues args.slotCount plan.placeholders))) := by
  have hplaceholders : plan.placeholders = Placeholder.count plan.sql := placeholders_of_plan hplan
  obtain ⟨args, hargs, hrender, hnil⟩ := request_direct_inv hsent
  let other : Plan := { plan with interpolated := false }
  have hother : (b.bound.request other record).2 =
      (boundValues other args >>= fun values => .ok (.prepared values)) := by
    rw [request_bound, request_of_args hargs]
    rfl
  have hcalls : (b.bound.request other record).1 = (b.request plan record).1 := by
    rw [request_bound]
    rfl
  refine ⟨args, other, hargs, hnil, plan_bound hplan, rfl, hcalls, ?_⟩
  rw [hplaceholders, hother]
  obtain ⟨fills, rfl, ⟨hcount, values, hvalues, hfills⟩ | ⟨hslots, hlength, hfills⟩⟩ :=
    render_inv hrender
  · have hbound : boundValues other args = .ok values :=
      boundValues_ok hvalues (hcount.symm.trans hplaceholders.symm)
    refine ⟨fun _ => ⟨values, fills, ?_, (Arguments.length_flatten hvalues).trans hcount.symm,
      forall₂_of_mapM hfills, rfl⟩, fun hne => absurd hcount.symm hne⟩
    rw [hbound]
    rfl
  · have hgaps : (Placeholder.neighbours (Placeholder.split plan.sql)).length = args.length := by
      rw [Placeholder.length_neighbours, Placeholder.length_split, hlength]
    obtain ⟨values, hvalues⟩ := Arguments.flatten_of_argumentTexts hgaps hfills
    refine ⟨fun heq => absurd heq.symm hslots, fun hne => ⟨hlength.symm, ?_, ?_⟩⟩
    · by_contra hnone
      refine hne ((Arguments.slotCount_of_scalars fun a ha => ?_).trans hlength.symm)
      exact Bool.eq_false_iff.mpr fun hlist => hnone ⟨a, ha, hlist⟩
    · have hbound : boundValues other args = .error _ :=
        boundValues_error hvalues (hplaceholders ▸ hne)
      rw [hbound, ← hplaceholders]
      rfl

/-! two columns, for a record with a value for each and for one with a list for each -/

def profile : Bulk where
  template := .insert { table := "t", columns := ["a", "b"], interpolated := true }

def profilePlan : Plan := ⟨"INSERT INTO `t` (`a`,`b`) VALUES (?,?)".toList, 2, true⟩

def plain : Record := ⟨"plain", fun _ _ args _ => .ok (args ++ [.null, .string "o'k"])⟩

def listed : Record := ⟨"listed", fun _ _ args _ => .ok (args ++ [.ints [1, 2], .bool true])⟩

set_option maxRecDepth 4000 in
theorem request_of_literals_profile :
    ∃ other values fills, (profile.request profilePlan plain).2 =
        .ok (.direct "INSERT INTO `t` (`a`,`b`) VALUES (NULL,'o\\'k')".toList []) ∧
      (profile.bound.request other plain).2 = .ok (.prepared values) ∧ values.length = 2 ∧
      List.Forall₂ (fun v fill => Argument.literal v = .ok fill) values fills := by
  have hplan : profile.plan = .ok profilePlan := by cbv
  have hsent : (profile.request profilePlan plain).2 =
      .ok (.direct "INSERT INTO `t` (`a`,`b`) VALUES (NULL,'o\\'k')".toList []) := by cbv
  obtain ⟨args, other, hargs, _, _, _, _, hagree, _⟩ := request_of_literals hplan hsent
  have hargs' : (profile.template.recordArgs plain profile.aliases).2 =
      .ok [.null, .string "o'k"] := rfl
  cases hargs.symm.trans hargs'
  obtain ⟨values, fills, hbound, hlength, hliterals, _⟩ := hagree rfl
  exact ⟨other, values, fills, hsent, hbound, hlength, hliterals⟩

set_option maxRecDepth 4000 in
/-- a list for a column is sent as literals, and refused by the prepared text -/
theorem request_list_apart :
    profile.plan = .ok profilePlan ∧
      (profile.template.recordArgs listed none).2 = .ok [.ints [1, 2], .bool true] ∧
      (profile.request profilePlan listed).2 =
        .ok (.direct "INSERT INTO `t` (`a`,`b`) VALUES ((1,2),1)".toList []) ∧
      (profile.bound.request { profilePlan with interpolated := false } listed).2 =
        .error (.mismatch (.boundValues 3 2)) := by
  have hplan : profile.plan = .ok profilePlan := by cbv
  have hsent : (profile.request profilePlan listed).2 =
      .ok (.direct "INSERT INTO `t` (`a`,`b`) VALUES ((1,2),1)".toList []) := by cbv
  exact ⟨hplan, rfl, hsent, rfl⟩

end Bulk

end BoundSql
