import BoundSql.Proofs.Inclusion
import BoundSql.Proofs.Walk.Insert
import BoundSql.Proofs.Walk.Union
import BoundSql.Proofs.Walk.Update

/-!
# Statements inside statements

* `Statement.shown`     the queries directly in the text of a statement;
* `Statement.Shows`     these, those in their texts, and so on;
* `Statement.Shows.text_ok`, `Statement.Shows.refuses`   text and steps of what is shown;
* `Statement.Shows.buildText`, `Statement.Shows.buildArgs`, `Mutation.recordText_error`,
  `Mutation.recordArgs_error`   around a query of which an edit has failed.
-/

namespace BoundSql

/-! ## statements -/

namespace Insert

theorem textWith_shown {i : Insert} {extra : Nat} {t : Text} (h : i.textWith extra = .ok t) :
    ∀ s ∈ i.selects, ∃ u, s.text = .ok u := by
  intro s hs
  have hselect : i.select = some s := Option.mem_toList.mp hs
  obtain ⟨_, _, _, source, _, _, _, hsource, _⟩ := textWith_ok h
  simp only [sourceText, hselect] at hsource
  split at hsource
  · cases hsource
  · obtain ⟨select, hselect, _⟩ := bind_ok hsource
    exact ⟨select, within_eq_ok hselect⟩

theorem steps_refuses {i : Insert} {s : Select} (hs : s ∈ i.selects) (h : Refuses s.steps) :
    Refuses i.steps := by
  have hselect : i.select = some s := Option.mem_toList.mp hs
  unfold steps
  split
  · exact refuses_fail _
  · refine h.mono fun step hstep => ?_
    simp [hselect, hstep]

end Insert

theorem filter_shown {cs : List Condition} {t : Text} (h : Clause.text .filter cs = .ok t) :
    ∀ s ∈ shownIn .filter cs, ∃ u, s.text = .ok u := by
  intro s hs
  refine clauseText_shown h s.text ?_
  rw [shownIn_map]
  exact List.mem_map_of_mem hs

theorem filter_refuses {cs : List Condition} {s : Select} (hs : s ∈ shownIn .filter cs)
    (h : Refuses s.steps) : Refuses (Clause.steps .filter cs) := by
  have hshown : s.steps ∈ shownIn .filter (cs.map (·.map Select.steps)) := by
    rw [shownIn_map]
    exact List.mem_map_of_mem hs
  exact clauseSteps_refuses hshown h

namespace Update

def assignedShown : String × Assigned → List Select
  | (_, .argument _) => []
  | (_, .computed c) => c.shown

def shown (u : Update) : List Select :=
  match u.raw with
  | some _ => []
  | none => u.sets.flatMap assignedShown ++ shownIn .filter u.wheres

theorem assigned_shown {set : String × Assigned} {t : Text} (h : assignedText set.2 = .ok t) :
    ∀ s ∈ assignedShown set, ∃ u, s.text = .ok u := by
  obtain ⟨column, value⟩ := set
  cases value with
  | argument a => simp [assignedShown]
  | computed c =>
    intro s hs
    refine ConditionOf.text_ok h s.text ?_
    rw [ConditionOf.shown_map]
    exact List.mem_map_of_mem hs

theorem assigned_refuses {set : String × Assigned} {s : Select} (hs : s ∈ assignedShown set)
    (h : Refuses s.steps) : Refuses (assignedSteps set.2) := by
  obtain ⟨column, value⟩ := set
  cases value with
  | argument a => cases hs
  | computed c =>
    have hshown : s.steps ∈ (c.map Select.steps).shown := by
      rw [ConditionOf.shown_map]
      exact List.mem_map_of_mem hs
    exact ConditionOf.refuses hshown h

theorem shown_ok {u : Update} {t : Text} (h : u.text = .ok t) :
    ∀ s ∈ u.shown, ∃ v, s.text = .ok v := by
  intro s hs
  unfold text at h
  unfold shown at hs
  split at h
  · cases h
  · rename_i hraw
    rw [hraw] at hs
    cases hs
  · rename_i hraw
    obtain ⟨_, _, _, _, _, _, _, hsets, hwheres, _⟩ := clausesText_ok h
    simp only [hraw, List.mem_append, List.mem_flatMap] at hs
    rcases hs with ⟨set, hset, hs⟩ | hs
    · obtain ⟨own, _, hsets⟩ := bind_ok hsets
      obtain ⟨others, hothers, _⟩ := bind_ok hsets
      obtain ⟨_, hset⟩ := ok_of_mapM hothers set hset
      obtain ⟨_, _, hset⟩ := bind_ok hset
      obtain ⟨_, hvalue, _⟩ := bind_ok hset
      exact assigned_shown hvalue s hs
    · exact filter_shown hwheres s hs

theorem shown_refuses {u : Update} {s : Select} (hs : s ∈ u.shown) (h : Refuses s.steps) :
    Refuses u.steps := by
  unfold shown at hs
  unfold steps
  cases hfailed : u.failed with
  | some e => exact refuses_fail e
  | none =>
    cases hraw : u.raw with
    | some raw =>
      rw [hraw] at hs
      cases hs
    | none =>
      simp only [hraw, List.mem_append, List.mem_flatMap] at hs
      rcases hs with ⟨set, hset, hs⟩ | hs
      · refine (assigned_refuses hs h).mono fun step hstep => ?_
        simp only [List.cons_append, List.mem_cons, List.mem_append, List.mem_flatMap]
        exact .inr (.inl ⟨set, hset, hstep⟩)
      · refine (filter_refuses hs h).mono fun step hstep => ?_
        simp only [List.cons_append, List.mem_cons, List.mem_append]
        exact .inr (.inr hstep)

end Update

namespace Union

theorem mapMembers_shown {u : Union} {ss : List Select} {i : Nat} {ts : List Text}
    (h : mapMembers u.memberText i ss = .ok ts) : ∀ s ∈ ss, ∃ t, s.text = .ok t := by
  induction ss generalizing i ts with
  | nil => simp
  | cons s ss ih =>
    obtain ⟨_, hmember, h⟩ := bind_ok h
    obtain ⟨_, hrest, _⟩ := bind_ok h
    intro s' hs'
    rcases List.mem_cons.mp hs' with rfl | hs'
    · obtain ⟨_, hmember, _⟩ := bind_ok hmember
      have htext := within_eq_ok hmember
      split at htext
      · exact Select.text_ok_of_asMember htext
      · exact ⟨_, htext⟩
    · exact ih hrest s' hs'

theorem memberSteps_refuses {ss : List Select} {s : Select} (hs : s ∈ ss) (h : Refuses s.steps)
    (i : Nat) : Refuses (memberSteps i ss) := by
  induction ss generalizing i with
  | nil => cases hs
  | cons s' ss ih =>
    rcases List.mem_cons.mp hs with rfl | hs
    · exact (h.within _).mono (List.subset_append_left ..)
    · exact (ih hs (i + 1)).mono (List.subset_append_right ..)

theorem shown_ok {u : Union} {t : Text} (h : u.text = .ok t) :
    ∀ s ∈ u.members, ∃ v, s.text = .ok v := by
  obtain ⟨_, _, h⟩ := bind_ok h
  obtain ⟨members, hmembers, _⟩ := bind_ok h
  exact mapMembers_shown hmembers

theorem shown_refuses {u : Union} {s : Select} (hs : s ∈ u.members) (h : Refuses s.steps) :
    Refuses u.steps := by
  unfold steps
  split
  · exact refuses_fail _
  · exact memberSteps_refuses hs h 0

end Union

namespace With

theorem shown_ok {w : With} {t : Text} (h : w.text = .ok t) :
    ∀ q ∈ w.queries, ∃ u, q.text = .ok u := by
  obtain ⟨query, hquery, h⟩ := bind_ok h
  obtain ⟨tables, htables, h⟩ := bind_ok h
  obtain ⟨last, hlast, _⟩ := bind_ok h
  intro q hq
  rcases List.mem_append.mp hq with hq | hq
  · obtain ⟨table, htable, rfl⟩ := List.mem_map.mp hq
    obtain ⟨_, htable⟩ := ok_of_mapM htables table htable
    obtain ⟨_, _, htable⟩ := bind_ok htable
    obtain ⟨_, _, htable⟩ := bind_ok htable
    obtain ⟨query, hquery, _⟩ := bind_ok htable
    exact ⟨query, within_eq_ok hquery⟩
  · have hfinal : w.query = some q := Option.mem_toList.mp hq
    unfold finalQuery at hquery
    rw [hfinal] at hquery
    split at hquery
    · cases hquery
    · cases hquery
      exact ⟨last, hlast⟩

theorem shown_refuses {w : With} {q : Query} (hq : q ∈ w.queries) (h : Refuses q.steps) :
    Refuses w.steps := by
  unfold steps
  cases hquery : w.finalQuery with
  | error e => exact refuses_fail e
  | ok query =>
    rcases List.mem_append.mp hq with hq | hq
    · obtain ⟨table, htable, rfl⟩ := List.mem_map.mp hq
      refine (h.within table.place).mono fun step hstep => ?_
      simp only [List.mem_append, List.mem_flatMap]
      exact .inl ⟨table, htable, hstep⟩
    · have hfinal : w.query = some q := Option.mem_toList.mp hq
      unfold finalQuery at hquery
      rw [hfinal] at hquery
      split at hquery
      · cases hquery
      · cases hquery
        exact h.mono (List.subset_append_right ..)

end With

namespace Query

def statement : Query → Statement
  | .select s => .select s
  | .union u => .union u

theorem text_statement (q : Query) : q.statement.text = q.text := by cases q <;> rfl

theorem steps_statement (q : Query) : q.statement.steps = q.steps := by cases q <;> rfl

theorem text_ok_of_selects {ss : List Select} (h : ∀ s ∈ ss, ∃ u, s.text = .ok u) :
    ∀ q ∈ ss.map select, ∃ u, q.text = .ok u := by
  intro q hq
  obtain ⟨s, hs, rfl⟩ := List.mem_map.mp hq
  exact h s hs

theorem refuses_of_selects {ss : List Select} {rs : List Step} {q : Query}
    (h : ∀ s ∈ ss, Refuses s.steps → Refuses rs) (hq : q ∈ ss.map select) (hr : Refuses q.steps) :
    Refuses rs := by
  obtain ⟨s, hs, rfl⟩ := List.mem_map.mp hq
  exact h s hs hr

theorem text_of_failed {q : Query} {e : Error} (h : q.statement.failed = some e) :
    q.text = .error e := by
  cases q with
  | select s =>
    obtain ⟨s⟩ := s
    have hfailed : (s.map Select.text).failed = some e := h
    show Select.text (.mk s) = _
    rw [Select.text_mk, SelectOf.text, hfailed]
  | union u =>
    have hfailed : u.failed = some e := h
    show u.text = _
    rw [Union.text, Union.check, hfailed]
    rfl

theorem refuses_of_failed {q : Query} {e : Error} (h : q.statement.failed = some e) :
    Refuses q.steps := by
  cases q with
  | select s =>
    obtain ⟨s⟩ := s
    have hfailed : (s.map Select.steps).failed = some e := h
    show Refuses (Select.steps (.mk s))
    rw [Select.steps_mk, SelectOf.steps, hfailed]
    exact refuses_fail e
  | union u =>
    have hfailed : u.failed = some e := h
    show Refuses u.steps
    rw [Union.steps, Union.check, hfailed]
    exact refuses_fail e

end Query

namespace Statement

/-- the queries directly in the text of a statement -/
def shown : Statement → List Query
  | .select s => s.clauses.shown.map .select
  | .insert i => i.selects.map .select
  | .update u => u.shown.map .select
  | .delete d => (shownIn .filter d.wheres).map .select
  | .union u => u.members.map .select
  | .with w => w.queries

/-- the queries in the text of a statement, those in their texts, and so on -/
inductive Shows : Statement → Query → Prop
  | directly {s : Statement} {q : Query} (h : q ∈ s.shown) : Shows s q
  | inside {s : Statement} {p q : Query} (h : p ∈ s.shown) (hp : Shows p.statement q) : Shows s q

theorem shown_ok {s : Statement} {t : Text} (h : s.text = .ok t) :
    ∀ q ∈ s.shown, ∃ u, q.text = .ok u := by
  cases s with
  | select s => exact Query.text_ok_of_selects (Select.shown_ok h)
  | insert i => exact Query.text_ok_of_selects (Insert.textWith_shown h)
  | update u => exact Query.text_ok_of_selects (Update.shown_ok h)
  | delete d =>
    obtain ⟨_, _, _, _, _, _, hwheres, _⟩ := Delete.text_ok h
    exact Query.text_ok_of_selects (filter_shown hwheres)
  | union u => exact Query.text_ok_of_selects (Union.shown_ok h)
  | «with» w => exact With.shown_ok h

theorem shown_refuses {s : Statement} {q : Query} (hq : q ∈ s.shown) (h : Refuses q.steps) :
    Refuses s.steps := by
  cases s with
  | select s => exact Query.refuses_of_selects (fun _ => Select.shown_refuses) hq h
  | insert i => exact Query.refuses_of_selects (fun _ => Insert.steps_refuses) hq h
  | update u => exact Query.refuses_of_selects (fun _ => Update.shown_refuses) hq h
  | delete d => exact Query.refuses_of_selects (fun _ => filter_refuses) hq h
  | union u => exact Query.refuses_of_selects (fun _ => Union.shown_refuses) hq h
  | «with» w => exact With.shown_refuses hq h

namespace Shows

variable {s : Statement} {q : Query}

theorem text_ok (h : s.Shows q) (hs : ∀ p ∈ s.shown, ∃ u, p.text = .ok u) :
    ∃ u, q.text = .ok u := by
  induction h with
  | directly h => exact hs _ h
  | @inside s p q h _ ih =>
    obtain ⟨u, hu⟩ := hs p h
    exact ih (shown_ok (p.text_statement.trans hu))

theorem refuses (h : s.Shows q) (hq : Refuses q.steps) : Refuses s.steps := by
  induction h with
  | directly h => exact shown_refuses h hq
  | @inside s p q h _ ih => exact shown_refuses h (p.steps_statement ▸ ih hq)

variable {e : Error}

/-- around a query with a failed edit, some text that would be written is missing -/
theorem not_shown_ok (h : s.Shows q) (hq : q.statement.failed = some e) :
    ¬ ∀ p ∈ s.shown, ∃ u, p.text = .ok u := by
  intro hs
  obtain ⟨u, hu⟩ := h.text_ok hs
  cases (Query.text_of_failed hq).symm.trans hu

theorem text_error (h : s.Shows q) (hq : q.statement.failed = some e) :
    ∃ e', s.text = .error e' := by
  cases ht : s.text with
  | error e' => exact ⟨e', rfl⟩
  | ok t => exact absurd (shown_ok ht) (h.not_shown_ok hq)

theorem buildText (h : s.Shows q) (hq : q.statement.failed = some e) :
    ∃ e', s.buildText = .error e' := by
  unfold Statement.buildText
  cases s.validate with
  | error e' => exact ⟨e', rfl⟩
  | ok _ => exact h.text_error hq

theorem buildArgs (h : s.Shows q) (hq : q.statement.failed = some e) (record : Option Record) :
    ∃ e', (s.buildArgs record).2 = .error e' := by
  unfold Statement.buildArgs
  cases s.validate with
  | error e' => exact ⟨e', rfl⟩
  | ok _ => exact (h.refuses (Query.refuses_of_failed hq)).bindSteps ..

end Shows

end Statement

namespace Mutation

variable {m : Mutation} {q : Query} {e : Error}

/-- nor is there a text with one row more -/
theorem recordText_error (h : m.statement.Shows q) (hq : q.statement.failed = some e) :
    ∃ e', m.recordText = .error e' := by
  unfold recordText
  cases m.statement.validate with
  | error e' => exact ⟨e', rfl⟩
  | ok _ =>
    cases m with
    | update u => exact h.text_error hq
    | insert i =>
      show ∃ e', i.textWith 1 = .error e'
      cases ht : i.textWith 1 with
      | error e' => exact ⟨e', rfl⟩
      | ok t =>
        have hs := Query.text_ok_of_selects (Insert.textWith_shown ht)
        exact absurd hs (h.not_shown_ok hq)

theorem recordArgs_error (h : m.statement.Shows q) (hq : q.statement.failed = some e)
    (record : Record) (aliases : Option (List String)) :
    ∃ e', (m.recordArgs record aliases).2 = .error e' := by
  unfold recordArgs
  cases m.statement.validate with
  | error e' => exact ⟨e', rfl⟩
  | ok _ => exact (h.refuses (Query.refuses_of_failed hq)).bindSteps ..

end Mutation

end BoundSql
