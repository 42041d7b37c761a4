import BoundSql.Proofs.Made.Insert
import BoundSql.Statement

/-!
# Statements made by edits

* `Update.Made`, `Delete.Made`, `Union.Made`, `With.Made`   the statements that a caller can make;
* `Update.Made.scalar`      there is no list among the assigned values;
* `Union.Made.even`         every key of a template has the same number of values;
* `Statement.selects`       the SELECTs directly in a statement;
* `Statement.Made.selects`  they are made by edits when the statement is.
-/

namespace BoundSql

/-! ## UPDATE -/

namespace Update

def Edit.selects : Edit → List Select
  | .compute _ value => subselects [value]
  | .filter conditions => subselects conditions
  | _ => []

inductive Made : Update → Prop
  | ofTable (table : String) : Made (.ofTable table)
  | ofRaw (sql : String) (args : Arguments) : Made (.ofRaw sql args)
  | edit (u : Update) (e : Edit) (before : Made u) (inner : ∀ t ∈ e.selects, t.Made) :
      Made (u.edit e)

theorem Made.invariant {p : Update → Prop} (htable : ∀ table, p (.ofTable table))
    (hraw : ∀ sql args, p (.ofRaw sql args))
    (happly : ∀ u (e : Edit) u', p u → (∀ t ∈ e.selects, t.Made) → e.apply u = .ok u' → p u')
    (hfailed : ∀ u error, p u → p { u with failed := some error }) {u : Update} (h : u.Made) :
    p u := by
  induction h with
  | ofTable table => exact htable table
  | ofRaw sql args => exact hraw sql args
  | edit u e _ inner ih =>
    unfold Update.edit
    split
    · exact ih
    · split
      · rename_i u' hu'
        exact happly u e u' ih inner hu'
      · exact hfailed u _ ih

def assignedSelects : String × Assigned → List Select
  | (_, .argument _) => []
  | (_, .computed c) => subselects [c]

def selects (u : Update) : List Select := u.sets.flatMap assignedSelects ++ subselects u.wheres

/-- no assigned value is a list -/
def Scalar (u : Update) : Prop := ∀ column a, (column, .argument a) ∈ u.sets → a.isList = false

theorem Edit.sets_of_apply {u u' : Update} {e : Edit} (h : e.apply u = .ok u') :
    ∃ sets wheres, u'.sets = u.sets ++ sets ∧ u'.wheres = u.wheres ++ wheres ∧
      sets.flatMap assignedSelects ++ subselects wheres = e.selects ∧
      ∀ column a, (column, .argument a) ∈ sets → a.isList = false := by
  cases e with
  | named | interpolate =>
    cases h
    exact ⟨[], [], by simp, by simp, rfl, by simp⟩
  | recordColumns | orderBy | limit =>
    obtain ⟨_, _, h⟩ := bind_ok h
    cases h
    exact ⟨[], [], by simp, by simp, rfl, by simp⟩
  | filter conditions =>
    obtain ⟨_, _, h⟩ := bind_ok h
    cases h
    exact ⟨[], conditions, by simp, rfl, rfl, by simp⟩
  | set column value =>
    obtain ⟨_, _, h⟩ := bind_ok h
    simp only at h
    split at h
    · cases h
    · rename_i hlist
      cases h
      refine ⟨[(column, .argument value)], [], rfl, by simp, rfl, fun c a ha => ?_⟩
      cases List.mem_singleton.mp ha
      exact Bool.eq_false_iff.mpr hlist
  | compute column value =>
    obtain ⟨_, _, h⟩ := bind_ok h
    obtain ⟨_, _, h⟩ := bind_ok h
    cases h
    refine ⟨[(column, .computed value)], [], rfl, by simp, by simp [assignedSelects, Edit.selects, subselects],
      fun c a ha => ?_⟩
    cases List.mem_singleton.mp ha

theorem Made.scalar {u : Update} (h : u.Made) : u.Scalar := by
  refine h.invariant (p := Scalar) ?_ ?_ ?_ (fun _ _ hu => hu)
  · intro table column a ha
    cases ha
  · intro sql args column a ha
    cases ha
  · intro u e u' hu _ happly column a ha
    obtain ⟨sets, _, hsets, _, _, hscalar⟩ := Edit.sets_of_apply happly
    rw [hsets] at ha
    rcases List.mem_append.mp ha with ha | ha
    · exact hu column a ha
    · exact hscalar column a ha

theorem Made.selects {u : Update} (h : u.Made) : ∀ t ∈ u.selects, t.Made := by
  refine h.invariant (p := fun u => ∀ t ∈ u.selects, t.Made) ?_ ?_ ?_ (fun _ _ hu => hu)
  · intro table t ht
    cases ht
  · intro sql args t ht
    cases ht
  · intro u e u' hu he happly t ht
    obtain ⟨sets, wheres, hsets, hwheres, hselects, _⟩ := Edit.sets_of_apply happly
    simp only [Update.selects, hsets, hwheres, List.flatMap_append, subselects_append,
      List.mem_append] at ht hu
    rw [← hselects] at he
    simp only [List.mem_append] at he
    rcases ht with (ht | ht) | (ht | ht)
    · exact hu t (.inl ht)
    · exact he t (.inl ht)
    · exact hu t (.inr ht)
    · exact he t (.inr ht)

end Update

/-! ## DELETE -/

namespace Delete

def Edit.selects : Edit → List Select
  | .filter conditions => subselects conditions
  | _ => []

inductive Made : Delete → Prop
  | ofTable (table : String) : Made (.ofTable table)
  | edit (d : Delete) (e : Edit) (before : Made d) (inner : ∀ t ∈ e.selects, t.Made) :
      Made (d.edit e)

def selects (d : Delete) : List Select := subselects d.wheres

theorem Made.selects {d : Delete} (h : d.Made) : ∀ t ∈ d.selects, t.Made := by
  induction h with
  | ofTable table =>
    intro t ht
    cases ht
  | edit d e _ inner ih =>
    intro t ht
    cases e with
    | named | orderBy | limit | interpolate => exact ih t ht
    | filter conditions =>
      rw [show (d.edit (.filter conditions)).selects = d.selects ++ subselects conditions from
        subselects_append ..] at ht
      rcases List.mem_append.mp ht with ht | ht
      · exact ih t ht
      · exact inner t ht

end Delete

/-! ## UNION -/

namespace Union

def Edit.selects : Edit → List Select
  | .append selects => selects
  | _ => []

inductive Made : Union → Prop
  | ofSelects (selects : List Select) (inner : ∀ t ∈ selects, t.Made) : Made (.ofSelects selects)
  | edit (u : Union) (e : Edit) (before : Made u) (inner : ∀ t ∈ e.selects, t.Made) :
      Made (u.edit e)

theorem Made.invariant {p : Union → Prop}
    (hselects : ∀ selects, (∀ t ∈ selects, t.Made) → p (.ofSelects selects))
    (happly : ∀ u (e : Edit) u', p u → (∀ t ∈ e.selects, t.Made) → e.apply u = .ok u' → p u')
    (hfailed : ∀ u error, p u → p { u with failed := some error }) {u : Union} (h : u.Made) :
    p u := by
  induction h with
  | ofSelects selects inner => exact hselects selects inner
  | edit u e _ inner ih =>
    unfold Union.edit
    split
    · exact ih
    · split
      · rename_i u' hu'
        exact happly u e u' ih inner hu'
      · exact hfailed u _ ih

/-- the keys of a template all have as many values as the first one -/
def Even (u : Union) : Prop :=
  ∀ first ∈ u.replacements.head?, ∀ r ∈ u.replacements, r.2.length = first.2.length

theorem addReplacement_ok {u u' : Union} {key : String} {values : List String}
    (h : u.addReplacement key values = .ok u') :
    (∀ first ∈ u.replacements.head?, values.length = first.2.length) ∧
      u' = { u with replacements := u.replacements ++ [(key, values)] } := by
  unfold addReplacement at h
  simp only at h
  split at h
  · cases h
  · split at h
    · cases h
    · cases hreplacements : u.replacements with
      | nil =>
        simp only [hreplacements] at h
        cases h
        refine ⟨fun first hfirst => ?_, rfl⟩
        cases hfirst
      | cons head tail =>
        simp only [hreplacements] at h
        split at h
        · cases h
        · rename_i hlength
          cases h
          refine ⟨fun first hfirst => ?_, rfl⟩
          cases hfirst
          exact (Decidable.not_not.mp hlength).symm

theorem Edit.even_of_apply {u u' : Union} {e : Edit} (hu : u.Even) (h : e.apply u = .ok u') :
    u'.Even := by
  cases e with
  | append | all | distinct | together | orderBy | limit | offset | interpolate =>
    cases h
    exact hu
  | replace key values =>
    obtain ⟨hlength, rfl⟩ := addReplacement_ok h
    intro first hfirst r hr
    cases hreplacements : u.replacements with
    | nil =>
      simp only [hreplacements, List.nil_append, List.head?_cons, Option.mem_some_iff,
        List.mem_singleton] at hfirst hr
      rw [hr, ← hfirst]
    | cons head tail =>
      simp only [hreplacements, List.cons_append, List.head?_cons, Option.mem_some_iff] at hfirst
      have hhead : first ∈ u.replacements.head? := by
        rw [hreplacements, ← hfirst]
        rfl
      rcases List.mem_append.mp hr with hr | hr
      · exact hu first hhead r hr
      · rw [List.mem_singleton.mp hr]
        exact hlength first hhead

theorem Made.even {u : Union} (h : u.Made) : u.Even := by
  refine h.invariant (p := Even) ?_ (fun _ _ _ hu _ => Edit.even_of_apply hu) (fun _ _ hu => hu)
  intro selects _ first hfirst
  cases hfirst

theorem Made.selects {u : Union} (h : u.Made) : ∀ t ∈ u.selects, t.Made := by
  refine h.invariant (p := fun u => ∀ t ∈ u.selects, t.Made) (fun _ h => h) ?_ (fun _ _ hu => hu)
  intro u e u' hu he happly
  cases e with
  | all | distinct | together | orderBy | limit | offset | interpolate =>
    cases happly
    exact hu
  | replace key values =>
    obtain ⟨_, rfl⟩ := addReplacement_ok happly
    exact hu
  | append selects =>
    cases happly
    intro t ht
    rcases List.mem_append.mp ht with ht | ht
    · exact hu t ht
    · exact he t ht

end Union

/-! ## WITH -/

namespace Query

def Made : Query → Prop
  | .select s => s.Made
  | .union u => u.Made

def selects : Query → List Select
  | .select s => [s]
  | .union u => u.selects

theorem Made.selects {q : Query} (h : q.Made) : ∀ t ∈ q.selects, t.Made := by
  cases q with
  | select s =>
    intro t ht
    rw [List.mem_singleton.mp ht]
    exact h
  | union u => exact Union.Made.selects h

end Query

namespace With

def Edit.queries : Edit → List Query
  | .table _ _ query => [query]
  | .final query => [query]
  | _ => []

inductive Made : With → Prop
  | empty : Made {}
  | edit (w : With) (e : Edit) (before : Made w) (inner : ∀ q ∈ e.queries, q.Made) : Made (w.edit e)

def queries (w : With) : List Query := w.tables.map TableExpression.query ++ w.query.toList

theorem Made.queries {w : With} (h : w.Made) : ∀ q ∈ w.queries, q.Made := by
  induction h with
  | empty =>
    intro q hq
    cases hq
  | edit w e _ inner ih =>
    intro q hq
    simp only [With.queries, List.mem_append, Option.mem_toList] at ih hq
    cases e with
    | recursive | interpolate => exact ih q hq
    | table name columns query =>
      simp only [With.edit, List.map_append, List.mem_append, List.map_cons, List.map_nil] at hq
      rcases hq with (hq | hq) | hq
      · exact ih q (.inl hq)
      · exact inner q hq
      · exact ih q (.inr hq)
    | final query =>
      rcases hq with hq | hq
      · exact ih q (.inl hq)
      · cases hq
        exact inner q (List.mem_singleton_self q)

end With

/-! ## statements -/

namespace Statement

/-- statements that a caller can make -/
def Made : Statement → Prop
  | .select s => s.Made
  | .insert i => i.Made
  | .update u => u.Made
  | .delete d => d.Made
  | .union u => u.Made
  | .with w => w.Made

/-- the SELECTs directly in a statement -/
def selects : Statement → List Select
  | .select s => [s]
  | .insert i => i.selects
  | .update u => u.selects
  | .delete d => d.selects
  | .union u => u.selects
  | .with w => w.queries.flatMap Query.selects

theorem Made.selects {s : Statement} (h : s.Made) : ∀ t ∈ s.selects, t.Made := by
  cases s with
  | select s =>
    intro t ht
    rw [List.mem_singleton.mp ht]
    exact h
  | insert i => exact Insert.Made.selects h
  | update u => exact Update.Made.selects h
  | delete d => exact Delete.Made.selects h
  | union u => exact Union.Made.selects h
  | «with» w =>
    intro t ht
    obtain ⟨q, hq, ht⟩ := List.mem_flatMap.mp ht
    exact (With.Made.queries h q hq).selects t ht

end Statement

end BoundSql
