import BoundSql.Statement.Select
import Mathlib.Algebra.Order.BigOperators.Group.List
import Mathlib.Algebra.Order.Ring.Nat

/-!
# SELECT statements inside one another

* `subselects`           the sub-selects of conditions;
* `SelectOf.nested`      the direct sub-selects of a SELECT;
* `Select.nested_induction`   induction over the nest;
* `Select.Everywhere`    what holds of a SELECT and of all SELECTs in it.
-/

namespace BoundSql

variable {σ : Type}

def subselects (cs : List (ConditionOf σ)) : List σ := cs.filterMap fun c => c.subselect

theorem subselects_append (cs ds : List (ConditionOf σ)) :
    subselects (cs ++ ds) = subselects cs ++ subselects ds := List.filterMap_append

theorem mem_subselects {cs : List (ConditionOf σ)} {c : ConditionOf σ} (hc : c ∈ cs) {t : σ}
    (ht : c.subselect = some t) : t ∈ subselects cs := List.mem_filterMap.mpr ⟨c, hc, ht⟩

namespace SelectOf

def nested (s : SelectOf σ) : List σ :=
  s.derived.toList ++ subselects s.columns ++ s.joins.flatMap (fun j => subselects j.on) ++
    subselects s.wheres ++ subselects s.havings

variable {s : SelectOf σ} {t : σ}

theorem mem_nested : t ∈ s.nested ↔ s.derived = some t ∨ t ∈ subselects s.columns ∨
    (∃ j ∈ s.joins, t ∈ subselects j.on) ∨ t ∈ subselects s.wheres ∨ t ∈ subselects s.havings := by
  simp only [nested, List.mem_append, Option.mem_toList, List.mem_flatMap, or_assoc]

theorem mem_nested_of_derived (h : s.derived = some t) : t ∈ s.nested := mem_nested.mpr (.inl h)

theorem mem_nested_of_columns (h : t ∈ subselects s.columns) : t ∈ s.nested :=
  mem_nested.mpr (.inr (.inl h))

theorem mem_nested_of_join {j : JoinOf σ} (hj : j ∈ s.joins) (h : t ∈ subselects j.on) :
    t ∈ s.nested := mem_nested.mpr (.inr (.inr (.inl ⟨j, hj, h⟩)))

theorem mem_nested_of_wheres (h : t ∈ subselects s.wheres) : t ∈ s.nested :=
  mem_nested.mpr (.inr (.inr (.inr (.inl h))))

theorem mem_nested_of_havings (h : t ∈ subselects s.havings) : t ∈ s.nested :=
  mem_nested.mpr (.inr (.inr (.inr (.inr h))))

theorem nested_map {τ : Type} (f : σ → τ) (s : SelectOf σ) : (s.map f).nested = s.nested.map f := by
  have hsub : ∀ cs : List (ConditionOf σ),
      subselects (cs.map (·.map f)) = (subselects cs).map f := by
    intro cs
    unfold subselects
    rw [List.filterMap_map, List.map_filterMap]
    rfl
  have hjoins : (s.joins.map (·.map f)).flatMap (fun j => subselects j.on) =
      (s.joins.flatMap fun j => subselects j.on).map f := by
    rw [List.flatMap_map, List.map_flatMap]
    congr 1
    funext j
    exact hsub j.on
  unfold nested
  rw [List.map_append, List.map_append, List.map_append, List.map_append, ← Option.toList_map,
    ← hsub, ← hsub, ← hsub, ← hjoins]
  rfl

end SelectOf

namespace Select

def weight (s : Select) : Nat := s.fold fun c => 1 + c.nested.sum

theorem weight_mk (s : SelectOf Select) : weight (mk s) = 1 + (s.nested.map weight).sum := by
  rw [weight, fold_mk, SelectOf.nested_map]
  rfl

theorem weight_lt_of_mem {s : SelectOf Select} {t : Select} (h : t ∈ s.nested) :
    weight t < weight (mk s) := by
  have hle := List.le_sum_of_mem (List.mem_map_of_mem (f := weight) h)
  rw [weight_mk]
  omega

/-- what holds of a SELECT whenever it holds of its direct sub-selects holds of all -/
theorem nested_induction {P : Select → Prop} (h : ∀ s, (∀ t ∈ s.nested, P t) → P (mk s))
    (s : Select) : P s := by
  obtain ⟨s⟩ := s
  exact h s fun t ht =>
    have := weight_lt_of_mem ht
    nested_induction h t
termination_by weight s

/-- a property of a SELECT and of all SELECTs in it -/
inductive Everywhere (p : SelectOf Select → Prop) : Select → Prop
  | mk (s : SelectOf Select) (here : p s) (inside : ∀ t ∈ s.nested, Everywhere p t) :
      Everywhere p (.mk s)

variable {p : SelectOf Select → Prop} {s : SelectOf Select}

theorem Everywhere.here (h : Everywhere p (.mk s)) : p s := by
  cases h with
  | mk _ here _ => exact here

theorem Everywhere.inside (h : Everywhere p (.mk s)) : ∀ t ∈ s.nested, Everywhere p t := by
  cases h with
  | mk _ _ inside => exact inside

end Select

end BoundSql
