import BoundSql.Proofs.Nesting
import BoundSql.Proofs.Result
import BoundSql.Statement.Select.Edit

/-!
# SELECT statements made by edits

A caller starts with a table, a sub-select or a text and edits the statement.  The SELECTs that an
edit puts into it are made in the same way.

* `Select.Made`              the SELECTs that a caller can make;
* `Select.Made.everywhere`   what edits keep holds of a made SELECT and of all SELECTs in it;
* `Select.Made.projected`    the selected columns are bare columns or expressions.
-/

namespace BoundSql

/-- the selected columns are bare columns or expressions -/
def SelectOf.Projected {σ : Type} (s : SelectOf σ) : Prop := ∀ c ∈ s.columns, c.isProjection

namespace Select

/-- the SELECTs that an edit puts into a statement -/
def Edit.selects : Edit → List Select
  | .computedColumns conditions => subselects conditions
  | .join _ _ _ on => subselects on
  | .filter conditions => subselects conditions
  | .having conditions => subselects conditions
  | _ => []

/-- SELECTs that a caller can make -/
inductive Made : Select → Prop
  | ofTable (table : String) : Made (.ofTable table)
  | ofDerived (select : Select) (name : String) (inner : Made select) : Made (.ofDerived select name)
  | ofRaw (sql : String) (args : Arguments) : Made (.ofRaw sql args)
  | edit (s : Select) (e : Edit) (before : Made s) (inner : ∀ t ∈ e.selects, Made t) :
      Made (s.edit e)

theorem subselects_column (names : List String) :
    subselects (names.map ConditionOf.column : List Condition) = [] := by
  simp [subselects, ConditionOf.column]

theorem subselects_named (pairs : List (String × String)) :
    subselects (pairs.map fun (c, a) => (ConditionOf.column c : Condition).named a) = [] := by
  simp [subselects, ConditionOf.column, ConditionOf.named]

theorem Edit.nested_of_apply {s s' : SelectOf Select} {e : Edit} (h : e.apply s = .ok s')
    {t : Select} (ht : t ∈ s'.nested) : t ∈ s.nested ∨ t ∈ e.selects := by
  cases e with
  | named | distinct | lenient | interpolate =>
    cases h
    exact .inl ht
  | groupBy | orderBy | limit | offset | page =>
    obtain ⟨_, _, h⟩ := bind_ok h
    cases h
    exact .inl ht
  | columns | namedColumns | filter | having =>
    obtain ⟨_, _, h⟩ := bind_ok h
    cases h
    simp only [SelectOf.mem_nested, subselects_append, subselects_column, subselects_named,
      List.mem_append, List.not_mem_nil, or_false, Edit.selects] at ht ⊢
    grind
  | star =>
    obtain ⟨_, _, h⟩ := bind_ok h
    cases h
    have hstar : subselects [(ConditionOf.column "*" : Condition)] = [] := subselects_column ["*"]
    simp only [SelectOf.mem_nested, hstar, List.not_mem_nil, false_or] at ht ⊢
    grind
  | computedColumns =>
    obtain ⟨_, _, h⟩ := bind_ok h
    obtain ⟨_, _, h⟩ := bind_ok h
    cases h
    simp only [SelectOf.mem_nested, subselects_append, List.mem_append, Edit.selects] at ht ⊢
    grind
  | join kind table name on =>
    obtain ⟨_, _, h⟩ := bind_ok h
    obtain ⟨_, _, h⟩ := bind_ok h
    cases h
    simp only [SelectOf.mem_nested, List.mem_append, List.mem_singleton, Edit.selects] at ht ⊢
    rcases ht with h | h | ⟨j, hj | rfl, h⟩ | h | h
    · exact .inl (.inl h)
    · exact .inl (.inr (.inl h))
    · exact .inl (.inr (.inr (.inl ⟨j, hj, h⟩)))
    · exact .inr h
    · exact .inl (.inr (.inr (.inr (.inl h))))
    · exact .inl (.inr (.inr (.inr (.inr h))))

/-- what the clauses of a new SELECT have and every edit keeps, all SELECTs in a made one have -/
theorem Made.everywhere {p : SelectOf Select → Prop} (htable : ∀ table, p { table })
    (hderived : ∀ select name, p (Select.ofDerived select name).clauses)
    (hraw : ∀ sql args, p (Select.ofRaw sql args).clauses)
    (happly : ∀ s (e : Edit) s', p s → e.apply s = .ok s' → p s')
    (hfailed : ∀ s error, p s → p { s with failed := some error }) {s : Select} (h : s.Made) :
    s.Everywhere p := by
  induction h with
  | ofTable table => exact .mk _ (htable table) fun t ht => by simp [SelectOf.mem_nested, subselects] at ht
  | ofDerived select name _ ih =>
    refine .mk _ (hderived select name) fun t ht => ?_
    obtain rfl : select = t := by simpa [SelectOf.mem_nested, subselects] using ht
    exact ih
  | ofRaw sql args => exact .mk _ (hraw sql args) fun t ht => by simp [SelectOf.mem_nested, subselects] at ht
  | edit s e _ _ ih ihe =>
    obtain ⟨s⟩ := s
    unfold Select.edit
    split
    · exact ih
    · split
      · rename_i s' hs'
        refine .mk _ (happly _ _ _ ih.here hs') fun t ht => ?_
        rcases Edit.nested_of_apply hs' ht with h | h
        · exact ih.inside t h
        · exact ihe t h
      · exact .mk _ (hfailed _ _ ih.here) ih.inside

theorem checkProjection_ok {c : Condition} (h : c.checkProjection = .ok ()) : c.isProjection := by
  unfold ConditionOf.checkProjection at h
  split at h
  · assumption
  · cases h

theorem forM_ok {α : Type} {f : α → Except Error Unit} {as : List α} (h : as.forM f = .ok ()) :
    ∀ a ∈ as, f a = .ok () := by
  induction as with
  | nil => simp
  | cons a as ih =>
    obtain ⟨_, ha, h⟩ := bind_ok h
    intro b hb
    rcases List.mem_cons.mp hb with rfl | hb
    · exact ha
    · exact ih h b hb

theorem Edit.projected_of_apply {s s' : SelectOf Select} {e : Edit} (hs : s.Projected)
    (h : e.apply s = .ok s') : s'.Projected := by
  cases e with
  | named | distinct | lenient | interpolate =>
    cases h
    exact hs
  | groupBy | orderBy | limit | offset | page | filter | having =>
    obtain ⟨_, _, h⟩ := bind_ok h
    cases h
    exact hs
  | join =>
    obtain ⟨_, _, h⟩ := bind_ok h
    obtain ⟨_, _, h⟩ := bind_ok h
    cases h
    exact hs
  | star =>
    obtain ⟨_, _, h⟩ := bind_ok h
    cases h
    intro c hc
    rw [List.mem_singleton.mp hc]
    rfl
  | columns names =>
    obtain ⟨_, _, h⟩ := bind_ok h
    cases h
    intro c hc
    rcases List.mem_append.mp hc with hc | hc
    · exact hs c hc
    · obtain ⟨name, _, rfl⟩ := List.mem_map.mp hc
      rfl
  | namedColumns pairs =>
    obtain ⟨_, _, h⟩ := bind_ok h
    cases h
    intro c hc
    rcases List.mem_append.mp hc with hc | hc
    · exact hs c hc
    · obtain ⟨pair, _, rfl⟩ := List.mem_map.mp hc
      rfl
  | computedColumns conditions =>
    obtain ⟨_, _, h⟩ := bind_ok h
    obtain ⟨_, hforM, h⟩ := bind_ok h
    cases h
    intro c hc
    rcases List.mem_append.mp hc with hc | hc
    · exact hs c hc
    · exact checkProjection_ok (forM_ok hforM c hc)

theorem Made.projected {s : Select} (h : s.Made) : s.Everywhere SelectOf.Projected := by
  refine h.everywhere ?_ ?_ ?_ (fun _ _ _ => Edit.projected_of_apply) (fun _ _ hs => hs)
  · intro table c hc
    cases hc
  · intro select name c hc
    cases hc
  · intro sql args c hc
    cases hc

end Select

end BoundSql
