import BoundSql.Proofs.Made.Select
import BoundSql.Statement.Insert

/-!
# INSERT statements made by edits

* `Insert.Made`             the INSERTs that a caller can make;
* `Insert.addValues_ok`, `Insert.addPairs_ok`, `Insert.addDuplicate_ok`   what the edits do;
* `Insert.Made.invariant`   what edits keep holds of a made INSERT;
* `Insert.Made.scalar`      there is no list among its values.
-/

namespace BoundSql

namespace Insert

def selects (i : Insert) : List Select := i.select.toList

def Edit.selects : Edit → List Select
  | .fromSelect select => [select]
  | _ => []

inductive Made : Insert → Prop
  | ofTable (table : String) : Made (.ofTable table)
  | edit (i i' : Insert) (e : Edit) (before : Made i) (inner : ∀ t ∈ e.selects, t.Made)
      (after : i.edit e = .ok i') : Made i'

theorem edit_cases {i i' : Insert} {e : Edit} (h : i.edit e = .ok i') :
    i' = i ∨ (∃ error, i' = { i with failed := some error }) ∨ e.apply i = .ok (.ok i') := by
  unfold edit at h
  split at h
  · cases h
    exact .inl rfl
  · cases ha : e.apply i with
    | error fault =>
      rw [ha] at h
      cases h
    | ok result =>
      rw [ha] at h
      cases result with
      | error error =>
        cases h
        exact .inr (.inl ⟨error, rfl⟩)
      | ok made =>
        cases h
        exact .inr (.inr rfl)

theorem Made.invariant {p : Insert → Prop} (htable : ∀ table, p (.ofTable table))
    (happly : ∀ i (e : Edit) i', p i → (∀ t ∈ e.selects, t.Made) → e.apply i = .ok (.ok i') → p i')
    (hfailed : ∀ i error, p i → p { i with failed := some error }) {i : Insert} (h : i.Made) :
    p i := by
  induction h with
  | ofTable table => exact htable table
  | edit i i' e _ inner after ih =>
    rcases edit_cases after with rfl | ⟨error, rfl⟩ | happlied
    · exact ih
    · exact hfailed i error ih
    · exact happly i e i' ih inner happlied

/-- rows and values for rows that are there already hold no lists -/
structure Scalar (i : Insert) : Prop where
  rows : ∀ row ∈ i.rows, ∀ a ∈ row, a.isList = false
  onDuplicate : ∀ column a, (column, .argument a) ∈ i.onDuplicate → a.isList = false

theorem addValues_ok {i i' : Insert} {values : Arguments}
    (h : i.addValues values = .ok (.ok i')) :
    (∀ a ∈ values, a.isList = false) ∧
      ∃ width, width ≠ 0 ∧ i' = { i with rows := i.rows ++ chunks width values } := by
  unfold addValues at h
  split at h
  · cases h
  · rename_i hfind
    split at h
    · cases h
    · simp only at h
      split at h
      · cases h
      · rename_i hwidth
        split at h
        · cases h
        · cases h
          refine ⟨fun a ha => ?_, _, hwidth, rfl⟩
          simpa using List.find?_eq_none.mp hfind a ha

theorem splitPairs_ok {row : List Condition} {columns : List String} {values : Arguments}
    (h : splitPairs row = .ok (columns, values)) : ∀ a ∈ values, a.isList = false := by
  induction row generalizing columns values with
  | nil =>
    cases h
    simp
  | cons c row ih =>
    obtain ⟨⟨column, value⟩, _, h⟩ := bind_ok h
    simp only at h
    split at h
    · cases h
    · rename_i hlist
      obtain ⟨⟨columns', values'⟩, hrest, h⟩ := bind_ok h
      cases h
      intro a ha
      rcases List.mem_cons.mp ha with rfl | ha
      · exact Bool.eq_false_iff.mpr hlist
      · exact ih hrest a ha

theorem addPairs_ok {i i' : Insert} {row : List Condition} (h : i.addPairs row = .ok i') :
    ∃ columns values, (∀ a ∈ values, a.isList = false) ∧
      i' = { i with columns, rows := i.rows ++ [values] } := by
  obtain ⟨⟨columns, values⟩, hsplit, h⟩ := bind_ok h
  refine ⟨columns, values, splitPairs_ok hsplit, ?_⟩
  simp only at h
  split at h
  · cases h
    rfl
  · split at h
    · cases h
    · rename_i hcolumns
      cases h
      rw [← Decidable.not_not.mp hcolumns]

theorem addDuplicate_ok {i i' : Insert} {column : String} {value : OnDuplicate}
    (h : i.addDuplicate column value = .ok i') :
    (∀ a, value = .argument a → a.isList = false) ∧
      i' = { i with onDuplicate := i.onDuplicate ++ [(column, value)] } := by
  unfold addDuplicate at h
  split at h
  · split at h
    · cases h
    · rename_i hlist
      cases h
      refine ⟨fun a ha => ?_, rfl⟩
      cases ha
      exact Bool.eq_false_iff.mpr hlist
  · rename_i hvalue
    cases h
    exact ⟨fun a ha => absurd ha (hvalue a), rfl⟩

theorem Edit.scalar_of_apply {i i' : Insert} {e : Edit} (hi : i.Scalar)
    (h : e.apply i = .ok (.ok i')) : i'.Scalar := by
  cases e with
  | columns | rowCount | records | fromSelect | ignore | interpolate =>
    cases h
    exact ⟨hi.rows, hi.onDuplicate⟩
  | values given =>
    obtain ⟨hvalues, width, hwidth, rfl⟩ := addValues_ok h
    refine ⟨fun row hrow a ha => ?_, hi.onDuplicate⟩
    rcases List.mem_append.mp hrow with hrow | hrow
    · exact hi.rows row hrow a ha
    · have hflat := List.mem_flatten_of_mem hrow ha
      rw [flatten_chunks hwidth] at hflat
      exact hvalues a hflat
  | pairs row =>
    obtain ⟨columns, values, hvalues, rfl⟩ := addPairs_ok (Except.ok.inj h)
    refine ⟨fun r hr a ha => ?_, hi.onDuplicate⟩
    rcases List.mem_append.mp hr with hr | hr
    · exact hi.rows r hr a ha
    · rw [List.mem_singleton.mp hr] at ha
      exact hvalues a ha
  | onDuplicate column value =>
    obtain ⟨hvalue, rfl⟩ := addDuplicate_ok (Except.ok.inj h)
    refine ⟨hi.rows, fun c a ha => ?_⟩
    rcases List.mem_append.mp ha with ha | ha
    · exact hi.onDuplicate c a ha
    · cases List.mem_singleton.mp ha
      exact hvalue a rfl

theorem Made.scalar {i : Insert} (h : i.Made) : i.Scalar := by
  refine h.invariant ?_ (fun _ _ _ hi _ => Edit.scalar_of_apply hi)
    (fun _ _ hi => ⟨hi.rows, hi.onDuplicate⟩)
  intro table
  constructor
  · intro row hrow
    cases hrow
  · intro column a ha
    cases ha

theorem Edit.select_of_apply {i i' : Insert} {e : Edit} (h : e.apply i = .ok (.ok i')) :
    i'.select = i.select ∨ ∃ select, e.selects = [select] ∧ i'.select = some select := by
  cases e with
  | columns | rowCount | records | ignore | interpolate =>
    cases h
    exact .inl rfl
  | fromSelect select =>
    cases h
    exact .inr ⟨select, rfl, rfl⟩
  | values given =>
    obtain ⟨_, _, _, rfl⟩ := addValues_ok h
    exact .inl rfl
  | pairs row =>
    obtain ⟨_, _, _, rfl⟩ := addPairs_ok (Except.ok.inj h)
    exact .inl rfl
  | onDuplicate column value =>
    obtain ⟨_, rfl⟩ := addDuplicate_ok (Except.ok.inj h)
    exact .inl rfl

theorem Made.selects {i : Insert} (h : i.Made) : ∀ t ∈ i.selects, t.Made := by
  refine h.invariant (p := fun i => ∀ t ∈ i.selects, t.Made) ?_ ?_ (fun _ _ h => h)
  · intro table t ht
    cases ht
  · intro i e i' hi he happly t ht
    rw [Insert.selects, Option.mem_toList] at ht
    rcases Edit.select_of_apply happly with hselect | ⟨select, heselect, hselect⟩
    · rw [hselect] at ht
      exact hi t (Option.mem_toList.mpr ht)
    · rw [hselect] at ht
      cases ht
      exact he t (heselect ▸ List.mem_singleton_self _)

end Insert

end BoundSql
