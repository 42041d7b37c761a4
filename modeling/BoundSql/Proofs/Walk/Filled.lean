import BoundSql.Proofs.Places
import BoundSql.Proofs.Walk

/-!
# Walks with their markers filled in

A walk that is made without a record binds markers where a record will supply values.

* `IsKnown`, `IsSingle`       values that need neither a record nor a driver;
* `Arguments.flatten_known`   such arguments have the values that they show;
* `supply`, `Walk.fill`       the markers of a list, or of a walk, replaced by values in order;
* `supply_of_fills`, `bound_fill_of_fills`   filling in markers of arguments fills in those among
  their values.
-/

namespace BoundSql

/-! ## known values -/

/-- neither a driver value nor a marker -/
def IsKnown (a : Argument) : Prop := a.isValue = false ∧ a ≠ .pending

/-- a known value that takes one placeholder -/
def IsSingle (a : Argument) : Prop := IsKnown a ∧ IsScalar a

namespace Argument

theorem scalars_of_isKnown {a : Argument} (h : IsKnown a) : a.scalars = .ok a.members := by
  cases a with
  | value identity look resolved => cases h.1
  | pending => exact absurd rfl h.2
  | _ => rfl

theorem pending_not_mem_members {a : Argument} (h : a ≠ .pending) : .pending ∉ a.members := by
  cases a <;> simp_all [members]

end Argument

theorem Arguments.flatten_known {as : Arguments} (h : ∀ a ∈ as, IsKnown a) :
    as.flatten = .ok (as.flatMap Argument.members) := by
  induction as with
  | nil => rfl
  | cons a as ih =>
    exact flatten_cons_ok (Argument.scalars_of_isKnown (h a (List.mem_cons_self ..)))
      (ih fun b hb => h b (List.mem_cons_of_mem _ hb))

/-! ## markers among values -/

/-- the markers of a list replaced by values, in order -/
def supply : Arguments → Arguments → Arguments
  | [], _ => []
  | as, [] => as
  | a :: as, v :: vs => if a.isPending then v :: supply as vs else a :: supply as (v :: vs)

theorem supply_nil (as : Arguments) : supply as [] = as := by
  cases as <;> rfl

theorem supply_pending (as vs : Arguments) (v : Argument) :
    supply (.pending :: as) (v :: vs) = v :: supply as vs := rfl

theorem supply_cons {a : Argument} (h : a ≠ .pending) (as vs : Arguments) :
    supply (a :: as) vs = a :: supply as vs := by
  cases vs with
  | nil => rw [supply_nil, supply_nil]
  | cons v vs =>
    have hkept : a.isPending = false := by
      cases a <;> first | rfl | exact absurd rfl h
    rw [supply, hkept, if_neg Bool.false_ne_true]

theorem supply_append {as : Arguments} (h : .pending ∉ as) (bs vs : Arguments) :
    supply (as ++ bs) vs = as ++ supply bs vs := by
  induction as with
  | nil => rfl
  | cons a as ih =>
    have ha : a ≠ .pending := fun he => h (he ▸ List.mem_cons_self ..)
    rw [List.cons_append, supply_cons ha, ih fun hmem => h (List.mem_cons_of_mem _ hmem)]
    rfl

theorem supply_of_fills {places : List Place} {answers : List (String × Argument)}
    {out : Arguments} (h : Fills places answers out) (hheld : ∀ a, .held a ∈ places → a ≠ .pending)
    (hanswers : ∀ answer ∈ answers, IsScalar answer.2) :
    supply ((places.map Place.argument).flatMap Argument.members) (answers.map (·.2)) =
      out.flatMap Argument.members := by
  induction h with
  | nil => rfl
  | @held a places answers out _ ih =>
    have ha := Argument.pending_not_mem_members (hheld a (List.mem_cons_self ..))
    rw [List.map_cons, List.flatMap_cons, List.flatMap_cons, Place.argument, supply_append ha,
      ih (fun b hb => hheld b (List.mem_cons_of_mem _ hb)) hanswers]
  | @awaited part column v places answers out _ ih =>
    have hv : v.members = [v] :=
      Argument.members_of_isScalar (hanswers (column, v) (List.mem_cons_self ..))
    rw [List.map_cons, List.flatMap_cons, List.flatMap_cons, hv, List.map_cons]
    show supply (.pending :: (places.map Place.argument).flatMap Argument.members)
      (v :: answers.map (·.2)) = _
    rw [supply_pending, ih (fun b hb => hheld b (List.mem_cons_of_mem _ hb))
      fun answer ha => hanswers answer (List.mem_cons_of_mem _ ha)]
    rfl

/-! ## markers in walks -/

namespace Walk

/-- the walk with its markers replaced by values, in order -/
def fill : Walk → Arguments → Walk
  | [], _ => []
  | .char c :: w, vs => .char c :: fill w vs
  | .mark a :: w, [] => .mark a :: fill w []
  | .mark a :: w, v :: vs =>
    if a.isPending then .mark v :: fill w vs else .mark a :: fill w (v :: vs)

theorem fill_char (c : Char) (w : Walk) (vs : Arguments) :
    fill (.char c :: w) vs = .char c :: fill w vs := by
  cases vs <;> rfl

/-- a placeholder stays a placeholder -/
theorem fill_mark (a : Argument) (w : Walk) (vs : Arguments) :
    ∃ b rest, fill (.mark a :: w) vs = .mark b :: fill w rest ∧
      supply (a :: w.bound) vs = b :: supply w.bound rest := by
  cases vs with
  | nil => exact ⟨a, [], rfl, by rw [supply_nil, supply_nil]⟩
  | cons v vs =>
    cases ha : a.isPending with
    | true => exact ⟨v, vs, by rw [fill, if_pos ha], by rw [supply, if_pos ha]⟩
    | false =>
      have hne : ¬ a.isPending = true := Bool.eq_false_iff.mp ha
      exact ⟨a, v :: vs, by rw [fill, if_neg hne], by rw [supply, if_neg hne]⟩

theorem text_fill (w : Walk) (vs : Arguments) : (w.fill vs).text = w.text := by
  induction w generalizing vs with
  | nil => cases vs <;> rfl
  | cons x w ih =>
    cases x with
    | char c =>
      rw [fill_char]
      exact congrArg (c :: ·) (ih vs)
    | mark a =>
      obtain ⟨b, rest, hfill, _⟩ := fill_mark a w vs
      rw [hfill]
      exact congrArg ('?' :: ·) (ih rest)

theorem cut_fill (w : Walk) (vs : Arguments) : (w.fill vs).cut = w.cut := by
  induction w generalizing vs with
  | nil => cases vs <;> rfl
  | cons x w ih =>
    cases x with
    | char c => rw [fill_char, cut, cut, ih]
    | mark a =>
      obtain ⟨b, rest, hfill, _⟩ := fill_mark a w vs
      rw [hfill, cut, cut, ih]

theorem bound_fill (w : Walk) (vs : Arguments) : (w.fill vs).bound = supply w.bound vs := by
  induction w generalizing vs with
  | nil => cases vs <;> rfl
  | cons x w ih =>
    cases x with
    | char c =>
      rw [fill_char]
      exact ih vs
    | mark a =>
      obtain ⟨b, rest, hfill, hsupply⟩ := fill_mark a w vs
      rw [hfill]
      show b :: bound (fill w rest) = supply (a :: bound w) vs
      rw [ih, hsupply]

/-- filling in the markers of a walk fills in those of the arguments that it binds -/
theorem bound_fill_of_fills {w : Walk} {own out : Arguments} {places : List Place}
    {answers : List (String × Argument)}
    (hbound : (own ++ places.map Place.argument).flatMap Argument.members = w.bound)
    (hfills : Fills places answers out) (hown : ∀ a ∈ own, IsSingle a)
    (hheld : ∀ a, .held a ∈ places → a ≠ .pending)
    (hanswers : ∀ answer ∈ answers, IsScalar answer.2) :
    (w.fill (answers.map (·.2))).bound = (own ++ out).flatMap Argument.members := by
  have hunmarked : .pending ∉ own := fun ha => (hown _ ha).1.2 rfl
  rw [bound_fill, ← hbound, List.flatMap_append, List.flatMap_append,
    Arguments.members_of_scalars fun a ha => (hown a ha).2, supply_append hunmarked,
    supply_of_fills hfills hheld hanswers]

end Walk

end BoundSql
