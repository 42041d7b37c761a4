import BoundSql.Proofs.Cache

/-!
# What a caller does with a builder

* `Use`                       an edit, keeping builds from now on, or a build;
* `Builder.use`, `Builder.uses`   what becomes of a builder; an edit may end the program;
* `Builder.uses_fault_iff`    where they end the program;
* `Builder.Sound.uses`        kept builds are those of the statement, after any uses;
* `Builder.invariant_of_uses`   what every edit of a draft keeps, uses keep.
-/

namespace BoundSql

inductive Use (σ : Type) [Draft σ] where
  | edit (e : Draft.Edit σ)
  | keep
  | build

namespace Builder

variable {σ : Type} [Draft σ]

def use (b : Builder σ) : Use σ → Except Fault (Builder σ)
  | .edit e => b.edit e
  | .keep => .ok b.keep
  | .build => .ok b.toSql.2.2

def uses (b : Builder σ) (us : List (Use σ)) : Except Fault (Builder σ) := us.foldlM use b

theorem uses_nil (b : Builder σ) : b.uses [] = .ok b := rfl

theorem uses_cons (b : Builder σ) (u : Use σ) (us : List (Use σ)) :
    b.uses (u :: us) = b.use u >>= (·.uses us) := List.foldlM_cons ..

theorem uses_append (b : Builder σ) (us later : List (Use σ)) :
    b.uses (us ++ later) = b.uses us >>= (·.uses later) := List.foldlM_append ..

/-- whatever becomes of the kept build, an edit edits the draft -/
theorem draft_of_edit (b : Builder σ) (e : Draft.Edit σ) :
    (b.edit e).map (·.draft) = Draft.edit b.draft e := by
  rw [edit]
  cases Draft.edit b.draft e with
  | error fault => rfl
  | ok draft => cases b.statement.failed <;> rfl

theorem edit_fault_iff {b : Builder σ} {e : Draft.Edit σ} :
    (∃ fault, b.edit e = .error fault) ↔ ∃ fault, Draft.edit b.draft e = .error fault := by
  rw [← draft_of_edit]
  cases b.edit e <;> simp [Except.map]

/-- uses end the program where the first edit does -/
theorem uses_fault_iff {b : Builder σ} {us : List (Use σ)} :
    (∃ fault, b.uses us = .error fault) ↔
      ∃ before e later b', us = before ++ .edit e :: later ∧ b.uses before = .ok b' ∧
        ∃ fault, Draft.edit b'.draft e = .error fault := by
  constructor
  · intro h
    induction us generalizing b with
    | nil =>
      obtain ⟨fault, h⟩ := h
      cases h
    | cons u us ih =>
      rw [uses_cons] at h
      cases hu : b.use u with
      | error fault =>
        cases u with
        | keep => cases hu
        | build => cases hu
        | edit e => exact ⟨[], e, us, b, rfl, rfl, edit_fault_iff.mp ⟨fault, hu⟩⟩
      | ok c =>
        rw [hu] at h
        obtain ⟨before, e, later, b', rfl, hbefore, hfault⟩ := ih h
        refine ⟨u :: before, e, later, b', rfl, ?_, hfault⟩
        rw [uses_cons, hu]
        exact hbefore
  · rintro ⟨before, e, later, b', rfl, hbefore, hfault⟩
    obtain ⟨fault, hedit⟩ := edit_fault_iff.mpr hfault
    refine ⟨fault, ?_⟩
    rw [uses_append, hbefore]
    show b'.uses (.edit e :: later) = _
    rw [uses_cons, show b'.use (.edit e) = .error fault from hedit]
    rfl

/-- what every single use keeps, a list of them keeps -/
theorem induction_of_uses {p : Builder σ → Prop}
    (hp : ∀ b u b', p b → use b u = .ok b' → p b') {b b' : Builder σ} (h : p b)
    {us : List (Use σ)} (hus : b.uses us = .ok b') : p b' := by
  induction us generalizing b with
  | nil =>
    cases hus
    exact h
  | cons u us ih =>
    rw [uses_cons] at hus
    cases hu : b.use u with
    | error fault =>
      rw [hu] at hus
      cases hus
    | ok c =>
      rw [hu] at hus
      exact ih (hp b u c h hu) hus

theorem Sound.use {b b' : Builder σ} (h : b.Sound) {u : Use σ} (hu : b.use u = .ok b') :
    b'.Sound := by
  cases u with
  | edit e => exact sound_of_none (h.built_of_edit hu)
  | keep =>
    cases hu
    exact h.keep
  | build =>
    cases hu
    exact h.toSql

theorem Sound.uses {b b' : Builder σ} (h : b.Sound) {us : List (Use σ)} (hus : b.uses us = .ok b') :
    b'.Sound :=
  induction_of_uses (fun _ _ _ hb hu => hb.use hu) h hus

theorem invariant_of_uses {p : σ → Prop} (hp : ∀ d e d', p d → Draft.edit d e = .ok d' → p d')
    {b b' : Builder σ} (h : p b.draft) {us : List (Use σ)} (hus : b.uses us = .ok b') :
    p b'.draft := by
  refine induction_of_uses (p := fun b => p b.draft) (fun b u b' hb hu => ?_) h hus
  cases u with
  | edit e =>
    have hedit := b.draft_of_edit e
    rw [show b.edit e = .ok b' from hu] at hedit
    exact hp _ e _ hb hedit.symm
  | keep =>
    cases hu
    rwa [keep_draft]
  | build =>
    cases hu
    rwa [toSql_draft]

end Builder

end BoundSql
