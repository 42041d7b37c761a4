import BoundSql.Proofs.Forest
import BoundSql.Proofs.Nesting

/-!
# What a SELECT writes

The text of a SELECT includes those of sub-selects, and its steps theirs.  Where one of these has no
text, the SELECT has none, and where one of them cannot tell its arguments, neither can the SELECT.

* `Refuses`                     steps that fail for every subject;
* `shownIn`, `SelectOf.shown`   the sub-selects that a clause and a SELECT write;
* `Select.shown_ok`, `Select.shown_refuses`   their texts and their steps.

Not every sub-select is written: a text of the caller's stands in the place of all clauses, shared
columns in that of a join's conditions, and group markers write none.
-/

namespace BoundSql

theorem ok_of_mapM {α β : Type} {f : α → Except Error β} {as : List α} {bs : List β}
    (h : as.mapM f = .ok bs) : ∀ a ∈ as, ∃ b, f a = .ok b := by
  induction as generalizing bs with
  | nil => simp
  | cons a as ih =>
    obtain ⟨b, bs', hb, hbs, -⟩ := mapM_cons_ok h
    intro a' ha'
    rcases List.mem_cons.mp ha' with rfl | ha'
    · exact ⟨b, hb⟩
    · exact ih hbs a' ha'

/-- some step cannot be carried out, whoever the steps are carried out for -/
def Refuses (steps : List Step) : Prop := ∃ e, .fail e ∈ steps

theorem Refuses.mono {ss rs : List Step} (h : Refuses ss) (hsub : ss ⊆ rs) : Refuses rs := by
  obtain ⟨e, he⟩ := h
  exact ⟨e, hsub he⟩

theorem Refuses.within {ss : List Step} (h : Refuses ss) (place : String) :
    Refuses (ss.map (·.within place)) := by
  obtain ⟨e, he⟩ := h
  exact ⟨e.within place, List.mem_map.mpr ⟨_, he, rfl⟩⟩

theorem refuses_fail (e : Error) : Refuses [.fail e] := ⟨e, List.mem_singleton_self _⟩

theorem Refuses.runSteps {ss : List Step} (h : Refuses ss) (s : Subject) (c : Collected) :
    ∃ e, (runSteps s c ss).2 = .error e := by
  obtain ⟨e, he⟩ := h
  induction ss generalizing c with
  | nil => cases he
  | cons step ss ih =>
    cases hrun : step.run s c with
    | error e' => exact ⟨e', by rw [runSteps_cons_error hrun]⟩
    | ok c' =>
      rw [runSteps_cons_ok hrun]
      rcases List.mem_cons.mp he with rfl | he
      · cases hrun
      · exact ih c' he

theorem Refuses.bindSteps {ss : List Step} (h : Refuses ss) (s : Subject) (kind : StatementKind) :
    ∃ e, (bindSteps s kind ss).2 = .error e := by
  obtain ⟨e, he⟩ := h.runSteps s .empty
  refine ⟨e, ?_⟩
  unfold BoundSql.bindSteps
  generalize BoundSql.runSteps s .empty ss = ran at he
  obtain ⟨calls, result⟩ := ran
  cases he
  rfl

/-! ## conditions and clauses -/

section
variable {σ τ : Type}

/-- the sub-select that the condition writes, if there is one -/
def ConditionOf.shown (c : ConditionOf σ) : List σ :=
  if c.kind = .column then c.subselect.toList else []

/-- the sub-selects that the members of a clause write; shared columns end the conditions of a join -/
def shownIn (clause : Clause) : List (ConditionOf σ) → List σ
  | [] => []
  | c :: cs =>
    match c.kind with
    | .shared _ => if clause = .join then [] else shownIn clause cs
    | _ => c.shown ++ shownIn clause cs

theorem ConditionOf.shown_map (f : σ → τ) (c : ConditionOf σ) :
    (c.map f).shown = c.shown.map f := by
  unfold shown
  change (if c.kind = .column then (c.subselect.map f).toList else []) = _
  split
  · exact Option.toList_map ..
  · rfl

theorem shownIn_map (clause : Clause) (f : σ → τ) (cs : List (ConditionOf σ)) :
    shownIn clause (cs.map (·.map f)) = (shownIn clause cs).map f := by
  induction cs with
  | nil => rfl
  | cons c cs ih =>
    simp only [List.map_cons, shownIn, ConditionOf.shown_map, ih, ← List.map_append]
    show (match c.kind with | .shared _ => _ | _ => _) = _
    split
    · split <;> rfl
    · rfl

namespace SelectOf

def shown (s : SelectOf σ) : List σ :=
  match s.raw with
  | some _ => []
  | none =>
    s.derived.toList ++ s.joins.flatMap (fun j => shownIn .join j.on) ++
      shownIn .filter s.wheres ++ shownIn .having s.havings

theorem shown_map (f : σ → τ) (s : SelectOf σ) : (s.map f).shown = s.shown.map f := by
  have hjoin : ∀ j : JoinOf σ, shownIn .join (j.map f).on = (shownIn .join j.on).map f :=
    fun j => shownIn_map ..
  unfold shown
  show (match s.raw with | some _ => _ | none => _) = _
  cases s.raw with
  | some raw => rfl
  | none =>
    simp only [map, shownIn_map, List.flatMap_map, hjoin, ← Option.toList_map, List.map_append,
      List.map_flatMap]

end SelectOf

end

namespace ConditionOf

theorem text_ok {c : ConditionOf (Except Error Text)} {t : Text} (h : c.body = .ok t) :
    ∀ x ∈ c.shown, ∃ u, x = .ok u := by
  intro x hx
  unfold shown at hx
  split at hx
  · rename_i hk
    have hsub : c.subselect = some x := Option.mem_toList.mp hx
    obtain ⟨_, _, h⟩ := bind_ok h
    simp only [hk, hsub, subselectText_eq] at h
    obtain ⟨_, _, h⟩ := bind_ok h
    obtain ⟨_, _, h⟩ := bind_ok h
    obtain ⟨select, hselect, _⟩ := bind_ok h
    exact ⟨select, within_eq_ok hselect⟩
  · cases hx

theorem refuses {c : ConditionOf (List Step)} {ss : List Step} (hss : ss ∈ c.shown)
    (h : Refuses ss) : Refuses c.steps := by
  unfold shown at hss
  split at hss
  · rename_i hk
    have hsub : c.subselect = some ss := Option.mem_toList.mp hss
    unfold steps
    simp only [hk, hsub]
    exact h.within _
  · cases hss

end ConditionOf

theorem itemsText_shown {clause : Clause} {g : Grouping} {cs : List (ConditionOf (Except Error Text))}
    {t : Text} (h : itemsText clause g (cs.map ConditionOf.item) = .ok t) :
    ∀ x ∈ shownIn clause cs, ∃ u, x = .ok u := by
  induction cs generalizing g t with
  | nil => simp [shownIn]
  | cons c cs ih =>
    intro x hx
    unfold shownIn at hx
    obtain ⟨rest, ⟨hleaf, hrest, body, hbody, -⟩ | ⟨hk, hrest, -⟩ | ⟨hk, -, -, hrest, -⟩⟩ :=
      itemsText_cons_inv h
    · split at hx
      · rename_i hk
        simp [ConditionOf.IsLeaf, hk] at hleaf
      · rcases List.mem_append.mp hx with hx | hx
        · exact ConditionOf.text_ok hbody x hx
        · exact ih hrest x hx
    all_goals
      simp only [hk, ConditionOf.shown, reduceCtorEq, if_false, List.nil_append] at hx
      exact ih hrest x hx

theorem clauseText_shown {clause : Clause} {cs : List (ConditionOf (Except Error Text))} {t : Text}
    (h : clauseText clause cs = .ok t) : ∀ x ∈ shownIn clause cs, ∃ u, x = .ok u := by
  cases cs with
  | nil => simp [shownIn]
  | cons c cs =>
    by_cases hj : c.EndsJoin clause
    · obtain ⟨rfl, columns, hk⟩ := hj
      simp [shownIn, hk]
    · rw [clauseText_of_not_endsJoin hj] at h
      obtain ⟨members, hmembers, -⟩ := bind_ok h
      exact itemsText_shown hmembers

theorem clauseSteps_refuses {clause : Clause} {cs : List (ConditionOf (List Step))}
    {ss : List Step} (hss : ss ∈ shownIn clause cs) (h : Refuses ss) :
    Refuses (clauseSteps clause cs) := by
  induction cs with
  | nil => cases hss
  | cons c cs ih =>
    unfold shownIn at hss
    unfold clauseSteps
    cases hk : c.kind with
    | shared columns =>
      simp only [hk] at hss ⊢
      split at hss
      · cases hss
      · rename_i hjoin
        rw [if_neg hjoin]
        exact ih hss
    | groupOpen | groupClose =>
      simp only [hk, ConditionOf.shown, reduceCtorEq, if_false, List.nil_append] at hss ⊢
      exact ih hss
    | column | expression =>
      simp only [hk] at hss ⊢
      rcases List.mem_append.mp hss with hss | hss
      · exact (ConditionOf.refuses hss h).mono (List.subset_append_left ..)
      · exact (ih hss).mono (List.subset_append_right ..)

/-! ## SELECT -/

namespace SelectOf

theorem shown_ok {s : SelectOf (Except Error Text)} {t : Text} (h : s.text = .ok t) :
    ∀ x ∈ s.shown, ∃ u, x = .ok u := by
  intro x hx
  unfold text at h
  unfold shown at hx
  split at h
  · cases h
  · rename_i hraw
    rw [hraw] at hx
    cases hx
  · rename_i hraw
    simp only [hraw, List.mem_append, Option.mem_toList, List.mem_flatMap] at hx
    obtain ⟨columns, _, h⟩ := bind_ok h
    obtain ⟨source, hsource, h⟩ := bind_ok h
    obtain ⟨joins, hjoins, h⟩ := bind_ok h
    obtain ⟨wheres, hwheres, h⟩ := bind_ok h
    obtain ⟨groupBy, _, h⟩ := bind_ok h
    obtain ⟨havings, hhavings, _⟩ := bind_ok h
    rcases hx with ((hx | ⟨j, hj, hx⟩) | hx) | hx
    · unfold sourceText at hsource
      rw [hx] at hsource
      obtain ⟨select, hselect, _⟩ := bind_ok hsource
      exact ⟨select, within_eq_ok hselect⟩
    · obtain ⟨join, hjoin⟩ := ok_of_mapM hjoins j hj
      obtain ⟨_, _, hjoin⟩ := bind_ok hjoin
      obtain ⟨_, _, hjoin⟩ := bind_ok hjoin
      obtain ⟨_, hon, _⟩ := bind_ok hjoin
      exact clauseText_shown hon x hx
    · exact clauseText_shown hwheres x hx
    · exact clauseText_shown hhavings x hx

theorem shown_refuses {s : SelectOf (List Step)} {ss : List Step} (hss : ss ∈ s.shown)
    (h : Refuses ss) : Refuses s.steps := by
  unfold shown at hss
  unfold steps
  cases hfailed : s.failed with
  | some e => exact refuses_fail e
  | none =>
    cases hraw : s.raw with
    | some raw =>
      rw [hraw] at hss
      cases hss
    | none =>
      simp only [hraw, List.mem_append, Option.mem_toList, List.mem_flatMap] at hss
      rcases hss with ((hss | ⟨j, hj, hss⟩) | hss) | hss
      · refine h.mono fun step hstep => ?_
        simp [hss, hstep]
      · refine (clauseSteps_refuses hss h).mono fun step hstep => ?_
        simp only [List.mem_append, List.mem_flatMap]
        exact .inl (.inl (.inr ⟨j, hj, hstep⟩))
      · refine (clauseSteps_refuses hss h).mono fun step hstep => ?_
        simp only [List.mem_append]
        exact .inl (.inr hstep)
      · refine (clauseSteps_refuses hss h).mono fun step hstep => ?_
        simp only [List.mem_append]
        exact .inr hstep

/-- the place in a union is written behind the columns, and nothing else depends on it -/
theorem text_ok_of_memberIndex {s : SelectOf (Except Error Text)} {i : Option Nat} {t : Text}
    (h : SelectOf.text { s with memberIndex := i } = .ok t) : ∃ u, s.text = .ok u := by
  unfold text at h ⊢
  cases hfailed : s.failed with
  | some e =>
    simp only [hfailed] at h
    cases h
  | none =>
    cases hraw : s.raw with
    | some raw =>
      simp only [hfailed, hraw] at h
      exact ⟨t, h⟩
    | none =>
      simp only [hfailed, hraw] at h
      obtain ⟨columns, hcolumns, h⟩ := bind_ok h
      obtain ⟨source, hsource, h⟩ := bind_ok h
      obtain ⟨joins, hjoins, h⟩ := bind_ok h
      obtain ⟨wheres, hwheres, h⟩ := bind_ok h
      obtain ⟨groupBy, hgroupBy, h⟩ := bind_ok h
      obtain ⟨havings, hhavings, h⟩ := bind_ok h
      obtain ⟨orderBy, horderBy, -⟩ := bind_ok h
      have hcolumns' : s.columnsText = .ok columns := hcolumns
      have hsource' : s.sourceText = .ok source := hsource
      dsimp only
      rw [clausesText, hcolumns', hsource', hjoins, hwheres, hgroupBy, hhavings, horderBy]
      exact ⟨_, rfl⟩

end SelectOf

namespace Select

theorem shown_ok {s : Select} {t : Text} (h : s.text = .ok t) :
    ∀ q ∈ s.clauses.shown, ∃ u, q.text = .ok u := by
  obtain ⟨s⟩ := s
  rw [text_mk] at h
  intro q hq
  refine SelectOf.shown_ok h q.text ?_
  rw [SelectOf.shown_map]
  exact List.mem_map_of_mem hq

theorem shown_refuses {s q : Select} (hq : q ∈ s.clauses.shown) (h : Refuses q.steps) :
    Refuses s.steps := by
  obtain ⟨s⟩ := s
  have hshown : q.steps ∈ (s.map steps).shown := by
    rw [SelectOf.shown_map]
    exact List.mem_map_of_mem hq
  rw [steps_mk]
  exact SelectOf.shown_refuses hshown h

theorem text_ok_of_asMember {s : Select} {i : Nat} {t : Text} (h : (s.asMember i).text = .ok t) :
    ∃ u, s.text = .ok u := by
  obtain ⟨s⟩ := s
  rw [asMember, text_mk] at h
  rw [text_mk]
  exact SelectOf.text_ok_of_memberIndex (s := s.map text) (i := some i) h

end Select

end BoundSql
