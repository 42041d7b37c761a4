import BoundSql.Condition.Clause
import BoundSql.Proofs.Walk.Condition

/-!
# Walks of clauses

* `membersWalk`      the members of a clause, in the state in which the clause stands;
* `clauseWalk`       keyword and members;
* `agrees_clause`    text, steps and walk of a clause.
-/

namespace BoundSql

open Placeholder

/-- the members of a clause; every group must be closed again and hold something -/
def membersWalk (clause : Clause) (g : Grouping) :
    List (ConditionOf (Except Error Walk)) → Except Error Walk
  | [] => if 0 < g.depth then .error (.mismatch (.groupsLeftOpen g.depth)) else .ok []
  | c :: cs =>
    match c.kind with
    | .shared _ => .error (misplacedShared clause)
    | .groupClose =>
      if g.depth = 0 then .error (.mismatch .groupNotOpen)
      else if g.hollow then .error (.mismatch .groupEmpty)
      else do
        let rest ← membersWalk clause g.closed cs
        return Walk.literal [')'] ++ rest
    | .groupOpen => do
      let rest ← membersWalk clause g.opened cs
      return Walk.literal (c.connector.text g.first ++ ['(']) ++ rest
    | _ => do
      let walk ← c.walk
      let rest ← membersWalk clause g.filled cs
      return Walk.literal (c.connector.text g.first) ++ walk.parenthesized ++ rest

/-- the clause; shared columns in front of a join's conditions take their place -/
def clauseWalk (clause : Clause) (cs : List (ConditionOf (Except Error Walk))) :
    Except Error Walk :=
  match clause, cs.map ConditionOf.kind with
  | _, [] => .ok []
  | .join, .shared columns :: _ => do
    let names ← nameListText columns
    return Walk.literal (" USING (".toList ++ names ++ [')'])
  | _, _ => do
    let members ← membersWalk clause .start cs
    return Walk.literal clause.keyword ++ members

theorem inert_connector (connector : Connector) (first : Bool) : Inert (connector.text first) := by
  cases connector <;> cases first <;> decide

theorem inert_keyword (clause : Clause) : Inert clause.keyword := by cases clause <;> decide

variable {σ : Type} {text : σ → Except Error Text} {steps : σ → List Step}
  {walkOf : σ → Except Error Walk} (clause : Clause)

/-- from any state, the members written are the ones whose steps are listed -/
theorem agrees_members (cs : List (ConditionOf σ)) (hc : ∀ c ∈ cs, c.Closed)
    (hsub : ∀ c ∈ cs, ∀ s, c.subselect = some s → Agrees (text s) (steps s) (walkOf s))
    (g : Grouping) :
    Agrees (itemsText clause g ((cs.map fun c => c.map text).map ConditionOf.item))
      (clauseSteps clause (cs.map fun c => c.map steps))
      (membersWalk clause g (cs.map fun c => c.map walkOf)) := by
  induction cs generalizing g with
  | nil =>
    intro t h
    unfold membersWalk
    change (if 0 < g.depth then _ else _) = _ at h
    split at h
    · cases h
    · rename_i hd
      cases h
      rw [List.map_nil, if_neg hd]
      exact ⟨_, rfl, .literal inert_nil⟩
  | cons c cs ih =>
    have ih' := ih (fun d hd => hc d (List.mem_cons_of_mem _ hd))
      (fun d hd => hsub d (List.mem_cons_of_mem _ hd))
    have hbody := ConditionOf.agrees (hc c (List.mem_cons_self ..)) (hsub c (List.mem_cons_self ..))
    intro t h
    simp only [List.map_cons] at h ⊢
    unfold membersWalk clauseSteps
    unfold ConditionOf.item at h
    cases hk : c.kind with
    | shared columns =>
      simp only [ConditionOf.map, hk] at h
      cases h
    | groupClose =>
      simp only [show (c.map text).kind = _ from hk, itemsText] at h
      simp only [show (c.map steps).kind = _ from hk, show (c.map walkOf).kind = _ from hk]
      split at h
      · cases h
      · rename_i hdepth
        split at h
        · cases h
        · rename_i hhollow
          obtain ⟨rest, hrest, h⟩ := bind_ok h
          cases h
          obtain ⟨ws, hws, hms⟩ := ih' g.closed rest hrest
          rw [if_neg hdepth, if_neg hhollow, hws]
          exact ⟨_, rfl, .prepend (t := [')']) (by decide) hms⟩
    | groupOpen =>
      simp only [show (c.map text).kind = _ from hk, itemsText] at h
      simp only [show (c.map steps).kind = _ from hk, show (c.map walkOf).kind = _ from hk]
      obtain ⟨rest, hrest, h⟩ := bind_ok h
      cases h
      obtain ⟨ws, hws, hms⟩ := ih' g.opened rest hrest
      have hm := Walk.Matches.prepend ((inert_connector c.connector g.first).append
        (show Inert ['('] by decide)) hms
      rw [List.append_assoc] at hm
      rw [hws]
      exact ⟨_, rfl, hm⟩
    | column | expression =>
      simp only [show (c.map text).kind = _ from hk, itemsText] at h
      simp only [show (c.map steps).kind = _ from hk, show (c.map walkOf).kind = _ from hk]
      obtain ⟨body, hb, h⟩ := bind_ok h
      obtain ⟨rest, hrest, h⟩ := bind_ok h
      cases h
      obtain ⟨w, hw, hm⟩ := hbody body hb
      obtain ⟨ws, hws, hms⟩ := ih' g.filled rest hrest
      rw [hw, hws]
      exact ⟨_, rfl, (Walk.Matches.prepend (inert_connector _ _) hm.parenthesized).append hms⟩

/-! ## clauses -/

/-- the condition stands for the columns that a join has in common -/
def ConditionOf.EndsJoin {σ : Type} (clause : Clause) (c : ConditionOf σ) : Prop :=
  clause = .join ∧ ∃ columns, c.kind = .shared columns

theorem clauseSteps_of_endsJoin {clause : Clause} {c : ConditionOf (List Step)}
    (h : c.EndsJoin clause) (cs : List (ConditionOf (List Step))) :
    clauseSteps clause (c :: cs) = [] := by
  obtain ⟨rfl, columns, hk⟩ := h
  unfold clauseSteps
  simp only [hk]
  rfl

theorem clauseText_of_not_endsJoin {clause : Clause} {c : ConditionOf (Except Error Text)}
    (h : ¬ c.EndsJoin clause) (cs : List (ConditionOf (Except Error Text))) :
    clauseText clause (c :: cs) = do
      return clause.keyword ++ (← itemsText clause .start ((c :: cs).map ConditionOf.item)) := by
  unfold clauseText
  cases hk : c.kind with
  | shared columns =>
    cases clause with
    | join => exact absurd ⟨rfl, columns, hk⟩ h
    | filter | having => simp only [List.map_cons, ConditionOf.item, hk]
  | column | expression | groupOpen | groupClose =>
    cases clause <;> simp only [List.map_cons, ConditionOf.item, hk]

theorem clauseWalk_of_not_endsJoin {clause : Clause} {c : ConditionOf (Except Error Walk)}
    (h : ¬ c.EndsJoin clause) (cs : List (ConditionOf (Except Error Walk))) :
    clauseWalk clause (c :: cs) = do
      return Walk.literal clause.keyword ++ (← membersWalk clause .start (c :: cs)) := by
  unfold clauseWalk
  cases hk : c.kind with
  | shared columns =>
    cases clause with
    | join => exact absurd ⟨rfl, columns, hk⟩ h
    | filter | having => simp only [List.map_cons, hk]
  | column | expression | groupOpen | groupClose => cases clause <;> simp only [List.map_cons, hk]

theorem agrees_clause (cs : List (ConditionOf σ)) (hc : ∀ c ∈ cs, c.Closed)
    (hsub : ∀ c ∈ cs, ∀ s, c.subselect = some s → Agrees (text s) (steps s) (walkOf s)) :
    Agrees (clauseText clause (cs.map fun c => c.map text))
      (clauseSteps clause (cs.map fun c => c.map steps))
      (clauseWalk clause (cs.map fun c => c.map walkOf)) := by
  have hmembers := agrees_members clause cs hc hsub .start
  intro t h
  cases cs with
  | nil =>
    have ht : t = [] := by cases clause <;> (cases h; rfl)
    subst ht
    exact ⟨_, by cases clause <;> rfl, .literal inert_nil⟩
  | cons c cs =>
    simp only [List.map_cons] at h ⊢
    by_cases hj : c.EndsJoin clause
    · rw [clauseSteps_of_endsJoin (c := c.map steps) hj]
      obtain ⟨rfl, columns, hk⟩ := hj
      unfold clauseText at h
      unfold clauseWalk
      simp only [List.map_cons, ConditionOf.item, show (c.map text).kind = _ from hk] at h
      simp only [List.map_cons, show (c.map walkOf).kind = _ from hk]
      obtain ⟨names, hnames, h⟩ := bind_ok h
      cases h
      rw [hnames]
      refine ⟨_, rfl, .literal (.append (.append ?_ (inert_nameListText hnames)) ?_)⟩
      · decide
      · decide
    · rw [clauseText_of_not_endsJoin (c := c.map text) hj] at h
      obtain ⟨members, hm, h⟩ := bind_ok h
      cases h
      obtain ⟨w, hw, hmatches⟩ := hmembers members hm
      refine ⟨_, ?_, .prepend (inert_keyword clause) hmatches⟩
      rw [clauseWalk_of_not_endsJoin (c := c.map walkOf) hj]
      exact congrArg (· >>= _) hw

end BoundSql
