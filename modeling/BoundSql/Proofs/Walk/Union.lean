import BoundSql.Proofs.Made
import BoundSql.Proofs.Walk.Replacement
import BoundSql.Proofs.Walk.Select

/-!
# Walks of UNION statements

The keys of a template are replaced in the text of a member after its placeholders have been
written.

* `Union.memberWalk`       a member, its keys replaced in the walk;
* `Union.walk`             the walk of a UNION;
* `Union.Closed`           keys and values are free of quotes, backslashes and `?`;
* `Union.agrees`           text, steps and walk of a UNION.
-/

namespace BoundSql

open Placeholder

theorem Select.Everywhere.asMember {p : SelectOf Select → Prop}
    (hp : ∀ s i, p s → p { s with memberIndex := some i }) {s : Select} (h : s.Everywhere p)
    (i : Nat) : (s.asMember i).Everywhere p := by
  cases h with
  | mk s here inside => exact .mk _ (hp s i here) inside

theorem Select.steps_asMember (s : Select) (i : Nat) : (s.asMember i).steps = s.steps := by
  obtain ⟨s⟩ := s
  rw [asMember, steps_mk, steps_mk]
  rfl

namespace Union

def replacedWalk (u : Union) (i : Nat) (w : Walk) : Walk :=
  u.replacements.foldl (fun w (key, values) =>
    Walk.replaceAll key.toList (values.getD i "").toList w) w

def memberWalk (u : Union) (i : Nat) (member : Select) : Except Error Walk := do
  let walk ← within (memberPlace i) (if u.together then member.asMember i else member).walk
  return (u.replacedWalk i walk).parenthesized

def walk (u : Union) : Except Error Walk := do
  u.check
  let members ← mapMembers u.memberWalk 0 u.members
  let orderBy ← termsText "\nORDER BY " u.terms false
  return Walk.separated u.separator members ++ Walk.literal orderBy ++
    Walk.literal (limitText u.limit u.offset)

/-- keys and values mean the same in and outside quotes, and no value is empty -/
structure Closed (u : Union) : Prop where
  replacements : ∀ key values, (key, values) ∈ u.replacements →
    Bland key.toList ∧ ∀ v ∈ values, Bland v.toList ∧ v ≠ ""
  orderBy : ∀ term ∈ u.orderBy, term.Closed false

/-! ## members -/

theorem matches_replaced {u : Union} (hc : u.Closed) {i : Nat}
    (hi : ∀ r ∈ u.replacements, i < r.2.length) {w : Walk} {t : Text} {steps : List Step}
    (h : w.Matches t steps) : (u.replacedWalk i w).Matches (u.replaced i t) steps := by
  have hbland := hc.replacements
  unfold replacedWalk replaced
  revert hi hbland
  generalize u.replacements = replacements
  intro hi hbland
  induction replacements generalizing w t with
  | nil => exact h
  | cons r replacements ih =>
    obtain ⟨key, values⟩ := r
    obtain ⟨hkey, hvalues⟩ := hbland key values (List.mem_cons_self ..)
    have hmem : values.getD i "" ∈ values := by
      have hlt : i < values.length := hi (key, values) (List.mem_cons_self ..)
      rw [List.getD_eq_getElem?_getD, List.getElem?_eq_getElem hlt]
      exact List.getElem_mem hlt
    obtain ⟨hvalue, hne⟩ := hvalues _ hmem
    have hchars : (values.getD i "").toList ≠ [] := fun he => hne (String.toList_eq_nil_iff.mp he)
    have hstep : (Walk.replaceAll key.toList (values.getD i "").toList w).Matches
        (Text.replaceAll key.toList (values.getD i "").toList t) steps :=
      { text_eq := by
          rw [Walk.text_replaceAll fun hmark => (hkey _ hmark).2.2 rfl, h.text_eq]
        whole := Walk.whole_replaceAll hkey hvalue hchars h.whole
        binds := by
          rw [Walk.bound_replaceAll]
          exact h.binds }
    exact ih hstep (fun r hr => hi r (List.mem_cons_of_mem _ hr))
      fun key values hr => hbland key values (List.mem_cons_of_mem _ hr)

theorem agrees_asMember {s : Select} (hc : s.Everywhere SelectOf.Closed)
    (hp : s.Everywhere SelectOf.Projected) (i : Nat) :
    Agrees (s.asMember i).text s.steps (s.asMember i).walk := by
  rw [← Select.steps_asMember s i]
  refine Select.agrees (hc.asMember (fun s i h => ?_) i) (hp.asMember (fun s i h => h) i)
  exact ⟨h.raw, h.columns, h.names, h.joins, h.wheres, h.groupBy, h.havings, h.orderBy⟩

theorem agrees_member {u : Union} (hu : u.Closed) {s : Select}
    (hc : s.Everywhere SelectOf.Closed) (hp : s.Everywhere SelectOf.Projected) {i : Nat}
    (hi : ∀ r ∈ u.replacements, i < r.2.length) :
    Agrees (u.memberText i s) (s.steps.map (·.within (memberPlace i))) (u.memberWalk i s) := by
  intro t h
  obtain ⟨inner, hinner, h⟩ := bind_ok h
  cases h
  have hagrees : Agrees (if u.together then s.asMember i else s).text s.steps
      (if u.together then s.asMember i else s).walk := by
    split
    · exact agrees_asMember hc hp i
    · exact Select.agrees hc hp
  obtain ⟨w, hw, hm⟩ := hagrees inner (within_eq_ok hinner)
  refine ⟨(u.replacedWalk i w).parenthesized, ?_, ?_⟩
  · unfold memberWalk
    rw [hw]
    rfl
  · exact (matches_replaced hu hi (hm.within _)).parenthesized

theorem agrees_members {u : Union} (hu : u.Closed) {ss : List Select}
    (hc : ∀ s ∈ ss, s.Everywhere SelectOf.Closed) (hp : ∀ s ∈ ss, s.Everywhere SelectOf.Projected)
    {i : Nat} (hi : ∀ r ∈ u.replacements, i + ss.length ≤ r.2.length) {ts : List Text}
    (h : mapMembers u.memberText i ss = .ok ts) :
    ∃ ws, mapMembers u.memberWalk i ss = .ok ws ∧ MatchesAll ws ts (memberSteps i ss) := by
  induction ss generalizing i ts with
  | nil =>
    cases h
    exact ⟨[], rfl, .nil⟩
  | cons s ss ih =>
    obtain ⟨t, ht, h⟩ := bind_ok h
    obtain ⟨us, hus, h⟩ := bind_ok h
    cases h
    have hhere : ∀ r ∈ u.replacements, i < r.2.length := by
      intro r hr
      have := hi r hr
      rw [List.length_cons] at this
      omega
    have hlater : ∀ r ∈ u.replacements, i + 1 + ss.length ≤ r.2.length := by
      intro r hr
      have := hi r hr
      rw [List.length_cons] at this
      omega
    obtain ⟨w, hw, hm⟩ := agrees_member hu (hc s (List.mem_cons_self ..))
      (hp s (List.mem_cons_self ..)) hhere t ht
    obtain ⟨ws, hws, hms⟩ := ih (fun s hs => hc s (List.mem_cons_of_mem _ hs))
      (fun s hs => hp s (List.mem_cons_of_mem _ hs)) hlater hus
    refine ⟨w :: ws, ?_, .cons hm hms⟩
    unfold mapMembers
    rw [hw, hws]
    rfl

theorem mem_members {u : Union} {s : Select} (h : s ∈ u.members) : s ∈ u.selects := by
  unfold members at h
  split at h
  · exact h
  · rename_i hselects
    rw [hselects, (List.mem_replicate.mp h).2]
    exact List.mem_cons_self ..
  · cases h

/-- a template stands as often as each of its keys has values -/
theorem length_members {u : Union} (h : u.Even) :
    ∀ r ∈ u.replacements, u.members.length ≤ r.2.length := by
  intro r hr
  unfold members
  split
  · rename_i hnone
    rw [hnone] at hr
    cases hr
  · rename_i first values _ _ _ hreplacements _
    have heven := h (first, values) (by rw [hreplacements]; rfl) r hr
    exact List.length_replicate ▸ Nat.le_of_eq heven.symm
  · exact Nat.zero_le _

theorem agrees {u : Union} (he : u.Even) (hu : u.Closed)
    (hc : ∀ s ∈ u.selects, s.Everywhere SelectOf.Closed)
    (hp : ∀ s ∈ u.selects, s.Everywhere SelectOf.Projected) : Agrees u.text u.steps u.walk := by
  intro t h
  obtain ⟨_, hcheck, h⟩ := bind_ok h
  obtain ⟨members, hmembers, h⟩ := bind_ok h
  obtain ⟨orderBy, horderBy, h⟩ := bind_ok h
  cases h
  obtain ⟨ws, hws, hms⟩ := agrees_members hu (fun s hs => hc s (mem_members hs))
    (fun s hs => hp s (mem_members hs))
    (by rw [Nat.zero_add]; exact length_members he) hmembers
  have hterms : ∀ term ∈ u.terms, term.Closed false := by
    unfold terms
    split
    · intro term hterm
      rcases List.mem_cons.mp hterm with rfl | hterm
      · exact fun hl => absurd hl Bool.false_ne_true
      · exact hu.orderBy term hterm
    · exact hu.orderBy
  have hsep : Inert u.separator := by
    unfold separator
    cases u.all <;> decide
  have hsteps : u.steps = memberSteps 0 u.members := by
    unfold steps
    rw [hcheck]
  refine ⟨_, ?_, hsteps ▸ ((hms.separated hsep).followed
    (inert_termsText (by decide) hterms horderBy)).followed (inert_limitText u.limit u.offset)⟩
  unfold walk
  rw [hcheck, hws, horderBy]
  rfl

end Union

end BoundSql
