import BoundSql.Proofs.Made
import BoundSql.Proofs.Walk.Insert

/-!
# Walks of UPDATE and DELETE statements

* `Update.walkWith`     the walk of an UPDATE with the values of the columns that a record supplies;
* `Update.Closed`       the caller's texts leave the pass outside quotes;
* `Update.projects`     text, arguments and walk of an UPDATE;
* `Delete.walk`, `Delete.Closed`, `Delete.agrees`   the same for a DELETE.
-/

namespace BoundSql

open Placeholder

theorem agrees_wheres {clause : Clause} {cs : List Condition} (hc : ∀ c ∈ cs, c.Closed)
    (hsub : ∀ t ∈ subselects cs, Agrees t.text t.steps t.walk) :
    Agrees (clause.text cs) (clause.steps cs) (clauseWalk clause (cs.map (·.map Select.walk))) :=
  agrees_clause clause cs hc fun _ h t ht => hsub t (mem_subselects h ht)

/-! ## UPDATE -/

namespace Update

def assignedWalk : Assigned → Except Error Walk
  | .argument a => .ok [.mark a]
  | .computed c => (c.map Select.walk).walk

def setWalk (column : String) (value : Except Error Walk) : Except Error Walk := do
  let name ← nameText column false
  let value ← value
  return Walk.literal (name ++ ['=']) ++ value

/-- the assignments, with `own` for the columns that a record supplies -/
def setWalks (u : Update) (own : Arguments) : Except Error (List Walk) := do
  let own ← (u.recordColumns.zip own).mapM fun (column, a) => setWalk column (.ok [.mark a])
  let others ← u.sets.mapM fun (column, value) => setWalk column (assignedWalk value)
  return own ++ others

def clausesWalk (u : Update) (own : Arguments) : Except Error Walk := do
  let table ← nameText u.table false
  let name ← aliasText u.name
  let sets ← u.setWalks own
  let wheres ← clauseWalk .filter (u.wheres.map (·.map Select.walk))
  let orderBy ← termsText " ORDER BY " u.orderBy false
  return Walk.literal ("UPDATE ".toList ++ table ++ name ++ " SET ".toList) ++
    Walk.separated ", ".toList sets ++ wheres ++ Walk.literal orderBy ++
    Walk.literal (limitText u.limit none)

def walkWith (u : Update) (own : Arguments) : Except Error Walk :=
  match u.failed, u.raw with
  | some e, _ => .error e
  | none, some (sql, args) => templateWalk sql.toList args
  | none, none => u.clausesWalk own

/-- the caller's texts leave the pass outside quotes -/
structure Closed (u : Update) : Prop where
  raw : ∀ sql args, u.raw = some (sql, args) → Placeholder.Closed sql.toList
  sets : ∀ column c, (column, .computed c) ∈ u.sets → c.Closed
  wheres : ∀ c ∈ u.wheres, c.Closed
  orderBy : ∀ term ∈ u.orderBy, term.Closed false

theorem clausesText_ok {u : Update} {t : Text} (h : u.clausesText = .ok t) :
    ∃ table name sets wheres orderBy, nameText u.table false = .ok table ∧
      aliasText u.name = .ok name ∧ u.setTexts = .ok sets ∧
      Clause.text .filter u.wheres = .ok wheres ∧
      termsText " ORDER BY " u.orderBy false = .ok orderBy ∧
      t = "UPDATE ".toList ++ table ++ name ++ " SET ".toList ++ Text.separated ", ".toList sets ++
        wheres ++ orderBy ++ limitText u.limit none := by
  unfold clausesText at h
  simp only at h
  split at h
  · cases h
  · split at h
    · cases h
    · obtain ⟨table, htable, h⟩ := bind_ok h
      obtain ⟨name, hname, h⟩ := bind_ok h
      obtain ⟨sets, hsets, h⟩ := bind_ok h
      obtain ⟨wheres, hwheres, h⟩ := bind_ok h
      obtain ⟨orderBy, horderBy, h⟩ := bind_ok h
      cases h
      exact ⟨table, name, sets, wheres, orderBy, htable, hname, hsets, hwheres, horderBy, rfl⟩

theorem agrees_set {column : String} {text : Except Error Text} {steps : List Step}
    {walk : Except Error Walk} (h : Agrees text steps walk) :
    Agrees (setText column text) steps (setWalk column walk) := by
  intro t ht
  obtain ⟨name, hname, ht⟩ := bind_ok ht
  obtain ⟨value, hvalue, ht⟩ := bind_ok ht
  cases ht
  obtain ⟨w, hw, hm⟩ := h value hvalue
  refine ⟨Walk.literal (name ++ ['=']) ++ w, ?_, ?_⟩
  · unfold setWalk
    rw [hname, hw]
    rfl
  · have hm := hm.prepend ((inert_strictName hname).append (show Inert ['='] by decide))
    rwa [List.append_assoc] at hm

theorem agrees_assigned {value : Assigned} (hscalar : ∀ a, value = .argument a → IsScalar a)
    (hc : ∀ c, value = .computed c → c.Closed)
    (hsub : ∀ c, value = .computed c → ∀ t ∈ subselects [c], Agrees t.text t.steps t.walk) :
    Agrees (assignedText value) (assignedSteps value) (assignedWalk value) := by
  cases value with
  | argument a =>
    intro t h
    cases h
    exact ⟨_, rfl, matches_mark (hscalar a rfl)⟩
  | computed c =>
    refine ConditionOf.agrees (hc c rfl) fun t ht => ?_
    exact hsub c rfl t (mem_subselects (List.mem_singleton_self c) ht)

theorem matches_own {columns : List String} {own : Arguments} (hlength : own.length = columns.length)
    (hown : ∀ a ∈ own, IsScalar a) {ts : List Text}
    (h : columns.mapM (setText · (.ok ['?'])) = .ok ts) :
    ∃ ws, (columns.zip own).mapM (fun (column, a) => setWalk column (.ok [.mark a])) = .ok ws ∧
      MatchesAll ws ts (own.map .push) := by
  have hcolumns : (columns.zip own).map Prod.fst = columns := List.map_fst_zip (Nat.le_of_eq hlength.symm)
  have hvalues : (columns.zip own).map Prod.snd = own := List.map_snd_zip (Nat.le_of_eq hlength)
  rw [← hcolumns, List.mapM_map] at h
  obtain ⟨ws, hws, hms⟩ : ∃ ws,
      (columns.zip own).mapM (fun (column, a) => setWalk column (.ok [.mark a])) = .ok ws ∧
        MatchesAll ws ts ((columns.zip own).flatMap fun (_, a) => [.push a]) := by
    refine matchesAll_of_mapM (fun pair hpair => ?_) h
    refine agrees_set fun t ht => ?_
    cases ht
    exact ⟨_, rfl, matches_mark (hown pair.2 (List.of_mem_zip hpair).2)⟩
  refine ⟨ws, hws, ?_⟩
  have hsteps : (columns.zip own).flatMap (fun (_, a) => [Step.push a]) = own.map .push := by
    show (columns.zip own).flatMap (fun pair => [Step.push pair.2]) = _
    rw [← List.map_eq_flatMap]
    conv => rhs; rw [← hvalues, List.map_map]
    rfl
  rwa [hsteps] at hms

theorem mem_selects_of_sets {u : Update} {column : String} {value : Assigned}
    (h : (column, value) ∈ u.sets) {t : Select} (ht : t ∈ assignedSelects (column, value)) :
    t ∈ u.selects := List.mem_append_left _ (List.mem_flatMap.mpr ⟨_, h, ht⟩)

section
variable {u : Update} {own : Arguments} (hscalar : u.Scalar) (hu : u.Closed)
  (hsub : ∀ t ∈ u.selects, Agrees t.text t.steps t.walk)
  (hlength : own.length = u.recordColumns.length) (hown : ∀ a ∈ own, IsScalar a)
include hscalar hu hsub hlength hown

theorem matches_sets {ts : List Text} (h : u.setTexts = .ok ts) :
    ∃ ws, u.setWalks own = .ok ws ∧
      MatchesAll ws ts (own.map .push ++ u.sets.flatMap fun (_, value) => assignedSteps value) := by
  obtain ⟨front, hfront, h⟩ := bind_ok h
  obtain ⟨others, hothers, h⟩ := bind_ok h
  cases h
  obtain ⟨ws, hws, hms⟩ := matches_own hlength hown hfront
  obtain ⟨vs, hvs, hvms⟩ : ∃ vs,
      u.sets.mapM (fun (column, value) => setWalk column (assignedWalk value)) = .ok vs ∧
        MatchesAll vs others (u.sets.flatMap fun (_, value) => assignedSteps value) := by
    refine matchesAll_of_mapM (fun pair hpair => ?_) hothers
    obtain ⟨column, value⟩ := pair
    refine agrees_set (agrees_assigned ?_ ?_ ?_)
    · rintro a rfl
      exact hscalar column a hpair
    · rintro c rfl
      exact hu.sets column c hpair
    · rintro c rfl t ht
      exact hsub t (mem_selects_of_sets hpair ht)
  refine ⟨ws ++ vs, ?_, hms.append hvms⟩
  unfold setWalks
  rw [hws, hvs]
  rfl

theorem matches_clauses {t : Text} (h : u.clausesText = .ok t) :
    ∃ w, u.clausesWalk own = .ok w ∧
      w.Matches t (own.map .push ++ (u.sets.flatMap (fun (_, value) => assignedSteps value) ++
        Clause.steps .filter u.wheres)) := by
  obtain ⟨table, name, sets, wheres, orderBy, htable, hname, hsets, hwheres, horderBy, rfl⟩ :=
    clausesText_ok h
  obtain ⟨ws, hws, hms⟩ := matches_sets hscalar hu hsub hlength hown hsets
  obtain ⟨v, hv, hm⟩ := agrees_wheres hu.wheres
    (fun t ht => hsub t (List.mem_append_right _ ht)) wheres hwheres
  have hhead : Inert ("UPDATE ".toList ++ table ++ name ++ " SET ".toList) :=
    ((Inert.append (by decide) (inert_strictName htable)).append
      (inert_aliasText hname)).append (by decide)
  have hassigned : (Walk.separated ", ".toList ws).Matches (Text.separated ", ".toList sets) _ :=
    hms.separated (by decide)
  have hall := (((hassigned.prepend hhead).append hm).followed
    (inert_termsText (by decide) hu.orderBy horderBy)).followed (inert_limitText u.limit none)
  rw [List.append_assoc (List.map Step.push own)] at hall
  refine ⟨_, ?_, hall⟩
  unfold clausesWalk
  rw [htable, hname, hws, hv, horderBy]
  rfl

theorem projects {s : Subject} (hassign : Yields s [] [.assign u.recordColumns] own) {t : Text}
    (h : u.text = .ok t) : ∃ w new, u.walkWith own = .ok w ∧ w.Projects t s [] u.steps new := by
  unfold Update.text at h
  unfold walkWith Update.steps
  cases hfailed : u.failed with
  | some e =>
    rw [hfailed] at h
    cases h
  | none =>
    cases hraw : u.raw with
    | some raw =>
      obtain ⟨sql, args⟩ := raw
      simp only [hfailed, hraw] at h ⊢
      obtain ⟨w, hw, hm⟩ := agrees_template (hu.raw sql args hraw) args t h
      have hnone : w.Matches t (([] : Arguments).map .push ++ args.map .push) := hm
      obtain ⟨new, hp⟩ := hnone.projects (s := s) yields_nil
      exact ⟨w, new, hw, hp⟩
    | none =>
      simp only [hfailed, hraw] at h ⊢
      obtain ⟨w, hw, hm⟩ := matches_clauses hscalar hu hsub hlength hown h
      obtain ⟨new, hp⟩ := hm.projects hassign
      exact ⟨w, new, hw, hp⟩

end

end Update

/-! ## DELETE -/

namespace Delete

def walk (d : Delete) : Except Error Walk := do
  let table ← nameText d.table false
  let name ← aliasText d.name
  let wheres ← clauseWalk .filter (d.wheres.map (·.map Select.walk))
  let orderBy ← termsText " ORDER BY " d.orderBy false
  return Walk.literal ("DELETE FROM ".toList ++ table ++ name) ++ wheres ++
    Walk.literal orderBy ++ Walk.literal (limitText d.limit none)

structure Closed (d : Delete) : Prop where
  wheres : ∀ c ∈ d.wheres, c.Closed
  orderBy : ∀ term ∈ d.orderBy, term.Closed false

theorem text_ok {d : Delete} {t : Text} (h : d.text = .ok t) :
    ∃ table name wheres orderBy, nameText d.table false = .ok table ∧
      aliasText d.name = .ok name ∧ Clause.text .filter d.wheres = .ok wheres ∧
      termsText " ORDER BY " d.orderBy false = .ok orderBy ∧
      t = "DELETE FROM ".toList ++ table ++ name ++ wheres ++ orderBy ++ limitText d.limit none := by
  unfold Delete.text at h
  simp only at h
  split at h
  · cases h
  · obtain ⟨table, htable, h⟩ := bind_ok h
    obtain ⟨name, hname, h⟩ := bind_ok h
    obtain ⟨wheres, hwheres, h⟩ := bind_ok h
    obtain ⟨orderBy, horderBy, h⟩ := bind_ok h
    cases h
    exact ⟨table, name, wheres, orderBy, htable, hname, hwheres, horderBy, rfl⟩

theorem agrees {d : Delete} (hd : d.Closed) (hsub : ∀ t ∈ d.selects, Agrees t.text t.steps t.walk) :
    Agrees d.text d.steps d.walk := by
  intro t h
  obtain ⟨table, name, wheres, orderBy, htable, hname, hwheres, horderBy, rfl⟩ := text_ok h
  obtain ⟨v, hv, hm⟩ := agrees_wheres hd.wheres hsub wheres hwheres
  have hhead : Inert ("DELETE FROM ".toList ++ table ++ name) :=
    (Inert.append (by decide) (inert_strictName htable)).append (inert_aliasText hname)
  refine ⟨_, ?_, ((hm.prepend hhead).followed
    (inert_termsText (by decide) hd.orderBy horderBy)).followed (inert_limitText d.limit none)⟩
  unfold walk
  rw [htable, hname, hv, horderBy]
  rfl

end Delete

end BoundSql
