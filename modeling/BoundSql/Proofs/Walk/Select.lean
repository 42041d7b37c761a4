import BoundSql.Proofs.Made
import BoundSql.Proofs.Walk.Clause

/-!
# Walks of SELECT statements

* `SelectOf.walk`       the walk of a SELECT over the walks of its sub-selects;
* `Select.walk`         the walk of a SELECT, a fold like its text and its steps;
* `SelectOf.Closed`     the caller's texts leave the pass outside quotes;
* `Select.agrees`       text, steps and walk of a SELECT.
-/

namespace BoundSql

open Placeholder

/-! ## terms and limits -/

/-- a text that stands as it is holds no placeholder and opens no quote -/
def Term.Closed (lenient : Bool) : Term → Prop
  | .name column _ => lenient = true → IsRawName column → Inert column.toList
  | .raw sql => Inert sql.toList

theorem inert_term {lenient : Bool} {term : Term} (hc : term.Closed lenient) {t : Text}
    (h : term.text lenient = .ok t) : Inert t := by
  cases term with
  | name column descending =>
    obtain ⟨name, hname, h⟩ := bind_ok h
    cases h
    refine (inert_nameText hc hname).append ?_
    cases descending <;> decide
  | raw sql =>
    cases h
    exact hc

theorem inert_termsText {keyword : String} (hk : Inert keyword.toList) {terms : List Term}
    {lenient : Bool} (hc : ∀ term ∈ terms, term.Closed lenient) {t : Text}
    (h : termsText keyword terms lenient = .ok t) : Inert t := by
  unfold termsText at h
  split at h
  · cases h
    exact inert_nil
  · obtain ⟨texts, htexts, h⟩ := bind_ok h
    cases h
    refine hk.append (inert_separated (by decide) texts ?_)
    exact forall_of_mapM htexts fun term hterm _ => inert_term (hc term hterm)

theorem inert_limitText (limit offset : Option Nat) : Inert (limitText limit offset) := by
  cases limit with
  | none => exact inert_nil
  | some n =>
    have hlimit : Inert (" LIMIT ".toList ++ Text.ofNat n) := .append (by decide) (inert_ofNat n)
    cases offset with
    | none => exact hlimit
    | some m =>
      show Inert (" LIMIT ".toList ++ Text.ofNat n ++ " OFFSET ".toList ++ Text.ofNat m)
      exact (hlimit.append (by decide)).append (inert_ofNat m)

/-! ## clauses -/

/-- the steps of a join are those of its conditions -/
def JoinOf.steps (j : JoinOf (List Step)) : List Step := clauseSteps .join j.on

def JoinOf.walk (j : JoinOf (Except Error Walk)) : Except Error Walk := do
  let table ← nameText j.table false
  let name ← aliasText j.name
  let on ← clauseWalk .join j.on
  return Walk.literal (' ' :: j.kind.keyword.toList ++ ' ' :: table ++ name) ++ on

namespace SelectOf

variable {σ τ : Type}

def columnsWalk (s : SelectOf (Except Error Walk)) : Except Error Walk :=
  if s.columns.isEmpty then .ok (.literal ['*'])
  else do
    let walks ← s.columns.mapM fun c => c.projectionWalk s.lenient
    return Walk.separated ", ".toList walks

def sourceWalk (s : SelectOf (Except Error Walk)) : Except Error Walk :=
  match s.derived with
  | some select => do
    let walk ← within "derived table" select
    let name ← aliasText s.name
    return Walk.literal " FROM ".toList ++ walk.parenthesized ++ Walk.literal name
  | none =>
    if s.table = "" then .ok []
    else do
      let table ← nameText s.table false
      let name ← aliasText s.name
      return Walk.literal (" FROM ".toList ++ table ++ name)

def clausesWalk (s : SelectOf (Except Error Walk)) : Except Error Walk := do
  let columns ← s.columnsWalk
  let source ← s.sourceWalk
  let joins ← s.joins.mapM JoinOf.walk
  let wheres ← clauseWalk .filter s.wheres
  let groupBy ← termsText " GROUP BY " s.groupBy s.lenient
  let havings ← clauseWalk .having s.havings
  let orderBy ← termsText " ORDER BY " s.orderBy s.lenient
  return Walk.literal ("SELECT ".toList ++ if s.distinct then "DISTINCT ".toList else []) ++
    columns ++ Walk.literal s.memberText ++ source ++ joins.flatten ++ wheres ++
    Walk.literal groupBy ++ havings ++ Walk.literal orderBy ++
    Walk.literal (limitText s.limit s.offset)

/-- the walk of a SELECT over the walks of its sub-selects -/
def walk (s : SelectOf (Except Error Walk)) : Except Error Walk :=
  match s.failed, s.raw with
  | some e, _ => .error e
  | none, some (sql, args) => templateWalk sql.toList args
  | none, none => s.clausesWalk

/-! ## the caller's texts -/

/-- the caller's texts leave the pass outside quotes; names and terms that stand as they are hold
no placeholder -/
structure Closed (s : SelectOf σ) : Prop where
  raw : ∀ sql args, s.raw = some (sql, args) → Placeholder.Closed sql.toList
  columns : ∀ c ∈ s.columns, c.Closed
  names : s.lenient = true → ∀ c ∈ s.columns, c.kind ≠ .expression → IsRawName c.left →
    Inert c.left.toList
  joins : ∀ j ∈ s.joins, ∀ c ∈ j.on, c.Closed
  wheres : ∀ c ∈ s.wheres, c.Closed
  groupBy : ∀ term ∈ s.groupBy, term.Closed s.lenient
  havings : ∀ c ∈ s.havings, c.Closed
  orderBy : ∀ term ∈ s.orderBy, term.Closed s.lenient

end SelectOf

/-! ## agreement -/

section
variable {σ : Type} {text : σ → Except Error Text} {steps : σ → List Step}
  {walkOf : σ → Except Error Walk}

theorem JoinOf.agrees {j : JoinOf σ} (hc : ∀ c ∈ j.on, c.Closed)
    (hsub : ∀ c ∈ j.on, ∀ t, c.subselect = some t → Agrees (text t) (steps t) (walkOf t)) :
    Agrees (j.map text).text (j.map steps).steps (j.map walkOf).walk := by
  intro t h
  obtain ⟨table, htable, h⟩ := bind_ok h
  obtain ⟨name, hname, h⟩ := bind_ok h
  obtain ⟨on, hon, h⟩ := bind_ok h
  cases h
  obtain ⟨w, hw, hm⟩ := agrees_clause .join j.on hc hsub on hon
  refine ⟨Walk.literal (' ' :: j.kind.keyword.toList ++ ' ' :: table ++ name) ++ w, ?_,
    .prepend ?_ hm⟩
  · unfold JoinOf.walk
    rw [show nameText (j.map walkOf).table false = .ok table from htable,
      show aliasText (j.map walkOf).name = .ok name from hname,
      show clauseWalk .join (j.map walkOf).on = .ok w from hw]
    rfl
  · have hkeyword : Inert (' ' :: j.kind.keyword.toList) := by cases j.kind <;> decide
    exact (hkeyword.append (inert_cons (by decide) (inert_strictName htable))).append
      (inert_aliasText hname)

namespace SelectOf

variable {s : SelectOf σ}

theorem agrees_columns (hc : s.Closed) (hp : s.Projected)
    (hsub : ∀ t ∈ s.nested, Agrees (text t) (steps t) (walkOf t)) :
    Agrees (s.map text).columnsText ((s.map steps).columns.flatMap ConditionOf.steps)
      (s.map walkOf).columnsWalk := by
  have hcolumn : ∀ c ∈ s.columns, Agrees ((c.map text).projection s.lenient) (c.map steps).steps
      ((c.map walkOf).projectionWalk s.lenient) := by
    intro c h
    refine ConditionOf.agrees_projection (hp c h) (hc.columns c h) (fun hl => hc.names hl c h) ?_
    intro t ht
    exact hsub t (mem_nested_of_columns (mem_subselects h ht))
  intro t h
  unfold columnsText at h
  unfold columnsWalk
  cases hcolumns : s.columns with
  | nil =>
    simp only [map, hcolumns] at h ⊢
    cases h
    exact ⟨_, rfl, .literal (by decide)⟩
  | cons c cs =>
    have hne : (s.map text).columns.isEmpty = false := by simp [map, hcolumns]
    have hne' : (s.map walkOf).columns.isEmpty = false := by simp [map, hcolumns]
    rw [hne, if_neg Bool.false_ne_true] at h
    rw [hne', if_neg Bool.false_ne_true]
    obtain ⟨texts, htexts, h⟩ := bind_ok h
    cases h
    obtain ⟨ws, hws, hms⟩ : ∃ ws,
        (s.map walkOf).columns.mapM (fun c => c.projectionWalk s.lenient) = .ok ws ∧
          MatchesAll ws texts ((s.map steps).columns.flatMap ConditionOf.steps) :=
      matchesAll_of_mapM_map hcolumn htexts
    refine ⟨Walk.separated ", ".toList ws, ?_, hms.separated (by decide)⟩
    exact congrArg (· >>= _) hws

theorem agrees_source (hsub : ∀ t ∈ s.nested, Agrees (text t) (steps t) (walkOf t)) :
    Agrees (s.map text).sourceText ((s.map steps).derived.getD []) (s.map walkOf).sourceWalk := by
  intro t h
  unfold sourceText at h
  unfold sourceWalk
  cases hderived : s.derived with
  | some select =>
    simp only [map, hderived, Option.map_some] at h ⊢
    obtain ⟨inner, hinner, h⟩ := bind_ok h
    obtain ⟨name, hname, h⟩ := bind_ok h
    cases h
    obtain ⟨w, hw, hm⟩ := hsub select (mem_nested_of_derived hderived) inner (within_eq_ok hinner)
    rw [hw, hname]
    exact ⟨_, rfl, (Walk.Matches.prepend (by decide) hm.parenthesized).followed
      (inert_aliasText hname)⟩
  | none =>
    simp only [map, hderived, Option.map_none] at h ⊢
    split at h
    · rename_i htable
      cases h
      rw [if_pos htable]
      exact ⟨_, rfl, .literal inert_nil⟩
    · rename_i htable
      obtain ⟨table, hname, h⟩ := bind_ok h
      obtain ⟨name, halias, h⟩ := bind_ok h
      cases h
      rw [if_neg htable, hname, halias]
      exact ⟨_, rfl, .literal (.append (.append (by decide) (inert_strictName hname))
        (inert_aliasText halias))⟩

theorem inert_memberText (s : SelectOf σ) : Inert s.memberText := by
  unfold memberText
  cases s.memberIndex with
  | none => exact inert_nil
  | some i =>
    have hcomma : Inert (", ".toList ++ Text.ofNat i) := .append (by decide) (inert_ofNat i)
    exact (hcomma.append (by decide)).append (inert_quotedName _)

theorem agrees_clauses (hc : s.Closed) (hp : s.Projected)
    (hsub : ∀ t ∈ s.nested, Agrees (text t) (steps t) (walkOf t)) :
    Agrees (s.map text).clausesText
      ((s.map steps).columns.flatMap ConditionOf.steps ++ (s.map steps).derived.getD [] ++
        (s.map steps).joins.flatMap JoinOf.steps ++
        clauseSteps .filter (s.map steps).wheres ++ clauseSteps .having (s.map steps).havings)
      (s.map walkOf).clausesWalk := by
  have hjoin : ∀ j ∈ s.joins, Agrees (j.map text).text (j.map steps).steps
      (j.map walkOf).walk := by
    intro j hj
    refine JoinOf.agrees (hc.joins j hj) fun c h t ht => ?_
    exact hsub t (mem_nested_of_join hj (mem_subselects h ht))
  intro t h
  obtain ⟨columns, hcolumns, h⟩ := bind_ok h
  obtain ⟨source, hsource, h⟩ := bind_ok h
  obtain ⟨joins, hjoins, h⟩ := bind_ok h
  obtain ⟨wheres, hwheres, h⟩ := bind_ok h
  obtain ⟨groupBy, hgroupBy, h⟩ := bind_ok h
  obtain ⟨havings, hhavings, h⟩ := bind_ok h
  obtain ⟨orderBy, horderBy, h⟩ := bind_ok h
  cases h
  obtain ⟨wc, hwc, hmc⟩ := agrees_columns hc hp hsub columns hcolumns
  obtain ⟨ws, hws, hms⟩ := agrees_source hsub source hsource
  obtain ⟨wj, hwj, hmj⟩ : ∃ wj, (s.map walkOf).joins.mapM JoinOf.walk = .ok wj ∧
      MatchesAll wj joins ((s.map steps).joins.flatMap JoinOf.steps) :=
    matchesAll_of_mapM_map hjoin hjoins
  obtain ⟨ww, hww, hmw⟩ := agrees_clause .filter s.wheres hc.wheres
    (fun c h t ht => hsub t (mem_nested_of_wheres (mem_subselects h ht))) wheres hwheres
  obtain ⟨wh, hwh, hmh⟩ := agrees_clause .having s.havings hc.havings
    (fun c h t ht => hsub t (mem_nested_of_havings (mem_subselects h ht))) havings hhavings
  have hselect : Inert ("SELECT ".toList ++ if s.distinct then "DISTINCT ".toList else []) := by
    cases s.distinct <;> decide
  have hcs := ((Walk.Matches.prepend hselect hmc).followed (inert_memberText s)).append hms
  have hwheres := ((hcs.append hmj.flatten).append hmw).followed
    (inert_termsText (by decide) hc.groupBy hgroupBy)
  have hall := ((hwheres.append hmh).followed (inert_termsText (by decide) hc.orderBy horderBy)).followed
    (inert_limitText s.limit s.offset)
  refine ⟨_, ?_, hall⟩
  unfold clausesWalk
  rw [hwc, hws, hwj,
    show clauseWalk .filter (s.map walkOf).wheres = .ok ww from hww,
    show termsText " GROUP BY " (s.map walkOf).groupBy (s.map walkOf).lenient = .ok groupBy from hgroupBy,
    show clauseWalk .having (s.map walkOf).havings = .ok wh from hwh,
    show termsText " ORDER BY " (s.map walkOf).orderBy (s.map walkOf).lenient = .ok orderBy from horderBy]
  rfl

theorem agrees (hc : s.Closed) (hp : s.Projected)
    (hsub : ∀ t ∈ s.nested, Agrees (text t) (steps t) (walkOf t)) :
    Agrees (s.map text).text (s.map steps).steps (s.map walkOf).walk := by
  unfold SelectOf.text SelectOf.steps SelectOf.walk
  cases hfailed : s.failed with
  | some e =>
    simp only [map, hfailed]
    exact agrees_error _ _ _
  | none =>
    cases hraw : s.raw with
    | some raw =>
      obtain ⟨sql, args⟩ := raw
      simp only [map, hfailed, hraw]
      exact agrees_template (hc.raw sql args hraw) args
    | none =>
      have h := agrees_clauses hc hp hsub
      simp only [map, hfailed, hraw] at h ⊢
      exact h

end SelectOf

end

/-! ## statements -/

namespace Select

def walk (s : Select) : Except Error Walk := s.fold SelectOf.walk

theorem walk_mk (s : SelectOf Select) : walk (mk s) = (s.map walk).walk := fold_mk _ s

/-- the walk of a SELECT writes its text and binds what its steps bind -/
theorem agrees {s : Select} (hc : s.Everywhere SelectOf.Closed)
    (hp : s.Everywhere SelectOf.Projected) : Agrees s.text s.steps s.walk := by
  induction hc with
  | mk s hc _ ih =>
    cases hp with
    | mk _ hp hinside =>
      rw [text_mk, steps_mk, walk_mk]
      exact SelectOf.agrees hc hp fun t ht => ih t ht (hinside t ht)

end Select

end BoundSql
