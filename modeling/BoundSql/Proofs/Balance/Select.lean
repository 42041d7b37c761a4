import BoundSql.Proofs.Balance.Condition
import BoundSql.Statement.Select

/-!
# Parentheses of SELECT statements

* `Term.fragments`, `SelectOf.ownFragments`   the caller's texts in terms and clauses;
* `Select.fragments`        the caller's texts in a SELECT and in all SELECTs in it;
* `SelectOf.balances_text`  the text of a SELECT over balanced texts of its sub-selects;
* `Select.balances_text`    the text of a SELECT.
-/

namespace BoundSql

/-! ## terms and limits -/

/-- a raw term, and a name that a lenient place takes as it is -/
def Term.fragments (lenient : Bool) : Term → List String
  | .name column _ => if lenient then rawName column else []
  | .raw sql => [sql]

theorem balances_term {lenient : Bool} {term : Term}
    (hf : ∀ f ∈ term.fragments lenient, Composed f) : Balances (term.text lenient) := by
  intro t h
  cases term with
  | name column descending =>
    obtain ⟨name, hname, h⟩ := bind_ok h
    cases h
    refine Balanced.append (balanced_nameText (fun hl hraw => ?_) hname) ?_
    · rw [Term.fragments, if_pos hl] at hf
      exact (hf column (mem_rawName hraw)).balanced
    · cases descending <;> decide
  | raw sql =>
    cases h
    exact (hf sql (List.mem_singleton_self sql)).balanced

theorem balances_termsText {keyword : String} (hk : Balanced keyword.toList) {terms : List Term}
    {lenient : Bool} (hf : ∀ term ∈ terms, ∀ f ∈ term.fragments lenient, Composed f) :
    Balances (termsText keyword terms lenient) := by
  intro t h
  unfold termsText at h
  split at h
  · cases h
    exact balanced_nil
  · obtain ⟨texts, htexts, h⟩ := bind_ok h
    cases h
    refine hk.append (balanced_separated (by decide) texts ?_)
    exact forall_of_mapM htexts fun term hterm => balances_term (hf term hterm)

theorem balanced_limitText (limit offset : Option Nat) : Balanced (limitText limit offset) := by
  cases limit with
  | none => exact balanced_nil
  | some n =>
    have hlimit : Balanced (" LIMIT ".toList ++ Text.ofNat n) :=
      .append (by decide) (balanced_ofNat n)
    cases offset with
    | none => exact hlimit
    | some m =>
      show Balanced (" LIMIT ".toList ++ Text.ofNat n ++ " OFFSET ".toList ++ Text.ofNat m)
      exact (hlimit.append (by decide)).append (balanced_ofNat m)

/-! ## clauses -/

theorem JoinOf.balances_text {j : JoinOf (Except Error Text)}
    (hf : ∀ c ∈ j.on, ∀ f ∈ c.fragments, Composed f) (hsub : ∀ x ∈ subselects j.on, Balances x) :
    Balances j.text := by
  intro t h
  obtain ⟨table, htable, h⟩ := bind_ok h
  obtain ⟨name, hname, h⟩ := bind_ok h
  obtain ⟨on, hon, h⟩ := bind_ok h
  cases h
  have hkeyword : Balanced (' ' :: j.kind.keyword.toList) := by cases j.kind <;> decide
  have htabled : Balanced (' ' :: j.kind.keyword.toList ++ ' ' :: table) :=
    hkeyword.append (balanced_cons (by decide) (balanced_strictName htable))
  exact (htabled.append (balanced_aliasText hname)).append (balances_clauseText hf hsub on hon)

namespace SelectOf

section
variable {σ : Type}

/-- the caller's texts in the clauses, those of sub-selects aside -/
def ownFragments (s : SelectOf σ) : List String :=
  (s.raw.map Prod.fst).toList ++ s.columns.flatMap (ConditionOf.selectedFragments s.lenient) ++
    s.joins.flatMap (fun j => j.on.flatMap ConditionOf.fragments) ++
    s.wheres.flatMap ConditionOf.fragments ++ s.groupBy.flatMap (Term.fragments s.lenient) ++
    s.havings.flatMap ConditionOf.fragments ++ s.orderBy.flatMap (Term.fragments s.lenient)

theorem ownFragments_map {τ : Type} (g : σ → τ) (s : SelectOf σ) :
    (s.map g).ownFragments = s.ownFragments := by
  have hjoin : ∀ j : JoinOf σ, (j.map g).on.flatMap ConditionOf.fragments =
      j.on.flatMap ConditionOf.fragments := fun j => List.flatMap_map ..
  unfold ownFragments map
  simp only [List.flatMap_map, hjoin]
  rfl

/-- what holds of the caller's texts, clause by clause -/
theorem forall_ownFragments {p : String → Prop} {s : SelectOf σ} (h : ∀ f ∈ s.ownFragments, p f) :
    (∀ sql args, s.raw = some (sql, args) → p sql) ∧
      (∀ c ∈ s.columns, ∀ f ∈ c.selectedFragments s.lenient, p f) ∧
      (∀ j ∈ s.joins, ∀ c ∈ j.on, ∀ f ∈ c.fragments, p f) ∧
      (∀ c ∈ s.wheres, ∀ f ∈ c.fragments, p f) ∧
      (∀ term ∈ s.groupBy, ∀ f ∈ term.fragments s.lenient, p f) ∧
      (∀ c ∈ s.havings, ∀ f ∈ c.fragments, p f) ∧
      ∀ term ∈ s.orderBy, ∀ f ∈ term.fragments s.lenient, p f := by
  simp only [ownFragments, List.mem_append, List.mem_flatMap, Option.mem_toList,
    Option.map_eq_some_iff] at h
  grind

end

variable {s : SelectOf (Except Error Text)}

theorem balances_columns
    (hf : ∀ c ∈ s.columns, ∀ f ∈ c.selectedFragments s.lenient, Composed f)
    (hsub : ∀ x ∈ s.nested, Balances x) : Balances s.columnsText := by
  intro t h
  unfold columnsText at h
  split at h
  · cases h
    decide
  · obtain ⟨texts, htexts, h⟩ := bind_ok h
    cases h
    refine balanced_separated (by decide) texts (forall_of_mapM htexts fun c hc => ?_)
    exact ConditionOf.balances_projection (hf c hc) fun select hs =>
      hsub select (mem_nested_of_columns (mem_subselects hc hs))

theorem balances_source (hsub : ∀ x ∈ s.nested, Balances x) : Balances s.sourceText := by
  intro t h
  unfold sourceText at h
  cases hderived : s.derived with
  | some select =>
    simp only [hderived] at h
    obtain ⟨inner, hinner, h⟩ := bind_ok h
    obtain ⟨name, hname, h⟩ := bind_ok h
    cases h
    have hfrom := hsub select (mem_nested_of_derived hderived) inner (within_eq_ok hinner)
    exact (Balanced.append (by decide) (balanced_parenthesized hfrom)).append
      (balanced_aliasText hname)
  | none =>
    simp only [hderived] at h
    split at h
    · cases h
      exact balanced_nil
    · obtain ⟨table, htable, h⟩ := bind_ok h
      obtain ⟨name, hname, h⟩ := bind_ok h
      cases h
      exact (Balanced.append (by decide) (balanced_strictName htable)).append
        (balanced_aliasText hname)

theorem balanced_memberText {σ : Type} (s : SelectOf σ) : Balanced s.memberText := by
  unfold memberText
  cases s.memberIndex with
  | none => exact balanced_nil
  | some i =>
    have hcomma : Balanced (", ".toList ++ Text.ofNat i) := .append (by decide) (balanced_ofNat i)
    exact (hcomma.append (by decide)).append (balanced_quotedName _)

theorem balances_clauses (hf : ∀ f ∈ s.ownFragments, Composed f)
    (hsub : ∀ x ∈ s.nested, Balances x) : Balances s.clausesText := by
  obtain ⟨_, hfcolumns, hfjoins, hfwheres, hfgroupBy, hfhavings, hforderBy⟩ :=
    forall_ownFragments hf
  intro t h
  obtain ⟨columns, hcolumns, h⟩ := bind_ok h
  obtain ⟨source, hsource, h⟩ := bind_ok h
  obtain ⟨joins, hjoins, h⟩ := bind_ok h
  obtain ⟨wheres, hwheres, h⟩ := bind_ok h
  obtain ⟨groupBy, hgroupBy, h⟩ := bind_ok h
  obtain ⟨havings, hhavings, h⟩ := bind_ok h
  obtain ⟨orderBy, horderBy, h⟩ := bind_ok h
  cases h
  have hselect : Balanced ("SELECT ".toList ++ if s.distinct then "DISTINCT ".toList else []) := by
    cases s.distinct <;> decide
  have hcolumns := (hselect.append (balances_columns hfcolumns hsub columns hcolumns)).append
    (balanced_memberText s)
  have hsource := hcolumns.append (balances_source hsub source hsource)
  have hjoins : Balanced joins.flatten :=
    balanced_flatten <| forall_of_mapM hjoins fun j hj =>
      JoinOf.balances_text (hfjoins j hj) fun x hx => hsub x (mem_nested_of_join hj hx)
  have hwheres := balances_clauseText hfwheres
    (fun x hx => hsub x (mem_nested_of_wheres hx)) wheres hwheres
  have hgroupBy := balances_termsText (by decide) hfgroupBy groupBy hgroupBy
  have hhavings := balances_clauseText hfhavings
    (fun x hx => hsub x (mem_nested_of_havings hx)) havings hhavings
  have horderBy := balances_termsText (by decide) hforderBy orderBy horderBy
  exact (((((hsource.append hjoins).append hwheres).append hgroupBy).append hhavings).append
    horderBy).append (balanced_limitText s.limit s.offset)

theorem balances_text (hf : ∀ f ∈ s.ownFragments, Composed f)
    (hsub : ∀ x ∈ s.nested, Balances x) : Balances s.text := by
  intro t h
  unfold SelectOf.text at h
  split at h
  · cases h
  · rename_i sql args _ hraw
    exact balanced_templateText ((forall_ownFragments hf).1 sql args hraw).balanced h
  · exact balances_clauses hf hsub t h

end SelectOf

/-! ## statements -/

namespace Select

/-- the caller's texts in a SELECT and in all SELECTs in it -/
def fragments (s : Select) : List String := s.fold fun c => c.ownFragments ++ c.nested.flatten

theorem fragments_mk (s : SelectOf Select) :
    fragments (mk s) = s.ownFragments ++ s.nested.flatMap fragments := by
  rw [fragments, fold_mk, SelectOf.ownFragments_map, SelectOf.nested_map, ← List.flatMap_def]
  rfl

/-- wherever a SELECT stands, its text is balanced if the caller's texts in it are -/
theorem balances_text {s : Select} (hf : ∀ f ∈ s.fragments, Composed f) : Balances s.text := by
  induction s using nested_induction with
  | h s ih =>
    rw [fragments_mk] at hf
    rw [text_mk]
    refine SelectOf.balances_text (fun f hown => ?_) fun x hx => ?_
    · rw [SelectOf.ownFragments_map] at hown
      exact hf f (List.mem_append_left _ hown)
    · rw [SelectOf.nested_map] at hx
      obtain ⟨inner, hinner, rfl⟩ := List.mem_map.mp hx
      exact ih inner hinner fun f hin =>
        hf f (List.mem_append_right _ (List.mem_flatMap.mpr ⟨inner, hinner, hin⟩))

end Select

end BoundSql
