import BoundSql.Condition.Clause
import BoundSql.Proofs.Balance
import BoundSql.Proofs.Nesting
import BoundSql.Proofs.Walk.Condition

/-!
# Parentheses of conditions and clauses

* `Composed`                  a caller's text, or one that `IF`, `IFNULL` or `CASE` makes of several;
* `Balances`                  whatever is written is balanced;
* `ConditionOf.fragments`     the caller's text in a condition;
* `ConditionOf.balances_body`, `ConditionOf.balances_projection`   the text of a condition;
* `leads_itemsText`           the members of a clause close the groups that are open;
* `balances_clauseText`       the text of a clause.
-/

namespace BoundSql

/-! ## the caller's texts -/

/-- a text of the caller's, or one that is put together from the caller's; parts of `IFNULL` that
are identifiers are quoted -/
inductive Composed : String → Prop
  | text {sql : String} (h : Balanced sql.toList) : Composed sql
  | sqlIf {σ : Type} {condition yes no : String} (hcondition : Balanced condition.toList)
      (hyes : Balanced yes.toList) (hno : Balanced no.toList) :
      Composed (ConditionOf.sqlIf condition yes no : ConditionOf σ).left
  | ifNull {σ : Type} {parts : List String}
      (h : ∀ p ∈ parts, Placeholder.IsRawName p → Balanced p.toList) :
      Composed (ConditionOf.ifNull parts : ConditionOf σ).left
  | caseWhen {σ : Type} {value otherwise : String} {branches : List (String × String)}
      (hvalue : Balanced value.toList) (hotherwise : Balanced otherwise.toList)
      (hbranches : ∀ b ∈ branches, Balanced b.1.toList ∧ Balanced b.2.toList) :
      Composed (ConditionOf.caseWhen value otherwise branches : ConditionOf σ).left

theorem balanced_quotedOrRaw {s : String} (h : Balanced s.toList) :
    Balanced (ConditionOf.quotedOrRaw s).toList := by
  unfold ConditionOf.quotedOrRaw
  split
  · rename_i ht
    rw [String.toList_ofList]
    exact balanced_quote ht
  · exact h

theorem balanced_join {ss : List String} (h : ∀ s ∈ ss, Balanced s.toList) :
    Balanced (String.join ss).toList := by
  rw [String.toList_join, List.flatMap_def]
  refine balanced_flatten fun t ht => ?_
  obtain ⟨s, hs, rfl⟩ := List.mem_map.mp ht
  exact h s hs

/-- an identifier is balanced as it stands, so only the other parts need a hypothesis -/
theorem balanced_part {p : String} (h : Placeholder.IsRawName p → Balanced p.toList) :
    Balanced p.toList := by
  cases hq : quote p.toList with
  | ok quoted => exact balanced_of_quote hq
  | error e => exact h fun quoted hok => by rw [hq] at hok; cases hok

theorem balanced_sqlIf {condition yes no : String} (hcondition : Balanced condition.toList)
    (hyes : Balanced yes.toList) (hno : Balanced no.toList) :
    Balanced ("IF((" ++ condition ++ "), " ++ yes ++ ", " ++ no ++ ")").toList := by
  simp only [String.toList_append]
  have hfront : Leads 0 ("IF((".toList ++ condition.toList ++ "), ".toList) 1 :=
    (Leads.append (n := 2) (by decide) (hcondition.leads 2)).append (by decide)
  have harms : Leads 0 ("IF((".toList ++ condition.toList ++ "), ".toList ++ yes.toList ++
      ", ".toList ++ no.toList) 1 :=
    ((hfront.append (hyes.leads 1)).append (by decide : Leads 1 _ 1)).append (hno.leads 1)
  exact (harms.append (by decide)).balanced

theorem balanced_ifNull {a b : String} (ha : Balanced a.toList) (hb : Balanced b.toList) :
    Balanced ("IFNULL(" ++ a ++ "," ++ b ++ ")").toList := by
  simp only [String.toList_append]
  have hfront : Leads 0 ("IFNULL(".toList ++ a.toList ++ ",".toList) 1 :=
    (Leads.append (n := 1) (by decide) (ha.leads 1)).append (by decide)
  exact ((hfront.append (hb.leads 1)).append (by decide)).balanced

theorem balanced_caseWhen {value otherwise : String} {branches : List (String × String)}
    (hvalue : Balanced value.toList) (hotherwise : Balanced otherwise.toList)
    (hbranches : ∀ b ∈ branches, Balanced b.1.toList ∧ Balanced b.2.toList) :
    Balanced (ConditionOf.caseWhen value otherwise branches : ConditionOf Empty).left.toList := by
  have harms : Balanced (String.join (branches.map fun branch =>
      " WHEN " ++ branch.1 ++ " THEN " ++ branch.2)).toList := by
    refine balanced_join fun arm harm => ?_
    obtain ⟨branch, hbranch, rfl⟩ := List.mem_map.mp harm
    obtain ⟨hcond, hresult⟩ := hbranches branch hbranch
    simp only [String.toList_append]
    have hwhen : Balanced (" WHEN ".toList ++ branch.1.toList) := .append (by decide) hcond
    exact (hwhen.append (by decide)).append hresult
  have hlast : Balanced (if otherwise = "" then "" else " ELSE " ++ otherwise).toList := by
    split
    · exact balanced_nil
    · rw [String.toList_append]
      exact .append (by decide) hotherwise
  show Balanced ("CASE " ++ value ++ String.join (branches.map fun branch =>
    " WHEN " ++ branch.1 ++ " THEN " ++ branch.2) ++
    (if otherwise = "" then "" else " ELSE " ++ otherwise) ++ " END").toList
  simp only [String.toList_append] at harms hlast ⊢
  have hcase : Balanced ("CASE ".toList ++ value.toList) := .append (by decide) hvalue
  exact ((hcase.append harms).append hlast).append (by decide)

theorem Composed.balanced {sql : String} (h : Composed sql) : Balanced sql.toList := by
  cases h with
  | text h => exact h
  | sqlIf hcondition hyes hno => exact balanced_sqlIf hcondition hyes hno
  | caseWhen hvalue hotherwise hbranches =>
    exact balanced_caseWhen hvalue hotherwise hbranches
  | @ifNull σ parts h =>
    have hparts : ∀ p ∈ parts, Balanced p.toList := fun p hp => balanced_part (h p hp)
    have hdotted : ∀ t ∈ parts, ∀ a ∈ parts, Balanced (t ++ "." ++ a).toList := by
      intro t ht a ha
      simp only [String.toList_append]
      exact ((hparts t ht).append (by decide)).append (hparts a ha)
    match parts with
    | [a] =>
      have ha := balanced_quotedOrRaw (hparts a (by simp))
      show Balanced ("IFNULL(" ++ ConditionOf.quotedOrRaw a ++ ",NULL)").toList
      simp only [String.toList_append]
      have hfront : Leads 0 "IFNULL(".toList 1 := by decide
      exact ((hfront.append (ha.leads 1)).append (by decide)).balanced
    | [a, b] =>
      exact balanced_ifNull (balanced_quotedOrRaw (hparts a (by simp)))
        (balanced_quotedOrRaw (hparts b (by simp)))
    | [t, a, u, b] =>
      exact balanced_ifNull (balanced_quotedOrRaw (hdotted t (by simp) a (by simp)))
        (balanced_quotedOrRaw (hdotted u (by simp) b (by simp)))
    | [] | [_, _, _] | _ :: _ :: _ :: _ :: _ :: _ =>
      show Balanced "IFNULL()".toList
      decide

/-- a name that stands as it is, because it is no identifier -/
def rawName (name : String) : List String :=
  match quote name.toList with
  | .ok _ => []
  | .error _ => [name]

theorem mem_rawName {name : String} (h : Placeholder.IsRawName name) : name ∈ rawName name := by
  unfold rawName
  split
  · rename_i quoted hq
    exact absurd hq (h quoted)
  · exact List.mem_singleton_self name

/-- whatever is written is balanced -/
def Balances (text : Except Error Text) : Prop := ∀ t, text = .ok t → Balanced t

theorem Balances.within {text : Except Error Text} (h : Balances text) (place : String) :
    Balances (within place text) := fun t ht => h t (within_eq_ok ht)

/-! ## comparisons -/

namespace Comparison

theorem balanced_operator (op : Operator) : Balanced op.text := by cases op <;> decide

theorem balanced_spaced (op : Operator) : Balanced (' ' :: op.text) :=
  balanced_cons (by decide) (balanced_operator op)

theorem balanced_text (c : Comparison) : Balanced c.text := by
  cases c with
  | bare op => exact balanced_spaced op
  | tuple op n =>
    show Balanced ((' ' :: op.text) ++ ([' '] ++ parenthesized _))
    refine .append (balanced_spaced op) (.append (by decide) (balanced_parenthesized ?_))
    split
    · decide
    · exact balanced_marks n
  | range op => exact (balanced_spaced op).append (by decide)
  | coalesced => decide
  | null op => exact (balanced_spaced op).append (by decide)
  | single op => exact (balanced_spaced op).append (by decide)

end Comparison

theorem balances_beforeSelect (op : Option Operator) : Balances (Operator.beforeSelect op) := by
  intro t h
  unfold Operator.beforeSelect at h
  simp only at h
  split at h
  · cases h
    exact (Comparison.balanced_spaced _).append (by decide)
  · split at h
    · cases h
      exact (Comparison.balanced_operator _).append (by decide)
    · cases h

/-! ## conditions -/

namespace ConditionOf

/-- the caller's text in a condition -/
def fragments {σ : Type} (c : ConditionOf σ) : List String :=
  if c.kind = .expression then [c.left] else []

def selectedFragments {σ : Type} (lenient : Bool) (c : ConditionOf σ) : List String :=
  if c.kind = .expression then [c.left] else if lenient then rawName c.left else []

variable {c : ConditionOf (Except Error Text)}

theorem balances_expression (h : Balanced c.left.toList) : Balances c.expressionText := by
  intro t ht
  unfold expressionText at ht
  simp only at ht
  split at ht
  · split at ht
    · split at ht
      · obtain ⟨cmp, _, ht⟩ := bind_ok ht
        cases ht
        exact h.append cmp.balanced_text
      · cases ht
        exact h
    · obtain ⟨cmp, _, ht⟩ := bind_ok ht
      cases ht
      exact h.append cmp.balanced_text
    · cases ht
  · exact balanced_templateText h ht

theorem balances_left (c : ConditionOf (Except Error Text)) : Balances c.leftText := by
  intro t h
  unfold leftText at h
  split at h
  · cases h
  · exact balanced_strictName h

theorem balances_column (c : ConditionOf (Except Error Text)) : Balances c.columnText := by
  intro t h
  obtain ⟨left, hleft, h⟩ := bind_ok h
  obtain ⟨cmp, _, h⟩ := bind_ok h
  cases h
  exact (balances_left c left hleft).append cmp.balanced_text

theorem balances_subselect {select : Except Error Text} (h : Balances select) :
    Balances (c.subselectText select) := by
  intro t ht
  rw [subselectText_eq] at ht
  obtain ⟨left, hleft, ht⟩ := bind_ok ht
  obtain ⟨op, hop, ht⟩ := bind_ok ht
  obtain ⟨inner, hinner, ht⟩ := bind_ok ht
  cases ht
  have hl : Balanced left := by
    unfold subselectLeft at hleft
    split at hleft
    · cases hleft
      exact balanced_nil
    · exact balances_left c left hleft
  exact (hl.append (balances_beforeSelect _ op hop)).append
    (balanced_parenthesized (h.within _ inner hinner))

theorem balances_body (hc : ∀ f ∈ c.fragments, Composed f)
    (hsub : ∀ select, c.subselect = some select → Balances select) : Balances c.body := by
  intro t h
  obtain ⟨_, _, h⟩ := bind_ok h
  cases hk : c.kind with
  | expression =>
    simp only [hk] at h
    refine balances_expression (hc c.left ?_).balanced t h
    rw [fragments, if_pos hk]
    exact List.mem_singleton_self _
  | column =>
    cases hs : c.subselect with
    | none =>
      simp only [hk, hs] at h
      exact balances_column c t h
    | some select =>
      simp only [hk, hs] at h
      exact balances_subselect (hsub select hs) t h
  | groupOpen | groupClose | shared _ =>
    simp only [hk] at h
    cases h

theorem balances_projection {lenient : Bool} (hc : ∀ f ∈ c.selectedFragments lenient, Composed f)
    (hsub : ∀ select, c.subselect = some select → Balances select) :
    Balances (c.projection lenient) := by
  intro t h
  rw [projection_eq] at h
  obtain ⟨text, htext, h⟩ := bind_ok h
  obtain ⟨name, hname, h⟩ := bind_ok h
  cases h
  refine .append ?_ (balanced_aliasText hname)
  unfold selectedText at htext
  unfold selectedFragments at hc
  by_cases hk : c.kind = .expression
  · rw [if_pos hk] at htext hc
    refine balances_body ?_ hsub text htext
    rwa [fragments, if_pos hk]
  · rw [if_neg hk] at htext hc
    refine balanced_nameText (fun hl hraw => ?_) htext
    rw [if_pos hl] at hc
    exact (hc c.left (mem_rawName hraw)).balanced

end ConditionOf

/-! ## clauses -/

theorem balanced_connector (connector : Connector) (first : Bool) :
    Balanced (connector.text first) := by cases connector <;> cases first <;> decide

theorem balanced_keyword (clause : Clause) : Balanced clause.keyword := by
  cases clause <;> decide

/-- the members end outside of all groups, also of those that were open in front of them -/
theorem leads_itemsText {clause : Clause} {items : List ClauseItem}
    (hitems : ∀ connector body, .leaf connector body ∈ items → Balances body) {g : Grouping}
    {t : Text} (h : itemsText clause g items = .ok t) : Leads g.depth t 0 := by
  -- every member leaves behind it the depth of the grouping that the later ones are written in
  induction items generalizing g t with
  | nil =>
    rw [itemsText] at h
    split at h
    · cases h
    · rename_i hdepth
      cases h
      rw [Nat.eq_zero_of_not_pos hdepth]
      exact leads_nil 0
  | cons item items ih =>
    have ih' := fun {g : Grouping} {t : Text} => ih (g := g) (t := t) fun connector body hm =>
      hitems connector body (List.mem_cons_of_mem _ hm)
    cases item with
    | shared columns => cases h
    | groupClose =>
      rw [itemsText] at h
      split at h
      · cases h
      · rename_i hdepth
        split at h
        · cases h
        · obtain ⟨rest, hrest, h⟩ := bind_ok h
          cases h
          have hclose := leads_close (g.depth - 1)
          rw [Nat.sub_add_cancel (Nat.pos_of_ne_zero hdepth)] at hclose
          exact hclose.append (ih' hrest)
    | groupOpen connector =>
      obtain ⟨rest, hrest, h⟩ := bind_ok h
      cases h
      exact ((balanced_connector connector g.first).leads g.depth).append
        ((leads_open g.depth).append (ih' hrest))
    | leaf connector body =>
      obtain ⟨text, htext, h⟩ := bind_ok h
      obtain ⟨rest, hrest, h⟩ := bind_ok h
      cases h
      have hbody := balanced_parenthesized
        (hitems connector body (List.mem_cons_self ..) text htext)
      have hlater : Leads g.filled.depth rest 0 := ih' hrest
      exact (((balanced_connector connector g.first).append hbody).leads g.depth).append hlater

/-- only conditions that are no markers are written with a body -/
theorem ConditionOf.body_of_item {c : ConditionOf (Except Error Text)} {connector : Connector}
    {body : Except Error Text} (h : c.item = .leaf connector body) : body = c.body := by
  unfold item at h
  split at h <;> cases h
  rfl

theorem balances_clauseText {clause : Clause} {cs : List (ConditionOf (Except Error Text))}
    (hc : ∀ c ∈ cs, ∀ f ∈ c.fragments, Composed f) (hsub : ∀ x ∈ subselects cs, Balances x) :
    Balances (clauseText clause cs) := by
  intro t h
  unfold clauseText at h
  split at h
  · cases h
    exact balanced_nil
  · obtain ⟨names, hnames, h⟩ := bind_ok h
    cases h
    have hopen : Leads 0 (" USING (".toList ++ names) 1 :=
      .append (n := 1) (by decide) ((balanced_nameListText hnames).leads 1)
    exact (hopen.append (leads_close 0)).balanced
  · obtain ⟨items, hitems, h⟩ := bind_ok h
    cases h
    refine (balanced_keyword _).append (leads_itemsText (fun connector body hm => ?_) hitems).balanced
    obtain ⟨c, hmem, hitem⟩ := List.mem_map.mp hm
    rw [ConditionOf.body_of_item hitem]
    exact ConditionOf.balances_body (hc c hmem) fun select hs =>
      hsub select (mem_subselects hmem hs)

end BoundSql
