import BoundSql.Proofs.Walk.Condition
import BoundSql.Statement.Select
import Mathlib.Data.List.Basic

/-!
# What a predicate says about its operator

The text behind the left side of a condition names its operator: two operators give the same text
for the same operand only where the decision table has one comparison for both.

* `Operator.text_append_inj`    a keyword can be read off a text that goes on with a blank;
* `Comparison.operator_of_text`   the text of a comparison tells its operator;
* `Operator.told`, `Comparison.operator_of_ofOperator`   the operator in the decision table;
* `Condition.Predicate`         a left side with a comparison, or with a sub-select;
* `Condition.predicate_of_text`   the text of a condition is one;
* `Predicate.told`              predicates with the same text;
* `Condition.operator_told`     an explicit operator is told;
* `Condition.text_of_own_placeholders`   where it is lost.

An expression with placeholders of its own stands as it is, whatever its operator.
-/

namespace BoundSql

/-! ## keywords -/

namespace Operator

def all : List Operator :=
  [.isNull, .isNotNull, .inList, .notInList, .between, .notBetween, .like, .notLike, .greatest,
    .least, .equal, .notEqual, .existsRow, .notExistsRow, .less, .greater, .lessOrEqual,
    .greaterOrEqual, .regexp, .notRegexp, .xor, .nullSafeEqual, .coalesce]

theorem mem_all (op : Operator) : op ∈ all := by cases op <;> decide

variable {a b : Operator}

theorem eq_of_prefix (h : a.text ++ [' '] <+: b.text ++ [' ']) : a = b := by
  have hall : ∀ a ∈ all, ∀ b ∈ all, a.text ++ [' '] <+: b.text ++ [' '] → a = b := by
    decide +kernel
  exact hall a (mem_all a) b (mem_all b) h

/-- a keyword goes on with a blank or not at all -/
theorem eq_of_text_append {u : Text} (hu : ∀ c ∈ u.head?, c = ' ') (h : b.text = a.text ++ u) :
    a = b := by
  refine eq_of_prefix ?_
  rw [h]
  cases u with
  | nil => exact ⟨[], by simp⟩
  | cons c u =>
    cases hu c rfl
    exact ⟨u ++ [' '], by simp⟩

theorem text_append_inj {r s : Text} (hr : ∀ c ∈ r.head?, c = ' ') (hs : ∀ c ∈ s.head?, c = ' ')
    (h : a.text ++ r = b.text ++ s) : a = b ∧ r = s := by
  have hab : a = b := by
    rcases List.append_eq_append_iff.mp h with ⟨u, hb, rfl⟩ | ⟨u, ha, rfl⟩
    · exact eq_of_text_append (fun c hc => hr c (List.mem_head?_append_of_mem_head? hc)) hb
    · exact (eq_of_text_append (fun c hc => hs c (List.mem_head?_append_of_mem_head? hc)) ha).symm
  subst hab
  exact ⟨rfl, List.append_cancel_left h⟩

end Operator

/-! ## comparisons -/

namespace Comparison

/-- the operator that was compared with -/
def operator : Comparison → Operator
  | .bare op | .tuple op _ | .range op | .null op | .single op => op
  | .coalesced => .coalesce

def written : Comparison → Operator
  | .coalesced => .equal
  | c => c.operator

def operand : Comparison → Text
  | .bare _ => []
  | .tuple _ n => ' ' :: parenthesized (if n = 0 then "NULL".toList else marks n)
  | .range _ => " ? AND ?".toList
  | .coalesced => " COALESCE(?)".toList
  | .null _ => " NULL".toList
  | .single _ => " ?".toList

theorem text_eq (c : Comparison) : c.text = ' ' :: (c.written.text ++ c.operand) := by
  cases c with
  | bare op => exact congrArg (' ' :: ·) (List.append_nil op.text).symm
  | coalesced => decide +kernel
  | tuple | range | null | single => rfl

theorem head_operand (c : Comparison) : ∀ x ∈ c.operand.head?, x = ' ' := by
  have hrange : " ? AND ?".toList.head? = some ' ' := by decide +kernel
  have hcoalesced : " COALESCE(?)".toList.head? = some ' ' := by decide +kernel
  have hnull : " NULL".toList.head? = some ' ' := by decide +kernel
  have hsingle : " ?".toList.head? = some ' ' := by decide +kernel
  intro x hx
  cases c with
  | bare => cases hx
  | tuple => exact (Option.some.inj hx).symm
  | range => exact (Option.some.inj (hrange.symm.trans hx)).symm
  | coalesced => exact (Option.some.inj (hcoalesced.symm.trans hx)).symm
  | null => exact (Option.some.inj (hnull.symm.trans hx)).symm
  | single => exact (Option.some.inj (hsingle.symm.trans hx)).symm

theorem eq_coalesced {c : Comparison} (h : c.operand = coalesced.operand) : c = .coalesced := by
  have hfirst : coalesced.operand = ' ' :: 'C' :: "OALESCE(?)".toList := by decide +kernel
  have hrange : " ? AND ?".toList ≠ coalesced.operand := by decide +kernel
  have hnull : " NULL".toList ≠ coalesced.operand := by decide +kernel
  have hsingle : " ?".toList ≠ coalesced.operand := by decide +kernel
  cases c with
  | coalesced => rfl
  | bare =>
    rw [hfirst] at h
    cases h
  | tuple =>
    rw [hfirst] at h
    cases (List.cons.inj (List.cons.inj h).2).1
  | range => exact absurd h hrange
  | null => exact absurd h hnull
  | single => exact absurd h hsingle

theorem written_of_ne {c : Comparison} (h : c ≠ .coalesced) : c.written = c.operator := by
  cases c with
  | coalesced => exact absurd rfl h
  | _ => rfl

theorem operator_of_text {c d : Comparison} (h : c.text = d.text) : c.operator = d.operator := by
  rw [text_eq, text_eq] at h
  obtain ⟨hwritten, hoperand⟩ :=
    Operator.text_append_inj c.head_operand d.head_operand (List.cons.inj h).2
  by_cases hc : c = .coalesced
  · subst hc
    rw [eq_coalesced hoperand.symm]
  · have hd : d ≠ .coalesced := fun hd => hc (eq_coalesced (hd ▸ hoperand))
    rw [← written_of_ne hc, ← written_of_ne hd, hwritten]

end Comparison

/-! ## the decision table -/

/-- the operator that is told for an operand of `n` values: without one `=` and `!=` compare with NULL -/
def Operator.told (n : Nat) : Operator → Operator
  | .equal => if n = 0 then .isNull else .equal
  | .notEqual => if n = 0 then .isNotNull else .notEqual
  | op => op

namespace Comparison

variable {op : Operator} {n : Nat}

theorem ofOperator_told (op : Operator) (n : Nat) : ofOperator (op.told n) n = ofOperator op n := by
  unfold Operator.told
  cases op with
  | equal | notEqual =>
    by_cases hn : n = 0
    · simp [hn, ofOperator]
    · simp [hn]
  | _ => rfl

theorem operator_of_ofOperator {c : Comparison} (h : ofOperator op n = .ok c) :
    c.operator = op.told n := by
  cases op with
  | isNull | isNotNull | inList | notInList | greatest | least =>
    cases h
    rfl
  | existsRow | notExistsRow => cases h
  | between | notBetween | coalesce =>
    simp only [ofOperator] at h
    split at h
    · cases h
      rfl
    · cases h
  | _ =>
    match n with
    | 0 | 1 =>
      cases h
      rfl
    | n + 2 => cases h

end Comparison

/-! ## sub-selects -/

namespace Operator

variable {a b : Operator} {k : Text}

theorem beforeSelect_ok (h : beforeSelect (some a) = .ok k) :
    k = if a.isExistence then a.text ++ [' '] else ' ' :: (a.text ++ [' ']) := by
  cases a with
  | inList | notInList | existsRow | notExistsRow =>
    cases h
    rfl
  | isNull | isNotNull | between | notBetween | greatest | least | coalesce => cases h
  | _ =>
    cases h
    rfl

/-- only EXISTS ends in EXISTS, whatever stands in front of it -/
theorem existence_of_append {left : Text} (hb : b.isExistence)
    (h : left ++ ' ' :: a.text = b.text) : a.isExistence := by
  have hall : ∀ b ∈ all, b.isExistence → ∀ a ∈ all, ' ' :: a.text <:+ b.text → a.isExistence := by
    decide +kernel
  exact hall b (mem_all b) hb a (mem_all a) ⟨left, h⟩

end Operator

/-! ## conditions -/

namespace ConditionOf

variable {σ : Type} (c : ConditionOf σ)

def leftSide : Except Error Text :=
  if c.kind = .expression then .ok c.left.toList else c.leftText

/-- the number of values compared with; an expression is compared with its only argument -/
def valueCount : Nat :=
  if c.kind = .expression then (c.exprArgs.head?.map Argument.length).getD 0 else c.operandLength

def defaultOperator : Operator :=
  if c.subselect.isSome then .inList else .default c.valueCount

variable {c} in
theorem defaultOperator_compared (hsub : c.subselect = none) :
    c.defaultOperator = .default c.valueCount := by
  rw [defaultOperator, hsub]
  rfl

variable {c} in
theorem defaultOperator_selected {select : σ} (hsub : c.subselect = some select) :
    c.defaultOperator = .inList := by
  rw [defaultOperator, hsub]
  rfl

/-- an expression alone, without an operator or an argument -/
def Silent : Prop := c.operator = none ∧ c.kind = .expression ∧ c.exprArgs = []

end ConditionOf

namespace Condition

inductive Predicate (c : Condition) (op : Operator) : Text → Prop
  | compared {left : Text} {comparison : Comparison} (hsub : c.subselect = none)
      (hleft : c.leftSide = .ok left)
      (hcomparison : Comparison.ofOperator op c.valueCount = .ok comparison) :
      Predicate c op (left ++ comparison.text)
  | selected {select : Select} {inner left keyword : Text} (hsub : c.subselect = some select)
      (hinner : select.text = .ok inner)
      (hleft : if op.isExistence then left = [] else c.leftText = .ok left)
      (hkeyword : Operator.beforeSelect (some op) = .ok keyword) :
      Predicate c op (left ++ keyword ++ Comparison.parenthesized inner)

section
variable {c : Condition} {t : Text}

theorem predicate_of_expression (hkind : c.kind = .expression) (hsub : c.subselect = none)
    (hown : Placeholder.count c.left.toList = 0) (h : c.expressionText = .ok t) :
    c.Silent ∧ t = c.left.toList ∨
      ¬ c.Silent ∧ Predicate c (c.operator.getD c.defaultOperator) t := by
  have hleft : c.leftSide = .ok c.left.toList := if_pos hkind
  have hcount : c.valueCount = (c.exprArgs.head?.map Argument.length).getD 0 := if_pos hkind
  unfold ConditionOf.expressionText at h
  simp only [hown, if_true] at h
  split at h
  · rename_i hargs
    cases hop : c.operator with
    | none =>
      rw [hop] at h
      cases h
      exact .inl ⟨⟨hop, hkind, hargs⟩, rfl⟩
    | some op =>
      rw [hop] at h
      obtain ⟨comparison, hcomparison, h⟩ := bind_ok h
      cases h
      refine .inr ⟨fun hsilent => Option.some_ne_none op (hop.symm.trans hsilent.1),
        .compared hsub hleft ?_⟩
      rw [hcount, hargs]
      exact hcomparison
  · rename_i a hargs
    obtain ⟨comparison, hcomparison, h⟩ := bind_ok h
    cases h
    refine .inr ⟨fun hsilent => List.cons_ne_nil a [] (hargs.symm.trans hsilent.2.2),
      .compared hsub hleft ?_⟩
    have hone : c.valueCount = a.length := by
      rw [hcount, hargs]
      rfl
    rw [ConditionOf.defaultOperator_compared hsub, hone]
    exact hcomparison
  · cases h

theorem predicate_of_column (hkind : c.kind = .column) (hsub : c.subselect = none)
    (h : c.columnText = .ok t) : Predicate c (c.operator.getD c.defaultOperator) t := by
  have hexpression : c.kind ≠ .expression := by
    rw [hkind]
    decide
  have hcount : c.valueCount = c.operandLength := if_neg hexpression
  obtain ⟨left, hleft, h⟩ := bind_ok h
  obtain ⟨comparison, hcomparison, h⟩ := bind_ok h
  cases h
  refine .compared hsub ((if_neg hexpression).trans hleft) ?_
  rw [ConditionOf.defaultOperator_compared hsub, hcount]
  exact hcomparison

theorem predicate_of_subselect {select : Select} (hsub : c.subselect = some select)
    (h : c.subselectText select.text = .ok t) :
    Predicate c (c.operator.getD c.defaultOperator) t := by
  have hexistence : (c.operator.map Operator.isExistence).getD false =
      (c.operator.getD .inList).isExistence := by
    cases c.operator <;> rfl
  rw [ConditionOf.subselectText_eq] at h
  obtain ⟨left, hleft, h⟩ := bind_ok h
  obtain ⟨keyword, hkeyword, h⟩ := bind_ok h
  obtain ⟨inner, hinner, h⟩ := bind_ok h
  cases h
  rw [ConditionOf.defaultOperator_selected hsub]
  refine .selected hsub (within_eq_ok hinner) ?_ hkeyword
  unfold ConditionOf.subselectLeft at hleft
  rw [hexistence] at hleft
  split at hleft
  · cases hleft
    rw [if_pos ‹_›]
  · rwa [if_neg ‹_›]

theorem no_subselect (hkind : c.kind = .expression) (h : c.text = .ok t) : c.subselect = none := by
  obtain ⟨_, hsources, -⟩ := bind_ok h
  rw [ConditionOf.checkSources_map] at hsources
  by_contra hsub
  have hsome : c.deferred = true ∨ c.subselect.isSome := .inr (Option.isSome_iff_ne_none.mpr hsub)
  unfold ConditionOf.checkSources at hsources
  split at hsources
  · cases hsources
  · split at hsources
    · cases hsources
    · rw [if_pos ⟨hkind, hsome⟩] at hsources
      cases hsources

/-- every condition is a predicate, but an expression without operator and arguments -/
theorem predicate_of_text
    (hown : c.kind = .expression → Placeholder.count c.left.toList = 0) (h : c.text = .ok t) :
    c.Silent ∧ t = c.left.toList ∨
      ¬ c.Silent ∧ Predicate c (c.operator.getD c.defaultOperator) t := by
  have htext := h
  obtain ⟨_, -, h⟩ := bind_ok h
  cases hkind : c.kind with
  | expression =>
    have hsub : c.subselect = none := no_subselect hkind htext
    simp only [ConditionOf.map, hkind] at h
    exact predicate_of_expression hkind hsub (hown hkind) h
  | column =>
    refine .inr ⟨fun hsilent => ?_, ?_⟩
    · cases hkind.symm.trans hsilent.2.1
    cases hsub : c.subselect with
    | none =>
      simp only [ConditionOf.map, hkind, hsub] at h
      exact predicate_of_column hkind hsub h
    | some select =>
      simp only [ConditionOf.map, hkind, hsub] at h
      exact predicate_of_subselect hsub h
  | groupOpen | groupClose | shared _ =>
    simp only [ConditionOf.map, hkind] at h
    cases h

end

/-- sub-selects behind the same text have the same operator in front of them -/
theorem operator_of_keyword {c : Condition} {a b : Operator} {l m j k : Text}
    (hl : if a.isExistence then l = [] else c.leftText = .ok l)
    (hm : if b.isExistence then m = [] else c.leftText = .ok m)
    (hj : Operator.beforeSelect (some a) = .ok j) (hk : Operator.beforeSelect (some b) = .ok k)
    (h : l ++ j = m ++ k) : a = b := by
  rw [Operator.beforeSelect_ok hj, Operator.beforeSelect_ok hk] at h
  by_cases ha : a.isExistence <;> by_cases hb : b.isExistence
  · rw [if_pos ha] at hl
    rw [if_pos hb] at hm
    rw [hl, hm, if_pos ha, if_pos hb] at h
    exact Operator.eq_of_prefix (h ▸ List.prefix_rfl)
  · rw [if_pos ha] at hl
    rw [hl, if_pos ha, if_neg hb, List.nil_append, ← List.cons_append, ← List.append_assoc] at h
    exact absurd (Operator.existence_of_append ha (List.append_cancel_right h).symm) hb
  · rw [if_pos hb] at hm
    rw [hm, if_neg ha, if_pos hb, List.nil_append, ← List.cons_append, ← List.append_assoc] at h
    exact absurd (Operator.existence_of_append hb (List.append_cancel_right h)) ha
  · rw [if_neg ha] at hl
    rw [if_neg hb, hl] at hm
    cases hm
    rw [if_neg ha, if_neg hb] at h
    have htexts := (List.cons.inj (List.append_cancel_left h)).2
    exact Operator.eq_of_prefix (htexts ▸ List.prefix_rfl)

/-- predicates with the same text have the same operator, as far as it is told -/
theorem Predicate.told {c : Condition} {a b : Operator} {t : Text} (ha : Predicate c a t)
    (hb : Predicate c b t) :
    if c.subselect.isSome then a = b else a.told c.valueCount = b.told c.valueCount := by
  cases ha with
  | @compared l x hsub hl hx =>
    rw [hsub]
    generalize ht : l ++ x.text = t at hb
    cases hb with
    | @compared m y _ hm hy =>
      rw [hl] at hm
      cases hm
      show a.told c.valueCount = b.told c.valueCount
      rw [← Comparison.operator_of_ofOperator hx, ← Comparison.operator_of_ofOperator hy]
      exact Comparison.operator_of_text (List.append_cancel_left ht)
    | selected hother =>
      rw [hsub] at hother
      cases hother
  | @selected select inner l j hsub hinner hl hj =>
    rw [hsub]
    generalize ht : l ++ j ++ Comparison.parenthesized inner = t at hb
    cases hb with
    | compared hother =>
      rw [hsub] at hother
      cases hother
    | @selected other inner' m k hother hinner' hm hk =>
      rw [hsub] at hother
      cases hother
      rw [hinner] at hinner'
      cases hinner'
      exact operator_of_keyword hl hm hj hk (List.append_cancel_right ht)

theorem Predicate.of_setting {c : Condition} {o : Option Operator} {op : Operator} {t : Text}
    (h : Predicate { c with operator := o } op t) : Predicate c op t := by
  cases h with
  | compared hsub hleft hcomparison => exact .compared hsub hleft hcomparison
  | selected hsub hinner hleft hkeyword => exact .selected hsub hinner hleft hkeyword

/-- a predicate says more than its left side -/
theorem Predicate.ne_left {c : Condition} {op : Operator} {t : Text} (h : Predicate c op t)
    (hsub : c.subselect = none) (hkind : c.kind = .expression) : t ≠ c.left.toList := by
  cases h with
  | @compared left comparison _ hleft _ =>
    have hexpression : c.leftSide = .ok c.left.toList := if_pos hkind
    rw [hexpression] at hleft
    cases hleft
    rw [Comparison.text_eq]
    simp
  | selected hother =>
    rw [hsub] at hother
    cases hother

/-- an explicit operator is told: with another one, or without one, the text is the same only where
the decision table has the same comparison -/
theorem operator_told {c : Condition} {op : Operator} {t : Text} (hop : c.operator = some op)
    (hown : c.kind = .expression → Placeholder.count c.left.toList = 0) (h : c.text = .ok t) :
    Predicate c op t ∧ ∀ o, Condition.text { c with operator := o } = .ok t →
      ¬ ConditionOf.Silent { c with operator := o } ∧
      if c.subselect.isSome then o.getD .inList = op
      else Comparison.ofOperand o c.valueCount = Comparison.ofOperator op c.valueCount ∧
        (o.getD (.default c.valueCount)).told c.valueCount = op.told c.valueCount := by
  have hpredicate : Predicate c op t := by
    rcases predicate_of_text hown h with ⟨hsilent, -⟩ | ⟨-, hpredicate⟩
    · exact absurd (hop.symm.trans hsilent.1) (Option.some_ne_none op)
    · rwa [hop] at hpredicate
  refine ⟨hpredicate, fun o ho => ?_⟩
  rcases predicate_of_text (c := { c with operator := o }) hown ho with
    ⟨⟨-, hkind, -⟩, ht⟩ | ⟨hspoken, hother⟩
  · exact absurd ht (hpredicate.ne_left (no_subselect hkind h) hkind)
  · refine ⟨hspoken, ?_⟩
    have htold := hother.of_setting.told hpredicate
    simp only [ConditionOf.defaultOperator] at htold
    cases hsub : c.subselect with
    | some select =>
      simp only [hsub, Option.isSome_some, if_true] at htold
      exact htold
    | none =>
      simp only [hsub, Option.isSome_none, Bool.false_eq_true, if_false] at htold
      refine ⟨?_, htold⟩
      show Comparison.ofOperator _ _ = _
      rw [← Comparison.ofOperator_told, ← Comparison.ofOperator_told op]
      exact congrArg (Comparison.ofOperator · c.valueCount) htold

/-- an expression without a value, compared with NULL by `=` -/
def unvalued : Condition := (ConditionOf.expression "a + b").op .equal

/-- `=` and `IS NULL` have one comparison, all other operators are told apart from them -/
theorem operator_told_unvalued :
    unvalued.operator = some .equal ∧
      (unvalued.kind = .expression → Placeholder.count unvalued.left.toList = 0) ∧
      unvalued.text = .ok "a + b IS NULL".toList ∧
      Predicate unvalued .equal "a + b IS NULL".toList ∧
      ∀ o, Condition.text { unvalued with operator := o } = .ok "a + b IS NULL".toList →
        ¬ ConditionOf.Silent { unvalued with operator := o } ∧
        Comparison.ofOperand o 0 = Comparison.ofOperator .equal 0 ∧
        (o.getD (.default 0)).told 0 = .isNull := by
  have htext : unvalued.text = .ok "a + b IS NULL".toList := ok_of_toOption (by decide +kernel)
  have hown : unvalued.kind = .expression → Placeholder.count unvalued.left.toList = 0 :=
    fun _ => by decide +kernel
  obtain ⟨hpredicate, htold⟩ := operator_told rfl hown htext
  exact ⟨rfl, hown, htext, hpredicate, htold⟩

/-! ## expressions with placeholders of their own -/

theorem text_own {c : Condition} (hkind : c.kind = .expression)
    (hown : Placeholder.count c.left.toList ≠ 0) :
    c.text = c.checkSources >>= fun _ => templateText c.left.toList c.exprArgs := by
  have hexpression : (c.map Select.text).expressionText = templateText c.left.toList c.exprArgs :=
    if_neg hown
  unfold text ConditionOf.body
  rw [ConditionOf.checkSources_map, show (c.map Select.text).kind = .expression from hkind]
  simp only [hexpression]

theorem text_of_own_placeholders {c : Condition} (hkind : c.kind = .expression)
    (hown : Placeholder.count c.left.toList ≠ 0) (o : Option Operator) :
    Condition.text { c with operator := o } = c.text := by
  rw [text_own hkind hown]
  exact text_own (c := { c with operator := o }) hkind hown

def summed : Condition := ((ConditionOf.expression "a + ?").op .isNull).arg (.int 1)

theorem operator_lost :
    summed.operator = some .isNull ∧ summed.text = .ok "a + ?".toList ∧
      Condition.text { summed with operator := none } = .ok "a + ?".toList ∧
      ¬ Predicate summed .isNull "a + ?".toList := by
  have htext : summed.text = .ok "a + ?".toList := ok_of_toOption (by decide +kernel)
  refine ⟨rfl, htext, ?_, fun h => h.ne_left rfl rfl rfl⟩
  rw [text_of_own_placeholders rfl (by decide +kernel), htext]

end Condition

end BoundSql
