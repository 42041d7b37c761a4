import BoundSql.Condition
import BoundSql.Proofs.Walk.Matching

/-!
# Walks of conditions

* `Comparison.closed_text`, `Comparison.count_text`   what a comparison writes;
* `templateWalk`            a caller's text with its arguments;
* `ConditionOf.walk`        a condition over the walks of its sub-selects;
* `ConditionOf.projectionWalk`   a condition as a selected column;
* `ConditionOf.Closed`      the caller's text in a condition leaves the pass outside quotes;
* `ConditionOf.agrees`, `ConditionOf.agrees_projection`   text, steps and walk of a condition.
-/

namespace BoundSql

open Placeholder

/-! ## comparisons -/

theorem Argument.slots_of_length_pos {a : Argument} (h : 0 < a.length) : a.slots = a.length := by
  cases a <;> first | rfl | cases h

theorem binds_members (a : Argument) : Binds [.push a] a.members := by
  have h := binds_push [a]
  rwa [List.flatMap_singleton] at h

theorem matches_mark {a : Argument} (h : IsScalar a) : Walk.Matches [.mark a] ['?'] [.push a] := by
  refine ⟨rfl, Walk.whole_mark a, ?_⟩
  have hbinds := binds_members a
  rwa [Argument.members_of_isScalar h] at hbinds

namespace Comparison

theorem inert_operator (op : Operator) : Inert op.text := by cases op <;> decide

theorem closed_marks (n : Nat) : Placeholder.Closed (marks n) := by
  match n with
  | 0 => rfl
  | 1 => rfl
  | n + 2 =>
    rw [marks_succ]
    exact closed_marks (n + 1)

theorem count_marks (n : Nat) : count (marks n) = n := by
  match n with
  | 0 => rfl
  | 1 => rfl
  | n + 2 =>
    rw [marks_succ]
    show 1 + (0 + count (marks (n + 1))) = n + 2
    rw [count_marks (n + 1)]
    omega

theorem closed_parenthesized {t : Text} (h : Placeholder.Closed t) :
    Placeholder.Closed (parenthesized t) :=
  .append (.append (show Placeholder.Closed ['('] by rfl) h) (by rfl)

theorem count_parenthesized {t : Text} (h : Placeholder.Closed t) :
    count (parenthesized t) = count t := by
  show count (['('] ++ t ++ [')']) = count t
  rw [count_append (.append (by rfl) h), count_append (by rfl)]
  exact Nat.zero_add _

theorem inert_spaced (op : Operator) : Inert (' ' :: op.text) :=
  inert_cons (by decide) (inert_operator op)

theorem closed_text (c : Comparison) : Placeholder.Closed c.text := by
  cases c with
  | bare op => exact (inert_spaced op).1
  | tuple op n =>
    show Placeholder.Closed ((' ' :: op.text) ++ ([' '] ++ parenthesized _))
    refine .append (inert_spaced op).1 (.append (by rfl) (closed_parenthesized ?_))
    split
    · decide
    · exact closed_marks n
  | range op => exact (inert_spaced op).1.append (by decide)
  | coalesced => decide
  | null op => exact (inert_spaced op).1.append (by decide)
  | single op => exact (inert_spaced op).1.append (by decide)

theorem count_text (c : Comparison) : count c.text = c.slots := by
  cases c with
  | bare op => exact (inert_spaced op).2
  | tuple op n =>
    show count ((' ' :: op.text) ++ ([' '] ++ parenthesized _)) = n
    rw [count_append (inert_spaced op).1, (inert_spaced op).2, count_append (by rfl)]
    split
    · rename_i hn
      rw [hn]
      decide
    · rw [count_parenthesized (closed_marks n), count_marks]
      exact (Nat.zero_add _).trans (Nat.zero_add _)
  | range op =>
    show count ((' ' :: op.text) ++ _) = 2
    rw [count_append (inert_spaced op).1, (inert_spaced op).2]
    decide
  | coalesced => decide
  | null op =>
    show count ((' ' :: op.text) ++ _) = 0
    rw [count_append (inert_spaced op).1, (inert_spaced op).2]
    decide
  | single op =>
    show count ((' ' :: op.text) ++ _) = 1
    rw [count_append (inert_spaced op).1, (inert_spaced op).2]
    decide

/-- an operand is bound as a whole or not at all -/
theorem slots_of_ofOperator {op : Operator} {n : Nat} {c : Comparison}
    (h : ofOperator op n = .ok c) : c.slots = 0 ∨ c.slots = n := by
  cases op
  case isNull | isNotNull => cases h; exact .inl rfl
  case inList | notInList | greatest | least => cases h; exact .inr rfl
  case existsRow | notExistsRow => cases h
  case between | notBetween =>
    match n, h with
    | 0, h | 1, h | n + 3, h => cases h
    | 2, h => cases h; exact .inr rfl
  case coalesce =>
    match n, h with
    | 0, h | n + 2, h => cases h
    | 1, h => cases h; exact .inr rfl
  all_goals
    match n, h with
    | 0, h => cases h; exact .inl rfl
    | 1, h => cases h; exact .inr rfl
    | n + 2, h => cases h

theorem matches_bind {c : Comparison} {values : Arguments} {ss : List Step}
    (hslots : c.slots = values.length) (h : Binds ss values) :
    (Walk.bind c.text values).Matches c.text ss :=
  .bind (closed_text c) ((count_text c).trans hslots) h

/-- the comparison with its operand: it binds all `n` values or offers them no placeholder -/
theorem matches_operand {op : Option Operator} {n : Nat} {c : Comparison} {step : Step}
    {values : Arguments} (h : ofOperand op n = .ok c)
    (hvalues : 0 < n → values.length = n ∧ Binds [step] values) :
    (Walk.bind c.text values).Matches c.text (ConditionOf.operandSteps op n step) := by
  unfold ConditionOf.operandSteps
  rw [h]
  show (Walk.bind c.text values).Matches c.text (if 0 < c.slots then [step] else [])
  split
  · rename_i hpos
    have hn : c.slots = n := by
      rcases slots_of_ofOperator h with h0 | hn
      · omega
      · exact hn
    obtain ⟨hlen, hb⟩ := hvalues (by omega)
    exact matches_bind (by omega) hb
  · rename_i hzero
    have hcount : count c.text = 0 := by
      rw [count_text]
      omega
    rw [Walk.bind_of_count_zero hcount]
    exact matches_bind (by rw [List.length_nil]; omega) binds_nil

theorem matches_argument {op : Option Operator} {a : Argument} {c : Comparison}
    (h : ofOperand op a.length = .ok c) :
    (Walk.bind c.text a.members).Matches c.text
      (ConditionOf.operandSteps op a.length (.push a)) :=
  matches_operand h fun hpos =>
    ⟨by rw [Argument.length_members, Argument.slots_of_length_pos hpos], binds_members a⟩

end Comparison

/-! ## the caller's texts -/

/-- the text with the values of all arguments in order, or with each argument at its own
placeholder -/
def templateWalk (sql : Text) (args : Arguments) : Except Error Walk :=
  let marks := count sql
  if marks = args.slotCount then .ok (.bind sql (args.flatMap Argument.members))
  else if marks = args.length then
    .ok (.weave (split sql) (args.map fun a => .bind (argumentMarks a) a.members))
  else .error (.mismatch (.templateArguments (String.ofList sql) marks args.slotCount))

theorem closed_argumentMarks (a : Argument) : Closed (argumentMarks a) := by
  unfold argumentMarks
  split
  · split
    · decide
    · exact Comparison.closed_marks _
  · decide

theorem count_argumentMarks (a : Argument) : count (argumentMarks a) = a.slots := by
  unfold argumentMarks Argument.slots
  split
  · split
    · rename_i hzero
      rw [hzero]
      decide
    · exact Comparison.count_marks _
  · decide

theorem matches_argumentMarks (a : Argument) :
    (Walk.bind (argumentMarks a) a.members).Matches (argumentMarks a) [.push a] :=
  .bind (closed_argumentMarks a) ((count_argumentMarks a).trans a.length_members.symm)
    (binds_members a)

theorem agrees_template {sql : Text} (hsql : Placeholder.Closed sql) (args : Arguments) :
    Agrees (templateText sql args) (args.map .push) (templateWalk sql args) := by
  intro t h
  unfold templateText repeatMarks at h
  unfold templateWalk
  simp only at h ⊢
  split at h
  · rename_i hslots
    cases h
    rw [if_pos hslots]
    exact ⟨_, rfl, .bind hsql (by rw [hslots, Arguments.length_members]) (binds_push args)⟩
  · rename_i hslots
    split at h
    · rename_i hlen
      cases h
      rw [if_neg hslots, if_pos hlen]
      refine ⟨_, rfl, ?_, ?_, ?_⟩
      · rw [Walk.text_weave, List.map_map]
        congr 1
        exact List.map_congr_left fun a _ => (matches_argumentMarks a).text_eq
      · refine Walk.whole_weave hsql (by rw [List.length_map, hlen]) ?_
        intro f hf
        obtain ⟨a, _, rfl⟩ := List.mem_map.mp hf
        exact (matches_argumentMarks a).whole
      · rw [Walk.bound_weave _ _ (by rw [List.length_map, length_split, hlen]), List.flatMap_map]
        refine ⟨args, by rw [List.map_map]; rfl, ?_⟩
        congr 1
        funext a
        obtain ⟨as, has, hmembers⟩ := (matches_argumentMarks a).binds
        cases as with
        | nil => cases has
        | cons b as =>
          cases as with
          | cons _ _ => cases has
          | nil =>
            cases has
            rw [← hmembers, List.flatMap_singleton]
    · cases h

/-! ## conditions -/

theorem inert_beforeSelect {op : Option Operator} {t : Text}
    (h : Operator.beforeSelect op = .ok t) : Inert t := by
  unfold Operator.beforeSelect at h
  simp only at h
  split at h
  · cases h
    exact (Comparison.inert_spaced _).append (by decide)
  · split at h
    · cases h
      exact (Comparison.inert_operator _).append (by decide)
    · cases h

namespace ConditionOf

variable {σ : Type}

/-- an expression, compared with its argument if it has no placeholder of its own -/
def expressionWalk (c : ConditionOf σ) : Except Error Walk :=
  let sql := c.left.toList
  if count sql = 0 then
    match c.exprArgs with
    | [] =>
      match c.operator with
      | some op => do return .literal sql ++ .literal (← Comparison.ofOperator op 0).text
      | none => .ok (.literal sql)
    | [a] => do
      return .literal sql ++ .bind (← Comparison.ofOperand c.operator a.length).text a.members
    | as => .error (.mismatch (.expressionArguments c.left as.length))
  else templateWalk sql c.exprArgs

/-- the left side in front of a sub-select; EXISTS has none -/
def subselectLeft (c : ConditionOf σ) : Except Error Text :=
  if (c.operator.map Operator.isExistence).getD false then .ok [] else c.leftText

def subselectWalk (c : ConditionOf σ) (select : Except Error Walk) : Except Error Walk := do
  let left ← c.subselectLeft
  let op ← Operator.beforeSelect c.operator
  let select ← within "sub-select" select
  return .literal (left ++ op) ++ .parenthesized select

/-- what stands at the placeholders of a column's comparison; a record supplies a deferred value -/
def operandValues (c : ConditionOf σ) : Arguments :=
  if c.deferred then [.pending]
  else
    match c.operand with
    | some a => a.members
    | none => []

def columnWalk (c : ConditionOf σ) : Except Error Walk := do
  let left ← c.leftText
  let comparison ← Comparison.ofOperand c.operator c.operandLength
  return .literal left ++ .bind comparison.text c.operandValues

/-- the walk of a condition over the walks of its sub-selects -/
def walk (c : ConditionOf (Except Error Walk)) : Except Error Walk := do
  c.checkSources
  match c.kind with
  | .expression => c.expressionWalk
  | .column =>
    match c.subselect with
    | some select => c.subselectWalk select
    | none => c.columnWalk
  | _ => throw (.unsupported .markerAlone)

def selectedWalk (c : ConditionOf (Except Error Walk)) (lenient : Bool) : Except Error Walk :=
  if c.kind = .expression then c.walk else do return .literal (← nameText c.left lenient)

def projectionWalk (c : ConditionOf (Except Error Walk)) (lenient : Bool) : Except Error Walk := do
  let walk ← c.selectedWalk lenient
  return walk ++ .literal (← aliasText c.name)

/-- the caller's text leaves the pass outside quotes -/
def Closed (c : ConditionOf σ) : Prop := c.kind = .expression → Placeholder.Closed c.left.toList

/-! ## texts, steps and walks -/

theorem checkSources_map {τ : Type} (f : σ → τ) (c : ConditionOf σ) :
    (c.map f).checkSources = c.checkSources := by
  obtain ⟨_, _, _, _, _, subselect, _, _, _, _⟩ := c
  cases subselect <;> rfl

/-- the steps of an expression do not depend on sub-selects -/
def expressionSteps (c : ConditionOf σ) : List Step :=
  if count c.left.toList = 0 then
    match c.exprArgs with
    | [a] => operandSteps c.operator a.length (.push a)
    | _ => []
  else c.exprArgs.map .push

theorem agrees_expression {c : ConditionOf σ} (hc : Placeholder.Closed c.left.toList) :
    Agrees c.expressionText c.expressionSteps c.expressionWalk := by
  intro t h
  unfold expressionText at h
  unfold expressionSteps expressionWalk
  simp only at h ⊢
  by_cases hzero : count c.left.toList = 0
  · have hleft : Inert c.left.toList := ⟨hc, hzero⟩
    rw [if_pos hzero] at h ⊢
    rw [if_pos hzero]
    rcases ha : c.exprArgs with _ | ⟨a, _ | ⟨b, rest⟩⟩
    · cases ho : c.operator with
      | none =>
        simp only [ha, ho] at h
        cases h
        exact ⟨_, rfl, .literal hleft⟩
      | some op =>
        simp only [ha, ho] at h
        obtain ⟨cmp, hcmp, h⟩ := bind_ok h
        cases h
        simp only [hcmp]
        refine ⟨_, rfl, .prepend hleft (.literal ⟨Comparison.closed_text cmp, ?_⟩)⟩
        rw [Comparison.count_text]
        rcases Comparison.slots_of_ofOperator hcmp with h0 | h0 <;> exact h0
    · simp only [ha] at h
      obtain ⟨cmp, hcmp, h⟩ := bind_ok h
      cases h
      simp only [hcmp]
      exact ⟨_, rfl, .prepend hleft (Comparison.matches_argument hcmp)⟩
    · simp only [ha] at h
      cases h
  · rw [if_neg hzero] at h ⊢
    rw [if_neg hzero]
    exact agrees_template hc c.exprArgs t h

/-- the steps of a column that is not compared with a sub-select -/
def columnSteps (c : ConditionOf σ) : List Step :=
  if c.deferred then operandSteps c.operator 1 (.defer c.left)
  else
    match c.operand with
    | some a => operandSteps c.operator a.length (.push a)
    | none => []

theorem inert_leftText {c : ConditionOf σ} {t : Text} (h : c.leftText = .ok t) : Inert t := by
  unfold leftText at h
  split at h
  · cases h
  · exact inert_strictName h

theorem agrees_column (c : ConditionOf σ) : Agrees c.columnText c.columnSteps c.columnWalk := by
  intro t h
  obtain ⟨left, hleft, h⟩ := bind_ok h
  obtain ⟨cmp, hcmp, h⟩ := bind_ok h
  cases h
  refine ⟨_, by unfold columnWalk; rw [hleft, hcmp]; rfl, .prepend (inert_leftText hleft) ?_⟩
  unfold operandLength at hcmp
  unfold operandValues columnSteps
  cases hd : c.deferred with
  | true =>
    rw [hd] at hcmp
    exact Comparison.matches_operand hcmp fun _ => ⟨rfl, binds_defer c.left⟩
  | false =>
    rw [hd, if_neg Bool.false_ne_true] at hcmp
    simp only [if_neg Bool.false_ne_true]
    cases ho : c.operand with
    | none =>
      rw [ho] at hcmp
      refine Comparison.matches_bind ?_ binds_nil
      rcases Comparison.slots_of_ofOperator hcmp with h0 | h0 <;> exact h0
    | some a =>
      rw [ho] at hcmp
      exact Comparison.matches_argument hcmp

theorem subselectText_eq (c : ConditionOf σ) (select : Except Error Text) :
    c.subselectText select = do
      let left ← c.subselectLeft
      let op ← Operator.beforeSelect c.operator
      let select ← within "sub-select" select
      return left ++ op ++ Comparison.parenthesized select := by
  unfold subselectText subselectLeft
  split <;> rfl

theorem agrees_subselect (c : ConditionOf σ) {text : Except Error Text} {steps : List Step}
    {walk : Except Error Walk} (h : Agrees text steps walk) :
    Agrees (c.subselectText text) (steps.map (·.within "sub-select")) (c.subselectWalk walk) := by
  intro t ht
  rw [subselectText_eq] at ht
  obtain ⟨left, hleft, ht⟩ := bind_ok ht
  obtain ⟨op, hop, ht⟩ := bind_ok ht
  obtain ⟨select, hselect, ht⟩ := bind_ok ht
  cases ht
  obtain ⟨w, hw, hm⟩ := h select (within_eq_ok hselect)
  refine ⟨_, by unfold subselectWalk; rw [hleft, hop, hw]; rfl, ?_⟩
  refine .prepend (.append ?_ (inert_beforeSelect hop)) (hm.within _).parenthesized
  unfold subselectLeft at hleft
  split at hleft
  · cases hleft
    exact inert_nil
  · exact inert_leftText hleft

section
variable {text : σ → Except Error Text} {steps : σ → List Step} {walkOf : σ → Except Error Walk}

theorem agrees {c : ConditionOf σ} (hc : c.Closed)
    (hsub : ∀ s, c.subselect = some s → Agrees (text s) (steps s) (walkOf s)) :
    Agrees (c.map text).body (c.map steps).steps (c.map walkOf).walk := by
  intro t h
  obtain ⟨_, hsources, h⟩ := bind_ok h
  rw [checkSources_map] at hsources
  unfold ConditionOf.walk ConditionOf.steps
  rw [checkSources_map, hsources]
  cases hk : c.kind with
  | expression =>
    simp only [ConditionOf.map, hk] at h ⊢
    exact agrees_expression (hc hk) t h
  | column =>
    cases hs : c.subselect with
    | none =>
      simp only [ConditionOf.map, hk, hs] at h ⊢
      exact agrees_column c t h
    | some select =>
      simp only [ConditionOf.map, hk, hs] at h ⊢
      exact agrees_subselect c (hsub select hs) t h
  | groupOpen | groupClose | shared _ =>
    simp only [ConditionOf.map, hk] at h
    cases h

/-! ## selected columns -/

def selectedText (c : ConditionOf (Except Error Text)) (lenient : Bool) : Except Error Text :=
  if c.kind = .expression then c.body else nameText c.left lenient

theorem projection_eq (c : ConditionOf (Except Error Text)) (lenient : Bool) :
    c.projection lenient = do
      let text ← c.selectedText lenient
      return text ++ (← aliasText c.name) := by
  unfold projection selectedText
  split <;> rfl

/-- a selected column that is no expression binds nothing -/
theorem steps_of_isProjection {c : ConditionOf σ} (hp : c.isProjection) (hk : c.kind ≠ .expression) :
    (c.map steps).steps = [] := by
  unfold isProjection at hp
  cases hc : c.kind with
  | expression => exact absurd hc hk
  | column =>
    simp only [hc, Bool.and_eq_true, Bool.not_eq_true', Option.isNone_iff_eq_none] at hp
    obtain ⟨⟨⟨ho, hs⟩, hd⟩, _⟩ := hp
    simp [ConditionOf.steps, ConditionOf.map, hc, ho, hs, hd]
  | groupOpen | groupClose | shared _ =>
    rw [hc] at hp
    cases hp

theorem agrees_projection {c : ConditionOf σ} {lenient : Bool} (hp : c.isProjection)
    (hc : c.Closed)
    (hraw : lenient = true → c.kind ≠ .expression → IsRawName c.left → Inert c.left.toList)
    (hsub : ∀ s, c.subselect = some s → Agrees (text s) (steps s) (walkOf s)) :
    Agrees ((c.map text).projection lenient) (c.map steps).steps
      ((c.map walkOf).projectionWalk lenient) := by
  intro t h
  rw [projection_eq] at h
  obtain ⟨selected, hselected, h⟩ := bind_ok h
  obtain ⟨name, hname, h⟩ := bind_ok h
  cases h
  have hw : ∃ w, (c.map walkOf).selectedWalk lenient = .ok w ∧
      w.Matches selected (c.map steps).steps := by
    unfold selectedText at hselected
    unfold selectedWalk
    by_cases hk : c.kind = .expression
    · rw [if_pos (show (c.map text).kind = .expression from hk)] at hselected
      rw [if_pos (show (c.map walkOf).kind = .expression from hk)]
      exact agrees hc hsub selected hselected
    · rw [if_neg (show (c.map text).kind ≠ .expression from hk)] at hselected
      rw [if_neg (show (c.map walkOf).kind ≠ .expression from hk), steps_of_isProjection hp hk,
        show nameText (c.map walkOf).left lenient = .ok selected from hselected]
      exact ⟨_, rfl, .literal (inert_nameText (fun hl => hraw hl hk) hselected)⟩
  obtain ⟨w, hw, hm⟩ := hw
  refine ⟨_, ?_, hm.followed (inert_aliasText hname)⟩
  unfold projectionWalk
  rw [hw, show aliasText (c.map walkOf).name = .ok name from hname]
  rfl

end

end ConditionOf

end BoundSql
