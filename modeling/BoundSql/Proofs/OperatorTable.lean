import BoundSql.Proofs.Balance.Condition

/-!
# The decision table of operators

An operator is written piece by piece into a sink.  A sink that keeps the text and one that only
lets the placeholders be counted are served alike, so that the text of a condition and its arguments
cannot part.

* `Sink`                     where pieces of text go; `Sink.keeping`, `Sink.discarding`;
* `Sink.write`               an operator, branch by branch, and the number of values it binds;
* `Sink.write_eq`            it writes the comparison of the table, whatever the sink;
* `Operator.Takes`           the lengths of the operands that an operator takes;
* `Comparison.exists_ofOperand_iff`   it takes no others;
* `operator_agreed`          both sinks agree, and what is written stands by itself.
-/

namespace BoundSql

/-! ## writing an operator -/

/-- where the pieces of a text go; how the text is cut into pieces does not matter -/
structure Sink (σ : Type) where
  put : σ → Text → σ
  put_put : ∀ w t u, put (put w t) u = put w (t ++ u)

namespace Sink

def keeping : Sink Text where
  put w t := w ++ t
  put_put := List.append_assoc

def discarding : Sink Unit where
  put _ _ := ()
  put_put _ _ _ := rfl

variable {σ : Type} (s : Sink σ)

/-- `n` placeholders, each behind the first one after a comma -/
def putMarks (w : σ) (n : Nat) : σ :=
  (List.range n).foldl (fun w i => s.put (if 0 < i then s.put w [','] else w) ['?']) w

/-- the operator with placeholders for an operand of `n` values, and how many of them it binds -/
def write (w : σ) (op : Option Operator) (n : Nat) : Except Error (σ × Nat) :=
  let op := op.getD (.default n)
  match op with
  | .isNull | .isNotNull => .ok (s.put (s.put w [' ']) op.text, 0)
  | .inList | .notInList | .greatest | .least =>
    let w := s.put (s.put (s.put w [' ']) op.text) [' ']
    .ok (if n = 0 then s.put w "(NULL)".toList else s.put (s.putMarks (s.put w ['(']) n) [')'], n)
  | .between | .notBetween =>
    if n = 2 then .ok (s.put (s.put (s.put w [' ']) op.text) " ? AND ?".toList, 2)
    else .error (.mismatch (.operandPair op.keyword n))
  | .existsRow | .notExistsRow => .error (.unsupported (.operatorNeedsSelect op.keyword))
  | .coalesce =>
    if n = 1 then .ok (s.put w " = COALESCE(?)".toList, 1) else .error (.mismatch (.coalesceOperand n))
  | _ =>
    if n = 0 then
      if op = .equal then .ok (s.put w " IS NULL".toList, 0)
      else if op = .notEqual then .ok (s.put w " IS NOT NULL".toList, 0)
      else .ok (s.put (s.put (s.put w [' ']) op.text) " NULL".toList, 0)
    else if n = 1 then .ok (s.put (s.put (s.put w [' ']) op.text) " ?".toList, 1)
    else .error (.mismatch (.operandOne op.keyword n))

end Sink

theorem Comparison.marks_concat (n : Nat) : marks (n + 2) = marks (n + 1) ++ [',', '?'] := by
  induction n with
  | zero => rfl
  | succ n ih =>
    calc marks (n + 3) = '?' :: ',' :: marks (n + 2) := marks_succ (n + 1)
      _ = '?' :: ',' :: (marks (n + 1) ++ [',', '?']) := by rw [ih]
      _ = marks (n + 2) ++ [',', '?'] := by rw [marks_succ n]; rfl

namespace Sink

variable {σ : Type} (s : Sink σ)

/-- one by one the placeholders make up the text of the comparison -/
theorem putMarks_succ (w : σ) (n : Nat) :
    s.putMarks w (n + 1) = s.put w (Comparison.marks (n + 1)) := by
  induction n with
  | zero => rfl
  | succ n ih =>
    have hlast : s.putMarks w (n + 2) = s.put (s.put (s.putMarks w (n + 1)) [',']) ['?'] := by
      rw [putMarks, List.range_succ, List.foldl_append]
      rfl
    rw [hlast, ih, s.put_put, s.put_put, Comparison.marks_concat]
    rfl

theorem put_tuple (w : σ) (op : Operator) (n : Nat) :
    (if n = 0 then s.put (s.put (s.put (s.put w [' ']) op.text) [' ']) "(NULL)".toList
      else s.put (s.putMarks (s.put (s.put (s.put (s.put w [' ']) op.text) [' ']) ['(']) n) [')']) =
      s.put w (Comparison.tuple op n).text := by
  have hnull : "(NULL)".toList = Comparison.parenthesized "NULL".toList := by decide +kernel
  have htext : (Comparison.tuple op n).text = ' ' :: op.text ++
      ' ' :: Comparison.parenthesized (if n = 0 then "NULL".toList else Comparison.marks n) := rfl
  rw [htext]
  cases n with
  | zero =>
    rw [if_pos rfl, if_pos rfl, ← hnull, s.put_put, s.put_put, s.put_put]
    simp only [List.cons_append, List.nil_append]
  | succ n =>
    rw [if_neg (Nat.succ_ne_zero n), if_neg (Nat.succ_ne_zero n), putMarks_succ, s.put_put,
      s.put_put, s.put_put, s.put_put, s.put_put]
    simp only [Comparison.parenthesized, List.cons_append, List.nil_append]

/-- whatever the sink, the comparison of the table is written and its values are counted -/
theorem write_eq (w : σ) (op : Option Operator) (n : Nat) :
    s.write w op n =
      (Comparison.ofOperand op n).map fun c => (s.put w c.text, c.slots) := by
  unfold write Comparison.ofOperand
  generalize op.getD (.default n) = op
  cases op with
  | isNull | isNotNull =>
    simp only [Comparison.ofOperator, s.put_put]
    rfl
  | inList | notInList | greatest | least =>
    simp only [put_tuple]
    rfl
  | between | notBetween =>
    simp only [Comparison.ofOperator, s.put_put]
    split <;> rfl
  | existsRow | notExistsRow => rfl
  | coalesce =>
    simp only [Comparison.ofOperator]
    split <;> rfl
  | _ =>
    simp only [Comparison.ofOperator, s.put_put, reduceCtorEq, reduceIte]
    split
    · rfl
    · split <;> rfl

end Sink

/-! ## what an operator takes -/

/-- the operator takes an operand of `n` values -/
def Operator.Takes (n : Nat) : Operator → Prop
  | .isNull | .isNotNull | .inList | .notInList | .greatest | .least => True
  | .between | .notBetween => n = 2
  | .existsRow | .notExistsRow => False
  | .coalesce => n = 1
  | .equal | .notEqual | .less | .greater | .lessOrEqual | .greaterOrEqual
  | .like | .notLike | .regexp | .notRegexp | .xor | .nullSafeEqual => n ≤ 1

namespace Comparison

theorem exists_ofOperator_iff {op : Operator} {n : Nat} :
    (∃ c, ofOperator op n = .ok c) ↔ op.Takes n := by
  cases op with
  | isNull | isNotNull | inList | notInList | greatest | least =>
    exact ⟨fun _ => trivial, fun _ => ⟨_, rfl⟩⟩
  | between | notBetween | coalesce =>
    simp only [ofOperator, Operator.Takes]
    split
    · exact ⟨fun _ => ‹_›, fun _ => ⟨_, rfl⟩⟩
    · exact ⟨nofun, fun hn => absurd hn ‹_›⟩
  | existsRow | notExistsRow => exact ⟨nofun, False.elim⟩
  | _ =>
    match n with
    | 0 | 1 => exact ⟨fun _ => by simp [Operator.Takes], fun _ => ⟨_, rfl⟩⟩
    | n + 2 => exact ⟨nofun, fun hn => by simp [Operator.Takes] at hn⟩

theorem exists_ofOperand_iff {op : Option Operator} {n : Nat} :
    (∃ c, ofOperand op n = .ok c) ↔ op.elim True (Operator.Takes n) := by
  unfold ofOperand
  cases op with
  | some op => exact exists_ofOperator_iff
  | none =>
    rw [exists_ofOperator_iff, Option.getD_none]
    match n with
    | 0 => simp [Operator.default, Operator.Takes]
    | 1 => simp [Operator.default, Operator.Takes]
    | n + 2 => simp [Operator.default, Operator.Takes]

end Comparison

/-- An operator is written into the sink that keeps the text exactly when it is counted by the one
that does not, with the same number of values or with the same error; the text and the arguments of a
condition follow the two.  The values bound are all of the operand or none of it.  The text opens no
quote, its parentheses pair up, and it has one placeholder for each value bound. -/
theorem operator_agreed (op : Option Operator) (n : Nat) :
    ((∃ e, Comparison.ofOperand op n = .error e ∧
        (∀ w, Sink.keeping.write w op n = .error e) ∧ Sink.discarding.write () op n = .error e ∧
        ∀ step, ConditionOf.operandSteps op n step = [.fail e]) ∨
      ∃ c, Comparison.ofOperand op n = .ok c ∧
        (∀ w, Sink.keeping.write w op n = .ok (w ++ c.text, c.slots)) ∧
        Sink.discarding.write () op n = .ok ((), c.slots) ∧
        (∀ step, ConditionOf.operandSteps op n step = if 0 < c.slots then [step] else []) ∧
        (c.slots = 0 ∨ c.slots = n) ∧ Placeholder.Closed c.text ∧ Balanced c.text ∧
        Placeholder.count c.text = c.slots) ∧
    ((∃ k, Sink.discarding.write () op n = .ok ((), k)) ↔ op.elim True (Operator.Takes n)) := by
  rw [← Comparison.exists_ofOperand_iff]
  simp only [Sink.write_eq, ConditionOf.operandSteps]
  cases h : Comparison.ofOperand op n with
  | error e =>
    refine ⟨.inl ⟨e, rfl, fun _ => rfl, rfl, fun _ => rfl⟩, ?_⟩
    exact ⟨nofun, nofun⟩
  | ok c =>
    refine ⟨.inr ⟨c, rfl, fun _ => rfl, rfl, fun _ => rfl, Comparison.slots_of_ofOperator h,
      c.closed_text, c.balanced_text, c.count_text⟩, ?_⟩
    exact ⟨fun _ => ⟨c, rfl⟩, fun _ => ⟨c.slots, rfl⟩⟩

end BoundSql
