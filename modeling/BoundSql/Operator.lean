import BoundSql.Error

/-!
# Comparison operators

* `Operator`                  the operators of a condition, `Operator.keyword`;
* `Comparison`                an operator together with the operand it got;
* `Comparison.ofOperand`      the decision table: which comparison an operand of `n` values makes;
* `Comparison.slots`, `Comparison.text`   the placeholders of a comparison and what is written;
* `Operator.beforeSelect`     an operator in front of a sub-select.

The text of a condition and its arguments both go through `Comparison.ofOperand`, so they agree on
how many values are bound.
-/

namespace BoundSql

inductive Operator where
  | isNull
  | isNotNull
  | inList
  | notInList
  | between
  | notBetween
  | like
  | notLike
  | greatest
  | least
  | equal
  | notEqual
  | existsRow
  | notExistsRow
  | less
  | greater
  | lessOrEqual
  | greaterOrEqual
  | regexp
  | notRegexp
  | xor
  | nullSafeEqual
  | coalesce
  deriving DecidableEq, Repr

namespace Operator

def keyword : Operator → String
  | .isNull => "IS NULL"
  | .isNotNull => "IS NOT NULL"
  | .inList => "IN"
  | .notInList => "NOT IN"
  | .between => "BETWEEN"
  | .notBetween => "NOT BETWEEN"
  | .like => "LIKE"
  | .notLike => "NOT LIKE"
  | .greatest => "GREATEST"
  | .least => "LEAST"
  | .equal => "="
  | .notEqual => "!="
  | .existsRow => "EXISTS"
  | .notExistsRow => "NOT EXISTS"
  | .less => "<"
  | .greater => ">"
  | .lessOrEqual => "<="
  | .greaterOrEqual => ">="
  | .regexp => "REGEXP"
  | .notRegexp => "NOT REGEXP"
  | .xor => "XOR"
  | .nullSafeEqual => "<=>"
  | .coalesce => "COALESCE"

def text (op : Operator) : Text := op.keyword.toList

/-- the operator of a condition without one: many values make `IN`, none `IS NULL` -/
def default (n : Nat) : Operator := if 1 < n then .inList else if n = 0 then .isNull else .equal

def isBinary : Operator → Bool
  | .equal | .notEqual | .less | .greater | .lessOrEqual | .greaterOrEqual
  | .like | .notLike | .regexp | .notRegexp | .xor | .nullSafeEqual => true
  | _ => false

/-- `EXISTS` and `NOT EXISTS`, which have no left side -/
def isExistence : Operator → Bool
  | .existsRow | .notExistsRow => true
  | _ => false

/-- the operator in front of a parenthesized sub-select, `IN` if none is given -/
def beforeSelect (op : Option Operator) : Except Error Text :=
  let op := op.getD .inList
  if op = .inList ∨ op = .notInList ∨ op.isBinary then .ok (' ' :: op.text ++ [' '])
  else if op.isExistence then .ok (op.text ++ [' '])
  else .error (.unsupported (.operatorBeforeSelect op.keyword))

end Operator

/-! ## operators with their operands -/

inductive Comparison where
  | bare (op : Operator)
  /-- `n` values in parentheses -/
  | tuple (op : Operator) (n : Nat)
  | range (op : Operator)
  | coalesced
  | null (op : Operator)
  | single (op : Operator)
  deriving DecidableEq, Repr

namespace Comparison

def ofOperator (op : Operator) (n : Nat) : Except Error Comparison :=
  match op with
  | .isNull | .isNotNull => .ok (.bare op)
  | .inList | .notInList | .greatest | .least => .ok (.tuple op n)
  | .between | .notBetween =>
    if n = 2 then .ok (.range op) else .error (.mismatch (.operandPair op.keyword n))
  | .existsRow | .notExistsRow => .error (.unsupported (.operatorNeedsSelect op.keyword))
  | .coalesce => if n = 1 then .ok .coalesced else .error (.mismatch (.coalesceOperand n))
  | _ =>
    if n = 0 then
      if op = .equal then .ok (.bare .isNull)
      else if op = .notEqual then .ok (.bare .isNotNull)
      else .ok (.null op)
    else if n = 1 then .ok (.single op)
    else .error (.mismatch (.operandOne op.keyword n))

def ofOperand (op : Option Operator) (n : Nat) : Except Error Comparison :=
  ofOperator (op.getD (.default n)) n

def slots : Comparison → Nat
  | .bare _ => 0
  | .tuple _ n => n
  | .range _ => 2
  | .coalesced => 1
  | .null _ => 0
  | .single _ => 1

/-- `n` placeholders with commas between them -/
def marks (n : Nat) : Text := Text.separated [','] (List.replicate n ['?'])

theorem marks_zero : marks 0 = [] := rfl
theorem marks_one : marks 1 = ['?'] := rfl
theorem marks_succ (n : Nat) : marks (n + 2) = '?' :: ',' :: marks (n + 1) := rfl

def parenthesized (t : Text) : Text := '(' :: t ++ [')']

def text : Comparison → Text
  | .bare op => ' ' :: op.text
  | .tuple op n =>
    ' ' :: op.text ++ ' ' :: parenthesized (if n = 0 then "NULL".toList else marks n)
  | .range op => ' ' :: op.text ++ " ? AND ?".toList
  | .coalesced => " = COALESCE(?)".toList
  | .null op => ' ' :: op.text ++ " NULL".toList
  | .single op => ' ' :: op.text ++ " ?".toList

end Comparison

end BoundSql
