import BoundSql.Binding
import BoundSql.Identifier
import BoundSql.Template

/-!
# Conditions

A condition is a column or an expression with an operator and an operand, or a marker that groups
the conditions around it.  The type of sub-selects is a parameter, so that a condition over the
texts of its sub-selects, or over their steps, is again a condition.

* `ConditionOf`        a condition over sub-selects of some type;
* `column`, `expression`, `groupOpen`, `groupClose`, `sharing`, `subSelect`   the plain conditions;
* `sqlIf`, `ifNull`, `caseWhen`   conditional expressions;
* `ConditionOf.op`, `arg`, `args`, `sub`, `placeholder`, `named`, `join`   their settings;
* `ConditionOf.body`   the text of a condition;
* `ConditionOf.projection`   its text as a selected column;
* `ConditionOf.steps`  its arguments.
-/

namespace BoundSql

inductive Connector where
  | and
  | or
  | xor
  /-- negated, and attached with AND -/
  | not
  deriving DecidableEq, Repr

inductive ConditionKind where
  | column
  | expression
  | groupOpen
  | groupClose
  /-- the columns that a join has in common; it ends the conditions of the join -/
  | shared (columns : List String)
  deriving DecidableEq, Repr

structure ConditionOf (σ : Type) where
  left : String
  kind : ConditionKind
  operator : Option Operator := none
  operand : Option Argument := none
  exprArgs : Arguments := []
  subselect : Option σ := none
  connector : Connector := .and
  deferred : Bool := false
  name : Option String := none
  flaw : Option Mismatch := none

namespace ConditionOf

variable {σ τ : Type}

def map (f : σ → τ) (c : ConditionOf σ) : ConditionOf τ :=
  { c with subselect := c.subselect.map f }

/-! ## making conditions -/

def column (name : String) : ConditionOf σ := { left := name, kind := .column }

/-- a text written as it is; its placeholders bind the condition's arguments -/
def expression (sql : String) : ConditionOf σ := { left := sql, kind := .expression }

def groupOpen : ConditionOf σ := { left := "(", kind := .groupOpen }
def groupClose : ConditionOf σ := { left := ")", kind := .groupClose }

def sharing (columns : List String) : ConditionOf σ := { left := "", kind := .shared columns }

def subSelect (op : Operator) (select : σ) : ConditionOf σ :=
  { left := "", kind := .column, operator := some op, subselect := some select }

def sqlIf (condition yes no : String) : ConditionOf σ :=
  expression ("IF((" ++ condition ++ "), " ++ yes ++ ", " ++ no ++ ")")

/-- an identifier quoted, any other text as it is -/
def quotedOrRaw (s : String) : String :=
  match quote s.toList with
  | .ok t => String.ofList t
  | .error _ => s

/-- `IFNULL` of one expression and NULL, of two, or of two columns with their tables -/
def ifNull : List String → ConditionOf σ
  | [a] => expression ("IFNULL(" ++ quotedOrRaw a ++ ",NULL)")
  | [a, b] => expression ("IFNULL(" ++ quotedOrRaw a ++ "," ++ quotedOrRaw b ++ ")")
  | [t, a, u, b] =>
    expression
      ("IFNULL(" ++ quotedOrRaw (t ++ "." ++ a) ++ "," ++ quotedOrRaw (u ++ "." ++ b) ++ ")")
  | parts => { expression "IFNULL()" with flaw := some (.ifNullParts parts.length) }

/-- `CASE`; without a value the branches are conditions of their own -/
def caseWhen (value otherwise : String) (branches : List (String × String)) : ConditionOf σ :=
  let arms := branches.map fun (cond, result) => " WHEN " ++ cond ++ " THEN " ++ result
  let last := if otherwise = "" then "" else " ELSE " ++ otherwise
  { expression ("CASE " ++ value ++ String.join arms ++ last ++ " END") with
    flaw := if branches = [] then some .caseWithoutBranch else none }

/-! ## settings -/

def op (c : ConditionOf σ) (o : Operator) : ConditionOf σ := { c with operator := some o }

/-- the operand of a column, or one more argument of an expression -/
def arg (c : ConditionOf σ) (a : Argument) : ConditionOf σ :=
  if c.kind = .expression then { c with exprArgs := c.exprArgs ++ [a] }
  else { c with operand := some a }

def args (c : ConditionOf σ) (as : Arguments) : ConditionOf σ := as.foldl arg c

def sub (c : ConditionOf σ) (select : σ) : ConditionOf σ := { c with subselect := some select }

def placeholder (c : ConditionOf σ) : ConditionOf σ := { c with deferred := true }

def named (c : ConditionOf σ) (name : String) : ConditionOf σ := { c with name := some name }

def join (c : ConditionOf σ) (connector : Connector) : ConditionOf σ := { c with connector }

/-! ## what a condition may be used for -/

def pair (c : ConditionOf σ) : Except Error (String × Argument) :=
  match c.kind, c.operand with
  | .column, some a =>
    if c.subselect.isNone && !c.deferred && c.operator.isNone then .ok (c.left, a)
    else .error (.unsupported (.notAPair c.left))
  | _, _ => .error (.unsupported (.notAPair c.left))

def isProjection (c : ConditionOf σ) : Bool :=
  match c.kind with
  | .expression => true
  | .column => c.operand.isNone && c.subselect.isNone && !c.deferred && c.operator.isNone
  | _ => false

def checkProjection (c : ConditionOf σ) : Except Error Unit :=
  if c.isProjection then .ok () else .error (.unsupported (.notAProjection c.left))

def sources (c : ConditionOf σ) : Nat :=
  c.operand.isSome.toNat + c.subselect.isSome.toNat + c.deferred.toNat + (!c.exprArgs.isEmpty).toNat

/-- at most one source of values, and none but arguments for an expression -/
def checkSources (c : ConditionOf σ) : Except Error Unit :=
  match c.flaw with
  | some flaw => .error (.mismatch flaw)
  | none =>
    if 1 < c.sources then .error (.unsupported (.manySources c.left))
    else if c.kind = .expression ∧ (c.deferred ∨ c.subselect.isSome) then
      .error (.unsupported (.expressionSource c.left))
    else .ok ()

/-! ## texts -/

def leftText (c : ConditionOf σ) : Except Error Text :=
  if c.left = "" then .error (.missing .conditionColumn) else nameText c.left false

/-- the number of values of the operand; a deferred one counts as one -/
def operandLength (c : ConditionOf σ) : Nat :=
  if c.deferred then 1
  else
    match c.operand with
    | some a => a.length
    | none => 0

/-- an expression, compared with its argument if it has no placeholder of its own -/
def expressionText (c : ConditionOf σ) : Except Error Text :=
  let sql := c.left.toList
  if Placeholder.count sql = 0 then
    match c.exprArgs with
    | [] =>
      match c.operator with
      | some op => do return sql ++ (← Comparison.ofOperator op 0).text
      | none => .ok sql
    | [a] => do return sql ++ (← Comparison.ofOperand c.operator a.length).text
    | as => .error (.mismatch (.expressionArguments c.left as.length))
  else templateText sql c.exprArgs

/-- a column compared with a sub-select, whose text is given; EXISTS has no left side -/
def subselectText (c : ConditionOf σ) (select : Except Error Text) : Except Error Text := do
  let left ← if (c.operator.map Operator.isExistence).getD false then .ok [] else c.leftText
  let op ← Operator.beforeSelect c.operator
  let select ← within "sub-select" select
  return left ++ op ++ Comparison.parenthesized select

def columnText (c : ConditionOf σ) : Except Error Text := do
  let left ← c.leftText
  let comparison ← Comparison.ofOperand c.operator c.operandLength
  return left ++ comparison.text

def body (c : ConditionOf (Except Error Text)) : Except Error Text := do
  c.checkSources
  match c.kind with
  | .expression => c.expressionText
  | .column =>
    match c.subselect with
    | some select => c.subselectText select
    | none => c.columnText
  | _ => throw (.unsupported .markerAlone)

def projection (c : ConditionOf (Except Error Text)) (lenient : Bool) : Except Error Text := do
  let text ← if c.kind = .expression then c.body else nameText c.left lenient
  return text ++ (← aliasText c.name)

/-! ## arguments -/

/-- the step that binds an operand of `n` values, if the comparison has placeholders for it -/
def operandSteps (op : Option Operator) (n : Nat) (step : Step) : List Step :=
  match Comparison.ofOperand op n with
  | .error e => [.fail e]
  | .ok comparison => if 0 < comparison.slots then [step] else []

def steps (c : ConditionOf (List Step)) : List Step :=
  match c.kind with
  | .expression =>
    if Placeholder.count c.left.toList = 0 then
      match c.exprArgs with
      | [a] => operandSteps c.operator a.length (.push a)
      | _ => []
    else c.exprArgs.map .push
  | .column =>
    match c.subselect with
    | some select => select.map (·.within "sub-select")
    | none =>
      if c.deferred then operandSteps c.operator 1 (.defer c.left)
      else
        match c.operand with
        | some a => operandSteps c.operator a.length (.push a)
        | none => []
  | _ => []

end ConditionOf

end BoundSql
