import BoundSql.Argument
import BoundSql.Literal
import BoundSql.Operator
import BoundSql.Placeholder

/-!
# Texts with placeholders and their arguments

Arguments belong to a text in one of two ways: value by value, when it has a placeholder for every
value, or one by one, when it has a placeholder for every argument and a list stands at a single
one.  Where both fit, the first is meant.

* `render`           literals in the places of the placeholders;
* `repeatMarks`      as many placeholders as each argument has values;
* `templateText`     a text brought to one placeholder for each value.
-/

namespace BoundSql

/-! ## literals for placeholders -/

/-- a placeholder alone in parentheses, white space aside -/
def isEnclosed (before behind : Text) : Bool :=
  before.trimEnd.getLast? = some '(' && behind.trimStart.head? = some ')'

def argumentText (a : Argument) (before behind : Text) : Except Error Text :=
  if a.isList then do literalList (isEnclosed before behind) (← a.scalars) else a.literal

def argumentTexts : Arguments → List (Text × Text) → Except Error (List Text)
  | a :: as, (before, behind) :: gaps => do
    let first ← argumentText a before behind
    let rest ← argumentTexts as gaps
    return first :: rest
  | _, _ => .ok []

/-- the text with literals in the places of its placeholders -/
def render (sql : Text) (args : Arguments) : Except Error Text := do
  let cut := Placeholder.split sql
  let marks := Placeholder.count sql
  if marks = args.slotCount then
    let values ← args.flatten
    let fills ← values.mapM Argument.literal
    return Placeholder.weave cut fills
  else if marks = args.length then
    let fills ← argumentTexts args (Placeholder.neighbours cut)
    return Placeholder.weave cut fills
  else throw (.mismatch (.renderedArguments marks args.length args.slotCount))

/-! ## placeholders for values -/

/-- the placeholders of one argument; a list without values is NULL -/
def argumentMarks (a : Argument) : Text :=
  if a.isList then if a.length = 0 then "NULL".toList else Comparison.marks a.length else ['?']

def repeatMarks (sql : Text) (args : Arguments) : Except Error Text :=
  if Placeholder.count sql = args.length then
    .ok (Placeholder.weave (Placeholder.split sql) (args.map argumentMarks))
  else .error (.mismatch (.repeatedArguments (Placeholder.count sql) args.length))

/-- a caller's text with a placeholder for each value of its arguments -/
def templateText (sql : Text) (args : Arguments) : Except Error Text :=
  let marks := Placeholder.count sql
  if marks = args.slotCount then .ok sql
  else if marks = args.length then repeatMarks sql args
  else .error (.mismatch (.templateArguments (String.ofList sql) marks args.slotCount))

end BoundSql
