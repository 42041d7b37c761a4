import BoundSql.Statement.Union

/-!
# WITH statements

* `Query`            a SELECT or a UNION;
* `TableExpression`  a named query in front of the final one;
* `With`             a WITH, `With.text`, `With.steps`, and its edits.  No edit of it can fail.
-/

namespace BoundSql

inductive Query where
  | select (s : Select)
  | union (u : Union)

namespace Query

def text : Query → Except Error Text
  | .select s => s.text
  | .union u => u.text

def steps : Query → List Step
  | .select s => s.steps
  | .union u => u.steps

end Query

structure TableExpression where
  name : String
  columns : List String
  query : Query

namespace TableExpression

def place (t : TableExpression) : String := "cte " ++ shown t.name

def columnsText (t : TableExpression) : Except Error Text :=
  if t.columns = [] then .ok []
  else do return " (".toList ++ (← nameListText t.columns) ++ [')']

def text (t : TableExpression) : Except Error Text := do
  let name ← nameText t.name false
  let columns ← t.columnsText
  let query ← within t.place t.query.text
  return name ++ columns ++ " AS ".toList ++ Comparison.parenthesized query

def steps (t : TableExpression) : List Step := t.query.steps.map (·.within t.place)

end TableExpression

structure With where
  tables : List TableExpression := []
  recursive : Bool := false
  query : Option Query := none
  interpolated : Bool := false

namespace With

/-- the final query; at least one table must stand before it -/
def finalQuery (w : With) : Except Error Query :=
  if w.tables.isEmpty then .error (.missing .tableExpressions)
  else
    match w.query with
    | some q => .ok q
    | none => .error (.missing .finalStatement)

def text (w : With) : Except Error Text := do
  let query ← w.finalQuery
  let tables ← w.tables.mapM TableExpression.text
  let last ← query.text
  return (if w.recursive then "WITH RECURSIVE " else "WITH ").toList ++
    Text.separated ",\n".toList tables ++ '\n' :: last

def steps (w : With) : List Step :=
  match w.finalQuery with
  | .error e => [.fail e]
  | .ok query => w.tables.flatMap TableExpression.steps ++ query.steps

inductive Edit where
  | table (name : String) (columns : List String) (query : Query)
  | recursive
  | final (query : Query)
  | interpolate

def edit (w : With) : Edit → With
  | .table name columns query => { w with tables := w.tables ++ [⟨name, columns, query⟩] }
  | .recursive => { w with recursive := true }
  | .final query => { w with query := some query }
  | .interpolate => { w with interpolated := true }

end With

end BoundSql
