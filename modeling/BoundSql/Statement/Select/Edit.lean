import BoundSql.Statement.Select

/-!
# Editing SELECT statements

* `Select.Edit`        the edits;
* `Select.Edit.apply`  what an edit does to the clauses, or why it cannot;
* `Select.edit`        an edit of a statement, which keeps the first error and nothing after it.
-/

namespace BoundSql

/-- the edit is refused on a statement that is the caller's text -/
def structured (raw : Option (String × Arguments)) (what : String) : Except Error Unit :=
  match raw with
  | some _ => .error (.unsupported (.onRawStatement what))
  | none => .ok ()

def greatestCount : Nat := UInt64.size - 1

/-- where the page starts; pages and sizes start at one -/
def pageOffset (page size : Nat) : Nat := min ((max page 1 - 1) * size) greatestCount

namespace Select

inductive Edit where
  | named (name : String)
  | columns (names : List String)
  | star
  | namedColumns (pairs : List (String × String))
  | computedColumns (conditions : List Condition)
  | distinct
  | lenient
  | join (kind : JoinKind) (table : String) (name : Option String) (on : List Condition)
  | filter (conditions : List Condition)
  | having (conditions : List Condition)
  | groupBy (term : Term)
  | orderBy (term : Term)
  | limit (n : Nat)
  | offset (n : Nat)
  | page (number size : Nat)
  | interpolate

/-- a join has conditions unless it is a CROSS JOIN -/
def checkJoin (kind : JoinKind) (on : List Condition) : Except Error Unit :=
  if kind = .cross then
    if on.isEmpty then .ok () else .error (.unsupported .crossJoinConditions)
  else if on.isEmpty then .error (.missing (.joinConditions kind.keyword)) else .ok ()

def Edit.apply (s : SelectOf Select) : Edit → Except Error (SelectOf Select)
  | .named name => .ok { s with name := some name }
  | .columns names => do
    structured s.raw "columns"
    return { s with columns := s.columns ++ names.map .column }
  | .star => do
    structured s.raw "columns"
    return { s with columns := [.column "*"] }
  | .namedColumns pairs => do
    structured s.raw "columns"
    return { s with columns := s.columns ++ pairs.map fun (c, a) => (ConditionOf.column c).named a }
  | .computedColumns conditions => do
    structured s.raw "columns"
    conditions.forM ConditionOf.checkProjection
    return { s with columns := s.columns ++ conditions }
  | .distinct => .ok { s with distinct := true }
  | .lenient => .ok { s with lenient := true }
  | .join kind table name on => do
    structured s.raw "JOIN"
    checkJoin kind on
    return { s with joins := s.joins ++ [⟨kind, table, name, on⟩] }
  | .filter conditions => do
    structured s.raw "WHERE"
    return { s with wheres := s.wheres ++ conditions }
  | .having conditions => do
    structured s.raw "HAVING"
    return { s with havings := s.havings ++ conditions }
  | .groupBy term => do
    structured s.raw "GROUP BY"
    return { s with groupBy := s.groupBy ++ [term] }
  | .orderBy term => do
    structured s.raw "ORDER BY"
    return { s with orderBy := s.orderBy ++ [term] }
  | .limit n => do
    structured s.raw "LIMIT"
    return { s with limit := some n }
  | .offset n => do
    structured s.raw "OFFSET"
    return { s with offset := some n }
  | .page number size => do
    structured s.raw "LIMIT"
    return { s with limit := some (max size 1), offset := some (pageOffset number (max size 1)) }
  | .interpolate => .ok { s with interpolated := true }

def edit (s : Select) (e : Edit) : Select :=
  match s.failed with
  | some _ => s
  | none =>
    match e.apply s.clauses with
    | .ok clauses => mk clauses
    | .error error => mk { s.clauses with failed := some error }

end Select

end BoundSql
