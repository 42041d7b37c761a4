import BoundSql.Statement.Select

/-!
# DELETE statements

`Delete` with its text, its arguments and its edits.  No edit of a DELETE can fail.
-/

namespace BoundSql

structure Delete where
  table : String
  name : Option String := none
  wheres : List Condition := []
  orderBy : List Term := []
  limit : Option Nat := none
  interpolated : Bool := false

namespace Delete

def text (d : Delete) : Except Error Text := do
  if d.table = "" then throw (.missing .deleteTable)
  let table ← nameText d.table false
  let name ← aliasText d.name
  let wheres ← Clause.text .filter d.wheres
  let orderBy ← termsText " ORDER BY " d.orderBy false
  return "DELETE FROM ".toList ++ table ++ name ++ wheres ++ orderBy ++ limitText d.limit none

def steps (d : Delete) : List Step := Clause.steps .filter d.wheres

def ofTable (table : String) : Delete := { table }

inductive Edit where
  | named (name : String)
  | filter (conditions : List Condition)
  | orderBy (term : Term)
  | limit (n : Nat)
  | interpolate

def edit (d : Delete) : Edit → Delete
  | .named name => { d with name := some name }
  | .filter conditions => { d with wheres := d.wheres ++ conditions }
  | .orderBy term => { d with orderBy := d.orderBy ++ [term] }
  | .limit n => { d with limit := some n }
  | .interpolate => { d with interpolated := true }

end Delete

end BoundSql
