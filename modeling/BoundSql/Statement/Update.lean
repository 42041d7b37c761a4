import BoundSql.Statement.Select.Edit

/-!
# UPDATE statements

* `Assigned`       what a column is set to;
* `Update`         an UPDATE, `Update.text`, `Update.steps`;
* `Update.Edit`, `Update.edit`   its edits.

The columns that a record supplies come first, the other assignments follow in the order given.
-/

namespace BoundSql

inductive Assigned where
  | argument (a : Argument)
  | computed (c : Condition)

structure Update where
  table : String
  name : Option String := none
  recordColumns : List String := []
  sets : List (String × Assigned) := []
  wheres : List Condition := []
  orderBy : List Term := []
  limit : Option Nat := none
  /-- a text and its arguments in the place of all clauses -/
  raw : Option (String × Arguments) := none
  interpolated : Bool := false
  failed : Option Error := none

namespace Update

/-! ## text and arguments -/

def assignedText : Assigned → Except Error Text
  | .argument _ => .ok ['?']
  | .computed c => c.text

def setText (column : String) (value : Except Error Text) : Except Error Text := do
  let name ← nameText column false
  return name ++ '=' :: (← value)

/-- the assignments, the record's before the others -/
def setTexts (u : Update) : Except Error (List Text) := do
  let own ← u.recordColumns.mapM (setText · (.ok ['?']))
  let others ← u.sets.mapM fun (column, value) => setText column (assignedText value)
  return own ++ others

def clausesText (u : Update) : Except Error Text := do
  if u.table = "" then throw (.missing .updateTable)
  if u.recordColumns.isEmpty && u.sets.isEmpty then throw (.missing .updateColumns)
  let table ← nameText u.table false
  let name ← aliasText u.name
  let sets ← u.setTexts
  let wheres ← Clause.text .filter u.wheres
  let orderBy ← termsText " ORDER BY " u.orderBy false
  return "UPDATE ".toList ++ table ++ name ++ " SET ".toList ++
    Text.separated ", ".toList sets ++ wheres ++ orderBy ++ limitText u.limit none

def text (u : Update) : Except Error Text :=
  match u.failed, u.raw with
  | some e, _ => .error e
  | none, some (sql, args) => templateText sql.toList args
  | none, none => u.clausesText

def assignedSteps : Assigned → List Step
  | .argument a => [.push a]
  | .computed c => (c.map Select.steps).steps

def steps (u : Update) : List Step :=
  match u.failed, u.raw with
  | some e, _ => [.fail e]
  | none, some (_, args) => args.map .push
  | none, none =>
    .assign u.recordColumns :: u.sets.flatMap (fun (_, value) => assignedSteps value) ++
      Clause.steps .filter u.wheres

/-! ## edits -/

def ofTable (table : String) : Update := { table }

def ofRaw (sql : String) (args : Arguments) : Update := { table := "", raw := some (sql, args) }

inductive Edit where
  | named (name : String)
  | set (column : String) (value : Argument)
  | compute (column : String) (value : Condition)
  | recordColumns (names : List String)
  | filter (conditions : List Condition)
  | orderBy (term : Term)
  | limit (n : Nat)
  | interpolate

def Edit.apply (u : Update) : Edit → Except Error Update
  | .named name => .ok { u with name := some name }
  | .set column value => do
    structured u.raw "SET"
    if value.isList then throw (.unsupported (.listInSet value.text column))
    return { u with sets := u.sets ++ [(column, .argument value)] }
  | .compute column value => do
    structured u.raw "SET"
    value.checkProjection
    return { u with sets := u.sets ++ [(column, .computed value)] }
  | .recordColumns names => do
    structured u.raw "SET"
    return { u with recordColumns := u.recordColumns ++ names }
  | .filter conditions => do
    structured u.raw "WHERE"
    return { u with wheres := u.wheres ++ conditions }
  | .orderBy term => do
    structured u.raw "ORDER BY"
    return { u with orderBy := u.orderBy ++ [term] }
  | .limit n => do
    structured u.raw "LIMIT"
    return { u with limit := some n }
  | .interpolate => .ok { u with interpolated := true }

def edit (u : Update) (e : Edit) : Update :=
  match u.failed with
  | some _ => u
  | none =>
    match e.apply u with
    | .ok u => u
    | .error error => { u with failed := some error }

end Update

end BoundSql
