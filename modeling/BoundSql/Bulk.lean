import BoundSql.Builder

/-!
# Bulk executions

A bulk execution carries out one INSERT or UPDATE for every record of a list.

* `Bulk`            the statement and how it is to be carried out;
* `Plan`            what is the same for all records, `Bulk.plan`;
* `Bulk.request`    what is executed for one record, `Bulk.launch` together with its log event.

Without interpolation the text is prepared once, and each record binds its values to it.  With
interpolation each record has a text of its own.
-/

namespace BoundSql

structure Bulk where
  template : Mutation
  options : BulkOptions := {}
  aliases : Option (List String) := none
  logger : Logger := {}

structure Plan where
  sql : Text
  placeholders : Nat
  interpolated : Bool
  deriving DecidableEq, Repr

namespace Bulk

/-- there must be record columns, and as many aliases if there are any -/
def checkColumns (columns : List String) (aliases : Option (List String)) : Except Error Unit :=
  if columns = [] then .error (.missing .bulkColumns)
  else
    match aliases with
    | none => .ok ()
    | some names =>
      if names.length ≠ columns.length then
        .error (.mismatch (.aliasCount names.length columns.length))
      else .ok ()

def plan (b : Bulk) : Except Error Plan := do
  b.template.statement.validate
  checkColumns b.template.recordColumns b.aliases
  let sql ← b.template.recordText
  return ⟨sql, Placeholder.count sql, b.template.statement.interpolated⟩

/-! ## one record -/

def boundValues (plan : Plan) (args : Arguments) : Except Error Arguments := do
  let values ← args.flatten
  if values.length ≠ plan.placeholders then
    throw (.mismatch (.boundValues values.length plan.placeholders))
  return values

def requestOf (plan : Plan) (args : Arguments) : Except Error Request :=
  if plan.interpolated then do return .direct (← render plan.sql args) []
  else do return .prepared (← boundValues plan args)

def request (b : Bulk) (plan : Plan) (record : Record) : List Call × Except Error Request :=
  let (calls, args) := b.template.recordArgs record b.aliases
  (calls, args.bind (requestOf plan))

def requestEvent (b : Bulk) (plan : Plan) : Request → Event
  | .direct sql args => b.logger.statement b.options.context sql args.length
  | .prepared args => b.logger.statement b.options.context plan.sql args.length

/-- what is executed for a record, and what can be observed before it runs -/
def launch (b : Bulk) (plan : Plan) (record : Record) : List Entry × Except Error Request :=
  match b.request plan record with
  | (calls, .error e) => (calls.map .asked, .error e)
  | (calls, .ok request) =>
    (calls.map .asked ++ [.logged (b.requestEvent plan request)], .ok request)

end Bulk

end BoundSql
