import BoundSql.Duration

/-!
# Settings of executions and bulk runs

* `Context`            what goes with every driver call;
* `Isolation`          transaction isolation levels, with their SQL keywords;
* `TransactionOptions` how a transaction begins;
* `BulkOptions`        how the records of a bulk run are executed, `BulkOptions.inFlight`.
-/

namespace BoundSql

structure Context where
  timeout : Option Duration := none
  tag : Option String := none
  deriving DecidableEq, Repr

def Context.tagText (ctx : Context) : String := ctx.tag.getD "-"

inductive Isolation where
  | readUncommitted
  | readCommitted
  | repeatableRead
  | serializable
  deriving DecidableEq, Repr

def Isolation.keywords : Isolation → String
  | .readUncommitted => "READ UNCOMMITTED"
  | .readCommitted => "READ COMMITTED"
  | .repeatableRead => "REPEATABLE READ"
  | .serializable => "SERIALIZABLE"

structure TransactionOptions where
  isolation : Isolation := .repeatableRead
  readOnly : Bool := false
  deriving DecidableEq, Repr

structure BulkOptions where
  transaction : Option TransactionOptions := none
  concurrency : Nat := 1
  context : Context := {}
  deriving DecidableEq, Repr

/-- the number of records in flight at once, one in a transaction and at least one anyway -/
def BulkOptions.inFlight (o : BulkOptions) : Nat :=
  if o.transaction.isSome then 1 else max o.concurrency 1

end BoundSql
