import BoundSql.Log
import BoundSql.Record

/-!
# Connections

Whatever talks to the server is a `Connection`: its calls change a state of its own and succeed or
fail.  An execution takes a number of ticks, during which others may run.

* `Request`       what is executed: a text with its arguments, or arguments of a prepared text;
* `Connection`    the calls;
* `Entry`         what can be observed from outside: requests of records, log events, driver calls.
-/

namespace BoundSql

inductive Request where
  | direct (sql : Text) (args : Arguments)
  | prepared (args : Arguments)

structure Connection (δ : Type) where
  prepare : Context → Text → δ → Except Error Unit × δ
  ticks : Request → Nat
  complete : Context → Request → δ → Except Error ExecResult × δ
  close : δ → Except Error Unit × δ
  start : Context → TransactionOptions → δ → Except Error Unit × δ
  commit : δ → Except Error Unit × δ
  rollback : δ → Except Error Unit × δ

inductive Entry where
  | asked (call : Call)
  | logged (event : Event)
  | prepared (ctx : Context) (sql : Text)
  | executed (ctx : Context) (request : Request)
  | closed
  | started (ctx : Context) (options : TransactionOptions)
  | committed
  | rolledBack

end BoundSql
