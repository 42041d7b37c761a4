import BoundSql.Error
import BoundSql.Json
import BoundSql.Settings

/-!
# Settings as JSON

Every kind of settings is read from an object or from the list of its fields, and written as an
object with all of them.

* `BulkOptions.ofJson?`, `toJson`   with the transaction, the concurrency and the context;
* `Context`, `TransactionOptions`, `Isolation`, `Duration`, `ExecResult`   likewise.
-/

namespace BoundSql

open Json (ofString ofNat ofOption optional? defaulted?)

def Json.record (members : List (String × Json)) : Json :=
  .object (members.map fun (name, value) => (some name.toList, value))

/-! ## durations -/

namespace Duration

def layout : Json.Layout := ⟨["secs", "nanos"], false, true⟩

/-- nanoseconds in 32 bits, with whole seconds among them carried; the seconds must fit 64 bits -/
def carried? (secs nanos : Nat) : Option Duration :=
  let total := secs + nanos / 1000000000
  if nanos < UInt32.size ∧ total < UInt64.size then some ⟨total, nanos % 1000000000⟩ else none

def ofJson? (j : Json) : Option Duration := do
  match ← layout.fields? j with
  | [some secs, some nanos] => carried? (← secs.natural?) (← nanos.natural?)
  | _ => none

def toJson (d : Duration) : Json := .record [("secs", ofNat d.secs), ("nanos", ofNat d.nanos)]

end Duration

/-! ## contexts -/

namespace Context

def layout : Json.Layout := ⟨["timeout", "tag"], true, false⟩

def ofJson? (j : Json) : Option Context := do
  match ← layout.fields? j with
  | [timeout, tag] =>
    return { timeout := ← optional? Duration.ofJson? timeout, tag := ← optional? Json.string? tag }
  | _ => none

def toJson (ctx : Context) : Json :=
  .record [("timeout", ofOption Duration.toJson ctx.timeout), ("tag", ofOption ofString ctx.tag)]

end Context

/-! ## transactions -/

namespace Isolation

def name : Isolation → String
  | .readUncommitted => "read_uncommitted"
  | .readCommitted => "read_committed"
  | .repeatableRead => "repeatable_read"
  | .serializable => "serializable"

def ofName? (s : String) : Option Isolation :=
  [readUncommitted, readCommitted, repeatableRead, serializable].find? (·.name = s)

/-- the name of a level, alone or as the only member of an object, which is null -/
def ofJson? : Json → Option Isolation
  | .object [(some level, .null)] => ofName? (String.ofList level)
  | j => j.string?.bind ofName?

def toJson (i : Isolation) : Json := ofString i.name

end Isolation

namespace TransactionOptions

def layout : Json.Layout := ⟨["isolation", "read_only"], true, false⟩

def ofJson? (j : Json) : Option TransactionOptions := do
  match ← layout.fields? j with
  | [isolation, readOnly] =>
    return { isolation := ← defaulted? .repeatableRead Isolation.ofJson? isolation,
             readOnly := ← defaulted? false Json.bool? readOnly }
  | _ => none

def toJson (o : TransactionOptions) : Json :=
  .record [("isolation", o.isolation.toJson), ("read_only", .bool o.readOnly)]

end TransactionOptions

/-! ## bulk runs -/

namespace BulkOptions

def layout : Json.Layout := ⟨["transaction", "concurrency", "exec"], true, false⟩

def ofJson? (j : Json) : Option BulkOptions := do
  match ← layout.fields? j with
  | [transaction, concurrency, context] =>
    return { transaction := ← optional? TransactionOptions.ofJson? transaction,
             concurrency := ← defaulted? 1 Json.natural? concurrency,
             context := ← defaulted? {} Context.ofJson? context }
  | _ => none

def toJson (o : BulkOptions) : Json :=
  .record [("transaction", ofOption TransactionOptions.toJson o.transaction),
    ("concurrency", ofNat o.concurrency), ("exec", o.context.toJson)]

end BulkOptions

/-! ## results -/

namespace ExecResult

def layout : Json.Layout := ⟨["rows_affected", "last_insert_id"], false, false⟩

def ofJson? (j : Json) : Option ExecResult := do
  match ← layout.fields? j with
  | [some rows, id] =>
    return { rowsAffected := ← rows.natural?, lastInsertId := ← optional? Json.natural? id }
  | _ => none

def toJson (r : ExecResult) : Json :=
  .record [("rows_affected", ofNat r.rowsAffected),
    ("last_insert_id", ofOption ofNat r.lastInsertId)]

end ExecResult

end BoundSql
