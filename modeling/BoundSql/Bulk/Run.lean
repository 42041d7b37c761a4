import BoundSql.Bulk.Window

/-!
# Runs

* `Bulk.runRecords`   prepares, executes all records and closes;
* `Bulk.transact`     the same in a transaction, which ends with a commit or a rollback;
* `Bulk.run`          a whole bulk execution with its closing log event;
* `Bulk.runList`      the same for a list that must not be empty.
-/

namespace BoundSql

structure Outcome (δ : Type) (α : Type) where
  trace : List Entry
  result : Except Error α
  db : δ

namespace Bulk

variable {δ : Type}

/-- the outcome for the caller: a failure of a record goes before a failure to close -/
def conclude (keep : Bool) (f : Flight δ) (closed : Except Error Unit) :
    Except Error (List ExecResult) :=
  match f.failure with
  | some (index, source) => .error (.record index (if keep then f.done else []) source)
  | none => closed.map fun _ => f.done.map (·.2)

def prepareText (b : Bulk) (plan : Plan) (conn : Connection δ) (db : δ) : Outcome δ Unit :=
  if plan.interpolated then ⟨[], .ok (), db⟩
  else
    let (result, db) := conn.prepare b.options.context plan.sql db
    ⟨[.prepared b.options.context plan.sql], result, db⟩

def closeText (plan : Plan) (conn : Connection δ) (db : δ) : Outcome δ Unit :=
  if plan.interpolated then ⟨[], .ok (), db⟩
  else
    let (result, db) := conn.close db
    ⟨[.closed], result, db⟩

/-- executes all records with at most `room` of them in flight -/
def runRecords (b : Bulk) (plan : Plan) (conn : Connection δ) (room : Nat) (keep : Bool)
    (records : List Record) (db : δ) : Outcome δ (List ExecResult) :=
  let opened := b.prepareText plan conn db
  match opened.result with
  | .error e => ⟨opened.trace, .error e, opened.db⟩
  | .ok () =>
    let flight := Flight.drive ⟨b, plan, conn, max room 1⟩ (.initial opened.db records)
    let closed := closeText plan conn flight.db
    ⟨opened.trace ++ flight.trace ++ closed.trace, conclude keep flight closed.result, closed.db⟩

def rollbackEvent (b : Bulk) (failure reason : Error) : Event where
  level := .warn
  fields := [("tag", .text b.options.context.tagText), ("error", .text failure.message),
    ("original", .text reason.message), ("message", .text "rollback failed")]

/-- ends the transaction of a run: a commit for results, a rollback for an error -/
def settle (b : Bulk) (conn : Connection δ) (o : Outcome δ (List ExecResult)) :
    Outcome δ (List ExecResult) :=
  match o.result with
  | .ok results =>
    let (committed, db) := conn.commit o.db
    ⟨o.trace ++ [.committed], committed.map fun _ => results, db⟩
  | .error reason =>
    match conn.rollback o.db with
    | (.ok (), db) => ⟨o.trace ++ [.rolledBack], .error reason, db⟩
    | (.error failure, db) =>
      ⟨o.trace ++ [.rolledBack, .logged (b.rollbackEvent failure reason)],
        .error (.rollback failure reason), db⟩

def finishedEvent (b : Bulk) (result : Except Error (List ExecResult)) : Event where
  level := .info
  fields := [("tag", .text b.options.context.tagText),
    ("transactional", .flag b.options.transaction.isSome),
    ("records", .number (result.toOption.getD []).length),
    ("ok", .flag result.toBool), ("message", .text "bulk execution finished")]

def announce (b : Bulk) (o : Outcome δ (List ExecResult)) : Outcome δ (List ExecResult) :=
  { o with trace := o.trace ++ [.logged (b.finishedEvent o.result)] }

def transact (b : Bulk) (plan : Plan) (conn : Connection δ) (options : TransactionOptions)
    (records : List Record) (db : δ) : Outcome δ (List ExecResult) :=
  match conn.start b.options.context options db with
  | (.error e, db) => ⟨[.started b.options.context options], .error e, db⟩
  | (.ok (), db) =>
    let o := b.announce (b.settle conn (b.runRecords plan conn 1 false records db))
    { o with trace := .started b.options.context options :: o.trace }

def run (b : Bulk) (conn : Connection δ) (records : List Record) (db : δ) :
    Outcome δ (List ExecResult) :=
  match b.plan with
  | .error e => ⟨[], .error e, db⟩
  | .ok plan =>
    match b.options.transaction with
    | some options => b.transact plan conn options records db
    | none => b.announce (b.runRecords plan conn b.options.inFlight true records db)

/-- executes the statement for every record of a list, of which there must be one -/
def runList (b : Bulk) (conn : Connection δ) (records : List Record) (db : δ) :
    Outcome δ (List ExecResult) :=
  if records.isEmpty then ⟨[], .error (.missing .bulkRecords), db⟩ else b.run conn records db

end Bulk

end BoundSql
