import BoundSql.Statement.Delete
import BoundSql.Statement.Insert
import BoundSql.Statement.Update
import BoundSql.Statement.With

/-!
# Statements

* `Statement`             a statement of any kind, with its text and its steps;
* `Statement.buildText`   the text with placeholders;
* `Statement.buildArgs`   the arguments in the order of the placeholders;
* `Mutation`              an INSERT or UPDATE that can be carried out for one record after the other;
* `Mutation.recordText`, `Mutation.recordArgs`   its text and arguments for a record.
-/

namespace BoundSql

inductive Statement where
  | select (s : Select)
  | insert (i : Insert)
  | update (u : Update)
  | delete (d : Delete)
  | union (u : Union)
  | with (w : With)

namespace Statement

def text : Statement → Except Error Text
  | .select s => s.text
  | .insert i => i.text
  | .update u => u.text
  | .delete d => d.text
  | .union u => u.text
  | .with w => w.text

def steps : Statement → List Step
  | .select s => s.steps
  | .insert i => i.steps
  | .update u => u.steps
  | .delete d => d.steps
  | .union u => u.steps
  | .with w => w.steps

def kind : Statement → StatementKind
  | .insert _ => .insert
  | .update _ => .update
  | .delete _ => .delete
  | _ => .select

def failed : Statement → Option Error
  | .select s => s.failed
  | .insert i => i.failed
  | .update u => u.failed
  | .union u => u.failed
  | _ => none

def interpolated : Statement → Bool
  | .select s => s.clauses.interpolated
  | .insert i => i.interpolated
  | .update u => u.interpolated
  | .delete d => d.interpolated
  | .union u => u.interpolated
  | .with w => w.interpolated

def validate (s : Statement) : Except Error Unit :=
  match s.failed with
  | some e => .error e
  | none => .ok ()

def buildText (s : Statement) : Except Error Text := do
  s.validate
  s.text

/-- the arguments, deferred ones filled from the record if there is one -/
def buildArgs (s : Statement) (record : Option Record) : List Call × Except Error Arguments :=
  match s.validate with
  | .error e => ([], .error e)
  | .ok () => bindSteps (.filling record) s.kind s.steps

end Statement

/-! ## statements for records -/

inductive Mutation where
  | insert (i : Insert)
  | update (u : Update)

namespace Mutation

def statement : Mutation → Statement
  | .insert i => .insert i
  | .update u => .update u

def recordColumns : Mutation → List String
  | .insert i => i.columns
  | .update u => u.recordColumns

def recordText (m : Mutation) : Except Error Text := do
  m.statement.validate
  match m with
  | .insert i => i.recordText
  | .update u => u.text

/-- the arguments of the statement for one record, which knows the columns by their aliases -/
def recordArgs (m : Mutation) (record : Record) (aliases : Option (List String)) :
    List Call × Except Error Arguments :=
  match m.statement.validate with
  | .error e => ([], .error e)
  | .ok () => bindSteps (.each record aliases) m.statement.kind m.statement.steps

end Mutation

end BoundSql
