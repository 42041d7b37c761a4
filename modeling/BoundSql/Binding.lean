import BoundSql.Record

/-!
# Collecting the arguments of a statement

A statement lists its arguments as steps, in the order of its placeholders.  The steps are carried
out for a record or without one.

* `Step`              one step;
* `Subject`           what the steps are carried out for;
* `Collected`         the arguments so far, and the places that wait for the record;
* `Step.run`          one step, which may fail;
* `Step.calls`        the requests it makes of records, also when it fails;
* `runSteps`          all steps up to the first failing one;
* `bindSteps`         all steps, and the deferred values filled in.
-/

namespace BoundSql

inductive Step where
  | push (a : Argument)
  | defer (column : String)
  /-- values of the subject's record for columns to be set; markers without a record -/
  | assign (columns : List String)
  /-- one row of the subject's record, if it supplies rows -/
  | row (columns : List String)
  /-- one row of a record that the statement holds -/
  | given (record : Record) (columns : List String)
  | fail (e : Error)

def Step.within (place : String) : Step → Step
  | .fail e => .fail (e.within place)
  | other => other

structure Subject where
  record : Option Record
  /-- names for the columns to be set, as the record knows them -/
  aliases : Option (List String)
  suppliesRow : Bool

def Subject.none : Subject := ⟨.none, .none, false⟩

def Subject.filling (record : Option Record) : Subject := ⟨record, .none, false⟩

/-- a record in whose place the statement is carried out -/
def Subject.each (record : Record) (aliases : Option (List String)) : Subject :=
  ⟨some record, aliases, true⟩

/-- arguments so far, with the positions and columns of the deferred ones -/
structure Collected where
  args : Arguments
  deferred : List (Nat × String)

namespace Collected

def empty : Collected := ⟨[], []⟩

def push (c : Collected) (a : Argument) : Collected := { c with args := c.args ++ [a] }

/-- a marker at the end, to be filled with the value of a column -/
def defer (c : Collected) (column : String) : Collected :=
  { args := c.args ++ [.pending], deferred := c.deferred ++ [(c.args.length, column)] }

def call (c : Collected) (record : Record) (kind : StatementKind) (part : Part)
    (columns : List String) : Call :=
  ⟨record.label, kind, part, columns, c.args.length⟩

def ask (c : Collected) (record : Record) (kind : StatementKind) (part : Part)
    (columns : List String) : Except Error Collected := do
  let before := c.args.length
  let args ← record.assemble kind part c.args columns
  let produced := args.length - before
  if args.length < before || produced ≠ columns.length then
    throw (.mismatch (.recordColumns produced columns.length))
  return { c with args }

end Collected

def Subject.namesFor (s : Subject) (columns : List String) : List String := s.aliases.getD columns

namespace Step

def run (s : Subject) (c : Collected) : Step → Except Error Collected
  | .push a => .ok (c.push a)
  | .defer column => .ok (c.defer column)
  | .assign columns =>
    if columns = [] then .ok c
    else
      match s.record with
      | none => .ok { c with args := c.args ++ columns.map fun _ => .pending }
      | some record => c.ask record .update .set (s.namesFor columns)
  | .row columns =>
    if columns = [] ∨ s.suppliesRow = false then .ok c
    else
      match s.record with
      | none => .ok { c with args := c.args ++ columns.map fun _ => .pending }
      | some record => c.ask record .insert .values columns
  | .given record columns => c.ask record .insert .values columns
  | .fail e => .error e

def calls (s : Subject) (c : Collected) : Step → List Call
  | .assign columns =>
    match s.record with
    | some record =>
      if columns = [] then [] else [c.call record .update .set (s.namesFor columns)]
    | none => []
  | .row columns =>
    match s.record with
    | some record =>
      if columns = [] ∨ s.suppliesRow = false then [] else [c.call record .insert .values columns]
    | none => []
  | .given record columns => [c.call record .insert .values columns]
  | _ => []

end Step

/-- the steps in order up to the first one that fails, and all requests made -/
def runSteps (s : Subject) (c : Collected) : List Step → List Call × Except Error Collected
  | [] => ([], .ok c)
  | step :: steps =>
    match step.run s c with
    | .error e => (step.calls s c, .error e)
    | .ok c' =>
      let (calls, result) := runSteps s c' steps
      (step.calls s c ++ calls, result)

theorem runSteps_nil (s : Subject) (c : Collected) : runSteps s c [] = ([], .ok c) := rfl

theorem runSteps_cons_ok {s : Subject} {c c' : Collected} {step : Step}
    (h : step.run s c = .ok c') (steps : List Step) :
    runSteps s c (step :: steps) =
      (step.calls s c ++ (runSteps s c' steps).1, (runSteps s c' steps).2) := by
  simp [runSteps, h]

theorem runSteps_cons_error {s : Subject} {c : Collected} {step : Step} {e : Error}
    (h : step.run s c = .error e) (steps : List Step) :
    runSteps s c (step :: steps) = (step.calls s c, .error e) := by
  simp [runSteps, h]

/-- the values of deferred conditions, asked for at once and moved to their places -/
def Collected.fill (c : Collected) (record : Record) (kind : StatementKind) :
    Except Error Arguments := do
  let args ← record.assemble kind .conditions c.args (c.deferred.map (·.2))
  let (filled, outcome) := backfill args (c.deferred.map (·.1)) c.args.length
  outcome
  return filled

def Collected.finish (s : Subject) (kind : StatementKind) (c : Collected) :
    List Call × Except Error Arguments :=
  match s.record with
  | none => ([], .ok c.args)
  | some record =>
    if c.deferred = [] then ([], .ok c.args)
    else ([c.call record kind .conditions (c.deferred.map (·.2))], c.fill record kind)

def bindSteps (s : Subject) (kind : StatementKind) (steps : List Step) :
    List Call × Except Error Arguments :=
  match runSteps s .empty steps with
  | (calls, .error e) => (calls, .error e)
  | (calls, .ok c) =>
    let (last, result) := c.finish s kind
    (calls ++ last, result)

end BoundSql
