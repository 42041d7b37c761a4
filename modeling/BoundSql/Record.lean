import BoundSql.Argument

/-!
# Records

A record supplies values for columns when it is asked for them.  It gets the arguments collected so
far and returns them with its values behind.

* `StatementKind`, `Part`   what a record is asked for;
* `Record`                  a label, and the answer to a request;
* `Call`                    one request, as it can be observed;
* `backfill`                moves values from the end of a list to the places that wait for them.
-/

namespace BoundSql

inductive StatementKind where
  | select
  | insert
  | update
  | delete
  deriving DecidableEq, Repr

inductive Part where
  | set
  | conditions
  | values
  deriving DecidableEq, Repr

structure Record where
  label : String
  /-- the arguments so far with one more value for each column -/
  assemble : StatementKind → Part → Arguments → List String → Except Error Arguments

/-- a request made of a record, with the number of arguments handed over -/
structure Call where
  record : String
  statement : StatementKind
  part : Part
  columns : List String
  given : Nat
  deriving DecidableEq, Repr

/-! ## filling in deferred values -/

def exchange {α : Type} (l : List α) (i j : Nat) : List α :=
  match l[i]?, l[j]? with
  | some a, some b => (l.set i b).set j a
  | _, _ => l

theorem length_exchange {α : Type} (l : List α) (i j : Nat) : (exchange l i j).length = l.length := by
  unfold exchange
  split <;> simp

/-- exchanges the member at each position with the next one from `source` on, as long as the
positions lie below `bound` -/
def exchangeAll (bound : Nat) : List Nat → Nat → Arguments → Arguments × Except Error Unit
  | [], _, args => (args, .ok ())
  | position :: positions, source, args =>
    if bound ≤ position then (args, .error (.mismatch (.deferredPosition position bound)))
    else exchangeAll bound positions (source + 1) (exchange args position source)

/-- moves the values behind the first `before` arguments to the given positions, one for each.
The list comes back as far as it got. -/
def backfill (args : Arguments) (positions : List Nat) (before : Nat) :
    Arguments × Except Error Unit :=
  if args.length < before then (args, .error (.mismatch (.recordShrank before args.length)))
  else if args.length - before ≠ positions.length then
    (args, .error (.mismatch (.recordDeferred (args.length - before) positions.length)))
  else
    match exchangeAll before positions before args with
    | (args, .ok ()) => (args.take before, .ok ())
    | (args, .error e) => (args, .error e)

end BoundSql
