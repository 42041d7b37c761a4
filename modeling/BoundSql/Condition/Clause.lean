import BoundSql.Condition

/-!
# Clauses of conditions

A WHERE, HAVING or ON clause is a list of conditions and group markers.  Every condition stands in
its own parentheses behind its connector, every group in one pair.

* `Clause`                    the clauses;
* `ClauseItem`                a member of a clause as it is printed;
* `Grouping`                  how many groups are open, and what the innermost one holds so far;
* `itemsText`                 the members of a clause;
* `clauseText`                keyword and members, nothing for an empty clause;
* `clauseSteps`               the arguments of the members.
-/

namespace BoundSql

inductive Clause where
  | filter
  | having
  | join
  deriving DecidableEq, Repr

inductive ClauseItem where
  | leaf (connector : Connector) (body : Except Error Text)
  | groupOpen (connector : Connector)
  | groupClose
  | shared (columns : List String)

def ConditionOf.item (c : ConditionOf (Except Error Text)) : ClauseItem :=
  match c.kind with
  | .groupOpen => .groupOpen c.connector
  | .groupClose => .groupClose
  | .shared columns => .shared columns
  | _ => .leaf c.connector c.body

structure Grouping where
  depth : Nat
  /-- nothing stands before the next member in its group -/
  first : Bool
  /-- the innermost group, if one is open, has no member -/
  hollow : Bool

namespace Grouping

def start : Grouping := ⟨0, true, false⟩
def opened (g : Grouping) : Grouping := ⟨g.depth + 1, true, true⟩
def closed (g : Grouping) : Grouping := { g with depth := g.depth - 1 }
def filled (g : Grouping) : Grouping := { g with first := false, hollow := false }

end Grouping

/-- the connector in front of a member; the first one of a group is only ever negated -/
def Connector.text (first : Bool) : Connector → Text
  | .and => if first then [] else " AND ".toList
  | .or => if first then [] else " OR ".toList
  | .xor => if first then [] else " XOR ".toList
  | .not => if first then "NOT ".toList else " AND NOT ".toList

/-- shared columns are only for joins, and there only in front -/
def misplacedShared (clause : Clause) : Error :=
  .unsupported (if clause = .join then .usingAmongConditions else .usingOutsideJoin)

/-- the members of a clause; every group must be closed again and hold something -/
def itemsText (clause : Clause) (g : Grouping) : List ClauseItem → Except Error Text
  | [] => if 0 < g.depth then .error (.mismatch (.groupsLeftOpen g.depth)) else .ok []
  | .shared _ :: _ => .error (misplacedShared clause)
  | .groupClose :: items =>
    if g.depth = 0 then .error (.mismatch .groupNotOpen)
    else if g.hollow then .error (.mismatch .groupEmpty)
    else do return ')' :: (← itemsText clause g.closed items)
  | .groupOpen connector :: items => do
    return connector.text g.first ++ '(' :: (← itemsText clause g.opened items)
  | .leaf connector body :: items => do
    let text ← body
    return connector.text g.first ++ Comparison.parenthesized text ++
      (← itemsText clause g.filled items)

def Clause.keyword : Clause → Text
  | .filter => " WHERE ".toList
  | .having => " HAVING ".toList
  | .join => " ON ".toList

/-- the clause; shared columns in front of a join's conditions take their place -/
def clauseText (clause : Clause) (cs : List (ConditionOf (Except Error Text))) :
    Except Error Text :=
  match clause, cs.map ConditionOf.item with
  | _, [] => .ok []
  | .join, .shared columns :: _ => do
    return " USING (".toList ++ (← nameListText columns) ++ [')']
  | _, items => do return clause.keyword ++ (← itemsText clause .start items)

/-- the arguments of the members; shared columns end the conditions of a join -/
def clauseSteps (clause : Clause) : List (ConditionOf (List Step)) → List Step
  | [] => []
  | c :: cs =>
    match c.kind with
    | .shared _ => if clause = .join then [] else clauseSteps clause cs
    | .groupOpen | .groupClose => clauseSteps clause cs
    | _ => c.steps ++ clauseSteps clause cs

end BoundSql
