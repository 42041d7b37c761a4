import BoundSql.Statement.Select

/-!
# UNION statements

The members stand in parentheses between `UNION` or `UNION ALL`.

* `Union`            a UNION, `Union.text`, `Union.steps`;
* `Union.members`    its members, a template once for each value;
* `Union.memberText` one member, its place written into it and its keys replaced;
* `Union.Edit`, `Union.edit`   its edits.

A union that keeps its members together selects their places as a column and sorts by it first.  A
template is a single member that stands once for each value of its keys.
-/

namespace BoundSql

structure Union where
  selects : List Select
  all : Bool := false
  together : Bool := false
  /-- keys with their values, as many for each key -/
  replacements : List (String × List String) := []
  orderBy : List Term := []
  limit : Option Nat := none
  offset : Option Nat := none
  interpolated : Bool := false
  failed : Option Error := none

namespace Union

/-! ## members -/

def check (u : Union) : Except Error Unit :=
  match u.failed with
  | some e => .error e
  | none =>
    if u.selects.isEmpty then .error (.missing .unionSelects)
    else if !u.replacements.isEmpty && u.selects.length ≠ 1 then
      .error (.unsupported (.templateMembers u.selects.length))
    else .ok ()

/-- the members, a template as often as its keys have values -/
def members (u : Union) : List Select :=
  match u.replacements, u.selects with
  | [], selects => selects
  | (_, values) :: _, template :: _ => List.replicate values.length template
  | _ :: _, [] => []

/-- the keys of a template replaced by their values for the `i`-th member, one after the other -/
def replaced (u : Union) (i : Nat) (t : Text) : Text :=
  u.replacements.foldl (fun t (key, values) =>
    Text.replaceAll key.toList (values.getD i "").toList t) t

def memberPlace (i : Nat) : String := "union member " ++ toString i

def memberText (u : Union) (i : Nat) (member : Select) : Except Error Text := do
  let member := if u.together then member.asMember i else member
  let text ← within (memberPlace i) member.text
  return Comparison.parenthesized (u.replaced i text)

/-! ## text and arguments -/

/-- `f` for every member of a list with its place, the first one at `i` -/
def mapMembers {α : Type} (f : Nat → Select → Except Error α) :
    Nat → List Select → Except Error (List α)
  | _, [] => .ok []
  | i, s :: ss => do
    let first ← f i s
    let rest ← mapMembers f (i + 1) ss
    return first :: rest

def separator (u : Union) : Text := (if u.all then "\nUNION ALL\n" else "\nUNION\n").toList

/-- the terms to sort by; the place of the member comes first where members stay together -/
def terms (u : Union) : List Term :=
  if u.together then .name memberColumn false :: u.orderBy else u.orderBy

def text (u : Union) : Except Error Text := do
  u.check
  let members ← mapMembers u.memberText 0 u.members
  let orderBy ← termsText "\nORDER BY " u.terms false
  return Text.separated u.separator members ++ orderBy ++ limitText u.limit u.offset

def memberSteps : Nat → List Select → List Step
  | _, [] => []
  | i, s :: ss => s.steps.map (·.within (memberPlace i)) ++ memberSteps (i + 1) ss

def steps (u : Union) : List Step :=
  match u.check with
  | .error e => [.fail e]
  | .ok () => memberSteps 0 u.members

/-! ## edits -/

def ofSelects (selects : List Select) : Union := { selects }

inductive Edit where
  | append (selects : List Select)
  | all
  | distinct
  | together
  | replace (key : String) (values : List String)
  | orderBy (term : Term)
  | limit (n : Nat)
  | offset (n : Nat)
  | interpolate

/-- a key needs a text, and as many values as the keys before it -/
def addReplacement (u : Union) (key : String) (values : List String) : Except Error Union := do
  if key = "" then throw (.missing .unionTemplateKey)
  if values.isEmpty then throw (.missing (.templateValues key))
  match u.replacements with
  | (first, previous) :: _ =>
    if previous.length ≠ values.length then
      throw (.mismatch (.templateValueCount key values.length first previous.length))
  | [] => pure ()
  return { u with replacements := u.replacements ++ [(key, values)] }

def Edit.apply (u : Union) : Edit → Except Error Union
  | .append selects => .ok { u with selects := u.selects ++ selects }
  | .all => .ok { u with all := true }
  | .distinct => .ok { u with all := false }
  | .together => .ok { u with together := true }
  | .replace key values => u.addReplacement key values
  | .orderBy term => .ok { u with orderBy := u.orderBy ++ [term] }
  | .limit n => .ok { u with limit := some n }
  | .offset n => .ok { u with offset := some n }
  | .interpolate => .ok { u with interpolated := true }

def edit (u : Union) (e : Edit) : Union :=
  match u.failed with
  | some _ => u
  | none =>
    match e.apply u with
    | .ok u => u
    | .error error => { u with failed := some error }

end Union

end BoundSql
