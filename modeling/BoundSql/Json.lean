import BoundSql.Json.Token

/-!
# JSON

* `Json`             JSON values; numbers as they are written, members in the order of the text;
* `Json.read?`       the value of a text;
* `Json.Layout`      what a record with named fields looks like, `Json.Layout.fields?`;
* `Json.optional?`, `Json.defaulted?`   fields that may be missing.
-/

namespace BoundSql

inductive Json where
  | null
  | bool (b : Bool)
  | number (n : Json.Numeral)
  /-- a string, `none` if it holds half of a character -/
  | string (t : Option Text)
  | list (items : List Json)
  | object (members : List (Option Text × Json))

namespace Json

/-! ## reading -/

mutual

def spanValue? : Nat → List Token → Option (Json × List Token)
  | 0, _ => none
  | _ + 1, .null :: ts => some (.null, ts)
  | _ + 1, .bool b :: ts => some (.bool b, ts)
  | _ + 1, .number n :: ts => some (.number n, ts)
  | _ + 1, .string t :: ts => some (.string t, ts)
  | _ + 1, .openList :: .closeList :: ts => some (.list [], ts)
  | fuel + 1, .openList :: ts => (spanItems? fuel ts).map fun (items, ts) => (.list items, ts)
  | _ + 1, .openObject :: .closeObject :: ts => some (.object [], ts)
  | fuel + 1, .openObject :: ts =>
    (spanMembers? fuel ts).map fun (members, ts) => (.object members, ts)
  | _ + 1, _ => none

def spanItems? : Nat → List Token → Option (List Json × List Token)
  | 0, _ => none
  | fuel + 1, ts =>
    match spanValue? fuel ts with
    | some (item, .comma :: ts) =>
      (spanItems? fuel ts).map fun (items, ts) => (item :: items, ts)
    | some (item, .closeList :: ts) => some ([item], ts)
    | _ => none

def spanMembers? : Nat → List Token → Option (List (Option Text × Json) × List Token)
  | 0, _ => none
  | fuel + 1, .string name :: .colon :: ts =>
    match spanValue? fuel ts with
    | some (value, .comma :: ts) =>
      (spanMembers? fuel ts).map fun (members, ts) => ((name, value) :: members, ts)
    | some (value, .closeObject :: ts) => some ([(name, value)], ts)
    | _ => none
  | _ + 1, _ => none

end

/-- the value of a text that holds nothing else; two steps for each token are enough -/
def read? (t : Text) : Option Json :=
  match Token.all? t with
  | none => none
  | some ts =>
    match spanValue? (2 * ts.length) ts with
    | some (value, []) => some value
    | _ => none

/-! ## plain values -/

def ofNat (n : Nat) : Json := .number (.ofNat n)
def ofString (s : String) : Json := .string (some s.toList)
def ofOption {α : Type} (f : α → Json) (o : Option α) : Json := (o.map f).getD .null

def natural? : Json → Option Nat
  | .number n => n.natural?
  | _ => none

def string? : Json → Option String
  | .string t => t.map String.ofList
  | _ => none

def bool? : Json → Option Bool
  | .bool b => some b
  | _ => none

/-! ## records -/

structure Layout where
  names : List String
  shortList : Bool
  closed : Bool

namespace Layout

def valuesOf (members : List (String × Json)) (name : String) : List Json :=
  (members.filter (·.1 = name)).map (·.2)

/-- the fields in order, read from a list in that order or from an object in any order -/
def fields? (l : Layout) : Json → Option (List (Option Json))
  | .list items =>
    if items.length = l.names.length ∨ (l.shortList ∧ items.length < l.names.length) then
      some (l.names.mapIdx fun i _ => items[i]?)
    else none
  | .object members => do
    let members ← members.mapM fun (name, value) => name.map fun n => (String.ofList n, value)
    let values := l.names.map (valuesOf members)
    if values.any (1 < ·.length) then none
    else if l.closed && members.any (fun (name, _) => !l.names.contains name) then none
    else some (values.map List.head?)
  | _ => none

end Layout

/-- a field that may be missing or null -/
def optional? {α : Type} (read : Json → Option α) : Option Json → Option (Option α)
  | none => some none
  | some .null => some none
  | some value => (read value).map some

def defaulted? {α : Type} (default : α) (read : Json → Option α) : Option Json → Option α
  | none => some default
  | some value => read value

end Json

end BoundSql
