import BoundSql.Argument.Convert
import BoundSql.Json

/-!
# Arguments from JSON values

A scalar is the scalar of its kind, a list the list of its items, which are scalars of one kind.
-/

namespace BoundSql.Argument

/-- a whole number of 64 bits, or a double if it is none; `none` for a number beyond the doubles -/
def ofNumeral? (n : Json.Numeral) : Option (Except Error Argument) :=
  match n.integer? with
  | some i =>
    match int64? i with
    | some i => some (.ok (.int i))
    | none => some (.error (.unsupported (.unsignedInteger (toString i))))
  | none => n.float?.map fun x => .ok (.float x)

def ofScalar? : Json → Option (Except Error Argument)
  | .null => some (.ok .null)
  | .bool b => some (.ok (.bool b))
  | .number n => ofNumeral? n
  | .string t => t.map fun t => .ok (.string (String.ofList t))
  | .list _ => some (.error (.unsupported .nestedList))
  | .object _ => some (.error (.unsupported .jsonObject))

def ofItem? : Json → Option (Except Error Argument)
  | .null | .list _ | .object _ => some (.error (.unsupported .nestedList))
  | scalar => ofScalar? scalar

/-- the argument of a value; `none` if a number in it is too large or a string holds half of a
character -/
def ofJson? : Json → Option (Except Error Argument)
  | .list items => (items.mapM ofItem?).map fun as => (as.mapM id).bind ofList
  | scalar => ofScalar? scalar

end BoundSql.Argument
