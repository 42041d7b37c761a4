import BoundSql.Argument

/-!
# Arguments from other values

* `ofInteger`, `ofIntegers`   whole numbers of any width, refused beyond the signed 64 bit range;
* `ofList`                    scalars of one kind as a list argument.
-/

namespace BoundSql.Argument

def int64? (i : Int) : Option Int64 :=
  if Int64.minValue.toInt ≤ i ∧ i ≤ Int64.maxValue.toInt then some (Int64.ofInt i) else none

def wholeNumber (i : Int) : Except Error Int64 :=
  match int64? i with
  | some n => .ok n
  | none => .error (.unsupported (.wideInteger (toString i)))

def ofInteger (i : Int) : Except Error Argument := (wholeNumber i).map .int

def ofIntegers (is : List Int) : Except Error Argument := (is.mapM wholeNumber).map .ints

def ofOption {α : Type} (f : α → Argument) : Option α → Argument
  | none => .null
  | some a => f a

/-! ## lists of one kind -/

def bool? : Argument → Option Bool
  | .bool b => some b
  | _ => none

def int? : Argument → Option Int64
  | .int i => some i
  | _ => none

def float? : Argument → Option Float
  | .float x => some x
  | _ => none

def string? : Argument → Option String
  | .string s => some s
  | _ => none

/-- every member by `pick`; the first one of another kind is refused -/
def gather {α : Type} (pick : Argument → Option α) (as : Arguments) : Except Error (List α) :=
  as.mapM fun a =>
    match pick a with
    | some v => .ok v
    | none => .error (.unsupported (.mixedList a.shown))

/-- scalars of the kind of the first one as a list; no scalars are an empty list of integers -/
def ofList : Arguments → Except Error Argument
  | [] => .ok (.ints [])
  | as@(.bool _ :: _) => (gather bool? as).map .bools
  | as@(.int _ :: _) => (gather int? as).map .ints
  | as@(.float _ :: _) => (gather float? as).map .floats
  | as@(.string _ :: _) => (gather string? as).map .strings
  | a :: _ => .error (.unsupported (.noList a.shown))

end BoundSql.Argument
