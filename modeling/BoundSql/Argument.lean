import BoundSql.Error
import BoundSql.Number.Shortest
import BoundSql.Text.Utf8
import BoundSql.Timestamp

/-!
# Arguments

An argument is what a statement binds to a placeholder: a scalar, a list of scalars of one kind, a
value that only the driver knows, or the marker of a value that a record will supply.

* `Argument`               the kinds of arguments;
* `Argument.length`        how many values one holds, none for NULL;
* `Argument.scalars`       the values, resolved and one by one;
* `Argument.same`          equality; driver values are equal when they are one and the same;
* `Argument.text`, `Argument.shown`   the plain and the tagged text of an argument;
* `Arguments`              a list of arguments, with `slotCount`, `flatten` and `text`.
-/

namespace BoundSql

inductive Argument where
  /-- SQL NULL: one slot in VALUES and SET, none in a comparison -/
  | null
  | bool (value : Bool)
  | int (value : Int64)
  | float (value : Float)
  | string (value : String)
  | bytes (value : List UInt8)
  | time (value : Timestamp)
  | bools (values : List Bool)
  | ints (values : List Int64)
  | floats (values : List Float)
  | strings (values : List String)
  | bytesList (values : List (List UInt8))
  | times (values : List Timestamp)
  /-- a driver's own value: which one it is, how it looks in texts, and the scalar it stands for -/
  | value (identity : Nat) (look : String) (resolved : Except Error Argument)
  /-- the place of a value that a record supplies -/
  | pending

abbrev Arguments := List Argument

namespace Argument

/-- number of values; NULL has none -/
def length : Argument → Nat
  | .null => 0
  | .bools vs => vs.length
  | .ints vs => vs.length
  | .floats vs => vs.length
  | .strings vs => vs.length
  | .bytesList vs => vs.length
  | .times vs => vs.length
  | _ => 1

def isEmpty (a : Argument) : Bool := a.length == 0

def isList : Argument → Bool
  | .bools _ | .ints _ | .floats _ | .strings _ | .bytesList _ | .times _ => true
  | _ => false

def isNull : Argument → Bool
  | .null => true
  | _ => false

def isPending : Argument → Bool
  | .pending => true
  | _ => false

def isValue : Argument → Bool
  | .value _ _ _ => true
  | _ => false

/-- placeholders that an argument fills when lists bind value by value and NULL binds one -/
def slots (a : Argument) : Nat := if a.isList then a.length else 1

/-! ## equality -/

def allSame {α : Type} (same : α → α → Bool) : List α → List α → Bool
  | [], [] => true
  | a :: as, b :: bs => same a b && allSame same as bs
  | _, _ => false

/-- equal values; floats compare as numbers, driver values by identity -/
def same : Argument → Argument → Bool
  | .null, .null => true
  | .bool a, .bool b => a == b
  | .int a, .int b => a == b
  | .float a, .float b => a == b
  | .string a, .string b => a == b
  | .bytes a, .bytes b => a == b
  | .time a, .time b => a == b
  | .bools a, .bools b => a == b
  | .ints a, .ints b => a == b
  | .floats a, .floats b => allSame (· == ·) a b
  | .strings a, .strings b => a == b
  | .bytesList a, .bytesList b => a == b
  | .times a, .times b => a == b
  | .value a _ _, .value b _ _ => a == b
  | .pending, .pending => true
  | _, _ => false

/-! ## texts -/

def boolText (b : Bool) : String := if b then "true" else "false"
def intText (i : Int64) : String := toString i.toInt
def floatText (x : Float) : String := String.ofList (Number.FloatStyle.plain.text x)
def floatShown (x : Float) : String := String.ofList (Number.FloatStyle.tagged.text x)
def bytesText (b : List UInt8) : String := String.ofList (Utf8.lossy b)
def timeText (t : Timestamp) : String := String.ofList t.literal

def spaced (items : List String) : String := " ".intercalate items

def text : Argument → String
  | .null => "<nil>"
  | .bool b => boolText b
  | .int i => intText i
  | .float x => floatText x
  | .string s => s
  | .bytes b => bytesText b
  | .time t => timeText t
  | .bools vs => spaced (vs.map boolText)
  | .ints vs => spaced (vs.map intText)
  | .floats vs => spaced (vs.map floatText)
  | .strings vs => spaced vs
  | .bytesList vs => spaced (vs.map bytesText)
  | .times vs => spaced (vs.map timeText)
  | .value _ look _ => look
  | .pending => "<pending>"

def tag (kind content : String) : String := kind ++ "(" ++ content ++ ")"

def shown : Argument → String
  | .null => "Null"
  | .bool b => tag "Bool" (boolText b)
  | .int i => tag "Int" (intText i)
  | .float x => tag "Float" (floatShown x)
  | .string s => tag "String" (BoundSql.shown s)
  | .bytes b => tag "Bytes" (shownBytes b)
  | .time t => tag "Time" t.shown
  | .bools vs => tag "Bools" (shownList (vs.map boolText))
  | .ints vs => tag "Ints" (shownList (vs.map intText))
  | .floats vs => tag "Floats" (shownList (vs.map floatShown))
  | .strings vs => tag "Strings" (shownList (vs.map BoundSql.shown))
  | .bytesList vs => tag "BytesList" (shownList (vs.map shownBytes))
  | .times vs => tag "Times" (shownList (vs.map Timestamp.shown))
  | .value _ look _ => tag "Value" look
  | .pending => "Pending"

/-! ## scalars -/

/-- what a driver value stands for, which is neither a list nor another driver value -/
def resolve (look : String) (resolved : Except Error Argument) : Except Error Argument := do
  let a ← resolved
  if a.isList || a.isValue then throw (.unsupported (.driverValue look))
  return a

/-- the values of an argument one by one, driver values resolved; NULL is one value -/
def scalars : Argument → Except Error Arguments
  | .bools vs => .ok (vs.map .bool)
  | .ints vs => .ok (vs.map .int)
  | .floats vs => .ok (vs.map .float)
  | .strings vs => .ok (vs.map .string)
  | .bytesList vs => .ok (vs.map .bytes)
  | .times vs => .ok (vs.map .time)
  | .value _ look resolved => (resolve look resolved).map ([·])
  | .pending => .error (.mismatch .unassembled)
  | scalar => .ok [scalar]

end Argument

/-! ## lists of arguments -/

namespace Arguments

def slotCount : Arguments → Nat
  | [] => 0
  | a :: as => a.slots + slotCount as

theorem slotCount_nil : slotCount [] = 0 := rfl
theorem slotCount_cons (a : Argument) (as : Arguments) :
    slotCount (a :: as) = a.slots + slotCount as := rfl
theorem slotCount_append (as bs : Arguments) :
    slotCount (as ++ bs) = slotCount as + slotCount bs := by
  induction as with
  | nil => exact (Nat.zero_add _).symm
  | cons a as ih => rw [List.cons_append, slotCount_cons, slotCount_cons, ih, Nat.add_assoc]

def flatten : Arguments → Except Error Arguments
  | [] => .ok []
  | a :: as => do
    let first ← a.scalars
    let rest ← flatten as
    return first ++ rest

theorem flatten_nil : flatten [] = .ok [] := rfl

theorem flatten_cons_ok {a : Argument} {as first rest : Arguments} (ha : a.scalars = .ok first)
    (has : flatten as = .ok rest) : flatten (a :: as) = .ok (first ++ rest) := by
  rw [flatten, ha, has]
  rfl

def hasPending (as : Arguments) : Bool := as.any Argument.isPending

def same (as bs : Arguments) : Bool := Argument.allSame Argument.same as bs

def text (as : Arguments) : String := "[" ++ Argument.spaced (as.map Argument.text) ++ "]"

end Arguments

end BoundSql
