import BoundSql.Number.Decimal

/-!
# Numbers of JSON texts

* `Numeral`            a number as it is written;
* `Numeral.span?`      reads one from the beginning of a text;
* `Numeral.natural?`, `Numeral.integer?`   its value as a whole number of 64 bits;
* `Numeral.float?`     its value as a double.

A double comes from the leading digits that fit into 64 bits, multiplied or divided by a power of
ten.  Both steps round, so the last digit may differ from that of the nearest double.
-/

namespace BoundSql.Json

open Number

structure Numeral where
  negative : Bool
  whole : Text
  fraction : Text
  exponent : Option (Bool × Text)
  deriving DecidableEq, Repr

namespace Numeral

def ofNat (n : Nat) : Numeral := ⟨false, Text.ofNat n, [], none⟩

/-! ## reading -/

/-- the digits of a whole part: at least one, and no zero in front of others -/
def spanWhole? (t : Text) : Option (Text × Text) :=
  match spanDigits t with
  | ([], _) => none
  | ('0' :: _ :: _, _) => none
  | (ds, rest) => some (ds, rest)

/-- a point with at least one digit behind it, or nothing -/
def spanPoint? : Text → Option (Text × Text)
  | '.' :: t =>
    match spanDigits t with
    | ([], _) => none
    | (ds, rest) => some (ds, rest)
  | t => some ([], t)

/-- an exponent with at least one digit, or nothing -/
def spanExponent? : Text → Option (Option (Bool × Text) × Text)
  | [] => some (none, [])
  | c :: t =>
    if c = 'e' ∨ c = 'E' then
      let (negative, t) := spanSign t
      match spanDigits t with
      | ([], _) => none
      | (ds, rest) => some (some (negative, ds), rest)
    else some (none, c :: t)

def span? (t : Text) : Option (Numeral × Text) := do
  let (negative, t) := if t.head? = some '-' then (true, t.drop 1) else (false, t)
  let (whole, t) ← spanWhole? t
  let (fraction, t) ← spanPoint? t
  let (exponent, t) ← spanExponent? t
  return (⟨negative, whole, fraction, exponent⟩, t)

/-! ## whole numbers -/

def isPlain (n : Numeral) : Bool := n.fraction = [] && n.exponent = none

def natural? (n : Numeral) : Option Nat :=
  let v := digitsValue n.whole
  if n.isPlain ∧ n.negative = false ∧ v < UInt64.size then some v else none

/-- a whole number of 64 bits, signed if it is negative; a negative zero is none -/
def integer? (n : Numeral) : Option Int :=
  if n.negative then
    let v := digitsValue n.whole
    if n.isPlain ∧ 0 < v ∧ v ≤ Int64.minValue.toInt.natAbs then some (-(v : Int)) else none
  else n.natural?.map Int.ofNat

/-! ## doubles -/

/-- `n` with further digits of the whole part as far as they fit into 64 bits, and how many were
left out -/
def wholeDigits (n : Nat) : Text → Nat × Int
  | [] => (n, 0)
  | c :: t =>
    let m := 10 * n + digitValue c
    if m < UInt64.size then wholeDigits m t else (n, t.length + 1)

/-- `n` with digits of the fraction as far as they fit, and the power of ten that they take away -/
def fractionDigits (n : Nat) : Text → Nat × Int
  | [] => (n, 0)
  | c :: t =>
    let m := 10 * n + digitValue c
    if m < UInt64.size then
      let (all, power) := fractionDigits m t
      (all, power - 1)
    else (n, 0)

def exponentValue (n : Numeral) : Int :=
  match n.exponent with
  | none => 0
  | some (negative, ds) => if negative then -(digitsValue ds : Int) else digitsValue ds

def nearestFloat (n : Nat) (e : Nat) : Float := ((⟨false, n, e⟩ : Decimal).nearest .double).toFloat

def powerOfTen (e : Nat) : Float := nearestFloat 1 e

/-- `x · 10 ^ e` by one operation, or by two where the power is too small for a double; `none` beyond
the doubles -/
def scale? (x : Float) (e : Int) : Option Float :=
  if 308 < e then if x == 0 then some x else none
  else if 0 ≤ e then
    let y := x * powerOfTen e.toNat
    if y.isFinite then some y else none
  else if -308 ≤ e then some (x / powerOfTen (-e).toNat)
  else if -616 ≤ e then some (x / powerOfTen 308 / powerOfTen (-e - 308).toNat)
  else some 0

/-- the double that the number stands for, if it is not too large -/
def float? (n : Numeral) : Option Float := do
  let (whole, left) := wholeDigits 0 n.whole
  let (digits, power) := fractionDigits whole n.fraction
  let x ← scale? (nearestFloat digits 0) (left + power + n.exponentValue)
  return if n.negative then -x else x

end Numeral

end BoundSql.Json
