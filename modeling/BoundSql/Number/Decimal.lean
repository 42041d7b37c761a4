import BoundSql.Text
import BoundSql.Number.Binary

/-!
# Decimal numerals

* `Decimal`              `± digits · 10 ^ exponent`;
* `Decimal.ofText?`      reads `[+-] digits [. digits] [e [+-] digits]`, a digit before or behind
                         the point being enough;
* `Decimal.nearest`      the nearest number of a binary format;
* `readFloat?`           a numeral or one of the words `inf`, `infinity`, `nan` in any case.
-/

namespace BoundSql.Number

structure Decimal where
  negative : Bool
  digits : Nat
  exponent : Int
  deriving DecidableEq, Repr

def digitValue (c : Char) : Nat := c.toNat - '0'.toNat

def digitsValue (ds : Text) : Nat := ds.foldl (fun n c => 10 * n + digitValue c) 0

def spanDigits (t : Text) : Text × Text := (t.takeWhile Char.isDigit, t.dropWhile Char.isDigit)

def spanSign : Text → Bool × Text
  | '-' :: t => (true, t)
  | '+' :: t => (false, t)
  | t => (false, t)

def readExponent? : Text → Option Int
  | [] => some 0
  | c :: t =>
    if c = 'e' ∨ c = 'E' then
      let (negative, t) := spanSign t
      let (ds, rest) := spanDigits t
      if ds = [] ∨ rest ≠ [] then none
      else some (if negative then -(digitsValue ds : Int) else digitsValue ds)
    else none

def spanFraction : Text → Text × Text
  | '.' :: t => spanDigits t
  | t => ([], t)

namespace Decimal

def ofText? (t : Text) : Option Decimal :=
  let (negative, t) := spanSign t
  let (whole, t) := spanDigits t
  let (fraction, t) := spanFraction t
  if whole = [] ∧ fraction = [] then none
  else (readExponent? t).map fun exponent =>
    { negative, digits := digitsValue (whole ++ fraction), exponent := exponent - fraction.length }

/-- the nearest number of a format; the first two cases only keep the powers of ten small -/
def nearest (f : Format) (d : Decimal) : Parts :=
  let size : Int := (Nat.toDigits 10 d.digits).length + d.exponent
  let magnitude :=
    if d.digits = 0 ∨ size < -400 then .finite false 0 f.least
    else if 400 < size then .infinite false
    else if 0 ≤ d.exponent then f.nearest (d.digits * pow10 d.exponent.toNat) 1
    else f.nearest d.digits (pow10 (-d.exponent).toNat)
  if d.negative then magnitude.negate else magnitude

end Decimal

def readWord? (t : Text) : Option Parts :=
  let (negative, word) := spanSign t
  let word := word.map Char.toLower
  if word = "inf".toList ∨ word = "infinity".toList then some (.infinite negative)
  else if word = "nan".toList then some .nan
  else none

def readParts? (f : Format) (t : Text) : Option Parts :=
  (readWord? t).or ((Decimal.ofText? t).map (·.nearest f))

def readFloat? (t : Text) : Option Float := (readParts? .double t).map (·.toFloat)

def readSingle? (t : Text) : Option Float := (readParts? .single t).map (·.widen.toFloat)

end BoundSql.Number
