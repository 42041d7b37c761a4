/-!
# Binary floating point numbers as integers

A finite number is `± m · 2 ^ q`.  Rounding happens on exact fractions of natural numbers.

* `Format`          precision and exponent range; `Format.double`, `Format.single`;
* `Parts`           a float taken apart, `Parts.ofFloat` and `Parts.toFloat`;
* `Format.nearest`  the nearest number of a format to a fraction, a tie to the even mantissa.
-/

namespace BoundSql.Number

def pow2 (n : Nat) : Nat := Nat.pow 2 n
def pow10 (n : Nat) : Nat := Nat.pow 10 n

/-- a binary format: mantissas below `2 ^ precision`, exponents from `least` to `greatest` -/
structure Format where
  precision : Nat
  least : Int
  greatest : Int

namespace Format

def double : Format := ⟨53, -1074, 971⟩
def single : Format := ⟨24, -149, 104⟩

end Format

inductive Parts where
  | nan
  | infinite (negative : Bool)
  /-- `± mantissa · 2 ^ exponent` -/
  | finite (negative : Bool) (mantissa : Nat) (exponent : Int)
  deriving DecidableEq, Repr

namespace Parts

/-- sign, eleven exponent bits and fifty-two mantissa bits of a double -/
def ofFloat (x : Float) : Parts :=
  let bits := x.toBits.toNat
  let negative : Bool := bits / pow2 63 = 1
  let exponent : Nat := bits / pow2 52 % pow2 11
  let mantissa := bits % pow2 52
  if exponent = 2047 then if mantissa = 0 then .infinite negative else .nan
  else if exponent = 0 then .finite negative mantissa (-1074)
  else .finite negative (pow2 52 + mantissa) ((exponent : Int) - 1075)

/-- the bits of a double without its sign; a mantissa below `2 ^ 52` is a subnormal one -/
def magnitudeBits (mantissa : Nat) (exponent : Int) : Nat :=
  if mantissa < pow2 52 then mantissa
  else if pow2 53 ≤ mantissa then (exponent + 1076).toNat * pow2 52
  else (exponent + 1075).toNat * pow2 52 + (mantissa - pow2 52)

def toFloat : Parts → Float
  | .nan => Float.ofBits 0x7FF8000000000000
  | .infinite negative => Float.ofBits (if negative then 0xFFF0000000000000 else 0x7FF0000000000000)
  | .finite negative mantissa exponent =>
    Float.ofBits (.ofNat ((if negative then pow2 63 else 0) + magnitudeBits mantissa exponent))

def negate : Parts → Parts
  | .nan => .nan
  | .infinite negative => .infinite (!negative)
  | .finite negative mantissa exponent => .finite (!negative) mantissa exponent

end Parts

/-- quotient rounded to the nearest whole number, a tie to the even one -/
def roundDiv (num den : Nat) : Nat :=
  let down := num / den
  let twice := 2 * (num % den)
  if twice < den then down
  else if den < twice then down + 1
  else if down % 2 = 0 then down else down + 1

/-- the fraction `num / den · 2 ^ (-shift)` as numerator and denominator -/
def shifted (num den : Nat) (shift : Int) : Nat × Nat :=
  if 0 ≤ shift then (num, den * pow2 shift.toNat) else (num * pow2 (-shift).toNat, den)

namespace Format

/-- the exponent at which `num / den` has as many mantissa bits as the format holds -/
def exponentOf (f : Format) (num den : Nat) : Int :=
  let guess : Int := (Nat.log2 num : Int) - (Nat.log2 den : Int) - f.precision
  let (n, d) := shifted num den guess
  max f.least (if pow2 f.precision ≤ n / d then guess + 1 else guess)

/-- the number of the format nearest to `num / den`, infinite beyond the greatest one -/
def nearest (f : Format) (num den : Nat) : Parts :=
  if num = 0 then .finite false 0 f.least
  else
    let exponent := f.exponentOf num den
    let (n, d) := shifted num den exponent
    let mantissa := roundDiv n d
    let (mantissa, exponent) :=
      if pow2 f.precision ≤ mantissa then (mantissa / 2, exponent + 1) else (mantissa, exponent)
    if f.greatest < exponent then .infinite false else .finite false mantissa exponent

end Format

def Parts.widen : Parts → Parts
  | .finite negative mantissa exponent =>
    let wide :=
      if 0 ≤ exponent then Format.double.nearest (mantissa * pow2 exponent.toNat) 1
      else Format.double.nearest mantissa (pow2 (-exponent).toNat)
    if negative then wide.negate else wide
  | other => other

end BoundSql.Number
