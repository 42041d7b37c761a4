import BoundSql.Text
import BoundSql.Number.Binary

/-!
# The shortest decimal text of a float

Among the decimals that read back as the float, the ones with the fewest digits are short enough
to write; of these the nearest to the float is taken, and the larger one on a tie.

* `Shortest.Window`        the decimals that read back, as an interval of fractions;
* `Shortest.digits`        the digits found, with the place of the point;
* `FloatStyle`             what is written around the digits;
* `FloatStyle.text`        the text of a float in a style.
-/

namespace BoundSql.Number

namespace Shortest

/-- the value `value / unit`, and the interval of numbers that round to it -/
structure Window where
  unit : Nat
  low : Nat
  value : Nat
  high : Nat
  /-- whether the ends of the interval round to the value too -/
  closed : Bool

namespace Window

/-- the window of `mantissa · 2 ^ exponent`; below a power of two the lower gap is half as wide -/
def ofParts (mantissa : Nat) (exponent : Int) : Window :=
  let scale := if 2 ≤ exponent then pow2 (exponent - 2).toNat else 1
  { unit := if 2 ≤ exponent then 1 else pow2 (2 - exponent).toNat
    low := (4 * mantissa - if mantissa = pow2 52 then 1 else 2) * scale
    value := 4 * mantissa * scale
    high := (4 * mantissa + 2) * scale
    closed := mantissa % 2 = 0 }

def scaled (w : Window) (power : Int) : Window :=
  if 0 ≤ power then
    let f := pow10 power.toNat
    { w with low := w.low * f, value := w.value * f, high := w.high * f }
  else { w with unit := w.unit * pow10 (-power).toNat }

def holds (w : Window) (n : Nat) : Bool :=
  if w.closed then w.low ≤ n * w.unit && n * w.unit ≤ w.high
  else w.low < n * w.unit && n * w.unit < w.high

/-- the whole number in the window next to its value, if one of the two neighbours is in it -/
def whole? (w : Window) : Option Nat :=
  let down := w.value / w.unit
  let upNearer : Bool := w.unit ≤ 2 * (w.value - down * w.unit)
  match w.holds down, w.holds (down + 1) with
  | true, true => some (if upNearer then down + 1 else down)
  | true, false => some down
  | false, true => some (down + 1)
  | false, false => none

def floor (w : Window) : Nat := w.value / w.unit

/-- how many zeros follow the point before the first digit of a value below one -/
def leadingZeros (w : Window) : Nat → Nat
  | 0 => 0
  | fuel + 1 =>
    if w.unit ≤ w.value * 10 ∨ w.value = 0 then 0
    else 1 + leadingZeros { w with value := w.value * 10 } fuel

/-- the place of the point: `10 ^ (p - 1) ≤ value < 10 ^ p` -/
def point (w : Window) : Int :=
  if w.floor = 0 then -(w.leadingZeros 400 : Int) else (Nat.toDigits 10 w.floor).length

end Window

/-- the first grid, from `count` digits on, with a point in the window -/
def search (w : Window) (point : Int) (count : Nat) : Nat → Nat × Int
  | 0 => ((w.scaled (17 - point)).floor, point - 17)
  | fuel + 1 =>
    match (w.scaled (count - point)).whole? with
    | some n => (n, point - count)
    | none => search w point (count + 1) fuel

def stripZeros (n : Nat) (exponent : Int) : Nat → Nat × Int
  | 0 => (n, exponent)
  | fuel + 1 => if n % 10 = 0 ∧ n ≠ 0 then stripZeros (n / 10) (exponent + 1) fuel else (n, exponent)

/-- the digits `d₁ d₂ …` and the place `p` of the point in `0.d₁d₂… · 10 ^ p` -/
def digits (mantissa : Nat) (exponent : Int) : Text × Int :=
  let w := Window.ofParts mantissa exponent
  let (n, e) := search w w.point 1 17
  let (n, e) := stripZeros n e 20
  let ds := Text.ofNat n
  (ds, e + ds.length)

end Shortest

structure FloatStyle where
  wholePoint : Bool
  /-- the places of the point at which an exponent is written -/
  scientific : Int → Bool

namespace FloatStyle

/-- always positional, and a whole number without a point -/
def plain : FloatStyle := ⟨false, fun _ => false⟩

/-- told apart from whole numbers; from `1e16` on and below `1e-4` with an exponent -/
def tagged : FloatStyle := ⟨true, fun p => p ≤ -4 || 17 ≤ p⟩

def zeros (n : Nat) : Text := List.replicate n '0'

def positional (s : FloatStyle) (ds : Text) (p : Int) : Text :=
  if p ≤ 0 then "0.".toList ++ zeros (-p).toNat ++ ds
  else if ds.length ≤ p.toNat then
    ds ++ zeros (p.toNat - ds.length) ++ if s.wholePoint then ".0".toList else []
  else ds.take p.toNat ++ '.' :: ds.drop p.toNat

def exponential (ds : Text) (p : Int) : Text :=
  let tail := ds.drop 1
  ds.take 1 ++ (if tail = [] then [] else '.' :: tail) ++ 'e' :: (toString (p - 1)).toList

def magnitude (s : FloatStyle) (mantissa : Nat) (exponent : Int) : Text :=
  if mantissa = 0 then "0".toList ++ if s.wholePoint then ".0".toList else []
  else
    let (ds, p) := Shortest.digits mantissa exponent
    if s.scientific p then exponential ds p else s.positional ds p

def sign (negative : Bool) : Text := if negative then ['-'] else []

def text (s : FloatStyle) (x : Float) : Text :=
  match Parts.ofFloat x with
  | .nan => "NaN".toList
  | .infinite negative => sign negative ++ "inf".toList
  | .finite negative mantissa exponent => sign negative ++ s.magnitude mantissa exponent

end FloatStyle

end BoundSql.Number
