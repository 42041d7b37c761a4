import BoundSql.Text

/-!
# Durations

`Duration.shown` takes the largest unit that leaves a whole part, and as many decimals as needed.
-/

namespace BoundSql

/-- whole seconds and nanoseconds below a thousand million -/
structure Duration where
  secs : Nat
  nanos : Nat
  deriving DecidableEq, Repr

namespace Duration

def ofMillis (ms : Nat) : Duration := ⟨ms / 1000, ms % 1000 * 1000000⟩

def toMillis (d : Duration) : Nat := d.secs * 1000 + d.nanos / 1000000

/-- `whole` followed by the decimals of `part` out of `10 ^ places`, without trailing zeros -/
def decimalText (whole part places : Nat) : Text :=
  if part = 0 then Text.ofNat whole
  else
    let ds := Text.ofNat part
    let all := List.replicate (places - ds.length) '0' ++ ds
    Text.ofNat whole ++ '.' :: (all.reverse.dropWhile (· = '0')).reverse

def text (d : Duration) : Text :=
  if 0 < d.secs then decimalText d.secs d.nanos 9 ++ ['s']
  else if 1000000 ≤ d.nanos then decimalText (d.nanos / 1000000) (d.nanos % 1000000) 6 ++ ['m', 's']
  else if 1000 ≤ d.nanos then decimalText (d.nanos / 1000) (d.nanos % 1000) 3 ++ ['µ', 's']
  else Text.ofNat d.nanos ++ ['n', 's']

def shown (d : Duration) : String := String.ofList d.text

end Duration

end BoundSql
