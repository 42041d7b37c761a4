import BoundSql.Text
import BoundSql.Unicode.Printable
import BoundSql.Unicode.Extending

/-!
# Values shown in messages

A text or a run of bytes is shown in double quotes with everything invisible spelt out.

* `shown`        a text: `"`, `\`, `\0`, `\t`, `\n`, `\r` by name, unprintable and combining code
                 points by number;
* `shownBytes`   bytes: printable ASCII as it is, the other bytes in hexadecimal;
* `shownList`    elements in square brackets;
* `hexByte`, `readHex?`   bytes in hexadecimal.
-/

namespace BoundSql

def hexDigits (n : Nat) : Text := Nat.toDigits 16 n

def hexByte (b : UInt8) : Text := [Nat.digitChar (b.toNat / 16), Nat.digitChar (b.toNat % 16)]

def hexValue? (c : Char) : Option Nat :=
  if c.isDigit then some (c.toNat - '0'.toNat)
  else if 'a' ≤ c ∧ c ≤ 'f' then some (c.toNat - 'a'.toNat + 10)
  else if 'A' ≤ c ∧ c ≤ 'F' then some (c.toNat - 'A'.toNat + 10)
  else none

/-- the bytes of a text of hexadecimal digits, two for each -/
def readHex? : Text → Option (List UInt8)
  | [] => some []
  | [_] => none
  | a :: b :: t => do
    let high ← hexValue? a
    let low ← hexValue? b
    let bytes ← readHex? t
    return UInt8.ofNat (16 * high + low) :: bytes

def namedEscape? (c : Char) : Option Text :=
  if c = '\x00' then some "\\0".toList
  else if c = '\t' then some "\\t".toList
  else if c = '\n' then some "\\n".toList
  else if c = '\r' then some "\\r".toList
  else if c = '"' then some "\\\"".toList
  else if c = '\\' then some "\\\\".toList
  else none

def shownChar (c : Char) : Text :=
  match namedEscape? c with
  | some escape => escape
  | none =>
    if Unicode.printable.contains c && !Unicode.extending.contains c then [c]
    else "\\u\x7b".toList ++ hexDigits c.toNat ++ "\x7d".toList

def shownText (t : Text) : Text := '"' :: t.flatMap shownChar ++ ['"']

def shown (s : String) : String := String.ofList (shownText s.toList)

def shownByte (b : UInt8) : Text :=
  match namedEscape? (Char.ofNat b.toNat) with
  | some escape => escape
  | none => if 0x20 ≤ b ∧ b < 0x7F then [Char.ofNat b.toNat] else "\\x".toList ++ hexByte b

def shownBytes (bytes : List UInt8) : String :=
  String.ofList ("b\"".toList ++ bytes.flatMap shownByte ++ ['"'])

def shownList (items : List String) : String := "[" ++ ", ".intercalate items ++ "]"

end BoundSql
