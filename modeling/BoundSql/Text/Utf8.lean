import BoundSql.Text

/-!
# Reading bytes as UTF-8

* `decode?`   the text of well-formed bytes;
* `lossy`     a text for any bytes: U+FFFD stands for each longest run that could still have
              become a character, or for a single byte that starts none.
-/

namespace BoundSql.Utf8

def decode? (bytes : List UInt8) : Option Text :=
  (String.fromUTF8? ⟨bytes.toArray⟩).map String.toList

def replacement : Char := '\uFFFD'

/-- how many bytes follow a first byte, and the range of the one behind it; `none` starts nothing -/
def lead? (b : UInt8) : Option (Nat × UInt8 × UInt8) :=
  if b < 0x80 then some (0, 0, 0)
  else if b < 0xC2 then none
  else if b < 0xE0 then some (1, 0x80, 0xBF)
  else if b = 0xE0 then some (2, 0xA0, 0xBF)
  else if b = 0xED then some (2, 0x80, 0x9F)
  else if b < 0xF0 then some (2, 0x80, 0xBF)
  else if b = 0xF0 then some (3, 0x90, 0xBF)
  else if b < 0xF4 then some (3, 0x80, 0xBF)
  else if b = 0xF4 then some (3, 0x80, 0x8F)
  else none

def leadBits (b : UInt8) (more : Nat) : Nat :=
  if more = 0 then b.toNat else b.toNat % Nat.pow 2 (6 - more)

/-- the text of the bytes while `more` of them are owed, the next one between `low` and `high`,
and `code` is what the character has so far -/
def lossyFrom (more : Nat) (low high : UInt8) (code : Nat) : List UInt8 → Text
  | [] => if more = 0 then [] else [replacement]
  | b :: bytes =>
    if more ≠ 0 ∧ low ≤ b ∧ b ≤ high then
      let code := code * 64 + b.toNat % 64
      if more = 1 then Char.ofNat code :: lossyFrom 0 0 0 0 bytes
      else lossyFrom (more - 1) 0x80 0xBF code bytes
    else
      let broken := if more = 0 then [] else [replacement]
      match lead? b with
      | none => broken ++ replacement :: lossyFrom 0 0 0 0 bytes
      | some (0, _, _) => broken ++ Char.ofNat b.toNat :: lossyFrom 0 0 0 0 bytes
      | some (owed, low, high) => broken ++ lossyFrom owed low high (leadBits b owed) bytes

def lossy (bytes : List UInt8) : Text := lossyFrom 0 0 0 0 bytes

end BoundSql.Utf8
