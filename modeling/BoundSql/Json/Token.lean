import BoundSql.Json.Numeral
import BoundSql.Text.Shown

/-!
# Tokens of JSON texts

* `Token`            the words and marks of a JSON text;
* `Piece`            a character of a string, written as it is or by its UTF-16 code;
* `joinPieces?`      the characters of a string, unless a code is half of one;
* `Token.next?`      the token at the beginning of a text;
* `Token.all?`       the tokens of a whole text.
-/

namespace BoundSql.Json

inductive Token where
  | openList
  | closeList
  | openObject
  | closeObject
  | comma
  | colon
  | null
  | bool (b : Bool)
  | number (n : Numeral)
  | string (t : Option Text)
  deriving DecidableEq, Repr

/-! ## strings -/

inductive Piece where
  | char (c : Char)
  /-- `\u` and four hexadecimal digits -/
  | code (unit : Nat)
  deriving DecidableEq, Repr

def isHigh (unit : Nat) : Bool := 0xD800 ≤ unit && unit < 0xDC00
def isLow (unit : Nat) : Bool := 0xDC00 ≤ unit && unit < 0xE000

/-- the characters of a string; a high code needs a low one behind it, and the other way round -/
def joinPieces? : List Piece → Option Text
  | [] => some []
  | .char c :: ps => (joinPieces? ps).map (c :: ·)
  | .code high :: .code low :: ps =>
    if isHigh high then
      if isLow low then
        (joinPieces? ps).map
          (Char.ofNat (0x10000 + (high - 0xD800) * 0x400 + (low - 0xDC00)) :: ·)
      else none
    else if isLow high then none
    else (joinPieces? (.code low :: ps)).map (Char.ofNat high :: ·)
  | .code unit :: ps =>
    if isHigh unit || isLow unit then none else (joinPieces? ps).map (Char.ofNat unit :: ·)

def letterEscape? (c : Char) : Option Char :=
  if c = '"' ∨ c = '\\' ∨ c = '/' then some c
  else if c = 'b' then some '\x08'
  else if c = 'f' then some '\x0c'
  else if c = 'n' then some '\n'
  else if c = 'r' then some '\r'
  else if c = 't' then some '\t'
  else none

def hexUnit? (a b c d : Char) : Option Nat := do
  return ((← hexValue? a) * 16 + (← hexValue? b)) * 256 + (← hexValue? c) * 16 + (← hexValue? d)

/-- the pieces of a string up to its closing quote, and what follows; control characters must be
escaped -/
def spanPieces? : Text → Option (List Piece × Text)
  | [] => none
  | '"' :: t => some ([], t)
  | '\\' :: 'u' :: a :: b :: c :: d :: t => do
    let unit ← hexUnit? a b c d
    let (ps, rest) ← spanPieces? t
    return (.code unit :: ps, rest)
  | '\\' :: e :: t => do
    let c ← letterEscape? e
    let (ps, rest) ← spanPieces? t
    return (.char c :: ps, rest)
  | c :: t =>
    if c < ' ' ∨ c = '\\' then none
    else do
      let (ps, rest) ← spanPieces? t
      return (.char c :: ps, rest)

/-! ## tokens -/

namespace Token

def isSpace (c : Char) : Bool := c = ' ' || c = '\n' || c = '\t' || c = '\r'

def mark? (c : Char) : Option Token :=
  if c = '[' then some .openList
  else if c = ']' then some .closeList
  else if c = '\x7b' then some .openObject
  else if c = '\x7d' then some .closeObject
  else if c = ',' then some .comma
  else if c = ':' then some .colon
  else none

def next? : Text → Option (Token × Text)
  | 'n' :: 'u' :: 'l' :: 'l' :: t => some (.null, t)
  | 't' :: 'r' :: 'u' :: 'e' :: t => some (.bool true, t)
  | 'f' :: 'a' :: 'l' :: 's' :: 'e' :: t => some (.bool false, t)
  | '"' :: t => (spanPieces? t).map fun (ps, rest) => (.string (joinPieces? ps), rest)
  | c :: t =>
    match mark? c with
    | some token => some (token, t)
    | none => (Numeral.span? (c :: t)).map fun (n, rest) => (.number n, rest)
  | [] => none

/-- the tokens of a whole text; a token takes at least one character -/
def all? (t : Text) : Option (List Token) :=
  match t with
  | [] => some []
  | c :: rest =>
    if isSpace c then all? rest
    else
      match next? (c :: rest) with
      | none => none
      | some (token, rest') =>
        if rest'.length < rest.length + 1 then (all? rest').map (token :: ·) else none
termination_by t.length

end Token

end BoundSql.Json
