import BoundSql.Argument

/-!
# SQL literals

* `escapeChar`, `escape`   a text as a string literal in single quotes;
* `hexLiteral`             bytes as `X'…'`;
* `bytesLiteral`           bytes as a string literal if they are UTF-8, in hexadecimal if not;
* `Argument.literal`       the literal of one scalar argument;
* `literalList`            the literals of several, with parentheses unless they are there already.
-/

namespace BoundSql

def escapeChar (c : Char) : Text :=
  if c = '\x00' then "\\0".toList
  else if c = '\n' then "\\n".toList
  else if c = '\r' then "\\r".toList
  else if c = '\\' then "\\\\".toList
  else if c = '\'' then "\\'".toList
  else if c = '"' then "\\\"".toList
  else if c = '\x1a' then "\\Z".toList
  else [c]

def escape (t : Text) : Text := '\'' :: t.flatMap escapeChar ++ ['\'']

def hexLiteral (bytes : List UInt8) : Text := 'X' :: '\'' :: bytes.flatMap hexByte ++ ['\'']

def bytesLiteral (bytes : List UInt8) : Text :=
  match Utf8.decode? bytes with
  | some t => escape t
  | none => hexLiteral bytes

namespace Argument

def plainLiteral : Argument → Except Error Text
  | .null => .ok "NULL".toList
  | .bool b => .ok [if b then '1' else '0']
  | .int i => .ok (intText i).toList
  | .float x =>
    if x.isFinite then .ok (floatText x).toList
    else .error (.unsupported (.nonFiniteFloat (floatText x)))
  | .string s => .ok (escape s.toList)
  | .bytes b => .ok (bytesLiteral b)
  | .time t => .ok ('\'' :: t.literal ++ ['\''])
  | .pending => .error (.mismatch .unassembled)
  | list => .error (.mismatch (.listForOnePlaceholder list.shown))

/-- the literal of a scalar; a driver value has the literal of what it stands for -/
def literal : Argument → Except Error Text
  | .value _ look resolved => do (← resolve look resolved).plainLiteral
  | scalar => scalar.plainLiteral

end Argument

/-- literals with commas between them, in parentheses unless they are `enclosed` already; no
literals are NULL, and a single one needs no parentheses -/
def literalList (enclosed : Bool) (items : Arguments) : Except Error Text := do
  let texts ← items.mapM Argument.literal
  let list := if texts = [] then "NULL".toList else Text.separated [','] texts
  if enclosed || texts.length = 1 then return list else return '(' :: list ++ [')']

end BoundSql
