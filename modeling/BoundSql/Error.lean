import BoundSql.Text.Shown
import BoundSql.Duration

/-!
# Errors

An error says which statement, run or driver call could not be carried out, and why.

* `Required`      inputs that a statement or a run cannot do without;
* `Mismatch`      counts or groups that do not fit together;
* `Unsupported`   constructs that have no SQL form here;
* `Cause`         one of these, or what a driver, a record or a driver value reports;
* `Error`         a cause with the places it passed through, or the failure of a bulk run;
* `Error.within`  adds a place in front;
* `Error.message` the text shown to people.
-/

namespace BoundSql

inductive ErrorKind where
  | empty
  | mismatch
  | notSupported
  | encoding
  | driver
  deriving DecidableEq, Repr

def ErrorKind.heading : ErrorKind → String
  | .empty => "Empty input"
  | .mismatch => "Mismatch"
  | .notSupported => "Not supported"
  | .encoding => "Encoding error"
  | .driver => "Driver error"

/-! ## missing input -/

inductive Required where
  | identifier
  | conditionColumn
  | derivedTableAlias
  | joinConditions (join : String)
  | insertTable
  | insertValues
  | insertColumnsForRecords
  | insertColumnsOrValues
  | updateTable
  | updateColumns
  | deleteTable
  | unionSelects
  | unionTemplateKey
  | templateValues (key : String)
  | tableExpressions
  | finalStatement
  | bulkColumns
  | bulkRecords
  deriving DecidableEq, Repr

def Required.text : Required → String
  | .identifier => "identifier"
  | .conditionColumn => "condition column"
  | .derivedTableAlias => "derived table alias"
  | .joinConditions join => s!"conditions of {join}"
  | .insertTable => "insert table"
  | .insertValues => "insert values"
  | .insertColumnsForRecords => "insert columns for records"
  | .insertColumnsOrValues => "insert columns or values"
  | .updateTable => "update table"
  | .updateColumns => "update columns"
  | .deleteTable => "delete table"
  | .unionSelects => "union selects"
  | .unionTemplateKey => "union template key"
  | .templateValues key => s!"values for template key {shown key}"
  | .tableExpressions => "common table expressions"
  | .finalStatement => "final statement of WITH"
  | .bulkColumns => "record columns of the bulk statement"
  | .bulkRecords => "records"

/-! ## things that do not fit together -/

inductive Mismatch where
  /-- a text to be filled in, its arguments and the values they hold -/
  | renderedArguments (marks arguments values : Nat)
  | repeatedArguments (marks arguments : Nat)
  | templateArguments (sql : String) (marks values : Nat)
  | expressionArguments (sql : String) (arguments : Nat)
  | listForOnePlaceholder (list : String)
  | unassembled
  | operandPair (operator : String) (given : Nat)
  | operandOne (operator : String) (given : Nat)
  | coalesceOperand (given : Nat)
  | ifNullParts (given : Nat)
  | caseWithoutBranch
  | groupNotOpen
  | groupEmpty
  | groupsLeftOpen (depth : Nat)
  | recordShrank (before after : Nat)
  | recordColumns (produced columns : Nat)
  | recordDeferred (produced deferred : Nat)
  | deferredPosition (position bound : Nat)
  | valuesInRows (values width : Nat)
  | pairColumns (given columns : List String)
  | rowWidth (values width : Nat)
  | templateValueCount (key : String) (values : Nat) (first : String) (previous : Nat)
  | aliasCount (aliases columns : Nat)
  | boundValues (values placeholders : Nat)
  deriving DecidableEq, Repr

def Mismatch.text : Mismatch → String
  | .renderedArguments marks arguments values =>
    s!"{marks} placeholders but {arguments} arguments ({values} values)"
  | .repeatedArguments marks arguments => s!"{marks} placeholders but {arguments} arguments"
  | .templateArguments sql marks values =>
    s!"{shown sql} has {marks} placeholders but {values} arguments"
  | .expressionArguments sql arguments =>
    s!"expression {shown sql} has {arguments} arguments but no placeholder"
  | .listForOnePlaceholder list => s!"list argument {list} bound to a single placeholder"
  | .unassembled => "deferred placeholder has not been assembled from a record"
  | .operandPair operator given => s!"{operator} requires exactly 2 arguments, got {given}"
  | .operandOne operator given => s!"operator {operator} takes one argument, got {given}"
  | .coalesceOperand given => s!"COALESCE requires exactly 1 argument, got {given}"
  | .ifNullParts given => s!"IFNULL takes 1, 2 or 4 parts, got {given}"
  | .caseWithoutBranch => "CASE needs at least one WHEN/THEN pair"
  | .groupNotOpen => "closing parenthesis without an open group"
  | .groupEmpty => "empty parenthesized group"
  | .groupsLeftOpen depth => s!"{depth} parenthesized group(s) left open"
  | .recordShrank before after =>
    s!"assembler shrank the argument list from {before} to {after}"
  | .recordColumns produced columns => s!"assembler produced {produced} values for {columns} columns"
  | .recordDeferred produced deferred =>
    s!"assembler produced {produced} values for {deferred} deferred placeholders"
  | .deferredPosition position bound =>
    s!"deferred position {position} lies outside the assembled range {bound}"
  | .valuesInRows values width => s!"{values} values do not fill rows of {width} columns"
  | .pairColumns given columns =>
    s!"pair columns {shownList (given.map shown)} differ from {shownList (columns.map shown)}"
  | .rowWidth values width => s!"row of {values} values for {width} columns"
  | .templateValueCount key values first previous =>
    s!"template key {shown key} has {values} values, {shown first} has {previous}"
  | .aliasCount aliases columns => s!"{aliases} aliases for {columns} record columns"
  | .boundValues values placeholders =>
    s!"record bound {values} values for {placeholders} placeholders"

/-! ## things without an SQL form -/

inductive NameFault where
  | nul
  | trailingDot
  | unexpected (c : Char)
  | starNotLast
  | unclosedQuote
  | emptyQuoted
  | invalidCharacter (c : Char)
  | emptyPart
  deriving DecidableEq, Repr

def NameFault.text : NameFault → String
  | .nul => "NUL character"
  | .trailingDot => "trailing '.'"
  | .unexpected c => s!"unexpected '{c}'"
  | .starNotLast => "'*' must be the last part"
  | .unclosedQuote => "unclosed backtick"
  | .emptyQuoted => "empty quoted part"
  | .invalidCharacter c => s!"invalid character '{c}'"
  | .emptyPart => "empty part"

inductive Unsupported where
  | name (text : String) (fault : NameFault)
  | driverValue (value : String)
  | wideInteger (text : String)
  | unsignedInteger (text : String)
  | nestedList
  | jsonObject
  | mixedList (item : String)
  | noList (item : String)
  | nonFiniteFloat (text : String)
  | notAPair (left : String)
  | notAProjection (left : String)
  | manySources (left : String)
  | expressionSource (left : String)
  | markerAlone
  | usingOutsideJoin
  | usingAmongConditions
  | operatorNeedsSelect (operator : String)
  | operatorBeforeSelect (operator : String)
  | onRawStatement (what : String)
  | crossJoinConditions
  | listInInsert (list : String)
  | listInSet (list column : String)
  | listOnDuplicate (list : String)
  | selectWithValues
  | templateMembers (selects : Nat)
  deriving DecidableEq, Repr

def Unsupported.text : Unsupported → String
  | .name text fault =>
    s!"invalid identifier {shown text} ({fault.text}); use an expression or unsafe mode for raw SQL"
  | .driverValue value => s!"driver value {value} must resolve to a scalar"
  | .wideInteger text => s!"integer {text} exceeds the signed 64 bit range"
  | .unsignedInteger text => s!"unsigned integer {text} exceeds the signed 64 bit range"
  | .nestedList => "nested or null JSON array elements"
  | .jsonObject => "JSON objects cannot be bound as an argument"
  | .mixedList item => s!"mixed kinds in list: {item}"
  | .noList item => s!"list of {item}"
  | .nonFiniteFloat text => s!"float {text} has no SQL literal"
  | .notAPair left => s!"{shown left} is not a column/value pair"
  | .notAProjection left => s!"{shown left} cannot be used as a projected column"
  | .manySources left => s!"multiple argument sources for condition {shown left}"
  | .expressionSource left =>
    s!"expression {shown left} cannot be deferred or compared to a sub-select"
  | .markerAlone => "grouping or USING marker used as a single condition"
  | .usingOutsideJoin => "USING outside of a JOIN"
  | .usingAmongConditions => "USING mixed with ON conditions"
  | .operatorNeedsSelect operator => s!"{operator} requires a sub-select"
  | .operatorBeforeSelect operator => s!"operator {operator} cannot compare against a sub-select"
  | .onRawStatement what => s!"{what} on a raw statement"
  | .crossJoinConditions => "CROSS JOIN with conditions"
  | .listInInsert list => s!"list {list} as an INSERT value"
  | .listInSet list column => s!"list {list} assigned to {shown column}"
  | .listOnDuplicate list => s!"list {list} in ON DUPLICATE KEY UPDATE"
  | .selectWithValues => "INSERT ... SELECT combined with VALUES"
  | .templateMembers selects => s!"a union template takes exactly one select, got {selects}"

/-! ## errors -/

inductive Cause where
  | missing (what : Required)
  | mismatch (what : Mismatch)
  | unsupported (what : Unsupported)
  | reported (kind : ErrorKind) (text : String)
  deriving DecidableEq, Repr

namespace Cause

def kind : Cause → ErrorKind
  | .missing _ => .empty
  | .mismatch _ => .mismatch
  | .unsupported _ => .notSupported
  | .reported kind _ => kind

def text : Cause → String
  | .missing what => what.text
  | .mismatch what => what.text
  | .unsupported what => what.text
  | .reported _ text => text

end Cause

structure ExecResult where
  rowsAffected : Nat
  lastInsertId : Option Nat
  deriving DecidableEq, Repr

inductive Error where
  /-- a cause, and the places it passed through from the outside in -/
  | caused (path : List String) (cause : Cause)
  | timeout (after : Duration)
  /-- a bulk run failed at the record `index`; `completed` are the records that were executed -/
  | record (index : Nat) (completed : List (Nat × ExecResult)) (source : Error)
  /-- the rollback that `reason` made necessary failed too -/
  | rollback (failure reason : Error)
  deriving Repr

namespace Error

def missing (what : Required) : Error := .caused [] (.missing what)
def mismatch (what : Mismatch) : Error := .caused [] (.mismatch what)
def unsupported (what : Unsupported) : Error := .caused [] (.unsupported what)

def reported (kind : ErrorKind) (text : String) : Error := .caused [] (.reported kind text)

/-- the error with one more place around it; only causes keep their places -/
def within (place : String) : Error → Error
  | .caused path cause => .caused (place :: path) cause
  | other => other

def recordIndex? : Error → Option Nat
  | .record index _ _ => some index
  | .rollback _ reason => reason.recordIndex?
  | _ => none

def completed : Error → List (Nat × ExecResult)
  | .record _ completed _ => completed
  | _ => []

def source? : Error → Option Error
  | .record _ _ source => some source
  | .rollback _ reason => some reason
  | _ => none

def message : Error → String
  | .caused path cause => ": ".intercalate (cause.kind.heading :: path ++ [cause.text])
  | .timeout after => s!"Query timeout after {after.shown}"
  | .record index _ source => s!"record {index}: {source.message}"
  | .rollback failure reason =>
    s!"rollback failed: {failure.message}; original error: {reason.message}"

end Error

def within {α : Type} (place : String) : Except Error α → Except Error α
  | .ok a => .ok a
  | .error e => .error (e.within place)

end BoundSql
