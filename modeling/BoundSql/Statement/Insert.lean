import BoundSql.Statement.Select

/-!
# INSERT statements

* `Fault`            what stops an edit for good, other than an error of its input;
* `OnDuplicate`      what a column is set to when the row is there already;
* `Insert`           an INSERT, `Insert.text`, `Insert.steps`;
* `Insert.recordText`   the text for one more row, that of a record;
* `Insert.Edit`, `Insert.edit`   its edits.
-/

namespace BoundSql

/-- a defect that ends the program: rows of no columns are to be filled -/
inductive Fault where
  | divisionByZero
  deriving DecidableEq, Repr

inductive OnDuplicate where
  | inserted
  | argument (a : Argument)
  | expression (sql : String) (args : Arguments)

structure Insert where
  table : String
  columns : List String := []
  rows : List Arguments := []
  records : List Record := []
  /-- rows of placeholders for values that are not known yet -/
  rowCount : Option Nat := none
  select : Option Select := none
  ignore : Bool := false
  onDuplicate : List (String × OnDuplicate) := []
  interpolated : Bool := false
  failed : Option Error := none

namespace Insert

/-! ## text -/

/-- the number of values of a row: one for each column, or as many as the first row has -/
def rowWidth (i : Insert) : Nat :=
  if i.columns = [] then (i.rows.head?.map List.length).getD 0 else i.columns.length

def boundRows (i : Insert) : Nat := i.rows.length + i.records.length

/-- the number of rows, `extra` of them behind those of the statement; a number of rows that is set is
a machine word, and the one row that such a word cannot count brings it back to zero -/
def rowTotal (i : Insert) (extra : Nat) : Nat :=
  let total := max (i.rowCount.getD 0) i.boundRows + extra
  if i.boundRows < i.rowCount.getD 0 ∧ UInt64.size ≤ total then 0 else total

theorem rowTotal_of_ne_zero {i : Insert} {extra : Nat} (h : i.rowTotal extra ≠ 0) :
    i.rowTotal extra = max (i.rowCount.getD 0) i.boundRows + extra := by
  unfold rowTotal at h ⊢
  exact if_neg fun hover => h (if_pos hover)

def rowsText (width count : Nat) : Text :=
  Text.separated [','] (List.replicate count (Comparison.parenthesized (Comparison.marks width)))

def columnsText (i : Insert) : Except Error Text :=
  if i.columns = [] then .ok []
  else do return " (".toList ++ (← nameListText i.columns) ++ [')']

def valuesText (i : Insert) (extra : Nat) : Except Error Text := do
  if !i.records.isEmpty && i.columns = [] then throw (.missing .insertColumnsForRecords)
  let width := i.rowWidth
  if width = 0 then throw (.missing .insertColumnsOrValues)
  match i.rows.find? (·.length ≠ width) with
  | some row => throw (.mismatch (.rowWidth row.length width))
  | none =>
    let count := i.rowTotal extra
    if count = 0 then throw (.missing .insertValues)
    return " VALUES ".toList ++ rowsText width count

def sourceText (i : Insert) (extra : Nat) : Except Error Text :=
  match i.select with
  | none => i.valuesText extra
  | some select =>
    if !i.rows.isEmpty || !i.records.isEmpty || 0 < extra then
      .error (.unsupported .selectWithValues)
    else do return ' ' :: (← within "insert select" select.text)

def duplicateText : String × OnDuplicate → Except Error Text
  | (column, value) => do
    let name ← nameText column false
    match value with
    | .inserted => return name ++ "=VALUES(".toList ++ name ++ [')']
    | .argument _ => return name ++ "=?".toList
    | .expression sql args => return name ++ '=' :: (← templateText sql.toList args)

def duplicatesText (i : Insert) : Except Error Text :=
  if i.onDuplicate.isEmpty then .ok []
  else do
    let texts ← i.onDuplicate.mapM duplicateText
    return " ON DUPLICATE KEY UPDATE ".toList ++ Text.separated ", ".toList texts

def textWith (i : Insert) (extra : Nat) : Except Error Text :=
  match i.failed with
  | some e => .error e
  | none => do
    if i.table = "" then throw (.missing .insertTable)
    let table ← nameText i.table false
    let columns ← i.columnsText
    let source ← i.sourceText extra
    let duplicates ← i.duplicatesText
    return (if i.ignore then "INSERT IGNORE INTO " else "INSERT INTO ").toList ++ table ++ columns ++
      source ++ duplicates

def text (i : Insert) : Except Error Text := i.textWith 0

def recordText (i : Insert) : Except Error Text := i.textWith 1

/-! ## arguments -/

def OnDuplicate.steps : OnDuplicate → List Step
  | .inserted => []
  | .argument a => [.push a]
  | .expression _ args => args.map .push

def steps (i : Insert) : List Step :=
  match i.failed with
  | some e => [.fail e]
  | none =>
    i.rows.flatMap (fun row => row.map .push) ++ i.records.map (.given · i.columns) ++
      [.row i.columns] ++ (i.select.map Select.steps).getD [] ++
      i.onDuplicate.flatMap fun (_, value) => OnDuplicate.steps value

/-! ## edits -/

def ofTable (table : String) : Insert := { table }

inductive Edit where
  | columns (names : List String)
  | values (given : Arguments)
  | pairs (row : List Condition)
  | rowCount (n : Nat)
  | records (given : List Record)
  | fromSelect (select : Select)
  | ignore
  | onDuplicate (column : String) (value : OnDuplicate)
  | interpolate

/-- values in rows of `width`, the last one whatever is left -/
def chunks (width : Nat) (values : Arguments) : List Arguments :=
  if _h : values = [] ∨ width = 0 then []
  else values.take width :: chunks width (values.drop width)
termination_by values.length
decreasing_by
  have : 0 < values.length := List.length_pos_iff.mpr fun h => _h (.inl h)
  simp only [List.length_drop]
  omega

theorem chunks_nil (width : Nat) : chunks width [] = [] := by
  rw [chunks, dif_pos (.inl rfl)]

theorem chunks_of_ne_nil {width : Nat} {values : Arguments} (hv : values ≠ [])
    (hw : width ≠ 0) :
    chunks width values = values.take width :: chunks width (values.drop width) := by
  rw [chunks, dif_neg (not_or.mpr ⟨hv, hw⟩)]

theorem flatten_chunks {width : Nat} (hw : width ≠ 0) (values : Arguments) :
    (chunks width values).flatten = values := by
  by_cases hv : values = []
  · rw [hv, chunks_nil]
    rfl
  · have : 0 < values.length := List.length_pos_iff.mpr hv
    rw [chunks_of_ne_nil hv hw, List.flatten_cons, flatten_chunks hw (values.drop width),
      List.take_append_drop]
termination_by values.length
decreasing_by
  simp only [List.length_drop]
  omega

/-- the width of rows that values are split into: the first row counts where columns are missing -/
def splitWidth (i : Insert) (values : Arguments) : Nat :=
  if i.columns = [] then (i.rows.head?.map List.length).getD values.length else i.columns.length

/-- adds values; rows without columns leave no width to split them by -/
def addValues (i : Insert) (values : Arguments) : Except Fault (Except Error Insert) :=
  match values.find? Argument.isList with
  | some list => .ok (.error (.unsupported (.listInInsert list.text)))
  | none =>
    if values.isEmpty then .ok (.error (.missing .insertValues))
    else
      let width := i.splitWidth values
      if width = 0 then .error .divisionByZero
      else if values.length % width ≠ 0 then
        .ok (.error (.mismatch (.valuesInRows values.length width)))
      else .ok (.ok { i with rows := i.rows ++ chunks width values })

def splitPairs : List Condition → Except Error (List String × Arguments)
  | [] => .ok ([], [])
  | c :: cs => do
    let (column, value) ← c.pair
    if value.isList then throw (.unsupported (.listInInsert value.text))
    let (columns, values) ← splitPairs cs
    return (column :: columns, value :: values)

/-- adds a row; the first one names the columns, and the others must name the same -/
def addPairs (i : Insert) (row : List Condition) : Except Error Insert := do
  let (columns, values) ← splitPairs row
  if i.columns = [] ∧ i.rows.isEmpty then
    return { i with columns, rows := i.rows ++ [values] }
  else if i.columns ≠ columns then throw (.mismatch (.pairColumns columns i.columns))
  else return { i with rows := i.rows ++ [values] }

def addDuplicate (i : Insert) (column : String) (value : OnDuplicate) : Except Error Insert :=
  match value with
  | .argument a =>
    if a.isList then .error (.unsupported (.listOnDuplicate a.text))
    else .ok { i with onDuplicate := i.onDuplicate ++ [(column, value)] }
  | _ => .ok { i with onDuplicate := i.onDuplicate ++ [(column, value)] }

def Edit.apply (i : Insert) : Edit → Except Fault (Except Error Insert)
  | .columns names => .ok (.ok { i with columns := names })
  | .values given => i.addValues given
  | .pairs row => .ok (i.addPairs row)
  | .rowCount n => .ok (.ok { i with rowCount := some n })
  | .records given => .ok (.ok { i with records := i.records ++ given })
  | .fromSelect select => .ok (.ok { i with select := some select })
  | .ignore => .ok (.ok { i with ignore := true })
  | .onDuplicate column value => .ok (i.addDuplicate column value)
  | .interpolate => .ok (.ok { i with interpolated := true })

/-- the statement after an edit; the first failing edit leaves its error, and later ones nothing -/
def edit (i : Insert) (e : Edit) : Except Fault Insert :=
  match i.failed with
  | some _ => .ok i
  | none => do
    match ← e.apply i with
    | .ok i => return i
    | .error error => return { i with failed := some error }

end Insert

end BoundSql
