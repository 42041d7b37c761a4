import BoundSql.Proofs.Made.Insert
import BoundSql.Proofs.Walk.Select

/-!
# Walks of INSERT statements

The values of a record depend on the arguments in front of them, so the rows of the walk are asked
for in the order in which the statement asks for them.

* `suppliedRows`        the rows of the records that a statement holds;
* `Insert.walkWith`     the walk of an INSERT with further rows;
* `Insert.Closed`       the caller's texts leave the pass outside quotes;
* `Insert.projects`     text, arguments and walk of an INSERT.
-/

namespace BoundSql

open Placeholder

/-- the rows that records supply one after the other -/
def suppliedRows (columns : List String) : Arguments → List Record → Except Error (List Arguments)
  | _, [] => .ok []
  | before, r :: rs => do
    let args ← r.assemble .insert .values before columns
    let rest ← suppliedRows columns args rs
    return args.drop before.length :: rest

/-- rows of one width that hold no lists -/
def Filled (width : Nat) (rows : List Arguments) : Prop :=
  ∀ row ∈ rows, row.length = width ∧ ∀ a ∈ row, IsScalar a

theorem Filled.append {width : Nat} {rows rows' : List Arguments} (h : Filled width rows)
    (h' : Filled width rows') : Filled width (rows ++ rows') := by
  intro row hrow
  rcases List.mem_append.mp hrow with hrow | hrow
  · exact h row hrow
  · exact h' row hrow

theorem yields_given {columns : List String} {records : List Record}
    (hr : ∀ r ∈ records, r.Answers IsScalar .insert .values columns) (before : Arguments) :
    ∃ rows, suppliedRows columns before records = .ok rows ∧ rows.length = records.length ∧
      Filled columns.length rows ∧
      ∀ s, Yields s before (records.map (.given · columns)) rows.flatten := by
  induction records generalizing before with
  | nil => exact ⟨[], rfl, rfl, fun _ h => by simp at h, fun _ => yields_nil⟩
  | cons r records ih =>
    obtain ⟨values, hassemble, hlength, hvalues⟩ := hr r (List.mem_cons_self ..) before
    obtain ⟨rows, hrows, hcount, hall, hyields⟩ :=
      ih (fun r h => hr r (List.mem_cons_of_mem _ h)) (before ++ values)
    refine ⟨values :: rows, ?_, congrArg (· + 1) hcount, ?_, fun s => ?_⟩
    · unfold suppliedRows
      rw [hassemble]
      show (suppliedRows columns (before ++ values) records >>= _) = _
      rw [hrows]
      show Except.ok ((before ++ values).drop before.length :: rows) = _
      rw [List.drop_left]
    · intro row hrow
      rcases List.mem_cons.mp hrow with rfl | hrow
      · exact ⟨hlength, hvalues⟩
      · exact hall row hrow
    · have hstep : Yields s before [.given r columns] values := by
        refine yields_step fun c hc => ⟨_, Collected.ask_ok (by rw [hc]; exact hassemble) hlength, ?_⟩
        rw [hc]
      exact hstep.append (hyields s)

namespace Insert

/-! ## rows -/

def rowWalk (row : Arguments) : Walk := (Walk.bind (Comparison.marks row.length) row).parenthesized

theorem text_rowWalk (row : Arguments) :
    (rowWalk row).text = Comparison.parenthesized (Comparison.marks row.length) := by
  rw [rowWalk, Walk.text_parenthesized, Walk.text_bind (Comparison.count_marks _)]

theorem bound_rowWalk (row : Arguments) : (rowWalk row).bound = row := by
  rw [rowWalk, Walk.bound_parenthesized, Walk.bound_bind (Comparison.count_marks _)]

theorem whole_rowWalk (row : Arguments) : (rowWalk row).Whole :=
  Walk.whole_parenthesized
    (Walk.whole_bind (Comparison.count_marks _) (Comparison.closed_marks _))

def rowsWalk (rows : List Arguments) : Walk := Walk.separated [','] (rows.map rowWalk)

theorem text_rowsWalk {rows : List Arguments} {width : Nat} (h : ∀ row ∈ rows, row.length = width) :
    (rowsWalk rows).text = rowsText width rows.length := by
  have hrows : (rows.map rowWalk).map Walk.text =
      rows.map fun _ => Comparison.parenthesized (Comparison.marks width) := by
    rw [List.map_map]
    refine List.map_congr_left fun row hrow => ?_
    show (rowWalk row).text = _
    rw [text_rowWalk, h row hrow]
  rw [rowsWalk, Walk.text_separated, hrows, List.map_const']
  rfl

theorem bound_rowsWalk (rows : List Arguments) : (rowsWalk rows).bound = rows.flatten := by
  rw [rowsWalk, Walk.bound_separated, List.flatMap_map, ← List.flatMap_id]
  congr 1
  funext row
  exact bound_rowWalk row

theorem whole_rowsWalk (rows : List Arguments) : (rowsWalk rows).Whole := by
  refine Walk.whole_separated (by decide) fun w hw => ?_
  obtain ⟨row, _, rfl⟩ := List.mem_map.mp hw
  exact whole_rowWalk row

def waitingRows (i : Insert) : List Arguments :=
  List.replicate (i.rowCount.getD 0 - i.boundRows) (List.replicate i.rowWidth .pending)

def valuesWalk (i : Insert) (extra : List Arguments) : Except Error Walk := do
  let given ← suppliedRows i.columns i.rows.flatten i.records
  let rows := i.rows ++ given ++ extra ++ i.waitingRows
  return Walk.literal " VALUES ".toList ++ rowsWalk rows

def sourceWalk (i : Insert) (extra : List Arguments) : Except Error Walk :=
  match i.select with
  | none => i.valuesWalk extra
  | some select => do
    let walk ← within "insert select" select.walk
    return Walk.literal [' '] ++ walk

/-! ## values for rows that are there already -/

/-- what a column of the given quoted name is set to -/
def OnDuplicate.walk (name : Text) : OnDuplicate → Except Error Walk
  | .inserted => .ok (Walk.literal (name ++ "=VALUES(".toList ++ name ++ [')']))
  | .argument a => .ok (Walk.literal (name ++ ['=']) ++ [.mark a])
  | .expression sql args => do
    let walk ← templateWalk sql.toList args
    return Walk.literal (name ++ ['=']) ++ walk

def duplicateWalk (pair : String × OnDuplicate) : Except Error Walk := do
  let name ← nameText pair.1 false
  OnDuplicate.walk name pair.2

def duplicatesWalk (i : Insert) : Except Error Walk :=
  if i.onDuplicate.isEmpty then .ok []
  else do
    let walks ← i.onDuplicate.mapM duplicateWalk
    return Walk.literal " ON DUPLICATE KEY UPDATE ".toList ++ Walk.separated ", ".toList walks

/-- the walk with `extra` rows behind the statement's own -/
def walkWith (i : Insert) (extra : List Arguments) : Except Error Walk :=
  match i.failed with
  | some e => .error e
  | none => do
    let table ← nameText i.table false
    let columns ← i.columnsText
    let source ← i.sourceWalk extra
    let duplicates ← i.duplicatesWalk
    return Walk.literal ((if i.ignore then "INSERT IGNORE INTO " else "INSERT INTO ").toList ++
      table ++ columns) ++ source ++ duplicates

/-- the caller's texts leave the pass outside quotes -/
def Closed (i : Insert) : Prop :=
  ∀ column sql args, (column, .expression sql args) ∈ i.onDuplicate →
    Placeholder.Closed sql.toList

/-! ## agreement -/

theorem valuesText_ok {i : Insert} {extra : Nat} {t : Text} (h : i.valuesText extra = .ok t) :
    (i.records ≠ [] → i.columns ≠ []) ∧ (∀ row ∈ i.rows, row.length = i.rowWidth) ∧
      t = " VALUES ".toList ++ rowsText i.rowWidth (max (i.rowCount.getD 0) i.boundRows + extra) := by
  unfold valuesText at h
  simp only at h
  split at h
  · cases h
  · rename_i hrecords
    split at h
    · cases h
    · split at h
      · cases h
      · rename_i hfind
        split at h
        · cases h
        · rename_i hcount
          cases h
          rw [rowTotal_of_ne_zero hcount]
          refine ⟨fun hr hc => ?_, fun row hrow => ?_, rfl⟩
          · simp [hc, hr] at hrecords
          · simpa using List.find?_eq_none.mp hfind row hrow

theorem textWith_ok {i : Insert} {extra : Nat} {t : Text} (h : i.textWith extra = .ok t) :
    i.failed = none ∧ ∃ table columns source duplicates, nameText i.table false = .ok table ∧
      i.columnsText = .ok columns ∧ i.sourceText extra = .ok source ∧
      i.duplicatesText = .ok duplicates ∧
      t = (if i.ignore then "INSERT IGNORE INTO " else "INSERT INTO ").toList ++ table ++ columns ++
        source ++ duplicates := by
  unfold textWith at h
  cases hfailed : i.failed with
  | some e =>
    rw [hfailed] at h
    cases h
  | none =>
    simp only [hfailed] at h
    split at h
    · cases h
    · obtain ⟨table, htable, h⟩ := bind_ok h
      obtain ⟨columns, hcolumns, h⟩ := bind_ok h
      obtain ⟨source, hsource, h⟩ := bind_ok h
      obtain ⟨duplicates, hduplicates, h⟩ := bind_ok h
      cases h
      exact ⟨rfl, table, columns, source, duplicates, htable, hcolumns, hsource, hduplicates, rfl⟩

theorem rowWidth_of_columns {i : Insert} (h : i.columns ≠ []) : i.rowWidth = i.columns.length :=
  if_neg h

theorem matches_rowsWalk {width : Nat} {rows : List Arguments} (h : Filled width rows) :
    (rowsWalk rows).Matches (rowsText width rows.length) (rows.flatten.map .push) where
  text_eq := text_rowsWalk fun row hrow => (h row hrow).1
  whole := whole_rowsWalk rows
  binds := by
    have hbinds := binds_push rows.flatten
    rw [bound_rowsWalk]
    rwa [Arguments.members_of_scalars] at hbinds
    intro a ha
    obtain ⟨row, hrow, ha⟩ := List.mem_flatten.mp ha
    exact (h row hrow).2 a ha

section
variable {i : Insert} {given extra : List Arguments} (hscalar : i.Scalar)
  (hcount : i.rowCount.getD 0 ≤ i.boundRows)
  (hgiven : suppliedRows i.columns i.rows.flatten i.records = .ok given)
  (hlength : given.length = i.records.length) (hfilled : Filled i.columns.length given)
  (hextra : Filled i.rowWidth extra)
include hscalar hcount hgiven hlength hfilled hextra

theorem matches_values {t : Text} (h : i.valuesText extra.length = .ok t) :
    ∃ w, i.valuesWalk extra = .ok w ∧
      w.Matches t ((i.rows ++ given ++ extra).flatten.map .push) := by
  obtain ⟨hcolumns, hwidth, rfl⟩ := valuesText_ok h
  have hwaiting : i.waitingRows = [] := by
    rw [waitingRows, Nat.sub_eq_zero_of_le hcount]
    rfl
  have hrows : Filled i.rowWidth i.rows := fun row hrow => ⟨hwidth row hrow, hscalar.rows row hrow⟩
  have hsupplied : Filled i.rowWidth given := by
    by_cases hrecords : i.records = []
    · rw [hrecords, List.length_nil, List.length_eq_zero_iff] at hlength
      rw [hlength]
      intro row hrow
      cases hrow
    · rw [rowWidth_of_columns (hcolumns hrecords)]
      exact hfilled
  have hnumber : max (i.rowCount.getD 0) i.boundRows + extra.length =
      (i.rows ++ given ++ extra).length := by
    rw [List.length_append, List.length_append, hlength, Nat.max_eq_right hcount]
    rfl
  refine ⟨Walk.literal " VALUES ".toList ++ rowsWalk (i.rows ++ given ++ extra), ?_, ?_⟩
  · unfold valuesWalk
    rw [hgiven, hwaiting]
    show Except.ok (_ ++ rowsWalk (_ ++ [])) = _
    rw [List.append_nil]
  · rw [hnumber]
    exact .prepend (by decide) (matches_rowsWalk ((hrows.append hsupplied).append hextra))

theorem matches_source (hselect : ∀ t ∈ i.selects, Agrees t.text t.steps t.walk) {t : Text}
    (h : i.sourceText extra.length = .ok t) :
    ∃ w, i.sourceWalk extra = .ok w ∧
      w.Matches t ((i.rows ++ given ++ extra).flatten.map .push ++
        (i.select.map Select.steps).getD []) := by
  unfold sourceText at h
  unfold sourceWalk
  cases hi : i.select with
  | none =>
    rw [hi] at h
    rw [Option.map_none, Option.getD_none, List.append_nil]
    exact matches_values hscalar hcount hgiven hlength hfilled hextra h
  | some select =>
    simp only [hi] at h
    split at h
    · cases h
    · rename_i hempty
      simp only [Bool.or_eq_true, Bool.not_eq_true', decide_eq_true_eq, not_or,
        Bool.not_eq_false, List.isEmpty_iff, Nat.not_lt, Nat.le_zero,
        List.length_eq_zero_iff] at hempty
      obtain ⟨⟨hrows, hrecords⟩, hnone⟩ := hempty
      rw [hrecords, List.length_nil, List.length_eq_zero_iff] at hlength
      obtain ⟨inner, hinner, h⟩ := bind_ok h
      cases h
      obtain ⟨w, hw, hm⟩ := hselect select (by rw [selects, hi]; exact List.mem_singleton_self _)
        inner (within_eq_ok hinner)
      refine ⟨Walk.literal [' '] ++ w, ?_, ?_⟩
      · show (within "insert select" select.walk >>= _) = _
        rw [hw]
        rfl
      · rw [hrows, hlength, hnone]
        exact .prepend (t := [' ']) (by decide) hm

end

theorem inert_columnsText {i : Insert} {t : Text} (h : i.columnsText = .ok t) : Inert t := by
  unfold columnsText at h
  split at h
  · cases h
    exact inert_nil
  · obtain ⟨names, hnames, h⟩ := bind_ok h
    cases h
    exact (Inert.append (by decide) (inert_nameListText hnames)).append (by decide)

theorem agrees_duplicate {column : String} {value : OnDuplicate}
    (hscalar : ∀ a, value = .argument a → IsScalar a)
    (hclosed : ∀ sql args, value = .expression sql args → Placeholder.Closed sql.toList) :
    Agrees (duplicateText (column, value)) (OnDuplicate.steps value) (duplicateWalk (column, value)) := by
  intro t h
  obtain ⟨name, hname, h⟩ := bind_ok h
  have hinert := inert_strictName hname
  have hequals : Inert (name ++ ['=']) := hinert.append (by decide)
  unfold duplicateWalk
  rw [hname]
  show ∃ w, OnDuplicate.walk name value = .ok w ∧ _
  cases value with
  | inserted =>
    cases h
    exact ⟨_, rfl, .literal (((hinert.append (by decide)).append hinert).append (by decide))⟩
  | argument a =>
    cases h
    have hm := (matches_mark (hscalar a rfl)).prepend hequals
    rw [List.append_assoc] at hm
    exact ⟨_, rfl, hm⟩
  | expression sql args =>
    obtain ⟨text, htext, h⟩ := bind_ok h
    cases h
    obtain ⟨w, hw, hm⟩ := agrees_template (hclosed sql args rfl) args text htext
    have hm := hm.prepend hequals
    rw [List.append_assoc] at hm
    refine ⟨Walk.literal (name ++ ['=']) ++ w, ?_, hm⟩
    show (templateWalk sql.toList args >>= _) = _
    rw [hw]
    rfl

theorem agrees_duplicates {i : Insert} (hscalar : i.Scalar) (hclosed : i.Closed) :
    Agrees i.duplicatesText (i.onDuplicate.flatMap fun (_, value) => OnDuplicate.steps value)
      i.duplicatesWalk := by
  intro t h
  unfold duplicatesText at h
  unfold duplicatesWalk
  split at h
  · rename_i hempty
    cases h
    rw [if_pos hempty, List.isEmpty_iff.mp hempty]
    exact ⟨_, rfl, .literal inert_nil⟩
  · rename_i hempty
    obtain ⟨texts, htexts, h⟩ := bind_ok h
    cases h
    obtain ⟨ws, hws, hms⟩ : ∃ ws, i.onDuplicate.mapM duplicateWalk = .ok ws ∧
        MatchesAll ws texts (i.onDuplicate.flatMap fun (_, value) => OnDuplicate.steps value) := by
      refine matchesAll_of_mapM (fun pair hpair => ?_) htexts
      obtain ⟨column, value⟩ := pair
      refine agrees_duplicate (fun a ha => ?_) (fun sql args he => ?_)
      · exact hscalar.onDuplicate column a (ha ▸ hpair)
      · exact hclosed column sql args (he ▸ hpair)
    rw [if_neg hempty, hws]
    exact ⟨_, rfl, .prepend (by decide) (hms.separated (by decide))⟩

theorem steps_of_failed_eq_none {i : Insert} (h : i.failed = none) :
    i.steps = i.rows.flatMap (fun row => row.map .push) ++ i.records.map (.given · i.columns) ++
      [.row i.columns] ++ ((i.select.map Select.steps).getD [] ++
        i.onDuplicate.flatMap fun (_, value) => OnDuplicate.steps value) := by
  unfold steps
  rw [h, List.append_assoc _ ((i.select.map Select.steps).getD [])]

/-- with the rows that `extra` stands for, the text and the arguments are those of one walk -/
theorem projects {i : Insert} (hscalar : i.Scalar) (hclosed : i.Closed)
    (hcount : i.rowCount.getD 0 ≤ i.boundRows)
    (hrecords : ∀ r ∈ i.records, r.Answers IsScalar .insert .values i.columns)
    (hselect : ∀ t ∈ i.selects, Agrees t.text t.steps t.walk) {extra : List Arguments}
    (hextra : Filled i.rowWidth extra) {s : Subject}
    (hrow : ∀ given, suppliedRows i.columns i.rows.flatten i.records = .ok given →
      Yields s (i.rows ++ given).flatten [.row i.columns] extra.flatten)
    {t : Text} (h : i.textWith extra.length = .ok t) :
    ∃ w new, i.walkWith extra = .ok w ∧ w.Projects t s [] i.steps new := by
  obtain ⟨given, hgiven, hlength, hfilled, hyields⟩ := yields_given hrecords i.rows.flatten
  obtain ⟨hfailed, table, columns, source, duplicates, htable, hcolumns, hsource, hduplicates,
    rfl⟩ := textWith_ok h
  obtain ⟨w, hw, hm⟩ :=
    matches_source hscalar hcount hgiven hlength hfilled hextra hselect hsource
  obtain ⟨v, hv, hd⟩ := agrees_duplicates hscalar hclosed duplicates hduplicates
  have hhead : Inert ((if i.ignore then "INSERT IGNORE INTO " else "INSERT INTO ").toList ++
      table ++ columns) := by
    refine (Inert.append ?_ (inert_strictName htable)).append (inert_columnsText hcolumns)
    cases i.ignore <;> decide
  have hall := (hm.prepend hhead).append hd
  rw [List.append_assoc (List.map Step.push _)] at hall
  have hfront : Yields s [] (i.rows.flatMap (fun row => row.map .push) ++
      i.records.map (.given · i.columns) ++ [.row i.columns])
      (i.rows ++ given ++ extra).flatten := by
    have hpush : Yields s [] (i.rows.flatMap fun row => row.map .push) i.rows.flatten := by
      rw [List.flatMap_def, ← List.map_flatten]
      exact yields_push s [] _
    have hown := hpush.append (hyields s)
    rw [← List.flatten_append] at hown
    rw [List.flatten_append]
    exact hown.append (hrow given hgiven)
  obtain ⟨new, hp⟩ := hall.projects hfront
  rw [steps_of_failed_eq_none hfailed]
  refine ⟨_, new, ?_, hp⟩
  unfold walkWith
  rw [hfailed, htable, hcolumns, hw, hv]
  rfl

end Insert

end BoundSql
