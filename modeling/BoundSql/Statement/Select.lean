import BoundSql.Condition.Clause

/-!
# SELECT statements

* `SelectOf`           the clauses of a SELECT over sub-selects of some type;
* `Select`             a SELECT, whose sub-selects are SELECTs again;
* `Select.fold`        replaces all sub-selects, from the innermost ones outwards;
* `Select.fold_mk`     its equation: a folded SELECT is its clauses over folded sub-selects;
* `Select.text`        the text;
* `Select.steps`       the arguments.

Text and arguments are both folds, so each is given by one function on clauses.
-/

namespace BoundSql

/-! ## terms and limits -/

inductive Term where
  | name (column : String) (descending : Bool)
  | raw (sql : String)
  deriving DecidableEq, Repr

def Term.text (lenient : Bool) : Term → Except Error Text
  | .name column descending => do
    return (← nameText column lenient) ++ if descending then " DESC".toList else []
  | .raw sql => .ok sql.toList

/-- a keyword with its terms, nothing without terms -/
def termsText (keyword : String) (terms : List Term) (lenient : Bool) : Except Error Text :=
  if terms = [] then .ok []
  else do
    let texts ← terms.mapM (Term.text lenient)
    return keyword.toList ++ Text.separated ", ".toList texts

/-- the number of rows, and where they start; a start needs a number -/
def limitText (limit offset : Option Nat) : Text :=
  match limit, offset with
  | none, _ => []
  | some n, none => " LIMIT ".toList ++ Text.ofNat n
  | some n, some m => " LIMIT ".toList ++ Text.ofNat n ++ " OFFSET ".toList ++ Text.ofNat m

/-! ## joins -/

inductive JoinKind where
  | inner
  | left
  | right
  | cross
  deriving DecidableEq, Repr

def JoinKind.keyword : JoinKind → String
  | .inner => "INNER JOIN"
  | .left => "LEFT JOIN"
  | .right => "RIGHT JOIN"
  | .cross => "CROSS JOIN"

structure JoinOf (σ : Type) where
  kind : JoinKind
  table : String
  name : Option String
  on : List (ConditionOf σ)

def JoinOf.map {σ τ : Type} (f : σ → τ) (j : JoinOf σ) : JoinOf τ :=
  { j with on := j.on.map (·.map f) }

def JoinOf.text (j : JoinOf (Except Error Text)) : Except Error Text := do
  let table ← nameText j.table false
  let name ← aliasText j.name
  let on ← clauseText .join j.on
  return ' ' :: j.kind.keyword.toList ++ ' ' :: table ++ name ++ on

/-! ## clauses -/

structure SelectOf (σ : Type) where
  table : String
  name : Option String := none
  derived : Option σ := none
  columns : List (ConditionOf σ) := []
  distinct : Bool := false
  joins : List (JoinOf σ) := []
  wheres : List (ConditionOf σ) := []
  groupBy : List Term := []
  havings : List (ConditionOf σ) := []
  orderBy : List Term := []
  limit : Option Nat := none
  offset : Option Nat := none
  /-- columns and terms that are no identifiers stand as they are -/
  lenient : Bool := false
  interpolated : Bool := false
  /-- a text and its arguments in the place of all clauses -/
  raw : Option (String × Arguments) := none
  /-- the place among the members of a union that keeps its members together -/
  memberIndex : Option Nat := none
  failed : Option Error := none

def memberColumn : String := "_preserve_result_set"

namespace SelectOf

variable {σ τ : Type}

def map (f : σ → τ) (s : SelectOf σ) : SelectOf τ :=
  { s with
    derived := s.derived.map f
    columns := s.columns.map (·.map f)
    joins := s.joins.map (·.map f)
    wheres := s.wheres.map (·.map f)
    havings := s.havings.map (·.map f) }

/-! ## texts -/

def columnsText (s : SelectOf (Except Error Text)) : Except Error Text :=
  if s.columns.isEmpty then .ok ['*']
  else do
    let texts ← s.columns.mapM (·.projection s.lenient)
    return Text.separated ", ".toList texts

def memberText (s : SelectOf σ) : Text :=
  match s.memberIndex with
  | none => []
  | some i =>
    ", ".toList ++ Text.ofNat i ++ " AS ".toList ++ Identifier.quotedName memberColumn.toList

def sourceText (s : SelectOf (Except Error Text)) : Except Error Text :=
  match s.derived with
  | some select => do
    let text ← within "derived table" select
    let name ← aliasText s.name
    return " FROM ".toList ++ Comparison.parenthesized text ++ name
  | none =>
    if s.table = "" then .ok []
    else do
      let table ← nameText s.table false
      let name ← aliasText s.name
      return " FROM ".toList ++ table ++ name

def clausesText (s : SelectOf (Except Error Text)) : Except Error Text := do
  let columns ← s.columnsText
  let source ← s.sourceText
  let joins ← s.joins.mapM JoinOf.text
  let wheres ← clauseText .filter s.wheres
  let groupBy ← termsText " GROUP BY " s.groupBy s.lenient
  let havings ← clauseText .having s.havings
  let orderBy ← termsText " ORDER BY " s.orderBy s.lenient
  return "SELECT ".toList ++ (if s.distinct then "DISTINCT ".toList else []) ++ columns ++
    s.memberText ++ source ++ joins.flatten ++ wheres ++ groupBy ++ havings ++ orderBy ++
    limitText s.limit s.offset

def text (s : SelectOf (Except Error Text)) : Except Error Text :=
  match s.failed, s.raw with
  | some e, _ => .error e
  | none, some (sql, args) => templateText sql.toList args
  | none, none => s.clausesText

/-! ## arguments -/

def steps (s : SelectOf (List Step)) : List Step :=
  match s.failed, s.raw with
  | some e, _ => [.fail e]
  | none, some (_, args) => args.map .push
  | none, none =>
    s.columns.flatMap ConditionOf.steps ++ s.derived.getD [] ++
      s.joins.flatMap (fun j => clauseSteps .join j.on) ++
      clauseSteps .filter s.wheres ++ clauseSteps .having s.havings

end SelectOf

/-! ## statements -/

inductive Select where
  | mk (clauses : SelectOf Select)

abbrev Condition := ConditionOf Select

namespace Select

def clauses : Select → SelectOf Select
  | mk s => s

section
variable {α : Type} (f : SelectOf α → α)

mutual

/-- replaces every SELECT by what `f` makes of its clauses, the inner ones first -/
def fold : Select → α
  | mk s => f (foldClauses s)

def foldClauses : SelectOf Select → SelectOf α
  | ⟨table, name, derived, columns, distinct, joins, wheres, groupBy, havings, orderBy, limit,
      offset, lenient, interpolated, raw, memberIndex, failed⟩ =>
    ⟨table, name, foldOption derived, foldConditions columns, distinct, foldJoins joins,
      foldConditions wheres, groupBy, foldConditions havings, orderBy, limit, offset, lenient,
      interpolated, raw, memberIndex, failed⟩

def foldOption : Option Select → Option α
  | none => none
  | some s => some (fold s)

def foldCondition : ConditionOf Select → ConditionOf α
  | ⟨left, kind, operator, operand, exprArgs, subselect, connector, deferred, name, flaw⟩ =>
    ⟨left, kind, operator, operand, exprArgs, foldOption subselect, connector, deferred, name, flaw⟩

def foldConditions : List (ConditionOf Select) → List (ConditionOf α)
  | [] => []
  | c :: cs => foldCondition c :: foldConditions cs

def foldJoin : JoinOf Select → JoinOf α
  | ⟨kind, table, name, on⟩ => ⟨kind, table, name, foldConditions on⟩

def foldJoins : List (JoinOf Select) → List (JoinOf α)
  | [] => []
  | j :: js => foldJoin j :: foldJoins js

end

theorem foldOption_eq (o : Option Select) : foldOption f o = o.map (fold f) := by
  cases o <;> simp [foldOption]

theorem foldCondition_eq (c : ConditionOf Select) : foldCondition f c = c.map (fold f) := by
  cases c
  simp [foldCondition, ConditionOf.map, foldOption_eq]

theorem foldConditions_eq (cs : List (ConditionOf Select)) :
    foldConditions f cs = cs.map (·.map (fold f)) := by
  induction cs with
  | nil => simp [foldConditions]
  | cons c cs ih => simp [foldConditions, foldCondition_eq, ih]

theorem foldJoin_eq (j : JoinOf Select) : foldJoin f j = j.map (fold f) := by
  cases j
  simp [foldJoin, JoinOf.map, foldConditions_eq]

theorem foldJoins_eq (js : List (JoinOf Select)) : foldJoins f js = js.map (·.map (fold f)) := by
  induction js with
  | nil => simp [foldJoins]
  | cons j js ih => simp [foldJoins, foldJoin_eq, ih]

theorem foldClauses_eq (s : SelectOf Select) : foldClauses f s = s.map (fold f) := by
  cases s
  simp [foldClauses, SelectOf.map, foldOption_eq, foldConditions_eq, foldJoins_eq]

theorem fold_mk (s : SelectOf Select) : fold f (mk s) = f (s.map (fold f)) := by
  rw [fold, foldClauses_eq]

end

def text (s : Select) : Except Error Text := s.fold SelectOf.text

def steps (s : Select) : List Step := s.fold SelectOf.steps

theorem text_mk (s : SelectOf Select) : text (mk s) = (s.map text).text := fold_mk _ s

theorem steps_mk (s : SelectOf Select) : steps (mk s) = (s.map steps).steps := fold_mk _ s

def failed (s : Select) : Option Error := s.clauses.failed

/-! ## making statements -/

def ofTable (table : String) : Select := mk { table }

def ofDerived (select : Select) (name : String) : Select :=
  mk { table := "", derived := some select, name := some name,
       failed := if name = "" then some (.missing .derivedTableAlias) else none }

def ofRaw (sql : String) (args : Arguments) : Select := mk { table := "", raw := some (sql, args) }

/-- the same SELECT as the `i`-th member of a union that keeps its members together -/
def asMember (s : Select) (i : Nat) : Select := mk { s.clauses with memberIndex := some i }

end Select

def Condition.text (c : Condition) : Except Error Text := (c.map Select.text).body

def Clause.text (clause : Clause) (cs : List Condition) : Except Error Text :=
  clauseText clause (cs.map (·.map Select.text))

def Clause.steps (clause : Clause) (cs : List Condition) : List Step :=
  clauseSteps clause (cs.map (·.map Select.steps))

end BoundSql
