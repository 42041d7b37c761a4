import BoundSql.Proofs.Made
import BoundSql.Proofs.Walk.Update

/-!
# Columns set to a computed value

An UPDATE sets columns to conditions that could be selected as well.  The statement around such a
condition does not depend on it, so two statements write and bind the same for a condition if the
condition itself has the same text and steps in both.

* `Around`                 what stands around one value in a statement;
* `Update.around`, `Update.text_around`   an UPDATE around the value of a column;
* `SelectOf.around`, `Select.text_around`   a SELECT around one of its columns, without the alias;
* `Update.Edit.assigns`, `Update.edits_ok`   the assignments that edits add;
* `Condition.selected`     a condition as a selected column, without its alias;
* `Update.computed_as_selected`   an expression is assigned as it is selected, a bare column is
  compared with NULL instead.
-/

namespace BoundSql

theorem Text.separated_append_cons (sep : Text) (us : List Text) (t : Text) (vs : List Text) :
    Text.separated sep (us ++ t :: vs) = us.flatMap (· ++ sep) ++ t ++ vs.flatMap (sep ++ ·) := by
  induction us generalizing t with
  | cons u us ih =>
    have hrest : Text.separated sep (u :: (us ++ t :: vs)) =
        u ++ sep ++ Text.separated sep (us ++ t :: vs) := by
      cases us <;> rfl
    rw [List.cons_append, hrest, ih, List.flatMap_cons]
    simp only [List.append_assoc]
  | nil =>
    rw [List.nil_append, List.flatMap_nil, List.nil_append]
    induction vs generalizing t with
    | nil => rw [Text.separated_singleton, List.flatMap_nil, List.append_nil]
    | cons v vs ih =>
      rw [Text.separated_cons, ih, List.flatMap_cons]
      simp only [List.append_assoc]

/-! ## a value in its place -/

/-- what stands around one value in a statement, and the arguments bound there -/
structure Around where
  front : Except Error Text
  behind : Except Error Text
  stepsFront : List Step
  stepsBehind : List Step

namespace Around

/-- the statement with the value; the first error is reported -/
def text (a : Around) (value : Except Error Text) : Except Error Text := do
  let front ← a.front
  let value ← value
  let behind ← a.behind
  return front ++ value ++ behind

def steps (a : Around) (own : List Step) : List Step := a.stepsFront ++ own ++ a.stepsBehind

end Around

/-! ## UPDATE -/

namespace Update

/-- the UPDATE around the value of `column`, which is set after the record's columns and `before` -/
def around (u : Update) (before : List (String × Assigned)) (column : String)
    (behind : List (String × Assigned)) : Around where
  front := do
    if u.table = "" then throw (.missing .updateTable)
    let table ← nameText u.table false
    let name ← aliasText u.name
    let own ← u.recordColumns.mapM (setText · (.ok ['?']))
    let others ← before.mapM fun (column, value) => setText column (assignedText value)
    let column ← nameText column false
    return "UPDATE ".toList ++ table ++ name ++ " SET ".toList ++
      (own ++ others).flatMap (· ++ ", ".toList) ++ column ++ ['=']
  behind := do
    let others ← behind.mapM fun (column, value) => setText column (assignedText value)
    let wheres ← Clause.text .filter u.wheres
    let orderBy ← termsText " ORDER BY " u.orderBy false
    return others.flatMap (", ".toList ++ ·) ++ wheres ++ orderBy ++ limitText u.limit none
  stepsFront := .assign u.recordColumns :: before.flatMap fun (_, value) => assignedSteps value
  stepsBehind := behind.flatMap (fun (_, value) => assignedSteps value) ++
    Clause.steps .filter u.wheres

section
variable {u : Update} {before behind : List (String × Assigned)} {column : String} {c : Condition}
  (hfailed : u.failed = none) (hraw : u.raw = none)
  (hsets : u.sets = before ++ (column, .computed c) :: behind)
include hfailed hraw hsets

theorem text_around : u.text = (u.around before column behind).text c.text := by
  have htext : u.text = u.clausesText := by simp only [Update.text, hfailed, hraw]
  have hsome : ¬ (u.recordColumns.isEmpty && u.sets.isEmpty) = true := by simp [hsets]
  have hset : setText column (assignedText (.computed c)) = (do
      let name ← nameText column false
      let value ← c.text
      return name ++ '=' :: value) := rfl
  rw [htext]
  unfold clausesText setTexts Around.text around
  rw [if_neg hsome]
  by_cases htable : u.table = ""
  · simp only [htable]
    rfl
  · simp only [if_neg htable, hsets, List.mapM_append, List.mapM_cons, hset, bind_assoc, pure_bind,
      ← List.append_assoc, Text.separated_append_cons]
    simp only [List.append_assoc, List.cons_append, List.nil_append]

theorem steps_around :
    u.steps = (u.around before column behind).steps (c.map Select.steps).steps := by
  unfold Update.steps Around.steps around
  simp only [hfailed, hraw, hsets, List.flatMap_append, List.flatMap_cons, List.cons_append,
    List.append_assoc]
  rfl

end

/-! ### edits -/

def Edit.assigns : Edit → List (String × Assigned)
  | .set column value => [(column, .argument value)]
  | .compute column value => [(column, .computed value)]
  | _ => []

/-- nothing but these assignments is added, and a text stays a text -/
theorem Edit.assigns_of_apply {u u' : Update} {e : Edit} (h : e.apply u = .ok u') :
    u'.sets = u.sets ++ e.assigns ∧ u'.raw = u.raw := by
  cases e with
  | named | interpolate =>
    cases h
    exact ⟨(List.append_nil _).symm, rfl⟩
  | recordColumns | filter | orderBy | limit =>
    obtain ⟨_, _, h⟩ := bind_ok h
    cases h
    exact ⟨(List.append_nil _).symm, rfl⟩
  | set column value =>
    obtain ⟨_, _, h⟩ := bind_ok h
    simp only at h
    split at h
    · cases h
    · cases h
      exact ⟨rfl, rfl⟩
  | compute column value =>
    obtain ⟨_, _, h⟩ := bind_ok h
    obtain ⟨_, _, h⟩ := bind_ok h
    cases h
    exact ⟨rfl, rfl⟩

/-- an edit that leaves no error was carried out -/
theorem edit_ok {u : Update} {e : Edit} (h : (u.edit e).failed = none) :
    u.failed = none ∧ e.apply u = .ok (u.edit e) := by
  unfold edit at h ⊢
  split
  · simp_all
  · rename_i hnone
    split
    · rename_i u' happly
      exact ⟨hnone, happly⟩
    · simp_all

/-- the statement that edits without an error lead to -/
theorem edits_ok {u : Update} {es : List Edit} (h : (es.foldl edit u).failed = none) :
    u.failed = none ∧ (es.foldl edit u).sets = u.sets ++ es.flatMap Edit.assigns ∧
      (es.foldl edit u).raw = u.raw := by
  induction es generalizing u with
  | nil => exact ⟨h, (List.append_nil _).symm, rfl⟩
  | cons e es ih =>
    obtain ⟨hfirst, hsets, hraw⟩ := ih h
    obtain ⟨hfailed, happly⟩ := edit_ok hfirst
    obtain ⟨hadds, hsame⟩ := Edit.assigns_of_apply happly
    refine ⟨hfailed, ?_, hraw.trans hsame⟩
    rw [List.foldl_cons, hsets, hadds, List.flatMap_cons, List.append_assoc]

theorem compute_ok {u : Update} {column : String} {c : Condition}
    (h : (u.edit (.compute column c)).failed = none) : u.raw = none ∧ c.isProjection ∧
      u.edit (.compute column c) = { u with sets := u.sets ++ [(column, .computed c)] } := by
  obtain ⟨-, happly⟩ := edit_ok h
  obtain ⟨_, hraw, happly⟩ := bind_ok happly
  obtain ⟨_, hprojection, happly⟩ := bind_ok happly
  refine ⟨?_, Select.checkProjection_ok hprojection, (Except.ok.inj happly).symm⟩
  cases hr : u.raw with
  | none => rfl
  | some raw =>
    rw [hr] at hraw
    cases hraw

end Update

/-! ## SELECT -/

namespace ConditionOf

def unnamed {σ : Type} (c : ConditionOf σ) : ConditionOf σ := { c with name := none }

theorem projection_unnamed (c : ConditionOf (Except Error Text)) (lenient : Bool) :
    c.unnamed.projection lenient = c.selectedText lenient := by
  rw [projection_eq]
  have hselected : c.unnamed.selectedText lenient = c.selectedText lenient := rfl
  have halias : aliasText c.unnamed.name = .ok [] := rfl
  rw [hselected, halias]
  cases c.selectedText lenient with
  | error e => rfl
  | ok t => exact congrArg Except.ok (List.append_nil t)

end ConditionOf

/-- the text of a condition as a selected column, without its alias -/
def Condition.selected (c : Condition) (lenient : Bool) : Except Error Text :=
  (c.unnamed.map Select.text).projection lenient

theorem Condition.projection_eq (c : Condition) (lenient : Bool) :
    (c.map Select.text).projection lenient = do
      let text ← c.selected lenient
      let name ← aliasText c.name
      return text ++ name := by
  have hselected : c.selected lenient = (c.map Select.text).selectedText lenient :=
    ConditionOf.projection_unnamed (c.map Select.text) lenient
  rw [hselected, ConditionOf.projection_eq]
  rfl

namespace SelectOf

/-- the SELECT around the column between `before` and `behind`, with its alias `name` -/
def around (s : SelectOf Select) (before : List Condition) (name : Option String)
    (behind : List Condition) : Around :=
  let texts := s.map Select.text
  let stepLists := s.map Select.steps
  { front := do
      let columns ← before.mapM fun c => (c.map Select.text).projection s.lenient
      return "SELECT ".toList ++ (if s.distinct then "DISTINCT ".toList else []) ++
        columns.flatMap (· ++ ", ".toList)
    behind := do
      let name ← aliasText name
      let columns ← behind.mapM fun c => (c.map Select.text).projection s.lenient
      let source ← texts.sourceText
      let joins ← texts.joins.mapM JoinOf.text
      let wheres ← Clause.text .filter s.wheres
      let groupBy ← termsText " GROUP BY " s.groupBy s.lenient
      let havings ← Clause.text .having s.havings
      let orderBy ← termsText " ORDER BY " s.orderBy s.lenient
      return name ++ columns.flatMap (", ".toList ++ ·) ++ s.memberText ++ source ++ joins.flatten ++
        wheres ++ groupBy ++ havings ++ orderBy ++ limitText s.limit s.offset
    stepsFront := before.flatMap fun c => (c.map Select.steps).steps
    stepsBehind := behind.flatMap (fun c => (c.map Select.steps).steps) ++
      stepLists.derived.getD [] ++ stepLists.joins.flatMap (fun j => clauseSteps .join j.on) ++
      Clause.steps .filter s.wheres ++ Clause.steps .having s.havings }

end SelectOf

namespace Select

section
variable {s : SelectOf Select} {before behind : List Condition} {c : Condition}
  (hfailed : s.failed = none) (hraw : s.raw = none) (hcolumns : s.columns = before ++ c :: behind)
include hfailed hraw hcolumns

theorem text_around :
    (mk s).text = (s.around before c.name behind).text (c.selected s.lenient) := by
  have htext : (mk s).text = (s.map text).clausesText := by
    rw [text_mk]
    unfold SelectOf.text
    rw [show (s.map text).failed = none from hfailed, show (s.map text).raw = none from hraw]
  have hmapped : (s.map text).columns =
      before.map (·.map text) ++ c.map text :: behind.map (·.map text) := by
    show s.columns.map (·.map text) = _
    rw [hcolumns, List.map_append, List.map_cons]
  have hsome : ¬ (s.map text).columns.isEmpty = true := by simp [hmapped]
  have hlenient : (s.map text).lenient = s.lenient := rfl
  rw [htext]
  unfold SelectOf.clausesText SelectOf.columnsText Around.text SelectOf.around
  rw [if_neg hsome]
  simp only [hmapped, hlenient, List.mapM_append, List.mapM_cons, List.mapM_map,
    Condition.projection_eq c, bind_assoc, pure_bind, Text.separated_append_cons, List.append_assoc]
  rfl

theorem steps_around :
    (mk s).steps = (s.around before c.name behind).steps (c.map steps).steps := by
  rw [steps_mk]
  unfold SelectOf.steps Around.steps SelectOf.around
  rw [show (s.map steps).failed = none from hfailed, show (s.map steps).raw = none from hraw]
  have hmapped : (s.map steps).columns.flatMap ConditionOf.steps =
      before.flatMap (fun c => (c.map steps).steps) ++ ((c.map steps).steps ++
        behind.flatMap fun c => (c.map steps).steps) := by
    show (s.columns.map (·.map steps)).flatMap _ = _
    rw [hcolumns, List.flatMap_map, List.flatMap_append, List.flatMap_cons]
  simp only [hmapped, List.append_assoc]
  rfl

end

end Select

/-! ## the value of a computed column -/

/-- a name that is written in every place is written alike in a lenient one -/
theorem nameText_of_strict {name : String} {t : Text} (h : nameText name false = .ok t)
    (lenient : Bool) : nameText name lenient = .ok t := by
  unfold nameText at h ⊢
  simp only [Bool.false_and, Bool.false_eq_true, if_false] at h ⊢
  split at h
  · rwa [if_pos ‹_›]
  · rw [if_neg ‹_›]
    split at h
    · exact h
    · cases h

theorem ne_empty_of_nameText {name : String} {t : Text} (h : nameText name false = .ok t) :
    name ≠ "" := by
  rintro rfl
  cases h

namespace Condition

variable {c : Condition}

theorem selected_eq (c : Condition) (lenient : Bool) :
    c.selected lenient = if c.kind = .expression then c.text else nameText c.left lenient :=
  ConditionOf.projection_unnamed (c.map Select.text) lenient

section
variable (hk : c.kind = .column) (hp : c.isProjection)
include hk hp

/-- nothing is compared with it -/
theorem bare_of_isProjection :
    c.operator = none ∧ c.operand = none ∧ c.subselect = none ∧ c.deferred = false := by
  unfold ConditionOf.isProjection at hp
  simp only [hk, Bool.and_eq_true, Bool.not_eq_true', Option.isNone_iff_eq_none] at hp
  obtain ⟨⟨⟨hoperand, hsub⟩, hdeferred⟩, hop⟩ := hp
  exact ⟨hop, hoperand, hsub, hdeferred⟩

theorem checkSources_of_column : c.checkSources = .ok () ↔ c.flaw = none := by
  obtain ⟨-, hoperand, hsub, hdeferred⟩ := bare_of_isProjection hk hp
  have hsources : c.sources ≤ 1 := by
    unfold ConditionOf.sources
    rw [hoperand, hsub, hdeferred]
    cases c.exprArgs.isEmpty <;> decide
  unfold ConditionOf.checkSources
  cases c.flaw with
  | some flaw => exact ⟨nofun, nofun⟩
  | none => simp [hk, hsources]

/-- as a condition, a bare column is compared with NULL -/
theorem text_of_column :
    c.text = do
      c.checkSources
      let name ← c.leftText
      return name ++ " IS NULL".toList := by
  obtain ⟨hop, hoperand, hsub, hdeferred⟩ := bare_of_isProjection hk hp
  unfold Condition.text ConditionOf.body
  rw [ConditionOf.checkSources_map]
  unfold ConditionOf.columnText ConditionOf.operandLength ConditionOf.map
  simp only [hk, hsub, hoperand, hdeferred, hop]
  rfl

theorem text_of_column_iff {t : Text} : c.text = .ok t ↔ c.flaw = none ∧
    ∃ name, (∀ lenient, c.selected lenient = .ok name) ∧ t = name ++ " IS NULL".toList := by
  have hselected : ∀ lenient, c.selected lenient = nameText c.left lenient := fun lenient => by
    rw [selected_eq, if_neg (by rw [hk]; exact nofun)]
  rw [text_of_column hk hp, ← checkSources_of_column hk hp]
  constructor
  · intro h
    obtain ⟨_, hsources, h⟩ := bind_ok h
    obtain ⟨name, hname, h⟩ := bind_ok h
    cases h
    unfold ConditionOf.leftText at hname
    split at hname
    · cases hname
    · exact ⟨hsources, name, fun lenient => by rw [hselected, nameText_of_strict hname], rfl⟩
  · rintro ⟨hsources, name, hname, rfl⟩
    have hstrict : nameText c.left false = .ok name := by rw [← hselected, hname]
    rw [hsources, ConditionOf.leftText, if_neg (ne_empty_of_nameText hstrict), hstrict]
    rfl

end

/-- an expression with a text binds its own arguments, or none of them -/
theorem steps_of_expression (hk : c.kind = .expression) {t : Text} (h : c.text = .ok t) :
    ∃ own : Arguments, (c.map Select.steps).steps = own.map .push ∧
      (own = c.exprArgs ∨ own = []) := by
  obtain ⟨_, -, h⟩ := bind_ok h
  rw [show (c.map Select.text).kind = .expression from hk] at h
  have hsteps : (c.map Select.steps).steps = c.expressionSteps := by
    unfold ConditionOf.steps
    rw [show (c.map Select.steps).kind = .expression from hk]
    rfl
  have htext : (c.map Select.text).expressionText = .ok t := h
  rw [hsteps]
  unfold ConditionOf.expressionSteps
  unfold ConditionOf.expressionText ConditionOf.map at htext
  split
  · rename_i hzero
    simp only [hzero, if_true] at htext
    split
    · rename_i a ha
      simp only [ha] at htext
      obtain ⟨cmp, hcmp, -⟩ := bind_ok htext
      unfold ConditionOf.operandSteps
      simp only [hcmp]
      split
      · exact ⟨[a], rfl, .inl ha.symm⟩
      · exact ⟨[], rfl, .inr rfl⟩
    · exact ⟨[], rfl, .inr rfl⟩
  · exact ⟨c.exprArgs, rfl, .inl rfl⟩

end Condition

/-! ## the theorem -/

/-- Take an UPDATE that has accepted a computed column, whatever was assigned before it and whatever
edits came later.  Its text is the condition's text, and its steps are the condition's steps, with
texts and steps around them that do not depend on the condition; a SELECT with the condition among its
columns has the same steps and the condition's text as a selected column in their place.  For an
expression the two texts are the same, errors included, and the arguments bound are known.  A bare
column binds nothing in either statement, but it is assigned as a condition: where the SELECT has its
name, the UPDATE compares this name with NULL. -/
theorem Update.computed_as_selected {u v : Update} {column : String} {c : Condition}
    {later : List Update.Edit} (hedits : later.foldl edit (u.edit (.compute column c)) = v)
    (haccepted : v.failed = none) :
    (v.text = (v.around u.sets column (later.flatMap Edit.assigns)).text c.text ∧
      v.steps = (v.around u.sets column (later.flatMap Edit.assigns)).steps
        (c.map Select.steps).steps) ∧
    (∀ (s : SelectOf Select) (before behind : List Condition), s.failed = none → s.raw = none →
      s.columns = before ++ c :: behind →
      (Select.mk s).text = (s.around before c.name behind).text (c.selected s.lenient) ∧
      (Select.mk s).steps = (s.around before c.name behind).steps (c.map Select.steps).steps) ∧
    ((c.kind = .expression ∧ (∀ lenient, c.text = c.selected lenient) ∧
        ∀ t, c.text = .ok t → ∃ own : Arguments, (c.map Select.steps).steps = own.map .push ∧
          (own = c.exprArgs ∨ own = [])) ∨
      (c.kind = .column ∧ (c.map Select.steps).steps = [] ∧
        ∀ t, c.text = .ok t ↔ c.flaw = none ∧
          ∃ name, (∀ lenient, c.selected lenient = .ok name) ∧ t = name ++ " IS NULL".toList)) := by
  have hnone := haccepted
  rw [← hedits] at hnone
  obtain ⟨hfirst, hsets, hraw⟩ := edits_ok hnone
  obtain ⟨htable, hprojection, hcompute⟩ := compute_ok hfirst
  rw [hedits, hcompute] at hsets hraw
  have hplace : v.sets = u.sets ++ (column, .computed c) :: later.flatMap Edit.assigns := by
    rw [hsets, List.append_assoc]
    rfl
  have hstructured : v.raw = none := hraw.trans htable
  refine ⟨⟨text_around haccepted hstructured hplace, steps_around haccepted hstructured hplace⟩,
    fun s before behind hfailed hraw hcolumns => ⟨Select.text_around hfailed hraw hcolumns,
      Select.steps_around hfailed hraw hcolumns⟩, ?_⟩
  cases hk : c.kind with
  | expression =>
    refine .inl ⟨rfl, fun lenient => ?_, fun t ht => Condition.steps_of_expression hk ht⟩
    rw [Condition.selected_eq, if_pos hk]
  | column =>
    refine .inr ⟨rfl, ConditionOf.steps_of_isProjection hprojection (by rw [hk]; exact nofun),
      fun t => Condition.text_of_column_iff hk hprojection⟩
  | groupOpen | groupClose | shared =>
    unfold ConditionOf.isProjection at hprojection
    rw [hk] at hprojection
    cases hprojection

/-- a grade that depends on a value of the caller's -/
def grade : Condition :=
  ((ConditionOf.caseWhen "" "'low'" [("score > ?", "'high'")]).arg (.int 9)).named "grade"

/-- an UPDATE with a column of a record's and a column of its own -/
def scored : Update :=
  ((Update.ofTable "t").edit (.recordColumns ["score"])).edit (.set "seen" (.bool true))

def behindGrade : List Update.Edit :=
  [.set "note" .null, .filter [(ConditionOf.column "id").arg (.int 3)], .limit 1]

def graded : Update := behindGrade.foldl Update.edit (scored.edit (.compute "grade" grade))

def gradesOf : SelectOf Select := { table := "t", columns := [.column "id", grade] }

/-- the grade between other assignments, and among the columns of a SELECT -/
theorem Update.computed_as_selected_grade :
    behindGrade.foldl edit (scored.edit (.compute "grade" grade)) = graded ∧
    graded.failed = none ∧
    graded.text =
      .ok ("UPDATE `t` SET `score`=?, `seen`=?, " ++
        "`grade`=CASE  WHEN score > ? THEN 'high' ELSE 'low' END, `note`=? " ++
        "WHERE (`id` = ?) LIMIT 1").toList ∧
    graded.text = (graded.around scored.sets "grade" (behindGrade.flatMap Edit.assigns)).text
      (grade.selected false) ∧
    graded.steps = (graded.around scored.sets "grade" (behindGrade.flatMap Edit.assigns)).steps
      [.push (.int 9)] ∧
    (Select.mk gradesOf).text =
      .ok ("SELECT `id`, CASE  WHEN score > ? THEN 'high' ELSE 'low' END AS `grade` " ++
        "FROM `t`").toList ∧
    (Select.mk gradesOf).text = (gradesOf.around [.column "id"] (some "grade") []).text
      (grade.selected false) ∧
    (Select.mk gradesOf).steps = (gradesOf.around [.column "id"] (some "grade") []).steps
      [.push (.int 9)] := by
  have haccepted : graded.failed = none := rfl
  have hsteps : (grade.map Select.steps).steps = [.push (.int 9)] := rfl
  obtain ⟨⟨htext, harguments⟩, hselect, ⟨-, hsame, -⟩ | ⟨hcolumn, -⟩⟩ :=
    computed_as_selected rfl haccepted
  · obtain ⟨hselected, hbound⟩ := hselect gradesOf [.column "id"] [] rfl rfl rfl
    rw [hsame false] at htext
    rw [hsteps] at harguments hbound
    exact ⟨rfl, haccepted, ok_of_toOption (by decide +kernel), htext, harguments,
      ok_of_toOption (by decide +kernel), hselected, hbound⟩
  · cases hcolumn

/-- the name of another column is compared with NULL where it should be assigned -/
theorem Update.computed_column_compared :
    let u := (ofTable "t").edit (.compute "a" (.column "b"))
    u.failed = none ∧ u.text = .ok "UPDATE `t` SET `a`=`b` IS NULL".toList ∧
      ∀ lenient, Condition.selected (.column "b") lenient = .ok "`b`".toList ∧
        (u.around [] "a" []).text (Condition.selected (.column "b") lenient) =
          .ok "UPDATE `t` SET `a`=`b`".toList := by
  intro u
  refine ⟨rfl, ok_of_toOption (by decide +kernel), fun lenient => ⟨ok_of_toOption ?_, ok_of_toOption ?_⟩⟩
  · cases lenient <;> decide +kernel
  · cases lenient <;> decide +kernel

end BoundSql
