import Mathlib
import BoundSql.Proofs.Walk.Union
import BoundSql.Proofs.Walk.Update

/-!
# Walks of statements

* `With.walk`, `With.agrees`      a WITH over the walks of its queries;
* `Statement.walk`                the walk of a statement of any kind;
* `Statement.Closed`              the caller's texts leave the pass outside quotes;
* `Statement.Supplied`            every row of an INSERT has its values;
* `Statement.buildArgs_lockstep`  text and arguments are the projections of the walk.
-/

namespace BoundSql

open Placeholder

theorem Select.agrees_of_made {ss : List Select} (hm : ∀ s ∈ ss, s.Made)
    (hc : ∀ s ∈ ss, s.Everywhere SelectOf.Closed) : ∀ s ∈ ss, Agrees s.text s.steps s.walk :=
  fun s hs => Select.agrees (hc s hs) (hm s hs).projected

/-! ## WITH -/

namespace Query

def walk : Query → Except Error Walk
  | .select s => s.walk
  | .union u => u.walk

/-- the texts that a query does not leave to its SELECTs -/
def Closed : Query → Prop
  | .select _ => True
  | .union u => u.Closed

theorem agrees {q : Query} (hm : q.Made) (hq : q.Closed)
    (hc : ∀ t ∈ q.selects, t.Everywhere SelectOf.Closed) : Agrees q.text q.steps q.walk := by
  cases q with
  | select s => exact Select.agrees_of_made hm.selects hc s (List.mem_singleton_self s)
  | union u =>
    have hselects := Union.Made.selects hm
    exact Union.agrees (Union.Made.even hm) hq hc fun t ht => (hselects t ht).projected

end Query

def TableExpression.walk (t : TableExpression) : Except Error Walk := do
  let name ← nameText t.name false
  let columns ← t.columnsText
  let query ← within t.place t.query.walk
  return Walk.literal (name ++ columns ++ " AS ".toList) ++ query.parenthesized

theorem TableExpression.agrees {t : TableExpression}
    (h : Agrees t.query.text t.query.steps t.query.walk) : Agrees t.text t.steps t.walk := by
  intro sql hsql
  obtain ⟨name, hname, hsql⟩ := bind_ok hsql
  obtain ⟨columns, hcolumns, hsql⟩ := bind_ok hsql
  obtain ⟨query, hquery, hsql⟩ := bind_ok hsql
  cases hsql
  obtain ⟨w, hw, hm⟩ := h query (within_eq_ok hquery)
  have hinert : Inert columns := by
    unfold columnsText at hcolumns
    split at hcolumns
    · cases hcolumns
      exact inert_nil
    · obtain ⟨names, hnames, hcolumns⟩ := bind_ok hcolumns
      cases hcolumns
      exact (Inert.append (by decide) (inert_nameListText hnames)).append (by decide)
  refine ⟨Walk.literal (name ++ columns ++ " AS ".toList) ++ w.parenthesized, ?_,
    (hm.within t.place).parenthesized.prepend
      (((inert_strictName hname).append hinert).append (by decide))⟩
  unfold walk
  rw [hname, hcolumns, hw]
  rfl

namespace With

def walk (w : With) : Except Error Walk := do
  let query ← w.finalQuery
  let tables ← w.tables.mapM TableExpression.walk
  let last ← query.walk
  return Walk.literal (if w.recursive then "WITH RECURSIVE " else "WITH ").toList ++
    Walk.separated ",\n".toList tables ++ Walk.literal ['\n'] ++ last

theorem mem_queries_of_finalQuery {w : With} {q : Query} (h : w.finalQuery = .ok q) :
    q ∈ w.queries := by
  unfold finalQuery at h
  split at h
  · cases h
  · split at h
    · rename_i query hquery
      cases h
      exact List.mem_append_right _ (Option.mem_toList.mpr hquery)
    · cases h

theorem agrees {w : With} (h : ∀ q ∈ w.queries, Agrees q.text q.steps q.walk) :
    Agrees w.text w.steps w.walk := by
  intro t ht
  obtain ⟨query, hquery, ht⟩ := bind_ok ht
  obtain ⟨tables, htables, ht⟩ := bind_ok ht
  obtain ⟨last, hlast, ht⟩ := bind_ok ht
  cases ht
  obtain ⟨ws, hws, hms⟩ : ∃ ws, w.tables.mapM TableExpression.walk = .ok ws ∧
      MatchesAll ws tables (w.tables.flatMap TableExpression.steps) := by
    refine matchesAll_of_mapM (fun table htable => TableExpression.agrees (h _ ?_)) htables
    exact List.mem_append_left _ (List.mem_map_of_mem htable)
  obtain ⟨v, hv, hm⟩ := h query (mem_queries_of_finalQuery hquery) last hlast
  have hhead : Inert (if w.recursive then "WITH RECURSIVE " else "WITH ").toList := by
    cases w.recursive <;> decide
  have htables : (Walk.separated ",\n".toList ws).Matches (Text.separated ",\n".toList tables) _ :=
    hms.separated (by decide)
  have hall := ((htables.prepend hhead).followed (show Inert ['\n'] by decide)).append hm
  rw [List.append_assoc _ ['\n'] last] at hall
  have hsteps : w.steps = w.tables.flatMap TableExpression.steps ++ query.steps := by
    unfold steps
    rw [hquery]
  refine ⟨_, ?_, hsteps ▸ hall⟩
  unfold walk
  rw [hquery, hws]
  show (query.walk >>= _) = _
  rw [hv]
  rfl

end With

/-! ## statements -/

namespace Statement

/-- without a record, markers are bound to the columns that a record supplies -/
def walk : Statement → Except Error Walk
  | .select s => s.walk
  | .insert i => i.walkWith []
  | .update u => u.walkWith (u.recordColumns.map fun _ => .pending)
  | .delete d => d.walk
  | .union u => u.walk
  | .with w => w.walk

/-- the texts that a statement does not leave to its SELECTs -/
def OwnClosed : Statement → Prop
  | .select _ => True
  | .insert i => i.Closed
  | .update u => u.Closed
  | .delete d => d.Closed
  | .union u => u.Closed
  | .with w => ∀ q ∈ w.queries, q.Closed

/-- the caller's texts leave the pass outside quotes -/
structure Closed (s : Statement) : Prop where
  selects : ∀ t ∈ s.selects, t.Everywhere SelectOf.Closed
  own : s.OwnClosed

/-- no row of an INSERT waits for its values, and its records answer with one scalar a column -/
def Supplied : Statement → Prop
  | .insert i => i.rowCount.getD 0 ≤ i.boundRows ∧
      ∀ r ∈ i.records, r.Answers IsScalar .insert .values i.columns
  | _ => True

theorem projects_of_agrees {text : Except Error Text} {steps : List Step}
    {walk : Except Error Walk} (h : Agrees text steps walk) {t : Text} (ht : text = .ok t)
    (s : Subject) : ∃ w new, walk = .ok w ∧ w.Projects t s [] steps new := by
  obtain ⟨w, hw, hm⟩ := h t ht
  have hnone : w.Matches t (([] : Arguments).map .push ++ steps) := hm
  obtain ⟨new, hp⟩ := hnone.projects (s := s) yields_nil
  exact ⟨w, new, hw, hp⟩

theorem projects {s : Statement} (hm : s.Made) (hc : s.Closed) (hs : s.Supplied) {t : Text}
    (h : s.text = .ok t) :
    ∃ w new, s.walk = .ok w ∧ w.Projects t (.filling none) [] s.steps new := by
  have hagrees := Select.agrees_of_made hm.selects hc.selects
  cases s with
  | select s => exact projects_of_agrees (hagrees s (List.mem_singleton_self s)) h _
  | delete d => exact projects_of_agrees (Delete.agrees hc.own hagrees) h _
  | insert i =>
    refine @Insert.projects i (Insert.Made.scalar hm) hc.own hs.1 hs.2 hagrees []
      (fun row hrow => by cases hrow) _ (fun given _ => ?_) _ h
    exact yields_row rfl _ _
  | update u =>
    refine Update.projects (Update.Made.scalar hm) hc.own hagrees (List.length_map _) ?_
      (yields_assign rfl _ _) h
    intro a ha
    obtain ⟨column, _, rfl⟩ := List.mem_map.mp ha
    rfl
  | union u =>
    have hselects := Union.Made.selects hm
    exact projects_of_agrees (Union.agrees (Union.Made.even hm) hc.own hc.selects
      fun t ht => (hselects t ht).projected) h _
  | «with» w =>
    refine projects_of_agrees (With.agrees fun q hq => ?_) h _
    refine Query.agrees (With.Made.queries hm q hq) (hc.own q hq) fun t ht => ?_
    exact hc.selects t (List.mem_flatMap.mpr ⟨q, hq, ht⟩)

theorem buildArgs_of_yields {s : Statement} (hv : s.validate = .ok ()) {new : Arguments}
    (h : Yields (.filling none) [] s.steps new) : (s.buildArgs none).2 = .ok new := by
  obtain ⟨c, hrun, hargs⟩ := h .empty rfl
  have hbind : (bindSteps (.filling none) s.kind s.steps).2 = .ok new := by
    unfold bindSteps
    cases hsteps : runSteps (.filling none) .empty s.steps with
    | mk calls result =>
      rw [hsteps] at hrun
      cases hrun
      exact congrArg Except.ok hargs
  unfold buildArgs
  rw [hv]
  exact hbind

theorem isScalar_of_mem_members {a b : Argument} (h : b ∈ a.members) : IsScalar b := by
  cases a <;> simp only [Argument.members, List.mem_map, List.mem_singleton] at h
  case bools | ints | floats | strings | bytesList | times =>
    obtain ⟨_, _, rfl⟩ := h
    rfl
  all_goals
    subst h
    rfl

/-- whenever the text can be built, so can the arguments; both are projections of one walk, which
writes every placeholder of the text together with the value that it binds -/
theorem buildArgs_lockstep {s : Statement} (hm : s.Made) (hc : s.Closed) (hs : s.Supplied)
    {sql : Text} (h : s.buildText = .ok sql) :
    ∃ w args, s.walk = .ok w ∧ (s.buildArgs none).2 = .ok args ∧
      w.text = sql ∧ w.bound = args.flatMap Argument.members ∧ (∀ a ∈ w.bound, IsScalar a) ∧
      split sql = w.cut ∧ count sql = args.slotCount := by
  obtain ⟨_, hv, ht⟩ := bind_ok h
  obtain ⟨w, new, hw, hp⟩ := projects hm hc hs ht
  refine ⟨w, new, hw, buildArgs_of_yields hv hp.yields, hp.text_eq, hp.members_eq.symm, ?_, ?_, ?_⟩
  · intro a ha
    rw [← hp.members_eq] at ha
    obtain ⟨b, _, hb⟩ := List.mem_flatMap.mp ha
    exact isScalar_of_mem_members hb
  · rw [← hp.text_eq]
    exact Walk.splitFrom_text hp.whole.sound
  · rw [← hp.text_eq, ← Arguments.length_members, hp.members_eq]
    exact Walk.countFrom_text hp.whole.sound

/-! an INSERT of a known row and of a record's row, with an expression for rows that are there -/

def questions : Record :=
  ⟨"questions", fun _ _ args columns => .ok (args ++ columns.map fun _ => .string "?")⟩

def upsert : Insert where
  table := "t"
  columns := ["a", "b"]
  rows := [[.int 1, .null]]
  records := [questions]
  onDuplicate := [("b", .expression "b + ?" [.int 2])]

theorem made_upsert : (Statement.insert upsert).Made := by
  have hcolumns : Insert.Made { table := "t", columns := ["a", "b"] } :=
    .edit _ _ (.columns ["a", "b"]) (.ofTable "t") (fun _ h => by cases h) rfl
  have hvalues : Insert.Made { table := "t", columns := ["a", "b"], rows := [[.int 1, .null]] } :=
    .edit _ _ (.values [.int 1, .null]) hcolumns (fun _ h => by cases h) (by cbv)
  have hrecords := Insert.Made.edit _ _ (.records [questions]) hvalues (fun _ h => by cases h) rfl
  exact .edit _ _ (.onDuplicate "b" (.expression "b + ?" [.int 2])) hrecords
    (fun _ h => by cases h) rfl

theorem closed_upsert : (Statement.insert upsert).Closed where
  selects := by
    intro t ht
    cases ht
  own := by
    intro column sql args h
    cases List.mem_singleton.mp h
    decide

theorem supplied_upsert : (Statement.insert upsert).Supplied := by
  refine ⟨by decide, fun r hr args => ?_⟩
  rw [List.mem_singleton.mp hr]
  refine ⟨[.string "?", .string "?"], rfl, rfl, fun v hv => ?_⟩
  rcases List.mem_cons.mp hv with rfl | hv
  · rfl
  · rw [List.mem_singleton.mp hv]
    rfl

theorem buildArgs_lockstep_upsert :
    ∃ sql w, sql = ("INSERT INTO `t` (`a`,`b`) VALUES (?,?),(?,?)" ++
        " ON DUPLICATE KEY UPDATE `b`=b + ?").toList ∧
      (Statement.insert upsert).buildText = .ok sql ∧ (Statement.insert upsert).walk = .ok w ∧
      w.text = sql ∧ w.bound = [.int 1, .null, .string "?", .string "?", .int 2] ∧
      split sql = w.cut ∧ count sql = 5 := by
  have htext : (Statement.insert upsert).buildText =
      .ok ("INSERT INTO `t` (`a`,`b`) VALUES (?,?),(?,?)" ++
        " ON DUPLICATE KEY UPDATE `b`=b + ?").toList := by cbv
  have hvalues : ((Statement.insert upsert).buildArgs none).2 =
      .ok [.int 1, .null, .string "?", .string "?", .int 2] := by rfl
  obtain ⟨w, args, hw, hargs, hwtext, hbound, _, hcut, hcount⟩ :=
    buildArgs_lockstep made_upsert closed_upsert supplied_upsert htext
  rw [hvalues] at hargs
  cases hargs
  exact ⟨_, w, rfl, htext, hw, hwtext, hbound, hcut, hcount⟩

end Statement

end BoundSql
