import BoundSql.Bulk.Run
import BoundSql.Proofs.Inclusion.Statement
import BoundSql.Proofs.Uses

/-!
# The first error of a builder

An edit that fails leaves its error in the statement.  From then on the error is all that the builder
gives: no use of it changes anything, nothing reaches the driver, and no statement around it can be
built.

* `Sticky`                kinds of statements with the edits of theirs that fail;
* `outcome`               the first error of a history, or the draft it leads to;
* `Builder.uses_of_failed`, `Builder.fits_uses`   what uses do to a builder, after an error and before;
* `Builder.Stopped`, `Bulk.Stopped`   an error is all that a builder or a bulk execution gives;
* `first_error_stays`     all of it.
-/

namespace BoundSql

/-! ## edits that fail -/

namespace Select

theorem Edit.failed_of_apply {s s' : SelectOf Select} {e : Edit} (h : e.apply s = .ok s') :
    s'.failed = s.failed := by
  cases e with
  | named | distinct | lenient | interpolate =>
    cases h
    rfl
  | columns | star | namedColumns | filter | having | groupBy | orderBy | limit | offset | page =>
    obtain ⟨_, _, h⟩ := bind_ok h
    cases h
    rfl
  | computedColumns | join =>
    obtain ⟨_, _, h⟩ := bind_ok h
    obtain ⟨_, _, h⟩ := bind_ok h
    cases h
    rfl

/-- a page is a limit and an offset, one edit after the other -/
theorem edit_page (s : Select) (number size : Nat) :
    s.edit (.page number size) =
      (s.edit (.limit (max size 1))).edit (.offset (pageOffset number (max size 1))) := by
  obtain ⟨s⟩ := s
  unfold edit
  cases hfailed : s.failed with
  | some error => simp only [failed, clauses, hfailed]
  | none =>
    cases hraw : s.raw with
    | none => simp [Edit.apply, structured, clauses, failed, hfailed, hraw]
    | some raw => simp [Edit.apply, structured, clauses, failed, hfailed, hraw]

end Select

namespace Insert

theorem Edit.failed_of_apply {i i' : Insert} {e : Edit} (h : e.apply i = .ok (.ok i')) :
    i'.failed = i.failed := by
  cases e with
  | columns | rowCount | records | fromSelect | ignore | interpolate =>
    cases h
    rfl
  | values given =>
    obtain ⟨_, _, _, rfl⟩ := addValues_ok h
    rfl
  | pairs row =>
    obtain ⟨_, _, _, rfl⟩ := addPairs_ok (Except.ok.inj h)
    rfl
  | onDuplicate column value =>
    obtain ⟨_, rfl⟩ := addDuplicate_ok (Except.ok.inj h)
    rfl

end Insert

namespace Update

theorem Edit.failed_of_apply {u u' : Update} {e : Edit} (h : e.apply u = .ok u') :
    u'.failed = u.failed := by
  cases e with
  | named | interpolate =>
    cases h
    rfl
  | recordColumns | filter | orderBy | limit =>
    obtain ⟨_, _, h⟩ := bind_ok h
    cases h
    rfl
  | set column value =>
    obtain ⟨_, _, h⟩ := bind_ok h
    simp only at h
    split at h
    · cases h
    · cases h
      rfl
  | compute =>
    obtain ⟨_, _, h⟩ := bind_ok h
    obtain ⟨_, _, h⟩ := bind_ok h
    cases h
    rfl

end Update

namespace Union

theorem Edit.failed_of_apply {u u' : Union} {e : Edit} (h : e.apply u = .ok u') :
    u'.failed = u.failed := by
  cases e with
  | append | all | distinct | together | orderBy | limit | offset | interpolate =>
    cases h
    rfl
  | replace key values =>
    obtain ⟨_, rfl⟩ := addReplacement_ok h
    rfl

end Union

def Draft.failed {σ : Type} [Draft σ] (d : σ) : Option Error := (Draft.statement d).failed

/-- kinds of statements that keep the first error of an edit -/
class Sticky (σ : Type) [Draft σ] where
  /-- the draft behind an edit, or the error of the edit; an edit may also end the program -/
  attempt : σ → Draft.Edit σ → Except Fault (Except Error σ)
  fail : σ → Error → σ
  edit_eq (d : σ) (e : Draft.Edit σ) : Draft.edit d e =
    match Draft.failed d with
    | some _ => .ok d
    | none => (attempt d e).map fun result =>
      match result with
      | .ok d' => d'
      | .error error => fail d error
  failed_fail (d : σ) (error : Error) : Draft.failed (fail d error) = some error
  failed_of_attempt {d d' : σ} {e : Draft.Edit σ} (h : attempt d e = .ok (.ok d')) :
    Draft.failed d' = Draft.failed d

instance : Sticky Select where
  attempt s e := .ok ((e.apply s.clauses).map .mk)
  fail s error := .mk { s.clauses with failed := some error }
  edit_eq s e := by
    show Except.ok (s.edit e) = match s.failed with | some _ => _ | none => _
    unfold Select.edit
    cases s.failed with
    | some error => rfl
    | none => cases e.apply s.clauses <;> rfl
  failed_fail _ _ := rfl
  failed_of_attempt {s s' e} h := by
    cases happly : e.apply s.clauses with
    | error error =>
      rw [happly] at h
      cases h
    | ok clauses =>
      rw [happly] at h
      cases h
      exact Select.Edit.failed_of_apply happly

instance : Sticky Insert where
  attempt i e := e.apply i
  fail i error := { i with failed := some error }
  edit_eq i e := by
    show i.edit e = match i.failed with | some _ => _ | none => _
    unfold Insert.edit
    cases i.failed with
    | some error => rfl
    | none =>
      cases e.apply i with
      | error fault => rfl
      | ok result => cases result <;> rfl
  failed_fail _ _ := rfl
  failed_of_attempt h := Insert.Edit.failed_of_apply h

instance : Sticky Update where
  attempt u e := .ok (e.apply u)
  fail u error := { u with failed := some error }
  edit_eq u e := by
    show Except.ok (u.edit e) = match u.failed with | some _ => _ | none => _
    unfold Update.edit
    cases u.failed with
    | some error => rfl
    | none => cases e.apply u <;> rfl
  failed_fail _ _ := rfl
  failed_of_attempt h := Update.Edit.failed_of_apply (Except.ok.inj h)

instance : Sticky Union where
  attempt u e := .ok (e.apply u)
  fail u error := { u with failed := some error }
  edit_eq u e := by
    show Except.ok (u.edit e) = match u.failed with | some _ => _ | none => _
    unfold Union.edit
    cases u.failed with
    | some error => rfl
    | none => cases e.apply u <;> rfl
  failed_fail _ _ := rfl
  failed_of_attempt h := Union.Edit.failed_of_apply (Except.ok.inj h)

namespace Sticky

variable {σ : Type} [Draft σ] [Sticky σ] {d d' : σ} {e : Draft.Edit σ} {error : Error}

/-- after a failed edit nothing is touched any more -/
theorem edit_of_failed (h : Draft.failed d = some error) (e : Draft.Edit σ) :
    Draft.edit d e = .ok d := by
  rw [edit_eq, h]

theorem edit_of_fault {fault : Fault} (h : Draft.failed d = none)
    (he : attempt d e = .error fault) : Draft.edit d e = .error fault := by
  rw [edit_eq, h, he]
  rfl

theorem edit_of_error (h : Draft.failed d = none) (he : attempt d e = .ok (.error error)) :
    Draft.edit d e = .ok (fail d error) := by
  rw [edit_eq, h, he]
  rfl

theorem edit_of_ok (h : Draft.failed d = none) (he : attempt d e = .ok (.ok d')) :
    Draft.edit d e = .ok d' := by
  rw [edit_eq, h, he]
  rfl

end Sticky

variable {σ : Type} [Draft σ]

/-! ## an error is all there is -/

namespace Builder

/-- the error is all that the builder gives, whatever is asked of it, and the driver is asked nothing -/
structure Stopped (b : Builder σ) (e : Error) : Prop where
  text : b.statement.buildText = .error e
  toSql : b.toSql = ([], .error e, b)
  exec {δ : Type} (conn : Connection δ) (ctx : Context) (db : δ) :
    b.exec conn ctx db = ([], .error e, b, db)
  prepare {δ : Type} (conn : Connection δ) (ctx : Context) (db : δ) :
    b.prepare conn ctx db = ([], .error e, db)

/-- without a text there is nothing, in the cache neither -/
theorem Sound.stopped {b : Builder σ} (h : b.Sound) {e : Error}
    (htext : b.statement.buildText = .error e) : b.Stopped e := by
  have hbuild : b.statement.build = ([], .error e) := by rw [Statement.build, htext]
  have hget : b.cache.get = none := by
    cases hget : b.cache.get with
    | none => rfl
    | some built =>
      unfold Cache.get at hget
      split at hget
      · have hbuilt := h built hget
        rw [hbuild] at hbuilt
        cases hbuilt
      · cases hget
  have hsql : b.toSql = ([], .error e, b) := by
    rw [Builder.toSql, hget, hbuild]
    rfl
  refine ⟨htext, hsql, fun conn ctx db => ?_, fun conn ctx db => ?_⟩
  · rw [Builder.exec, scalarSql, hsql]
    rfl
  · rw [Builder.prepare, htext]

end Builder

theorem Statement.buildText_of_failed {s : Statement} {e : Error} (h : s.failed = some e) :
    s.buildText = .error e := by
  rw [buildText, validate, h]
  rfl

theorem Statement.buildArgs_of_failed {s : Statement} {e : Error} (h : s.failed = some e)
    (record : Option Record) : s.buildArgs record = ([], .error e) := by
  rw [buildArgs, validate, h]

theorem Mutation.recordText_of_failed {m : Mutation} {e : Error} (h : m.statement.failed = some e) :
    m.recordText = .error e := by
  unfold recordText
  rw [Statement.validate, h]
  rfl

theorem Mutation.recordArgs_of_failed {m : Mutation} {e : Error} (h : m.statement.failed = some e)
    (record : Record) (aliases : Option (List String)) :
    m.recordArgs record aliases = ([], .error e) := by
  rw [recordArgs, Statement.validate, h]

namespace Bulk

/-- the error is all that a bulk execution gives, and the driver is asked nothing -/
structure Stopped (b : Bulk) (e : Error) : Prop where
  plan : b.plan = .error e
  run {δ : Type} (conn : Connection δ) (records : List Record) (db : δ) :
    b.run conn records db = ⟨[], .error e, db⟩
  runList {δ : Type} (conn : Connection δ) (records : List Record) (db : δ) :
    b.runList conn records db =
      ⟨[], .error (if records.isEmpty then .missing .bulkRecords else e), db⟩

theorem stopped_of_plan {b : Bulk} {e : Error} (h : b.plan = .error e) : b.Stopped e := by
  have hrun : ∀ {δ : Type} (conn : Connection δ) (records : List Record) (db : δ),
      b.run conn records db = ⟨[], .error e, db⟩ := by
    intro δ conn records db
    rw [run, h]
  refine ⟨h, hrun, fun conn records db => ?_⟩
  rw [runList, hrun]
  split <;> rfl

theorem plan_of_failed {b : Bulk} {e : Error} (h : b.template.statement.failed = some e) :
    b.plan = .error e := by
  rw [plan, Statement.validate, h]
  rfl

/-- without a text for a record there is no plan -/
theorem plan_error {b : Bulk} {e : Error} (h : b.template.recordText = .error e) :
    ∃ e', b.plan = .error e' := by
  cases hplan : b.plan with
  | error e' => exact ⟨e', rfl⟩
  | ok plan =>
    obtain ⟨_, _, hplan⟩ := bind_ok hplan
    obtain ⟨_, _, hplan⟩ := bind_ok hplan
    obtain ⟨_, htext, _⟩ := bind_ok hplan
    cases h.symm.trans htext

end Bulk

/-- no statement around the query can be built, executed, prepared or executed in bulk -/
def Query.Spoils (q : Query) : Prop :=
  ∀ (τ : Type) [Draft τ] (d : τ) (us : List (Use τ)) (outer : Builder τ),
    (Builder.ofDraft d).uses us = .ok outer → outer.statement.Shows q →
      (∃ e, outer.Stopped e) ∧
      (∀ record, ∃ e, (outer.statement.buildArgs record).2 = .error e) ∧
      ∀ bulk : Bulk, bulk.template.statement = outer.statement →
        (∃ e, bulk.template.recordText = .error e) ∧
        (∀ record aliases, ∃ e, (bulk.template.recordArgs record aliases).2 = .error e) ∧
        ∃ e, bulk.Stopped e

theorem Query.spoils_of_failed {q : Query} {e : Error} (hq : q.statement.failed = some e) :
    q.Spoils := by
  intro τ _ d us outer hus hshows
  have hsound : outer.Sound := (Builder.sound_ofDraft d).uses hus
  refine ⟨?_, hshows.buildArgs hq, fun bulk hbulk => ?_⟩
  · obtain ⟨e', htext⟩ := hshows.buildText hq
    exact ⟨e', hsound.stopped htext⟩
  · rw [← hbulk] at hshows
    obtain ⟨e', htext⟩ := Mutation.recordText_error hshows hq
    obtain ⟨e'', hplan⟩ := Bulk.plan_error htext
    exact ⟨⟨e', htext⟩, Mutation.recordArgs_error hshows hq, e'', Bulk.stopped_of_plan hplan⟩

/-! ## histories -/

variable [Sticky σ]

/-- the first error of a list of uses, or the draft that they lead to -/
def attemptAll (d : σ) : List (Use σ) → Except Fault (Except Error σ)
  | [] => .ok (.ok d)
  | .edit e :: us =>
    match Sticky.attempt d e with
    | .ok (.ok d') => attemptAll d' us
    | stopped => stopped
  | _ :: us => attemptAll d us

/-- the same for a draft that may have an error from the start -/
def outcome (d : σ) (us : List (Use σ)) : Except Fault (Except Error σ) :=
  match Draft.failed d with
  | some e => .ok (.error e)
  | none => attemptAll d us

/-- what became of a builder is what the outcome says -/
def Fits (used : Except Fault (Builder σ)) : Except Fault (Except Error σ) → Prop
  | .error fault => used = .error fault
  | .ok (.error e) => ∃ b, used = .ok b ∧ Draft.failed b.draft = some e
  | .ok (.ok d) => ∃ b, used = .ok b ∧ b.draft = d ∧ Draft.failed d = none

namespace Builder

/-- after an error, a use changes nothing -/
theorem Sound.use_of_failed {b : Builder σ} (h : b.Sound) {e : Error}
    (hf : Draft.failed b.draft = some e) (u : Use σ) : b.use u = .ok b := by
  have hstatement : b.statement.failed = some e := hf
  cases u with
  | edit edit =>
    show b.edit edit = .ok b
    rw [Builder.edit, Sticky.edit_of_failed hf, hstatement]
    rfl
  | keep =>
    show Except.ok b.keep = .ok b
    rw [Builder.keep, hstatement]
  | build =>
    show Except.ok b.toSql.2.2 = .ok b
    rw [(h.stopped (Statement.buildText_of_failed hstatement)).toSql]

theorem Sound.uses_of_failed {b : Builder σ} (h : b.Sound) {e : Error}
    (hf : Draft.failed b.draft = some e) (us : List (Use σ)) : b.uses us = .ok b := by
  induction us with
  | nil => rfl
  | cons u us ih =>
    rw [uses_cons, h.use_of_failed hf u]
    exact ih

/-- up to the first error, uses do to the draft what the edits among them do -/
theorem Sound.fits_uses {b : Builder σ} (h : b.Sound) (hf : Draft.failed b.draft = none)
    (us : List (Use σ)) : Fits (b.uses us) (attemptAll b.draft us) := by
  induction us generalizing b with
  | nil => exact ⟨b, rfl, rfl, hf⟩
  | cons u us ih =>
    rw [uses_cons]
    cases u with
    | keep =>
      have hdraft : b.keep.draft = b.draft := b.keep_draft
      have := ih h.keep (hdraft ▸ hf)
      rwa [hdraft] at this
    | build =>
      have hdraft : b.toSql.2.2.draft = b.draft := b.toSql_draft
      have := ih h.toSql (hdraft ▸ hf)
      rwa [hdraft] at this
    | edit e =>
      show Fits (b.edit e >>= _) (match Sticky.attempt b.draft e with | .ok (.ok d') => _ | s => s)
      rw [h.edit_eq]
      cases hattempt : Sticky.attempt b.draft e with
      | error fault =>
        rw [Sticky.edit_of_fault hf hattempt]
        rfl
      | ok result =>
        cases result with
        | error error =>
          rw [Sticky.edit_of_error hf hattempt]
          have hfailed := Sticky.failed_fail b.draft error
          have hsound : (⟨Sticky.fail b.draft error, b.cache.clear⟩ : Builder σ).Sound :=
            sound_of_none rfl
          exact ⟨_, hsound.uses_of_failed hfailed us, hfailed⟩
        | ok d' =>
          rw [Sticky.edit_of_ok hf hattempt]
          have hsound : (⟨d', b.cache.clear⟩ : Builder σ).Sound := sound_of_none rfl
          exact ih hsound ((Sticky.failed_of_attempt hattempt).trans hf)

theorem fits_outcome (d : σ) (us : List (Use σ)) : Fits ((ofDraft d).uses us) (outcome d us) := by
  have hsound : (ofDraft d).Sound := sound_ofDraft d
  unfold outcome
  cases hf : Draft.failed d with
  | some e => exact ⟨_, hsound.uses_of_failed hf us, hf⟩
  | none => exact hsound.fits_uses hf us

end Builder

/-- If an edit is the first one of a builder's uses to fail, or the draft has an error from the start,
then no later use changes the builder, and this error is all that it gives: its text and arguments,
those for records and the plan of a bulk execution are this error, no build is kept, the driver is
asked nothing, and no statement around it can be built.  If no edit fails, the draft is the one that
the edits lead to, and has no error.  An edit that ends the program ends the uses. -/
theorem first_error_stays (d : σ) (us : List (Use σ)) :
    (∀ e, outcome d us = .ok (.error e) →
      ∃ b, (∀ later, (Builder.ofDraft d).uses (us ++ later) = .ok b) ∧ b.Stopped e ∧
        (∀ record, b.statement.buildArgs record = ([], .error e)) ∧
        (∀ bulk : Bulk, bulk.template.statement = b.statement →
          bulk.template.recordText = .error e ∧
          (∀ record aliases, bulk.template.recordArgs record aliases = ([], .error e)) ∧
          bulk.Stopped e) ∧
        ∀ q : Query, q.statement = b.statement → q.Spoils) ∧
    (∀ d', outcome d us = .ok (.ok d') →
      ∃ b, (Builder.ofDraft d).uses us = .ok b ∧ b.draft = d' ∧ b.statement.failed = none) ∧
    ∀ fault, outcome d us = .error fault → (Builder.ofDraft d).uses us = .error fault := by
  have hfits := Builder.fits_outcome d us
  refine ⟨fun e he => ?_, fun d' hd' => ?_, fun fault hfault => ?_⟩
  · rw [he] at hfits
    obtain ⟨b, hus, hf⟩ := hfits
    have hsound : b.Sound := (Builder.sound_ofDraft d).uses hus
    have hfailed : b.statement.failed = some e := hf
    refine ⟨b, fun later => ?_, hsound.stopped (Statement.buildText_of_failed hfailed),
      Statement.buildArgs_of_failed hfailed, fun bulk hbulk => ?_, fun q hq => ?_⟩
    · rw [Builder.uses_append, hus]
      exact hsound.uses_of_failed hf later
    · rw [← hbulk] at hfailed
      exact ⟨Mutation.recordText_of_failed hfailed, Mutation.recordArgs_of_failed hfailed,
        Bulk.stopped_of_plan (Bulk.plan_of_failed hfailed)⟩
    · rw [← hq] at hfailed
      exact Query.spoils_of_failed hfailed
  · rw [hd'] at hfits
    obtain ⟨b, hus, rfl, hf⟩ := hfits
    exact ⟨b, hus, rfl, hf⟩
  · rwa [hfault] at hfits

/-! a kept build of an INSERT, an edit that fails and, later on, another one that would; a sub-select
of the final query of a WITH -/

def keptThenFailed : List (Use Insert) :=
  [.edit (.columns ["a"]), .edit (.values [.int 1]), .keep, .build, .edit (.values [])]

/-- a sub-select without a name in the place of a table -/
def unnamed : Select := .ofDerived (.ofTable "t") ""

def aroundUnnamed : With where
  tables := [⟨"c", [], .select (.ofTable "t")⟩]
  query := some (.select ((Select.ofTable "c").edit
    (.filter [((ConditionOf.column "a").op .inList).sub unnamed])))

theorem first_error_stays_around :
    (∃ b, (Builder.ofDraft (Insert.ofTable "t")).uses
        (keptThenFailed ++ [.edit (.values [.ints []]), .build]) = .ok b ∧
      b.Stopped (.missing .insertValues)) ∧
    (∃ b, (Builder.ofDraft unnamed).uses [.build] = .ok b ∧
      b.Stopped (.missing .derivedTableAlias)) ∧
    ∃ e, (Builder.ofDraft aroundUnnamed).Stopped e := by
  have hinsert : outcome (Insert.ofTable "t") keptThenFailed =
      .ok (.error (.missing .insertValues)) := by cbv
  have hselect : outcome unnamed [] = .ok (.error (.missing .derivedTableAlias)) := rfl
  obtain ⟨b, hb, hstopped, _⟩ := (first_error_stays (Insert.ofTable "t") keptThenFailed).1 _ hinsert
  obtain ⟨c, hc, hunnamed, _, _, hspoils⟩ := (first_error_stays unnamed []).1 _ hselect
  have hdraft : c = Builder.ofDraft unnamed := (Except.ok.inj (hc [])).symm
  have hshows : (Statement.with aroundUnnamed).Shows (.select unnamed) :=
    .inside (p := .select _) (List.mem_cons_of_mem _ (List.mem_cons_self ..))
      (.directly (List.mem_cons_self ..))
  refine ⟨⟨b, hb _, hstopped⟩, ⟨c, hc _, hunnamed⟩, ?_⟩
  exact (hspoils (.select unnamed) (hdraft ▸ rfl) With aroundUnnamed [] _ rfl hshows).1

end BoundSql
