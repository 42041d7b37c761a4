import Mathlib
import BoundSql.Proofs.Flight.Serial

/-!
# Runs in a transaction

* `Phases`, `Bulk.phases`   the phases of a run in a transaction, each with its outcome;
* `Phases.Complete`         all of them have succeeded;
* `Phases.Fails`            one of them has failed, and the transaction is undone;
* `Bulk.Transacted`         what a run in a transaction calls and returns;
* `Bulk.run_transacted`     every run in a transaction does so.
-/

namespace BoundSql

variable {δ : Type}

/-- the phases of a run in a transaction, up to its end -/
structure Phases (δ : Type) where
  began : Except Error Unit × δ
  opened : Outcome δ Unit
  served : Serial δ
  shut : Outcome δ Unit

namespace Phases

/-- the text is prepared, every record is executed, and the prepared text is closed -/
structure Complete (s : Phases δ) : Prop where
  began : s.began.1 = .ok ()
  opened : s.opened.result = .ok ()
  served : s.served.failure = none
  shut : s.shut.result = .ok ()

/-- the transaction has begun and must be undone for an error, in a state of the driver -/
inductive Fails (s : Phases δ) : Error → δ → Prop
  | opening {e : Error} : s.began.1 = .ok () → s.opened.result = .error e → Fails s e s.opened.db
  | serving {k : Nat} {e : Error} : s.began.1 = .ok () → s.opened.result = .ok () →
      s.served.failure = some (k, e) → Fails s (.record k [] e) s.shut.db
  | closing {e : Error} : s.began.1 = .ok () → s.opened.result = .ok () →
      s.served.failure = none → s.shut.result = .error e → Fails s e s.shut.db

/-- the outcome of the records and of closing -/
def verdict (s : Phases δ) : Except Error (List ExecResult) :=
  match s.served.failure with
  | some (k, e) => .error (.record k [] e)
  | none => s.shut.result.map fun _ => s.served.results

/-- the calls between the first and the last one of a transaction -/
def calls (b : Bulk) (plan : Plan) (s : Phases δ) : List Entry :=
  if plan.interpolated then s.served.requests.map (.executed b.options.context)
  else
    match s.opened.result with
    | .error _ => [.prepared b.options.context plan.sql]
    | .ok () =>
      .prepared b.options.context plan.sql ::
        s.served.requests.map (.executed b.options.context) ++ [.closed]

theorem ne_end_of_mem_calls {b : Bulk} {plan : Plan} {s : Phases δ} {call : Entry}
    (h : call ∈ s.calls b plan) : call ≠ .committed ∧ call ≠ .rolledBack := by
  have hexecuted {request : Request} (hrequest : .executed b.options.context request = call) :
      call ≠ .committed ∧ call ≠ .rolledBack := by
    rw [← hrequest]
    exact ⟨nofun, nofun⟩
  unfold calls at h
  split at h
  · obtain ⟨request, _, hrequest⟩ := List.mem_map.mp h
    exact hexecuted hrequest
  · split at h
    · rw [List.mem_singleton.mp h]
      exact ⟨nofun, nofun⟩
    · rcases List.mem_append.mp h with h | h
      · rcases List.mem_cons.mp h with rfl | h
        · exact ⟨nofun, nofun⟩
        · obtain ⟨request, _, hrequest⟩ := List.mem_map.mp h
          exact hexecuted hrequest
      · rw [List.mem_singleton.mp h]
        exact ⟨nofun, nofun⟩

theorem Fails.began {s : Phases δ} {e : Error} {db : δ} (h : s.Fails e db) :
    s.began.1 = .ok () := by
  cases h with
  | opening hbegan => exact hbegan
  | serving hbegan => exact hbegan
  | closing hbegan => exact hbegan

theorem Fails.not_complete {s : Phases δ} {e : Error} {db : δ} (h : s.Fails e db) :
    ¬ s.Complete := by
  intro hc
  cases h with
  | opening _ hopened => cases hc.opened.symm.trans hopened
  | serving _ _ hserved => cases hc.served.symm.trans hserved
  | closing _ _ _ hshut => cases hc.shut.symm.trans hshut

theorem complete_or_fails {s : Phases δ} (h : s.began.1 = .ok ()) :
    s.Complete ∨ ∃ e db, s.Fails e db := by
  rcases hopened : s.opened.result with e | ⟨⟩
  · exact .inr ⟨e, _, .opening h hopened⟩
  · rcases hserved : s.served.failure with _ | ⟨k, e⟩
    · rcases hshut : s.shut.result with e | ⟨⟩
      · exact .inr ⟨e, _, .closing h hopened hserved hshut⟩
      · exact .inl ⟨h, hopened, hserved, hshut⟩
    · exact .inr ⟨_, _, .serving h hopened hserved⟩

end Phases

namespace Bulk

/-- the phases that depend on one another through the state of the driver -/
def phases (b : Bulk) (plan : Plan) (conn : Connection δ) (options : TransactionOptions)
    (records : List Record) (db : δ) : Phases δ :=
  let began := conn.start b.options.context options db
  let opened := b.prepareText plan conn began.2
  let served := b.serially plan conn 0 records opened.db
  ⟨began, opened, served, closeText plan conn served.db⟩

/-- what a run in a transaction calls and returns -/
structure Transacted (b : Bulk) (plan : Plan) (conn : Connection δ)
    (options : TransactionOptions) (s : Phases δ) (o : Outcome δ (List ExecResult)) : Prop where
  notBegun : ∀ e, s.began.1 = .error e →
    o.calls = [.started b.options.context options] ∧ o.result = .error e
  begun : s.began.1 = .ok () → ∃ last, (last = .committed ∨ last = .rolledBack) ∧
    o.calls = .started b.options.context options :: s.calls b plan ++ [last] ∧
    ∀ call ∈ s.calls b plan, call ≠ .committed ∧ call ≠ .rolledBack
  committed : .committed ∈ o.calls ↔ s.Complete
  ok : ∀ results, o.result = .ok results ↔
    s.Complete ∧ (conn.commit s.shut.db).1 = .ok () ∧ results = s.served.results
  notCommitted : ∀ e, s.Complete → (conn.commit s.shut.db).1 = .error e → o.result = .error e
  undone : ∀ e db, s.Fails e db → (conn.rollback db).1 = .ok () → o.result = .error e
  notUndone : ∀ e db failure, s.Fails e db → (conn.rollback db).1 = .error failure →
    o.result = .error (.rollback failure e)
  record : ∀ k e, s.began.1 = .ok () → s.opened.result = .ok () →
    s.served.failure = some (k, e) →
      ∃ error, o.result = .error error ∧ error.recordIndex? = some k ∧ error.completed = []

/-- what a run does between the first and the last call of a transaction -/
def middle (b : Bulk) (plan : Plan) (conn : Connection δ) (options : TransactionOptions)
    (records : List Record) (db : δ) : Outcome δ (List ExecResult) :=
  b.runRecords plan conn 1 false records (conn.start b.options.context options db).2

section
variable {b : Bulk} {plan : Plan} {conn : Connection δ} {options : TransactionOptions}
variable {records : List Record} {db : δ}

/-! ## up to the end of the transaction -/

section
variable {s : Phases δ} (hs : s = b.phases plan conn options records db)
include hs

theorem middle_error {e : Error} (h : s.opened.result = .error e) :
    b.middle plan conn options records db = ⟨s.opened.trace, .error e, s.opened.db⟩ := by
  subst hs
  have hopened : (b.prepareText plan conn (conn.start b.options.context options db).2).result =
      .error e := h
  rw [middle, runRecords, hopened]
  rfl

theorem middle_ok (h : s.opened.result = .ok ()) :
    b.middle plan conn options records db =
      ⟨s.opened.trace ++ s.served.trace ++ s.shut.trace, s.verdict, s.shut.db⟩ := by
  subst hs
  let s := b.phases plan conn options records db
  let f := Flight.drive ⟨b, plan, conn, 1⟩ (.initial s.opened.db records)
  have hadds : (Flight.initial s.opened.db records).Adds s.served f :=
    Flight.Idle.drive_serially (p := ⟨b, plan, conn, 1⟩) ⟨rfl, rfl, rfl, rfl⟩ rfl
  have htrace : f.trace = s.served.trace := hadds.trace
  have hresults : f.done.map (·.2) = s.served.results := hadds.results
  have hshut : closeText plan conn f.db = s.shut := congrArg _ hadds.db
  have hrun : b.middle plan conn options records db =
      ⟨s.opened.trace ++ f.trace ++ (closeText plan conn f.db).trace,
        conclude false f (closeText plan conn f.db).result, (closeText plan conn f.db).db⟩ := by
    have hopened : (b.prepareText plan conn (conn.start b.options.context options db).2).result =
        .ok () := h
    rw [middle, runRecords, hopened]
    rfl
  rw [hrun, htrace, hshut, conclude, hadds.failure, hresults]
  rfl

theorem calls_middle : (b.middle plan conn options records db).calls = s.calls b plan := by
  have hserved : s.served.trace.filter Entry.isCall =
      s.served.requests.map (.executed b.options.context) := by
    rw [hs]
    exact b.calls_serially ..
  by_cases hi : plan.interpolated = true
  · have hopened : s.opened = ⟨[], .ok (), s.began.2⟩ := by
      rw [hs]
      exact if_pos hi
    have hshut : s.shut = ⟨[], .ok (), s.served.db⟩ := by
      rw [hs]
      exact if_pos hi
    rw [middle_ok hs (congrArg Outcome.result hopened), Outcome.calls, Phases.calls, if_pos hi,
      hopened, hshut, List.nil_append, List.append_nil, hserved]
  · have hopened : s.opened.trace = [.prepared b.options.context plan.sql] := by
      rw [hs]
      exact congrArg Outcome.trace (if_neg hi)
    have hshut : s.shut.trace = [.closed] := by
      rw [hs]
      exact congrArg Outcome.trace (if_neg hi)
    rw [Phases.calls, if_neg hi]
    rcases hresult : s.opened.result with e | ⟨⟩
    · rw [middle_error hs hresult, hopened]
      rfl
    · rw [middle_ok hs hresult, Outcome.calls, hopened, hshut, List.filter_append,
        List.filter_append, hserved]
      rfl

theorem middle_complete (h : s.Complete) :
    (b.middle plan conn options records db).result = .ok s.served.results ∧
      (b.middle plan conn options records db).db = s.shut.db := by
  have hverdict : s.verdict = .ok s.served.results := by
    rw [Phases.verdict, h.served, h.shut]
    rfl
  rw [middle_ok hs h.opened]
  exact ⟨hverdict, rfl⟩

theorem middle_fails {e : Error} {db' : δ} (h : s.Fails e db') :
    (b.middle plan conn options records db).result = .error e ∧
      (b.middle plan conn options records db).db = db' := by
  cases h with
  | opening _ hopened =>
    rw [middle_error hs hopened]
    exact ⟨rfl, rfl⟩
  | @serving k e _ hopened hserved =>
    have hverdict : s.verdict = .error (.record k [] e) := by
      rw [Phases.verdict, hserved]
    rw [middle_ok hs hopened]
    exact ⟨hverdict, rfl⟩
  | closing _ hopened hserved hshut =>
    have hverdict : s.verdict = .error e := by
      rw [Phases.verdict, hserved, hshut]
      rfl
    rw [middle_ok hs hopened]
    exact ⟨hverdict, rfl⟩

end

/-! ## the end of the transaction -/

theorem settle_ok {o : Outcome δ (List ExecResult)} {results : List ExecResult}
    (h : o.result = .ok results) :
    (b.settle conn o).calls = o.calls ++ [.committed] ∧
      (b.settle conn o).result = (conn.commit o.db).1.map fun _ => results := by
  rw [settle, h]
  exact ⟨List.filter_append .., rfl⟩

theorem settle_error {o : Outcome δ (List ExecResult)} {e : Error} (h : o.result = .error e) :
    (b.settle conn o).calls = o.calls ++ [.rolledBack] ∧
      (b.settle conn o).result =
        match (conn.rollback o.db).1 with
        | .ok () => .error e
        | .error failure => .error (.rollback failure e) := by
  rw [settle, h]
  rcases hr : conn.rollback o.db with ⟨failure | _, db⟩
  · exact ⟨List.filter_append .., rfl⟩
  · exact ⟨List.filter_append .., rfl⟩

theorem transact_error {e : Error} (h : (conn.start b.options.context options db).1 = .error e) :
    (b.transact plan conn options records db).calls = [.started b.options.context options] ∧
      (b.transact plan conn options records db).result = .error e := by
  rcases hs : conn.start b.options.context options db with ⟨began, db'⟩
  rw [hs] at h
  cases h
  rw [transact, hs]
  exact ⟨rfl, rfl⟩

theorem transact_ok (h : (conn.start b.options.context options db).1 = .ok ()) :
    let ended := b.settle conn (b.middle plan conn options records db)
    (b.transact plan conn options records db).calls =
        .started b.options.context options :: ended.calls ∧
      (b.transact plan conn options records db).result = ended.result := by
  rcases hs : conn.start b.options.context options db with ⟨began, db'⟩
  rw [hs] at h
  cases h
  rw [middle, transact, hs]
  exact ⟨congrArg (_ :: ·) (b.calls_announce _), rfl⟩

/-! ## whole runs -/

section
variable {s : Phases δ} (hs : s = b.phases plan conn options records db)
include hs

theorem transact_complete (h : s.Complete) :
    (b.transact plan conn options records db).calls =
        .started b.options.context options :: s.calls b plan ++ [.committed] ∧
      (b.transact plan conn options records db).result =
        (conn.commit s.shut.db).1.map fun _ => s.served.results := by
  obtain ⟨hresult, hdb⟩ := middle_complete hs h
  obtain ⟨hcalls, hended⟩ := @settle_ok δ b conn _ _ hresult
  obtain ⟨hall, hreturned⟩ := @transact_ok δ b plan conn options records db
    (by rw [← h.began, hs]; rfl)
  rw [hall, hcalls, calls_middle hs, hreturned, hended, hdb]
  exact ⟨rfl, rfl⟩

theorem transact_fails {e : Error} {db' : δ} (h : s.Fails e db') :
    (b.transact plan conn options records db).calls =
        .started b.options.context options :: s.calls b plan ++ [.rolledBack] ∧
      (b.transact plan conn options records db).result =
        match (conn.rollback db').1 with
        | .ok () => .error e
        | .error failure => .error (.rollback failure e) := by
  obtain ⟨hresult, hdb⟩ := middle_fails hs h
  obtain ⟨hcalls, hended⟩ := @settle_error δ b conn _ _ hresult
  obtain ⟨hall, hreturned⟩ := @transact_ok δ b plan conn options records db
    (by rw [← h.began, hs]; rfl)
  rw [hall, hcalls, calls_middle hs, hreturned, hended, hdb]
  exact ⟨rfl, rfl⟩

theorem transacted_of_complete (h : s.Complete) :
    b.Transacted plan conn options s (b.transact plan conn options records db) := by
  obtain ⟨hcalls, hresult⟩ := transact_complete hs h
  refine ⟨?_, ?_, ?_, ?_, ?_, ?_, ?_, ?_⟩
  · intro e hbegan
    cases h.began.symm.trans hbegan
  · intro _
    exact ⟨.committed, .inl rfl, hcalls, fun _ => Phases.ne_end_of_mem_calls⟩
  · rw [hcalls]
    exact ⟨fun _ => h, fun _ => by simp⟩
  · intro results
    rw [hresult]
    rcases hcommit : (conn.commit s.shut.db).1 with e | ⟨⟩
    · constructor
      · intro hok
        cases hok
      · intro ⟨_, hok, _⟩
        cases hok
    · refine ⟨fun hok => ?_, fun ⟨_, _, hresults⟩ => by rw [hresults]; rfl⟩
      cases hok
      exact ⟨h, rfl, rfl⟩
  · intro e _ hcommit
    rw [hresult, hcommit]
    rfl
  · intro e db' hf
    exact absurd h hf.not_complete
  · intro e db' failure hf
    exact absurd h hf.not_complete
  · intro k e _ _ hserved
    cases h.served.symm.trans hserved

theorem transacted_of_fails {e : Error} {db' : δ} (h : s.Fails e db') :
    b.Transacted plan conn options s (b.transact plan conn options records db) := by
  have hcalls := (transact_fails hs h).1
  have hresult {e : Error} {db' : δ} (hf : s.Fails e db') := (transact_fails hs hf).2
  refine ⟨?_, ?_, ?_, ?_, ?_, ?_, ?_, ?_⟩
  · intro e hbegan
    cases h.began.symm.trans hbegan
  · intro _
    exact ⟨.rolledBack, .inr rfl, hcalls, fun _ => Phases.ne_end_of_mem_calls⟩
  · rw [hcalls]
    refine ⟨fun hmem => ?_, fun hc => absurd hc h.not_complete⟩
    have hmiddle : Entry.committed ∉ s.calls b plan := fun hmem =>
      (Phases.ne_end_of_mem_calls hmem).1 rfl
    simp [hmiddle] at hmem
  · intro results
    refine ⟨fun hok => ?_, fun ⟨hc, _⟩ => absurd hc h.not_complete⟩
    rw [hresult h] at hok
    split at hok <;> cases hok
  · intro e hc
    exact absurd hc h.not_complete
  · intro e db' hf hback
    rw [hresult hf, hback]
  · intro e db' failure hf hback
    rw [hresult hf, hback]
  · intro k e hbegan hopened hserved
    rw [hresult (.serving hbegan hopened hserved)]
    split
    · exact ⟨_, rfl, rfl, rfl⟩
    · exact ⟨_, rfl, rfl, rfl⟩

theorem transacted_of_not_begun {e : Error} (h : s.began.1 = .error e) :
    b.Transacted plan conn options s (b.transact plan conn options records db) := by
  have hstart : (conn.start b.options.context options db).1 = .error e := by
    rw [← h, hs]
    rfl
  obtain ⟨hcalls, hresult⟩ := @transact_error δ b plan conn options records db e hstart
  have hbegan : s.began.1 ≠ .ok () := by
    rw [h]
    nofun
  refine ⟨?_, ?_, ?_, ?_, ?_, ?_, ?_, ?_⟩
  · intro e' he
    cases h.symm.trans he
    exact ⟨hcalls, hresult⟩
  · exact fun hok => absurd hok hbegan
  · rw [hcalls]
    exact ⟨fun hmem => by simp at hmem, fun hc => absurd hc.began hbegan⟩
  · intro results
    rw [hresult]
    exact ⟨nofun, fun ⟨hc, _⟩ => absurd hc.began hbegan⟩
  · exact fun _ hc => absurd hc.began hbegan
  · exact fun _ _ hf => absurd hf.began hbegan
  · exact fun _ _ _ hf => absurd hf.began hbegan
  · exact fun _ _ hok => absurd hok hbegan

theorem transact_transacted :
    b.Transacted plan conn options s (b.transact plan conn options records db) := by
  rcases hbegan : s.began.1 with e | ⟨⟩
  · exact transacted_of_not_begun hs hbegan
  · rcases Phases.complete_or_fails hbegan with hc | ⟨e, db', hf⟩
    · exact transacted_of_complete hs hc
    · exact transacted_of_fails hs hf

end

end

/-- every run in a transaction, up to the order of its calls and the error it returns -/
theorem run_transacted (b : Bulk) (conn : Connection δ) (records : List Record) (db : δ) :
    (∀ e, b.plan = .error e → b.run conn records db = ⟨[], .error e, db⟩) ∧
    b.runList conn [] db = ⟨[], .error (.missing .bulkRecords), db⟩ ∧
    (records ≠ [] → b.runList conn records db = b.run conn records db) ∧
    ∀ plan options, b.plan = .ok plan → b.options.transaction = some options →
      let s := b.phases plan conn options records db
      b.Transacted plan conn options s (b.run conn records db) ∧
        Serial.Serves b plan conn 0 records s.served ∧
        ∀ results, (b.run conn records db).result = .ok results →
          results.length = records.length := by
  refine ⟨?_, rfl, ?_, ?_⟩
  · intro e hplan
    rw [run, hplan]
  · intro hrecords
    have hempty : ¬ records.isEmpty = true := by
      rw [List.isEmpty_iff]
      exact hrecords
    exact if_neg hempty
  · intro plan options hplan htransaction s
    have hrun : b.run conn records db = b.transact plan conn options records db :=
      run_in_transaction conn records db hplan htransaction
    have htransacted : b.Transacted plan conn options s (b.run conn records db) := by
      rw [hrun]
      exact transact_transacted rfl
    have hserves : Serial.Serves b plan conn 0 records s.served := b.serves_serially ..
    refine ⟨htransacted, hserves, fun results hok => ?_⟩
    obtain ⟨hcomplete, _, rfl⟩ := (htransacted.ok results).mp hok
    exact (hserves.all hcomplete.served).2

/-! two records, the second of which fails in the database -/

def pairs : Bulk where
  template := .insert { table := "t", columns := ["a"] }
  options := { transaction := some {} }

/-- the state counts the executions; only the first one succeeds -/
def once : Connection Nat where
  prepare _ _ n := (.ok (), n)
  ticks _ := 0
  complete _ _ n := (if n = 0 then .ok ⟨1, none⟩ else .error (.reported .driver "gone"), n + 1)
  close n := (.ok (), n)
  start _ _ n := (.ok (), n)
  commit n := (.ok (), n)
  rollback n := (.ok (), n)

def answer (s : String) : Record := ⟨s, fun _ _ args _ => .ok (args ++ [.string s])⟩

theorem run_transacted_pairs :
    (pairs.run once [answer "x", answer "y"] 0).calls =
        [.started {} {}, .prepared {} "INSERT INTO `t` (`a`) VALUES (?)".toList,
          .executed {} (.prepared [.string "x"]), .executed {} (.prepared [.string "y"]), .closed,
          .rolledBack] ∧
      (pairs.run once [answer "x", answer "y"] 0).result =
        .error (.record 1 [] (.reported .driver "gone")) := by
  have hplan : pairs.plan = .ok ⟨"INSERT INTO `t` (`a`) VALUES (?)".toList, 1, false⟩ := by cbv
  obtain ⟨_, _, _, hall⟩ := run_transacted pairs once [answer "x", answer "y"] 0
  obtain ⟨h, _⟩ := hall _ {} hplan rfl
  have hfailure : (pairs.phases ⟨"INSERT INTO `t` (`a`) VALUES (?)".toList, 1, false⟩ once {}
      [answer "x", answer "y"] 0).served.failure = some (1, .reported .driver "gone") := by rfl
  have hfails := Phases.Fails.serving rfl rfl hfailure
  obtain ⟨last, rfl | rfl, hcalls, _⟩ := h.begun rfl
  · have hcommitted := h.committed.mp (by rw [hcalls]; simp)
    exact absurd hcommitted hfails.not_complete
  · exact ⟨hcalls.trans rfl, h.undone _ _ hfails rfl⟩

end Bulk

end BoundSql
