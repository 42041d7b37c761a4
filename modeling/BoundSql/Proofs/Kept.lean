import BoundSql.Proofs.Concurrent

/-!
# Results that reach the caller

Outside a transaction, results that the database has reported are returned in a list, or with the
error of a record that failed.

* `Bulk.Holds`           an outcome holds the result of a record, in its list or with its error;
* `Settled.holds`        a settled flight passes on all its results and no others, unless closing
                         the text is the only thing that fails;
* `Settled.unclosed`     where it is, the outcome is that error and nothing else;
* `Bulk.executed_opened` nothing is executed before there is a plan and an open text;
* `Bulk.run_holds`       the run, in whatever order executions end and whatever calls fail.
-/

namespace BoundSql

open Happening

variable {δ : Type}

/-- the outcome holds `r` as the result of the `i`-th record, in its list or with its error -/
def Bulk.Holds (i : Nat) (r : ExecResult) : Except Error (List ExecResult) → Prop
  | .ok results => results[i]? = some r
  | .error e => (i, r) ∈ e.completed

/-- at the end of a flight, what has been taken is what the database has reported -/
theorem Flight.mem_done_of_runs {p : FlightPlan δ} {db : δ} {records : List Record} {f : Flight δ}
    {history : List Happening} (h : Runs p db records f history) (hend : f.Terminal p)
    (hroom : 0 < p.room) {i : Nat} {r : ExecResult} :
    (i, r) ∈ f.done ↔ (i, r) ∈ successes history := by
  obtain ⟨roll, hroll, htold⟩ := told_of_runs h
  exact htold.mem_done hroll (hend.landed hroom).1

namespace Flight.Settled

variable {p : FlightPlan δ} {records : List Record} {history : List Happening} {f : Flight δ}

/-- with the text closed, or a record failed, all results are passed on -/
theorem holds (h : Settled p records history f) {closed : Except Error Unit}
    (hclosed : closed = .ok () ∨ failures history ≠ []) (i : Nat) (r : ExecResult) :
    Bulk.Holds i r (Bulk.conclude true f closed) ↔ (i, r) ∈ successes history := by
  by_cases hnone : failures history = []
  · obtain ⟨_, results, _, hresults, hconclude⟩ := h.fine hnone
    rw [hconclude, hclosed.resolve_right fun hsome => hsome hnone]
    exact hresults i r
  · obtain ⟨k, e, done, _, _, _, hdone, _, _, hconclude⟩ := h.failed hnone
    rw [hconclude]
    exact hdone i r

/-- a text that cannot be closed is the outcome of a flight without failures -/
theorem unclosed (h : Settled p records history f) (hnone : failures history = []) (e : Error) :
    Bulk.conclude true f (.error e) = .error e := by
  obtain ⟨_, results, _, _, hconclude⟩ := h.fine hnone
  rw [hconclude]
  rfl

end Flight.Settled

namespace Bulk

section
variable {b : Bulk} (conn : Connection δ) (records : List Record) (db : δ)

theorem announce_executed {o : Outcome δ (List ExecResult)} {ctx : Context} {request : Request}
    (h : .executed ctx request ∈ (b.announce o).trace) : .executed ctx request ∈ o.trace := by
  rcases List.mem_append.mp h with h | h
  · exact h
  · cases List.mem_singleton.mp h

theorem not_executed_prepareText (b : Bulk) (plan : Plan) (conn : Connection δ) (db : δ)
    {ctx : Context} {request : Request} :
    .executed ctx request ∉ (b.prepareText plan conn db).trace := by
  unfold prepareText
  split
  · exact List.not_mem_nil
  · intro h
    cases List.mem_singleton.mp h

variable (htransaction : b.options.transaction = none)
include htransaction

/-- nothing is executed before the plan is made and its text is open -/
theorem executed_opened {ctx : Context} {request : Request}
    (h : .executed ctx request ∈ (b.run conn records db).trace) :
    ∃ plan, b.plan = .ok plan ∧ (b.prepareText plan conn db).result = .ok () := by
  cases hplan : b.plan with
  | error e =>
    rw [run, hplan] at h
    cases h
  | ok plan =>
    refine ⟨plan, rfl, ?_⟩
    rw [run_untransacted conn records db hplan htransaction] at h
    have hrun := announce_executed h
    rw [runRecords] at hrun
    cases hopened : (b.prepareText plan conn db).result with
    | ok _ => rfl
    | error e =>
      rw [hopened] at hrun
      exact absurd hrun (not_executed_prepareText b plan conn db)

/-- with its text open, the run is a flight to its end -/
theorem run_flown {plan : Plan} (hplan : b.plan = .ok plan)
    (hopened : (b.prepareText plan conn db).result = .ok ()) :
    let opened := b.prepareText plan conn db
    let p : FlightPlan δ := ⟨b, plan, conn, max b.options.concurrency 1⟩
    let f := Flight.drive p (.initial opened.db records)
    let closed := closeText plan conn f.db
    ∃ history, Flight.Runs p opened.db records f history ∧ f.Terminal p ∧
      (b.run conn records db).result = conclude true f closed.result ∧
      (b.run conn records db).calls =
        opened.trace ++ history.filterMap (call? b.options.context) ++ closed.trace := by
  intro opened p f closed
  have hroom : 0 < p.room := Nat.lt_of_lt_of_le Nat.one_pos (Nat.le_max_right _ 1)
  have hend : f.Terminal p := Flight.terminal_of_next (Flight.next_drive p _)
  obtain ⟨history, hruns⟩ := Flight.runs_of_reaches p (Flight.Reaches.initial.drive)
  have hsettled := Flight.settled_of_runs hruns hend hroom
  have hrun := @run_ok δ b plan conn records db hplan htransaction hopened
  refine ⟨history, hruns, hend, ?_, ?_⟩
  · rw [hrun]
    rfl
  · rw [hrun, calls_announce, Outcome.calls, List.filter_append, List.filter_append,
      hsettled.calls]
    exact congrArg₂ (· ++ _ ++ ·) (b.calls_prepareText plan conn db)
      (calls_closeText plan conn f.db)

/-- Nothing is executed without an open text.  With one, in whatever order executions end, the
outcome holds the results that the database has reported and no others if the text is closed or a
record has failed; where closing it is all that fails, the outcome is that error alone. -/
theorem run_holds :
    (∀ ctx request, .executed ctx request ∈ (b.run conn records db).trace →
      ∃ plan, b.plan = .ok plan ∧ (b.prepareText plan conn db).result = .ok ()) ∧
    ∀ plan, b.plan = .ok plan → (b.prepareText plan conn db).result = .ok () →
      let opened := b.prepareText plan conn db
      let p : FlightPlan δ := ⟨b, plan, conn, max b.options.concurrency 1⟩
      (∀ f history, Flight.Runs p opened.db records f history → f.Terminal p →
        (∀ closed, closed = .ok () ∨ failures history ≠ [] → ∀ i r,
          Holds i r (conclude true f closed) ↔ (i, r) ∈ successes history) ∧
        ∀ e, failures history = [] → conclude true f (.error e) = .error e) ∧
      ∃ f history, Flight.Runs p opened.db records f history ∧ f.Terminal p ∧
        let closed := closeText plan conn f.db
        (b.run conn records db).result = conclude true f closed.result ∧
        (b.run conn records db).calls =
          opened.trace ++ history.filterMap (call? b.options.context) ++ closed.trace := by
  refine ⟨fun ctx request h => executed_opened conn records db htransaction h, ?_⟩
  intro plan hplan hopened opened p
  have hroom : 0 < p.room := Nat.lt_of_lt_of_le Nat.one_pos (Nat.le_max_right _ 1)
  refine ⟨fun f history hruns hend => ?_, ?_⟩
  · have hsettled := Flight.settled_of_runs hruns hend hroom
    exact ⟨fun closed hclosed => hsettled.holds hclosed, fun e hnone => hsettled.unclosed hnone e⟩
  · obtain ⟨history, hrun⟩ := run_flown conn records db htransaction hplan hopened
    exact ⟨_, history, hrun⟩

end

/-- a database that counts executions and does not close -/
def ajar : Connection Nat where
  prepare _ _ n := (.ok (), n)
  ticks _ := 0
  complete _
    | .prepared [.string "y"], n => (.error (.reported .driver "gone"), n)
    | _, n => (.ok ⟨1, some (n + 1)⟩, n + 1)
  close n := (.error (.reported .driver "close broken"), n)
  start _ _ n := (.ok (), n)
  commit n := (.ok (), n)
  rollback n := (.ok (), n)

def crossingPlan : Plan := ⟨"INSERT INTO `t` (`a`) VALUES (?)".toList, 1, false⟩

theorem plan_crossing : crossing.plan = .ok crossingPlan := by cbv

set_option maxRecDepth 2000 in
/-- the second record fails, and then closing the text: the first result comes with the error -/
theorem run_holds_gone :
    ∃ f history,
      Flight.Runs ⟨crossing, crossingPlan, ajar, 2⟩ 0 [say "x", say "y"] f history ∧
      (0, ⟨1, some 1⟩) ∈ successes history ∧ failures history ≠ [] ∧
      (closeText crossingPlan ajar f.db).result = .error (.reported .driver "close broken") ∧
      (crossing.run ajar [say "x", say "y"] 0).result =
        .error (.record 1 [(0, ⟨1, some 1⟩)] (.reported .driver "gone")) := by
  have hrun : (crossing.run ajar [say "x", say "y"] 0).result =
      .error (.record 1 [(0, ⟨1, some 1⟩)] (.reported .driver "gone")) := by cbv
  obtain ⟨hall, f, history, hruns, hend, hresult, _⟩ :=
    (run_holds ajar [say "x", say "y"] 0 rfl).2 crossingPlan plan_crossing rfl
  obtain ⟨hholds, hunclosed⟩ := hall f history hruns hend
  have hclosed : (closeText crossingPlan ajar f.db).result =
      .error (.reported .driver "close broken") := rfl
  have hsome : failures history ≠ [] := by
    intro hnone
    rw [hrun, hclosed, hunclosed _ hnone] at hresult
    cases hresult
  have hfirst : Holds 0 ⟨1, some 1⟩ (crossing.run ajar [say "x", say "y"] 0).result := by
    rw [hrun]
    exact List.mem_singleton.mpr rfl
  rw [hresult] at hfirst
  have hsuccess := (hholds _ (.inr hsome) 0 ⟨1, some 1⟩).mp hfirst
  exact ⟨f, history, hruns, hsuccess, hsome, hclosed, hrun⟩

set_option maxRecDepth 2000 in
/-- both records succeed, and closing the text fails: the outcome holds neither result -/
theorem run_holds_apart :
    ∃ f history,
      Flight.Runs ⟨crossing, crossingPlan, ajar, 2⟩ 0 [say "x", say "z"] f history ∧
      f.Terminal ⟨crossing, crossingPlan, ajar, 2⟩ ∧
      (crossing.run ajar [say "x", say "z"] 0).result =
        conclude true f (closeText crossingPlan ajar f.db).result ∧
      (0, ⟨1, some 1⟩) ∈ successes history ∧ (1, ⟨1, some 2⟩) ∈ successes history ∧
      (crossing.run ajar [say "x", say "z"] 0).result =
        .error (.reported .driver "close broken") ∧
      ∀ i r, ¬ Holds i r (crossing.run ajar [say "x", say "z"] 0).result := by
  obtain ⟨history, hruns, hend, hresult, _⟩ :=
    run_flown ajar [say "x", say "z"] 0 rfl plan_crossing rfl
  have hdone : (Flight.drive ⟨crossing, crossingPlan, ajar, 2⟩
      (.initial 0 [say "x", say "z"])).done = [(0, ⟨1, some 1⟩), (1, ⟨1, some 2⟩)] := by cbv
  have hrun : (crossing.run ajar [say "x", say "z"] 0).result =
      .error (.reported .driver "close broken") := by cbv
  have hmem := fun i r => Flight.mem_done_of_runs (i := i) (r := r) hruns hend Nat.two_pos
  refine ⟨_, history, hruns, hend, hresult, (hmem _ _).mp ?_, (hmem _ _).mp ?_, hrun, ?_⟩
  · exact hdone ▸ List.mem_cons_self ..
  · exact hdone ▸ List.mem_cons_of_mem _ (List.mem_cons_self ..)
  · intro i r h
    rw [hrun] at h
    cases h

end Bulk

end BoundSql
