import Mathlib
import BoundSql.Proofs.Flight.Ends
import BoundSql.Proofs.Flight.History

/-!
# Runs with records in flight

* `Flight.Settled`   what a flight has done at its end, and what it reports;
* `settled_of_runs`  a flight that has come to its end is settled, in whatever order
                     executions have ended;
* `run_settled`      the run outside a transaction is such a flight.
-/

namespace BoundSql

open Happening

variable {δ : Type}

namespace Flight

/-- what a flight has done at its end, and what it reports when the prepared text is closed -/
structure Settled (p : FlightPlan δ) (records : List Record) (history : List Happening)
    (f : Flight δ) : Prop where
  calls : f.trace.filter Entry.isCall = history.filterMap (call? p.bulk.options.context)
  launched : ∀ i request, .began i request ∈ history → ∃ record, records[i]? = some record ∧
    (p.bulk.request p.plan record).2 = .ok request
  refused : ∀ i e, .refused i e ∈ history → ∃ record, records[i]? = some record ∧
    (p.bulk.request p.plan record).2 = .error e
  executed : ∀ i request, .began i request ∈ history ↔
    ∃ outcome, .ended i request outcome ∈ history
  once : (history.filterMap executed?).Nodup
  halts : Halts history
  fine : failures history = [] →
    (history.filterMap executed?).Perm (List.range records.length) ∧
      ∃ results, results.length = records.length ∧
        (∀ (i : Nat) r, results[i]? = some r ↔ (i, r) ∈ successes history) ∧
        ∀ closed, Bulk.conclude true f closed = closed.map fun _ => results
  failed : failures history ≠ [] →
    ∃ k e done, (k, e) ∈ failures history ∧ (∀ i e', (i, e') ∈ failures history → k ≤ i) ∧
      done.Pairwise (fun a b => a.1 < b.1) ∧ (∀ i r, (i, r) ∈ done ↔ (i, r) ∈ successes history) ∧
      (∀ i < k, ∃ r, (i, r) ∈ done) ∧ (∀ i e', (i, e') ∈ failures history → ∀ r, (i, r) ∉ done) ∧
      ∀ closed, Bulk.conclude true f closed = .error (.record k done e)

section
variable {p : FlightPlan δ} {records : List Record} {f : Flight δ} {roll : List Slot}
variable {history : List Happening}

theorem executed_sublist (history : List Happening) :
    (history.filterMap executed?).Sublist ((outcomes history).map (·.1)) := by
  induction history with
  | nil => exact .slnil
  | cons x history ih =>
    cases x with
    | began i request => exact ih
    | refused i e => exact ih.cons i
    | ended i request outcome => exact ih.cons_cons i

theorem mem_executed {i : Nat} :
    i ∈ history.filterMap executed? ↔ ∃ request outcome, .ended i request outcome ∈ history := by
  rw [List.mem_filterMap]
  constructor
  · rintro ⟨x, hx, hi⟩
    cases x with
    | began j request => cases hi
    | refused j e => cases hi
    | ended j request outcome =>
      cases hi
      exact ⟨request, outcome, hx⟩
  · rintro ⟨request, outcome, hx⟩
    exact ⟨_, hx, rfl⟩

section
variable (htold : Told p records f roll history)
include htold

theorem Told.mem_errors {i : Nat} {e : Error} :
    (i, e) ∈ numbered Slot.error? roll ↔ (i, e) ∈ failures history := by
  rw [mem_numbered, mem_failures, htold.outcome]
  simp [Slot.error?_eq_some]

theorem Told.once_executed : (history.filterMap executed?).Nodup := by
  have hnodup : ((outcomes history).map (·.1)).Nodup := List.pairwise_map.mpr htold.once
  exact (executed_sublist history).nodup hnodup

variable (hroll : f.Rolls records roll)
include hroll

/-- without a failure, every record has entered the window -/
theorem Told.all_records (he : f.ended = true) (hnone : failures history = []) :
    roll.length = records.length := by
  have hsource : f.source = [] := by
    refine (hroll.ended he).resolve_left fun hf => ?_
    obtain ⟨j, e, hj⟩ := (htold.failed_iff hroll).mp hf
    rw [hnone] at hj
    cases hj
  have hdrop : records.drop roll.length = [] := hroll.source.symm.trans hsource
  exact Nat.le_antisymm hroll.length_le (List.drop_eq_nil_iff.mp hdrop)

end

section
variable (hroll : f.Rolls records roll) (hw : f.window = [])
include hroll hw

theorem Rolls.taken_eq : roll.length = f.taken := by
  have hdrop : roll.drop f.taken = [] := hroll.window.symm.trans hw
  exact Nat.le_antisymm (List.drop_eq_nil_iff.mp hdrop) hroll.taken_le

theorem Rolls.take_eq : roll.take f.taken = roll :=
  List.take_of_length_le (Nat.le_of_eq (hroll.taken_eq hw))

/-- every record that has entered the window has left it -/
theorem Rolls.landed {i : Nat} {s : Slot} (hi : roll[i]? = some s) :
    ∃ outcome, s = .finished outcome := by
  have hlt : i < roll.length := (List.getElem?_eq_some_iff.mp hi).1
  obtain ⟨outcome, houtcome⟩ := hroll.taken i (hroll.taken_eq hw ▸ hlt)
  exact ⟨outcome, Option.some.inj (hi.symm.trans houtcome)⟩

variable (htold : Told p records f roll history)
include htold

theorem Told.executed (i : Nat) (request : Request) : .began i request ∈ history ↔
    ∃ outcome, .ended i request outcome ∈ history := by
  constructor
  · intro hbegan
    rcases htold.began i request hbegan with ⟨due, hdue⟩ | hended
    · obtain ⟨outcome, houtcome⟩ := hroll.landed hw hdue
      cases houtcome
    · exact hended
  · rintro ⟨outcome, hended⟩
    exact htold.ended i request outcome hended

theorem Told.mem_done {i : Nat} {r : ExecResult} :
    (i, r) ∈ f.done ↔ (i, r) ∈ successes history := by
  rw [hroll.done, hroll.take_eq hw, mem_numbered, mem_successes, htold.outcome]
  simp [Slot.result?_eq_some]

/-- without a failure, every record of the roll has a result -/
theorem Told.all_results (hnone : failures history = []) :
    ∀ s ∈ roll, s.result?.isSome := by
  intro s hs
  obtain ⟨i, hi⟩ := List.mem_iff_getElem?.mp hs
  have hstopped : f.stopped = false := by
    refine Bool.eq_false_iff.mpr fun hf => ?_
    obtain ⟨j, e, hj⟩ := (htold.failed_iff hroll).mp hf
    rw [hnone] at hj
    cases hj
  obtain ⟨outcome, rfl⟩ := hroll.landed hw hi
  rcases outcome with _ | e | r
  · exact absurd hi (hroll.passedOver hstopped i)
  · rw [hroll.stopped.mpr ⟨i, e, hi⟩] at hstopped
    cases hstopped
  · rfl

theorem Told.executed_perm (he : f.ended = true) (hnone : failures history = []) :
    (history.filterMap executed?).Perm (List.range records.length) := by
  have hlength := htold.all_records hroll he hnone
  refine (List.perm_ext_iff_of_nodup (htold.once_executed) List.nodup_range).mpr fun i => ?_
  rw [mem_executed, List.mem_range, ← hlength]
  constructor
  · rintro ⟨request, outcome, hended⟩
    have hmem : (i, outcome) ∈ outcomes history := List.mem_filterMap.mpr ⟨_, hended, rfl⟩
    exact (List.getElem?_eq_some_iff.mp ((htold.outcome i outcome).mp hmem)).1
  · intro hi
    have hslot : roll[i]? = some roll[i] := List.getElem?_eq_getElem hi
    obtain ⟨r, hr⟩ := Option.isSome_iff_exists.mp
      (htold.all_results hroll hw hnone _ (List.getElem_mem hi))
    rw [Slot.result?_eq_some.mp hr, ← htold.outcome] at hslot
    obtain ⟨x, hx, houtcome⟩ := List.mem_filterMap.mp hslot
    cases x with
    | began j request => cases houtcome
    | refused j e => cases houtcome
    | ended j request outcome =>
      cases houtcome
      exact ⟨request, _, hx⟩

/-- a flight without a failure returns one result for every record -/
theorem Told.fine (he : f.ended = true) (hnone : failures history = []) :
    ∃ results, results.length = records.length ∧
      (∀ (i : Nat) r, results[i]? = some r ↔ (i, r) ∈ successes history) ∧
      ∀ closed, Bulk.conclude true f closed = closed.map fun _ => results := by
  have hdone : f.done = numbered Slot.result? roll := by
    rw [hroll.done, hroll.take_eq hw]
  have hfailure : f.failure = none := by
    have hempty : numbered Slot.error? roll = [] := by
      rw [List.eq_nil_iff_forall_not_mem]
      rintro ⟨i, e⟩ hi
      have hfailed := (htold.mem_errors).mp hi
      rw [hnone] at hfailed
      cases hfailed
    rw [hroll.failure, hroll.take_eq hw, hempty]
    rfl
  obtain ⟨hlength, hget⟩ := filterMap_of_all (htold.all_results hroll hw hnone)
  refine ⟨roll.filterMap Slot.result?, ?_, fun i r => ?_, fun closed => ?_⟩
  · rw [hlength, htold.all_records hroll he hnone]
  · rw [hget, ← htold.mem_done hroll hw, hdone, mem_numbered, Option.bind_eq_some_iff]
  · rw [Bulk.conclude, hfailure, hdone, map_snd_numbered]

/-- a flight with a failure reports the first one in the order of the records -/
theorem Told.failed (hsome : failures history ≠ []) :
    ∃ k e done, (k, e) ∈ failures history ∧ (∀ i e', (i, e') ∈ failures history → k ≤ i) ∧
      done.Pairwise (fun a b => a.1 < b.1) ∧ (∀ i r, (i, r) ∈ done ↔ (i, r) ∈ successes history) ∧
      (∀ i < k, ∃ r, (i, r) ∈ done) ∧ (∀ i e', (i, e') ∈ failures history → ∀ r, (i, r) ∉ done) ∧
      ∀ closed, Bulk.conclude true f closed = .error (.record k done e) := by
  have hdone : f.done = numbered Slot.result? roll := by
    rw [hroll.done, hroll.take_eq hw]
  obtain ⟨⟨j, e'⟩, hj⟩ := List.exists_mem_of_ne_nil _ hsome
  have herrors : numbered Slot.error? roll ≠ [] :=
    List.ne_nil_of_mem ((htold.mem_errors).mpr hj)
  obtain ⟨⟨k, e⟩, rest, hfirst⟩ := List.exists_cons_of_ne_nil herrors
  have hk : (k, e) ∈ failures history := by
    rw [← htold.mem_errors, hfirst]
    exact List.mem_cons_self ..
  have hleast : ∀ i e', (i, e') ∈ failures history → k ≤ i := by
    intro i e' hi
    rw [← htold.mem_errors, hfirst] at hi
    rcases List.mem_cons.mp hi with heq | hi
    · cases heq
      exact Nat.le_refl k
    · have hpairwise : (numbered Slot.error? roll).Pairwise _ := pairwise_numbered roll
      rw [hfirst] at hpairwise
      exact Nat.le_of_lt ((List.pairwise_cons.mp hpairwise).1 _ hi)
  have hbelow : ∀ i < k, ∃ r, (i, r) ∈ f.done := by
    intro i hi
    have hslot : roll[k]? = some (.finished (some (.error e))) :=
      (htold.outcome k _).mp (mem_failures.mp hk)
    have hlt : i < roll.length := Nat.lt_trans hi (List.getElem?_eq_some_iff.mp hslot).1
    have hget : roll[i]? = some roll[i] := List.getElem?_eq_getElem hlt
    have hbegun : roll[i].begun = true := hroll.begun i k _ _ hi hget hslot rfl
    obtain ⟨outcome, houtcome⟩ := hroll.landed hw hget
    rw [houtcome] at hget hbegun
    rcases outcome with _ | other | r
    · cases hbegun
    · have hfailed := mem_failures.mpr ((htold.outcome i _).mpr hget)
      exact absurd (hleast i other hfailed) (Nat.not_le_of_lt hi)
    · exact ⟨r, (htold.mem_done hroll hw).mpr (mem_successes.mpr ((htold.outcome i _).mpr hget))⟩
  have hapart : ∀ i e', (i, e') ∈ failures history → ∀ r, (i, r) ∉ f.done := by
    intro i e' hfailed r hr
    have herror := (htold.outcome i _).mp (mem_failures.mp hfailed)
    have hok := (htold.outcome i _).mp (mem_successes.mp ((htold.mem_done hroll hw).mp hr))
    cases herror.symm.trans hok
  refine ⟨k, e, f.done, hk, hleast, ?_, fun i r => htold.mem_done hroll hw, hbelow, hapart, ?_⟩
  · rw [hdone]
    exact pairwise_numbered roll
  · intro closed
    have hfailure : f.failure = some (k, e) := by
      rw [hroll.failure, hroll.take_eq hw, hfirst]
      rfl
    rw [Bulk.conclude, hfailure]
    rfl

end

/-- in whatever order executions end, a flight that has come to its end is settled -/
theorem settled_of_runs {db : δ} (h : Runs p db records f history) (hend : f.Terminal p)
    (hroom : 0 < p.room) : Settled p records history f := by
  obtain ⟨roll, hroll, htold⟩ := told_of_runs h
  obtain ⟨hw, he⟩ := hend.landed hroom
  exact {
    calls := htold.calls
    launched := htold.launched
    refused := htold.refused
    executed := htold.executed hroll hw
    once := htold.once_executed
    halts := htold.halts
    fine := fun hnone => ⟨htold.executed_perm hroll hw he hnone, htold.fine hroll hw he hnone⟩
    failed := htold.failed hroll hw }

end

end Flight

namespace Bulk

section
variable {b : Bulk} {plan : Plan} {conn : Connection δ} {records : List Record} {db : δ}

theorem run_ok (hplan : b.plan = .ok plan) (htransaction : b.options.transaction = none)
    (hopened : (b.prepareText plan conn db).result = .ok ()) :
    let opened := b.prepareText plan conn db
    let f := Flight.drive ⟨b, plan, conn, max b.options.concurrency 1⟩ (.initial opened.db records)
    let closed := closeText plan conn f.db
    b.run conn records db = b.announce
      ⟨opened.trace ++ f.trace ++ closed.trace, conclude true f closed.result, closed.db⟩ := by
  intro opened f closed
  have hroom : max b.options.inFlight 1 = max b.options.concurrency 1 := by
    rw [BulkOptions.inFlight, htransaction]
    exact Nat.max_eq_left (Nat.le_max_right _ 1)
  rw [run_untransacted conn records db hplan htransaction, runRecords, hopened, hroom]

theorem calls_prepareText (b : Bulk) (plan : Plan) (conn : Connection δ) (db : δ) :
    (b.prepareText plan conn db).calls = (b.prepareText plan conn db).trace := by
  unfold prepareText
  split <;> rfl

theorem calls_closeText (plan : Plan) (conn : Connection δ) (db : δ) :
    (closeText plan conn db).calls = (closeText plan conn db).trace := by
  unfold closeText
  split <;> rfl

end

/-- a run outside a transaction, with its text prepared: every order in which executions may end
leads to a settled flight, and the run is one of them -/
theorem run_settled {b : Bulk} {plan : Plan} (conn : Connection δ) (records : List Record) {db : δ}
    (hplan : b.plan = .ok plan) (htransaction : b.options.transaction = none)
    (hopened : (b.prepareText plan conn db).result = .ok ()) :
    let opened := b.prepareText plan conn db
    let p : FlightPlan δ := ⟨b, plan, conn, max b.options.concurrency 1⟩
    (∀ f history, Flight.Runs p opened.db records f history → f.Terminal p →
      Flight.Settled p records history f) ∧
    ∃ f history, Flight.Runs p opened.db records f history ∧ f.Terminal p ∧
      let closed := closeText plan conn f.db
      (b.run conn records db).result = conclude true f closed.result ∧
      (b.run conn records db).calls =
        opened.trace ++ history.filterMap (call? b.options.context) ++ closed.trace := by
  intro opened p
  have hroom : 0 < p.room := Nat.lt_of_lt_of_le Nat.one_pos (Nat.le_max_right _ 1)
  have hsettled : ∀ f history, Flight.Runs p opened.db records f history → f.Terminal p →
      Flight.Settled p records history f := fun f history hruns hend =>
    Flight.settled_of_runs hruns hend hroom
  refine ⟨hsettled, ?_⟩
  let f := Flight.drive p (.initial opened.db records)
  have hend : f.Terminal p := Flight.terminal_of_next (Flight.next_drive p _)
  obtain ⟨history, hruns⟩ := Flight.runs_of_reaches p (Flight.Reaches.initial.drive)
  have hrun := @run_ok δ b plan conn records db hplan htransaction hopened
  refine ⟨f, history, hruns, hend, ?_, ?_⟩
  · rw [hrun]
    rfl
  · rw [hrun, calls_announce, Outcome.calls, List.filter_append, List.filter_append,
      (hsettled f history hruns hend).calls]
    exact congrArg₂ (· ++ _ ++ ·) (b.calls_prepareText plan conn db)
      (calls_closeText plan conn f.db)

/-! three records, two of them in flight at once; the second one fails before the first has ended -/

def crossing : Bulk where
  template := .insert { table := "t", columns := ["a"] }
  options := { concurrency := 2 }

/-- a text of three characters takes three ticks, and so on; texts of one character fail -/
def slow : Connection Unit where
  prepare _ _ db := (.ok (), db)
  ticks
    | .prepared [.string s] => s.length
    | _ => 0
  complete _
    | .prepared [.string "y"], db => (.error (.reported .driver "gone"), db)
    | _, db => (.ok ⟨1, none⟩, db)
  close db := (.ok (), db)
  start _ _ db := (.ok (), db)
  commit db := (.ok (), db)
  rollback db := (.ok (), db)

def say (s : String) : Record := ⟨s, fun _ _ args _ => .ok (args ++ [.string s])⟩

set_option maxRecDepth 2000 in
theorem run_settled_crossing :
    ∃ plan f history, crossing.plan = .ok plan ∧
      Flight.Settled ⟨crossing, plan, slow, 2⟩ [say "xxx", say "y", say "z"] history f ∧
      conclude true f (.ok ()) =
        .error (.record 1 [(0, ⟨1, none⟩)] (.reported .driver "gone")) := by
  let plan : Plan := ⟨"INSERT INTO `t` (`a`) VALUES (?)".toList, 1, false⟩
  have hplan : crossing.plan = .ok plan := by cbv
  have hopened : (crossing.prepareText plan slow ()).result = .ok () := rfl
  have hrun : (crossing.run slow [say "xxx", say "y", say "z"] ()).result =
      .error (.record 1 [(0, ⟨1, none⟩)] (.reported .driver "gone")) := by cbv
  obtain ⟨hall, f, history, hruns, hend, hresult, _⟩ :=
    run_settled slow [say "xxx", say "y", say "z"] hplan rfl hopened
  have hclosed : (closeText plan slow f.db).result = .ok () := rfl
  rw [hrun, hclosed] at hresult
  exact ⟨plan, f, history, hplan, hall f history hruns hend, hresult.symm⟩

end Bulk

end BoundSql
