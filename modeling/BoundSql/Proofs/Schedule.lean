import BoundSql.Proofs.Concurrent
import BoundSql.Proofs.Flight.Turns

/-!
# The order in which records begin

* `Flight.Scheduled`   which records have begun so far, and which one can begin next;
* `scheduled_of_runs`  every flight is scheduled, in whatever order executions end;
* `run_scheduled`      every run is such a flight, with a window of one record in a transaction.
-/

namespace BoundSql

open Happening

variable {δ : Type}

namespace Flight

/-- which records have begun so far, when `m` of them have had their turns -/
structure Scheduled (p : FlightPlan δ) (records : List Record) (history : List Happening)
    (f : Flight δ) (m : Nat) : Prop where
  turns : turns history = List.range m
  known : m ≤ records.length
  begun : ∃ k ≤ m, history.filterMap begun? = List.range k
  ahead : m ≤ f.taken + p.room
  /-- a result is taken only when its execution has ended -/
  taken : ∀ i request, .began i request ∈ history → i < f.taken →
    ∃ outcome, .ended i request outcome ∈ history
  /-- a record that is still running holds up everything from the end of its window on -/
  blocked : ∀ i request, .began i request ∈ history →
    (∀ outcome, .ended i request outcome ∉ history) → m ≤ i + p.room
  inFlight : (history.filterMap begun?).length ≤
    (history.filterMap executed?).length + p.room
  /-- whatever begins in the next move -/
  next : ∀ x ∈ f.beginning p, x.turn? = some m ∧ m < f.taken + p.room ∧ failures history = []
  halts : Halts history
  observed : f.trace.filter Entry.isFlown = history.flatMap (entries p.bulk p.plan records)

variable {p : FlightPlan δ} {records : List Record} {f : Flight δ} {roll : List Slot}
variable {history : List Happening} {m : Nat}

theorem beginning_cases {x : Happening} (h : x ∈ f.beginning p) :
    ∃ i record, f.window[i]? = some (.waiting record) ∧
      (∀ j < i, ∀ slot, f.window[j]? = some slot → slot.isWaiting = false) ∧
      f.stopped = false ∧ x.turn? = some (f.taken + i) := by
  unfold beginning at h
  split at h
  · cases h
  · rename_i i hfirst
    obtain ⟨record, hi, hbefore⟩ := findIdx_waiting hfirst
    rw [hi] at h
    refine ⟨i, record, hi, hbefore, ?_⟩
    cases hstopped : f.stopped with
    | true =>
      simp [hstopped] at h
    | false =>
      refine ⟨rfl, ?_⟩
      rcases hl : p.bulk.launch p.plan record with ⟨entries, e | request⟩
      · simp only [hstopped, hl] at h
        rw [List.mem_singleton.mp h]
        rfl
      · simp only [hstopped, hl] at h
        rw [List.mem_singleton.mp h]
        rfl

/-- a record of which the result has been taken is not running any more -/
theorem Told.ended_of_taken (htold : Told p records f roll history) (hroll : f.Rolls records roll)
    {i : Nat} {request : Request} (hbegan : .began i request ∈ history) (hi : i < f.taken) :
    ∃ outcome, .ended i request outcome ∈ history := by
  rcases htold.began i request hbegan with ⟨due, hdue⟩ | hended
  · obtain ⟨outcome, houtcome⟩ := hroll.taken i hi
    cases hdue.symm.trans houtcome
  · exact hended

theorem mem_begun {i : Nat} :
    i ∈ history.filterMap begun? ↔ ∃ request, .began i request ∈ history := by
  rw [List.mem_filterMap]
  constructor
  · rintro ⟨x, hx, hi⟩
    cases x with
    | began j request =>
      cases hi
      exact ⟨request, hx⟩
    | refused j e => cases hi
    | ended j request outcome => cases hi
  · rintro ⟨request, hx⟩
    exact ⟨_, hx, rfl⟩

/-- the records in front of the window have all ended, so only those of the window can run -/
theorem Told.inFlight_le {k : Nat} (htold : Told p records f roll history)
    (hroll : f.Rolls records roll) (hbegun : history.filterMap begun? = List.range k)
    (hk : k ≤ f.taken + p.room) :
    (history.filterMap begun?).length ≤ (history.filterMap executed?).length + p.room := by
  have hended : List.range (min k f.taken) ⊆ history.filterMap executed? := by
    intro i hi
    have hlt : i < min k f.taken := List.mem_range.mp hi
    have hmem : i ∈ history.filterMap begun? := by
      rw [hbegun]
      exact List.mem_range.mpr (by omega)
    obtain ⟨request, hbegan⟩ := mem_begun.mp hmem
    obtain ⟨outcome, hlast⟩ := htold.ended_of_taken hroll hbegan (by omega)
    exact mem_executed.mpr ⟨request, outcome, hlast⟩
  have hle : min k f.taken ≤ (history.filterMap executed?).length := by
    rw [← @List.length_range (min k f.taken)]
    exact (List.subperm_of_subset List.nodup_range hended).length_le
  rw [hbegun, List.length_range]
  omega

/-- in whatever order executions end, a flight is scheduled at all times -/
theorem scheduled_of_runs {db : δ} (h : Runs p db records f history) :
    ∃ m, Scheduled p records history f m := by
  obtain ⟨roll, hroll, htold⟩ := told_of_runs h
  obtain ⟨roll', m, hroll', hturns⟩ := turns_of_runs h
  have hahead : m ≤ f.taken + p.room := by
    have hlength := hroll'.length_eq
    have hle := hturns.le
    have hroom := hturns.room
    omega
  obtain ⟨k, hk, hbegun⟩ := htold.halts.begun hturns.turns
  refine ⟨m, ?_⟩
  constructor
  case turns => exact hturns.turns
  case known => exact Nat.le_trans hturns.le hroll'.length_le
  case begun => exact ⟨k, hk, hbegun⟩
  case ahead => exact hahead
  case taken => exact fun i request => htold.ended_of_taken hroll
  case blocked =>
    intro i request hbegan hrunning
    have hi : f.taken ≤ i := Nat.le_of_not_lt fun hlt => by
      obtain ⟨outcome, hended⟩ := htold.ended_of_taken hroll hbegan hlt
      exact hrunning outcome hended
    omega
  case inFlight => exact htold.inFlight_le hroll hbegun (Nat.le_trans hk hahead)
  case next =>
    intro x hx
    obtain ⟨i, record, hi, hbefore, hstopped, hturn⟩ := beginning_cases hx
    have hm : f.taken + i = m := hturns.next hroll' hi hbefore hstopped
    have hlt : i < f.window.length := (List.getElem?_eq_some_iff.mp hi).1
    have hroom := hturns.room
    exact ⟨hm ▸ hturn, by omega, htold.no_failures hroll hstopped⟩
  case halts => exact htold.halts
  case observed => exact hturns.flown

end Flight

namespace Bulk

section
variable (b : Bulk) (plan : Plan) (conn : Connection δ)

theorem flown_prepareText (db : δ) :
    (b.prepareText plan conn db).trace.filter Entry.isFlown = [] := by
  unfold prepareText
  split <;> rfl

theorem flown_closeText (db : δ) : (closeText plan conn db).trace.filter Entry.isFlown = [] := by
  unfold closeText
  split <;> rfl

theorem flown_announce (o : Outcome δ (List ExecResult)) :
    (b.announce o).trace.filter Entry.isFlown = o.trace.filter Entry.isFlown :=
  (List.filter_append ..).trans (List.append_nil _)

theorem flown_settle (o : Outcome δ (List ExecResult)) :
    (b.settle conn o).trace.filter Entry.isFlown = o.trace.filter Entry.isFlown := by
  unfold settle
  split
  · exact (List.filter_append ..).trans (List.append_nil _)
  · split
    · exact (List.filter_append ..).trans (List.append_nil _)
    · exact (List.filter_append ..).trans (List.append_nil _)

/-- what records see of a run is what they see of a flight, which does not start unless the text can
be prepared -/
theorem flown_runRecords (room : Nat) (keep : Bool) (records : List Record) (db : δ) :
    ∃ db' f history, Flight.Runs ⟨b, plan, conn, max room 1⟩ db' records f history ∧
      (b.runRecords plan conn room keep records db).trace.filter Entry.isFlown =
        history.flatMap (entries b plan records) := by
  rcases hopened : (b.prepareText plan conn db).result with e | ⟨⟩
  · refine ⟨db, _, [], .initial, ?_⟩
    rw [runRecords, hopened]
    exact b.flown_prepareText plan conn db
  · let p : FlightPlan δ := ⟨b, plan, conn, max room 1⟩
    let opened := b.prepareText plan conn db
    let f := Flight.drive p (.initial opened.db records)
    obtain ⟨history, hruns⟩ := Flight.runs_of_reaches p (Flight.Reaches.initial.drive)
    obtain ⟨m, hscheduled⟩ := Flight.scheduled_of_runs hruns
    refine ⟨opened.db, f, history, hruns, ?_⟩
    rw [runRecords, hopened]
    show (opened.trace ++ f.trace ++ (closeText plan conn f.db).trace).filter _ = _
    rw [List.filter_append, List.filter_append, b.flown_prepareText, flown_closeText,
      List.nil_append, List.append_nil]
    exact hscheduled.observed

/-- the same in a transaction, which may refuse to start -/
theorem flown_transact (options : TransactionOptions) (records : List Record) (db : δ) :
    ∃ db' f history, Flight.Runs ⟨b, plan, conn, 1⟩ db' records f history ∧
      (b.transact plan conn options records db).trace.filter Entry.isFlown =
        history.flatMap (entries b plan records) := by
  rcases hstart : conn.start b.options.context options db with ⟨e | ⟨⟩, db₁⟩
  · refine ⟨db, _, [], .initial, ?_⟩
    rw [transact, hstart]
    rfl
  · obtain ⟨db', f, history, hruns, hflown⟩ := b.flown_runRecords plan conn 1 false records db₁
    refine ⟨db', f, history, hruns, ?_⟩
    rw [transact, hstart]
    exact ((b.flown_announce _).trans (b.flown_settle conn _)).trans hflown

end

theorem inFlight_of_transaction {o : BulkOptions} (h : o.transaction.isSome) : o.inFlight = 1 :=
  if_pos h

theorem inFlight_of_none {o : BulkOptions} (h : o.transaction = none) :
    o.inFlight = max 1 o.concurrency := by
  rw [BulkOptions.inFlight, h]
  exact Nat.max_comm ..

/-- what records see of any run is what they see of a flight with the room that the options allow -/
theorem flown_run {b : Bulk} {plan : Plan} (conn : Connection δ) (records : List Record) (db : δ)
    (hplan : b.plan = .ok plan) :
    ∃ db' f history, Flight.Runs ⟨b, plan, conn, b.options.inFlight⟩ db' records f history ∧
      (b.run conn records db).trace.filter Entry.isFlown =
        history.flatMap (entries b plan records) := by
  cases htransaction : b.options.transaction with
  | none =>
    have hroom : max b.options.inFlight 1 = b.options.inFlight := by
      rw [inFlight_of_none htransaction]
      exact Nat.max_eq_left (Nat.le_max_left 1 _)
    obtain ⟨db', f, history, hruns, hflown⟩ :=
      b.flown_runRecords plan conn b.options.inFlight true records db
    rw [hroom] at hruns
    refine ⟨db', f, history, hruns, ?_⟩
    rw [run_untransacted conn records db hplan htransaction]
    exact (b.flown_announce _).trans hflown
  | some options =>
    have hone : b.options.inFlight = 1 := inFlight_of_transaction (by rw [htransaction]; rfl)
    rw [hone, run_in_transaction conn records db hplan htransaction]
    exact b.flown_transact plan conn options records db

/-- a run in or outside a transaction: at most as many records as it allows are ahead of the results
taken, in the order of the list, in whatever order executions end; the run is such a flight -/
theorem run_scheduled {b : Bulk} {plan : Plan} (conn : Connection δ) (records : List Record)
    (db : δ) (hplan : b.plan = .ok plan) :
    let p : FlightPlan δ := ⟨b, plan, conn, b.options.inFlight⟩
    (b.options.transaction.isSome → p.room = 1) ∧
    (b.options.transaction = none → p.room = max 1 b.options.concurrency) ∧
    (∀ db' f, Flight.Reaches p db' records f →
      ∃ history, Flight.Runs p db' records f history) ∧
    (∀ db' f history, Flight.Runs p db' records f history →
      ∃ m, Flight.Scheduled p records history f m) ∧
    ∃ db' f history, Flight.Runs p db' records f history ∧
      (b.run conn records db).trace.filter Entry.isFlown =
        history.flatMap (entries b plan records) := by
  intro p
  refine ⟨inFlight_of_transaction, inFlight_of_none, ?_, ?_, ?_⟩
  · exact fun db' f => Flight.runs_of_reaches p
  · exact fun db' f history => Flight.scheduled_of_runs
  · exact flown_run conn records db hplan

/-! three records, all of them in the window when the second one refuses to give its value -/

def queue : Bulk where
  template := .insert { table := "t", columns := ["a"] }
  options := { concurrency := 3 }

def mute : Record := ⟨"mute", fun _ _ _ _ => .error (.reported .driver "no value")⟩

set_option maxRecDepth 4000 in
theorem run_scheduled_queue :
    ∃ plan f history m, queue.plan = .ok plan ∧
      Flight.Scheduled ⟨queue, plan, slow, 3⟩ [say "xxx", mute, say "z"] history f m ∧
      history.flatMap (entries queue plan [say "xxx", mute, say "z"]) =
        [.asked ⟨"xxx", .insert, .values, ["a"], 0⟩, .asked ⟨"mute", .insert, .values, ["a"], 0⟩,
          .executed {} (.prepared [.string "xxx"])] := by
  let plan : Plan := ⟨"INSERT INTO `t` (`a`) VALUES (?)".toList, 1, false⟩
  have hplan : queue.plan = .ok plan := by cbv
  obtain ⟨_, _, _, hscheduled, db', f, history, hruns, hflown⟩ :=
    run_scheduled slow [say "xxx", mute, say "z"] () hplan
  obtain ⟨m, hm⟩ := hscheduled db' f history hruns
  have htrace : (queue.run slow [say "xxx", mute, say "z"] ()).trace.filter Entry.isFlown =
      [.asked ⟨"xxx", .insert, .values, ["a"], 0⟩, .asked ⟨"mute", .insert, .values, ["a"], 0⟩,
        .executed {} (.prepared [.string "xxx"])] := by cbv
  exact ⟨plan, f, history, m, hplan, hm, hflown.symm.trans htrace⟩

end Bulk

end BoundSql
