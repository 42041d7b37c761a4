import BoundSql.Bulk.Run

/-!
# Flights up to their end

* `Entry.isCall`                     the calls of the driver in a trace;
* `run_untransacted`, `run_in_transaction`   the two ways of a run;
* `drive_of_next`, `drive_of_none`   the state in which a flight ends, one move at a time;
* `next_drive`                       no move is left there;
* `Reaches.drive`                    it is one of the states that can be reached.
-/

namespace BoundSql

def Entry.isCall : Entry → Bool
  | .asked _ => false
  | .logged _ => false
  | _ => true

def Outcome.calls {δ α : Type} (o : Outcome δ α) : List Entry :=
  o.trace.filter Entry.isCall

section
variable {b : Bulk} {plan : Plan} {record : Record} {entries : List Entry}
variable {result : Except Error Request} (h : b.launch plan record = (entries, result))
include h

theorem Bulk.calls_of_launch : entries.filter Entry.isCall = [] := by
  have hasked (calls : List Call) : (calls.map Entry.asked).filter Entry.isCall = [] := by
    rw [List.filter_eq_nil_iff]
    intro entry hentry
    obtain ⟨call, _, rfl⟩ := List.mem_map.mp hentry
    exact Bool.false_ne_true
  unfold launch at h
  split at h
  · cases h
    exact hasked _
  · cases h
    rw [List.filter_append, hasked]
    rfl

theorem Bulk.request_of_launch : (b.request plan record).2 = result := by
  unfold launch at h
  split at h
  · rename_i hrequest
    cases h
    rw [hrequest]
  · rename_i hrequest
    cases h
    rw [hrequest]

end

theorem Bulk.calls_announce {δ : Type} (b : Bulk) (o : Outcome δ (List ExecResult)) :
    (b.announce o).calls = o.calls :=
  (List.filter_append ..).trans (List.append_nil _)

section
variable {δ : Type} {b : Bulk} {plan : Plan} (conn : Connection δ) (records : List Record) (db : δ)
variable (hplan : b.plan = .ok plan)
include hplan

theorem Bulk.run_untransacted (h : b.options.transaction = none) : b.run conn records db =
    b.announce (b.runRecords plan conn b.options.inFlight true records db) := by
  unfold run
  simp only [hplan, h]

theorem Bulk.run_in_transaction {options : TransactionOptions}
    (h : b.options.transaction = some options) :
    b.run conn records db = b.transact plan conn options records db := by
  unfold run
  simp only [hplan, h]

end

namespace Flight

variable {δ : Type} {p : FlightPlan δ} {f g : Flight δ}

theorem drive_of_next (h : f.next? p = some g) : drive p f = drive p g := by
  rw [drive]
  split
  · rename_i hnone
    rw [h] at hnone
    cases hnone
  · rename_i g' hsome
    rw [h] at hsome
    cases hsome
    rfl

theorem drive_of_none (h : f.next? p = none) : drive p f = f := by
  rw [drive]
  split
  · rfl
  · rename_i g hsome
    rw [h] at hsome
    cases hsome

theorem next_drive (p : FlightPlan δ) (f : Flight δ) : (drive p f).next? p = none := by
  fun_induction drive p f with
  | case1 f h => exact h
  | case2 f g _ ih => exact ih

theorem Reaches.drive {db : δ} {records : List Record} (h : Reaches p db records f) :
    Reaches p db records (drive p f) := by
  fun_induction Flight.drive p f with
  | case1 f _ => exact h
  | case2 f g hnext ih => exact ih (h.move (moves_of_next p hnext))

end Flight

end BoundSql
