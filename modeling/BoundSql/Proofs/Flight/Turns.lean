import Mathlib.Data.List.Basic
import BoundSql.Proofs.Flight.History

/-!
# Turns

A record has its turn when its values are asked for; it begins, or it is refused.  Turns are had in
the order of the list and one at a time, so the records that have had theirs are the first ones.

* `Happening.turn?`, `Happening.begun?`   the record that has its turn, the record that begins;
* `Happening.entries`                     what can be observed of a happening;
* `Flight.Turns`                          a roll and the number of turns that records have had;
* `turns_of_runs`                         every flight has such a roll.
-/

namespace BoundSql

/-- requests of records and their executions, without what is done around them -/
def Entry.isFlown : Entry → Bool
  | .asked _ => true
  | .executed _ _ => true
  | _ => false

def Bulk.questions (b : Bulk) (plan : Plan) (record : Record) : List Entry :=
  (b.request plan record).1.map .asked

theorem Bulk.flown_of_launch {b : Bulk} {plan : Plan} {record : Record} {entries : List Entry}
    {result : Except Error Request} (h : b.launch plan record = (entries, result)) :
    entries.filter Entry.isFlown = b.questions plan record := by
  have hasked (calls : List Call) :
      (calls.map Entry.asked).filter Entry.isFlown = calls.map Entry.asked := by
    rw [List.filter_eq_self]
    intro entry hentry
    obtain ⟨call, _, rfl⟩ := List.mem_map.mp hentry
    rfl
  unfold launch at h
  split at h
  · rename_i hrequest
    cases h
    rw [questions, hrequest, hasked]
  · rename_i hrequest
    cases h
    rw [List.filter_append, questions, hrequest, hasked]
    exact List.append_nil _

namespace Happening

def turn? : Happening → Option Nat
  | .began i _ => some i
  | .refused i _ => some i
  | .ended _ _ _ => none

def begun? : Happening → Option Nat
  | .began i _ => some i
  | _ => none

def entries (b : Bulk) (plan : Plan) (records : List Record) : Happening → List Entry
  | .began i _ => records[i]?.toList.flatMap (b.questions plan)
  | .refused i _ => records[i]?.toList.flatMap (b.questions plan)
  | .ended _ request _ => [.executed b.options.context request]

def turns (history : List Happening) : List Nat := history.filterMap turn?

theorem turns_append (history more : List Happening) :
    turns (history ++ more) = turns history ++ turns more := List.filterMap_append ..

theorem begun_eq_nil {history : List Happening} (h : ∀ x ∈ history, x.isTurn = false) :
    history.filterMap begun? = [] := by
  rw [List.filterMap_eq_nil_iff]
  intro x hx
  have hx := h x hx
  cases x with
  | began i request => cases hx
  | refused i e => rfl
  | ended i request outcome => rfl

/-- as long as nothing has failed, every turn has led to an execution -/
theorem begun_eq_turns {history : List Happening} (h : failures history = []) :
    history.filterMap begun? = turns history := by
  refine List.filterMap_congr fun x hx => ?_
  have hnone : x.failure? = none := List.filterMap_eq_nil_iff.mp h x hx
  cases x with
  | began i request => rfl
  | refused i e => cases hnone
  | ended i request outcome => rfl

theorem range_of_append {xs ys : List Nat} {m : Nat} (h : xs ++ ys = List.range m) :
    xs = List.range xs.length ∧ xs.length ≤ m := by
  have hle : xs.length ≤ m := by
    rw [← @List.length_range m, ← h, List.length_append]
    exact Nat.le_add_right ..
  refine ⟨?_, hle⟩
  calc xs = (xs ++ ys).take xs.length := List.take_left.symm
    _ = List.range xs.length := by rw [h, List.take_range, Nat.min_eq_left hle]

/-- the records that have begun are the first ones, as are those that have had their turns -/
theorem Halts.begun {history : List Happening} {m : Nat} (h : Halts history)
    (hturns : turns history = List.range m) :
    ∃ k ≤ m, history.filterMap begun? = List.range k := by
  by_cases hnone : failures history = []
  · exact ⟨m, Nat.le_refl m, (begun_eq_turns hnone).trans hturns⟩
  · obtain ⟨before, first, after, rfl, hbefore, hfirst, hafter⟩ := h hnone
    rw [turns_append] at hturns
    obtain ⟨hrange, hle⟩ := range_of_append hturns
    have hlast : begun? first = none := by
      cases first with
      | began i request => cases hfirst
      | refused i e => rfl
      | ended i request outcome => rfl
    refine ⟨_, hle, Eq.trans ?_ hrange⟩
    rw [List.filterMap_append, List.filterMap_cons_none hlast, begun_eq_nil hafter,
      begun_eq_turns hbefore, List.append_nil]

end Happening

namespace Flight

open Happening

variable {δ : Type}

/-- a roll of which the first `m` records have had their turns, after this history -/
structure Turns (p : FlightPlan δ) (records : List Record) (f : Flight δ) (roll : List Slot)
    (history : List Happening) (m : Nat) : Prop where
  turns : turns history = List.range m
  begun : ∀ (i : Nat) s, roll[i]? = some s → (s.begun = true ↔ i < m)
  le : m ≤ roll.length
  room : f.window.length ≤ p.room
  flown : f.trace.filter Entry.isFlown = history.flatMap (entries p.bulk p.plan records)

variable {p : FlightPlan δ} {records : List Record} {f g : Flight δ} {roll : List Slot}
variable {history : List Happening} {m : Nat}

theorem turns_initial (db : δ) : Turns p records (initial db records) [] [] 0 := by
  constructor <;> simp [initial, Happening.turns]

theorem Rolls.length_eq (h : f.Rolls records roll) : roll.length = f.taken + f.window.length := by
  rw [h.window, List.length_drop]
  have := h.taken_le
  omega

theorem flown_note (f : Flight δ) (index : Nat) (outcome : Option (Except Error ExecResult)) :
    (f.note index outcome).trace.filter Entry.isFlown = f.trace.filter Entry.isFlown := by
  unfold note
  split
  · rfl
  · rfl
  · split
    · rfl
    · exact (List.filter_append ..).trans (List.append_nil _)

theorem window_note (f : Flight δ) (index : Nat) (outcome : Option (Except Error ExecResult)) :
    (f.note index outcome).window = f.window := by
  unfold note
  split
  · rfl
  · rfl
  · split <;> rfl

theorem pull_room (h : f.pull? p = some g) (hroom : f.window.length ≤ p.room) :
    g.window.length ≤ p.room := by
  unfold pull? at h
  split at h
  · cases h
  · rename_i hopen
    have hlt : f.window.length < p.room := Nat.lt_of_not_le fun hle => hopen (.inr hle)
    split at h
    · cases h
      exact hroom
    · split at h
      · cases h
        exact hroom
      · cases h
        rw [List.length_append]
        exact hlt

section
variable (h : Turns p records f roll history m)
include h

theorem Turns.append (record : Record) {source : List Record}
    (hroom : (f.window ++ [Slot.waiting record]).length ≤ p.room) :
    Turns p records { f with source, window := f.window ++ [.waiting record] }
      (roll ++ [.waiting record]) history m := by
  refine { h with begun := fun i s hi => ?_, le := ?_, room := hroom }
  · rcases getElem?_concat_eq_some hi with hi | ⟨rfl, rfl⟩
    · exact h.begun i s hi
    · exact ⟨nofun, fun hlt => absurd h.le (Nat.not_le_of_lt hlt)⟩
  · rw [List.length_append]
    exact Nat.le_add_right_of_le h.le

theorem Turns.take {outcome : Option (Except Error ExecResult)} {window : List Slot}
    (hw : f.window = .finished outcome :: window) :
    Turns p records (note { f with window, taken := f.taken + 1 } f.taken outcome) roll
      history m := by
  refine { h with room := ?_, flown := ?_ }
  · have hlength : f.window.length = window.length + 1 := by rw [hw, List.length_cons]
    have hroom := h.room
    rw [window_note]
    show window.length ≤ p.room
    omega
  · rw [flown_note]
    exact h.flown

/-- an entry of the window is set, and `m'` records have had their turns then -/
theorem Turns.set {i : Nat} {old new : Slot} {db : δ} {now m' : Nat} {stopped : Bool}
    {trace : List Entry} {more : List Happening} (hold : roll[f.taken + i]? = some old)
    (hnew : new.begun = true ↔ f.taken + i < m')
    (hother : ∀ j, j ≠ f.taken + i → (j < m' ↔ j < m))
    (hmore : Happening.turns (history ++ more) = List.range m')
    (htrace : trace.filter Entry.isFlown = more.flatMap (entries p.bulk p.plan records)) :
    Turns p records
      { f with db, now, window := f.window.set i new, stopped, trace := f.trace ++ trace }
      (roll.set (f.taken + i) new) (history ++ more) m' where
  turns := hmore
  begun := fun j s hj => by
    rcases getElem?_set_eq_some hj with ⟨hne, hj⟩ | ⟨rfl, rfl⟩
    · rw [hother j hne]
      exact h.begun j s hj
    · exact hnew
  le := by
    rw [List.length_set]
    have hlt : f.taken + i < roll.length := (List.getElem?_eq_some_iff.mp hold).1
    rcases Nat.eq_zero_or_pos m' with rfl | hpos
    · exact Nat.zero_le _
    · by_cases hm : m' - 1 = f.taken + i
      · omega
      · have := (hother _ hm).mp (by omega)
        have := h.le
        omega
  room := by
    rw [List.length_set]
    exact h.room
  flown := by
    rw [List.filter_append, List.flatMap_append, h.flown, htrace]

section
variable (hroll : f.Rolls records roll) {i : Nat}
include hroll

/-- as long as nothing has failed, the first waiting record is the first one without its turn -/
theorem Turns.next {record : Record} (hi : f.window[i]? = some (.waiting record))
    (hbefore : ∀ j < i, ∀ slot, f.window[j]? = some slot → slot.isWaiting = false)
    (hstopped : f.stopped = false) : f.taken + i = m := by
  have hslot : roll[f.taken + i]? = some (.waiting record) := hroll.slot hi
  have hlt : f.taken + i < roll.length := (List.getElem?_eq_some_iff.mp hslot).1
  have hopen : ¬ f.taken + i < m := fun h' => nomatch (h.begun _ _ hslot).mpr h'
  have hclosed : ∀ j < f.taken + i, j < m := by
    intro j hj
    have hget : roll[j]? = some roll[j] := List.getElem?_eq_getElem (Nat.lt_trans hj hlt)
    exact (h.begun j _ hget).mp (hroll.begun_before hstopped hbefore j hj _ hget)
  refine Nat.le_antisymm (Nat.le_of_not_lt fun hm => ?_) (Nat.le_of_not_lt hopen)
  exact Nat.lt_irrefl m (hclosed m hm)

theorem Turns.passOver {record : Record} (hi : f.window[i]? = some (.waiting record)) :
    Turns p records { f with window := f.window.set i (.finished none) }
      (roll.set (f.taken + i) (.finished none)) history m := by
  have hslot := hroll.slot hi
  have hopen : ¬ f.taken + i < m := fun hlt => nomatch (h.begun _ _ hslot).mpr hlt
  have hset : Turns p records
      { f with window := f.window.set i (.finished none), trace := f.trace ++ [] }
      (roll.set (f.taken + i) (.finished none)) (history ++ []) m := by
    refine h.set hslot (iff_of_false nofun hopen) (fun _ _ => .rfl) ?_ rfl
    rw [List.append_nil, h.turns]
  rw [List.append_nil, List.append_nil] at hset
  exact hset

theorem Turns.turn {record : Record} {new : Slot} {stopped : Bool} {entries : List Entry}
    {result : Except Error Request} {x : Happening}
    (hi : f.window[i]? = some (.waiting record))
    (hbefore : ∀ j < i, ∀ slot, f.window[j]? = some slot → slot.isWaiting = false)
    (hstopped : f.stopped = false) (hl : p.bulk.launch p.plan record = (entries, result))
    (hnew : new.begun = true) (hx : x.turn? = some (f.taken + i))
    (hentries : x.entries p.bulk p.plan records =
      records[f.taken + i]?.toList.flatMap (p.bulk.questions p.plan)) :
    Turns p records
      { f with window := f.window.set i new, stopped, trace := f.trace ++ entries }
      (roll.set (f.taken + i) new) (history ++ [x]) (m + 1) := by
  have hslot := hroll.slot hi
  have hm : f.taken + i = m := h.next hroll hi hbefore hstopped
  have hrecord : records[f.taken + i]? = some record := hroll.waiting _ _ hslot
  refine h.set hslot ?_ (fun j hj => by omega) ?_ ?_
  · rw [hnew, hm]
    exact iff_of_true rfl (Nat.lt_succ_self m)
  · rw [turns_append, h.turns, List.range_succ, ← hm]
    exact congrArg _ (List.filterMap_cons_some hx)
  · rw [List.flatMap_singleton, hentries, hrecord, Bulk.flown_of_launch hl]
    exact (List.flatMap_singleton ..).symm

theorem Turns.finish {request : Request} {due : Option Nat}
    (hi : f.window[i]? = some (.running request due)) (outcome : Except Error ExecResult)
    (db : δ) (now : Nat) (stopped : Bool) :
    Turns p records { f with
        db, now, window := f.window.set i (.finished (some outcome)), stopped,
        trace := f.trace ++ [.executed p.bulk.options.context request] }
      (roll.set (f.taken + i) (.finished (some outcome)))
      (history ++ [.ended (f.taken + i) request outcome]) m := by
  have hslot := hroll.slot hi
  have hbegun : f.taken + i < m := (h.begun _ _ hslot).mp rfl
  refine h.set hslot (iff_of_true rfl hbegun) (fun _ _ => .rfl) ?_ rfl
  rw [turns_append, h.turns]
  exact List.append_nil _

end

end

/-! ## whole runs -/

theorem turns_of_runs {db : δ} (h : Runs p db records f history) :
    ∃ roll m, f.Rolls records roll ∧ Turns p records f roll history m := by
  induction h with
  | initial => exact ⟨[], 0, rolls_initial db records, turns_initial db⟩
  | pull _ hpull ih =>
    obtain ⟨roll, m, hroll, hturns⟩ := ih
    have hroom := pull_room hpull hturns.room
    rcases pull_cases hpull with ⟨hend, rfl⟩ | ⟨record, source, hsource, _, rfl⟩
    · exact ⟨roll, m, hroll.end hend, { hturns with }⟩
    · exact ⟨_, m, hroll.append hsource, hturns.append record hroom⟩
  | take _ htake ih =>
    obtain ⟨roll, m, hroll, hturns⟩ := ih
    obtain ⟨outcome, window, hw, rfl⟩ := take_cases htake
    exact ⟨roll, m, hroll.take hw, hturns.take hw⟩
  | start _ hstart ih =>
    obtain ⟨roll, m, hroll, hturns⟩ := ih
    obtain ⟨i, record, hi, hbefore, hcases⟩ := start_cases hstart
    rcases hcases with ⟨hstopped, hnothing, rfl⟩ | ⟨hstopped, entries, e, hl, htells, rfl⟩ |
      ⟨hstopped, entries, request, due, hl, htells, rfl⟩
    · rw [hnothing, List.append_nil]
      exact ⟨_, m, hroll.passOver hi hstopped, hturns.passOver hroll hi⟩
    · rw [htells]
      exact ⟨_, m + 1, hroll.refuse hi hbefore hstopped e _,
        hturns.turn hroll hi hbefore hstopped hl rfl rfl rfl⟩
    · rw [htells]
      exact ⟨_, m + 1, hroll.begin hi hbefore hstopped request due _,
        hturns.turn hroll hi hbefore hstopped hl rfl rfl rfl⟩
  | finish i _ hfinish ih =>
    obtain ⟨roll, m, hroll, hturns⟩ := ih
    obtain ⟨request, due, outcome, db, now, hi, _, htells, rfl⟩ := finish_cases hfinish
    rw [htells]
    exact ⟨_, m, hroll.finish hi outcome db now _, hturns.finish hroll hi outcome db now _⟩

end Flight

end BoundSql
