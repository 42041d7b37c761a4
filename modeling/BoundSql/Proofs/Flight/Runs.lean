import BoundSql.Proofs.Flight

/-!
# What happens in a flight

* `Happening`                  a record begins, is refused before its execution, or ends;
* `Flight.Runs`                states that can be reached, with all that happened on the way;
* `runs_of_reaches`            every state that can be reached has such a history;
* `pull_cases`, `take_cases`, `start_cases`, `finish_cases`   all that a move can do;
* `Terminal`                   no move is possible.
-/

namespace BoundSql

/-- what can happen to the record with an index -/
inductive Happening where
  | began (index : Nat) (request : Request)
  | refused (index : Nat) (e : Error)
  | ended (index : Nat) (request : Request) (outcome : Except Error ExecResult)

namespace Flight

variable {δ : Type} (p : FlightPlan δ)

/-- what happens when the first waiting record has its turn -/
def beginning (f : Flight δ) : List Happening :=
  match f.window.findIdx? Slot.isWaiting with
  | none => []
  | some i =>
    match f.window[i]? with
    | some (.waiting record) =>
      if f.stopped then []
      else
        match (p.bulk.launch p.plan record).2 with
        | .error e => [.refused (f.taken + i) e]
        | .ok request => [.began (f.taken + i) request]
    | _ => []

/-- what happens when the execution of the `i`-th record of the window ends -/
def ending (f : Flight δ) (i : Nat) : List Happening :=
  match f.window[i]? with
  | some (.running request _) =>
    [.ended (f.taken + i) request (p.conn.complete p.bulk.options.context request f.db).1]
  | _ => []

/-- the states that a run over these records can reach, with what has happened up to there -/
inductive Runs (db : δ) (records : List Record) : Flight δ → List Happening → Prop where
  | initial : Runs db records (initial db records) []
  | pull {f g : Flight δ} {history : List Happening} : Runs db records f history →
      f.pull? p = some g → Runs db records g history
  | take {f g : Flight δ} {history : List Happening} : Runs db records f history →
      f.take? = some g → Runs db records g history
  | start {f g : Flight δ} {history : List Happening} : Runs db records f history →
      f.start? p = some g → Runs db records g (history ++ f.beginning p)
  | finish {f g : Flight δ} {history : List Happening} (i : Nat) : Runs db records f history →
      f.finish? p i = some g → Runs db records g (history ++ f.ending p i)

theorem runs_of_reaches {db : δ} {records : List Record} {f : Flight δ}
    (h : Reaches p db records f) : ∃ history, Runs p db records f history := by
  induction h with
  | initial => exact ⟨[], .initial⟩
  | move _ hmoves ih =>
    obtain ⟨history, hruns⟩ := ih
    cases hmoves with
    | pull h => exact ⟨history, hruns.pull h⟩
    | take h => exact ⟨history, hruns.take h⟩
    | start h => exact ⟨_, hruns.start h⟩
    | finish i h => exact ⟨_, hruns.finish i h⟩

def Terminal (f : Flight δ) : Prop :=
  ∀ g, ¬ Moves p f g

/-! ## all that a move can do -/

section
variable {p} {f g : Flight δ}

theorem pull_cases (h : f.pull? p = some g) :
    ((f.source = [] ∨ f.stopped = true) ∧ g = { f with ended := true }) ∨
      ∃ record source, f.source = record :: source ∧ f.stopped = false ∧
        g = { f with source, window := f.window ++ [.waiting record] } := by
  unfold pull? at h
  split at h
  · cases h
  · split at h
    · rename_i hsource
      cases h
      exact .inl ⟨.inl hsource, rfl⟩
    · rename_i record source hsource
      split at h
      · rename_i hstopped
        cases h
        exact .inl ⟨.inr hstopped, rfl⟩
      · rename_i hrunning
        cases h
        exact .inr ⟨record, source, hsource, Bool.eq_false_iff.mpr hrunning, rfl⟩

theorem take_cases (h : f.take? = some g) :
    ∃ outcome window, f.window = .finished outcome :: window ∧
      g = note { f with window, taken := f.taken + 1 } f.taken outcome := by
  unfold take? at h
  split at h
  · rename_i outcome window hw
    cases h
    exact ⟨outcome, window, hw, rfl⟩
  · cases h

theorem findIdx_waiting {ss : List Slot} {i : Nat} (h : ss.findIdx? Slot.isWaiting = some i) :
    ∃ record, ss[i]? = some (.waiting record) ∧
      ∀ j < i, ∀ slot, ss[j]? = some slot → slot.isWaiting = false := by
  obtain ⟨hlt, hwaiting, hbefore⟩ := List.findIdx?_eq_some_iff_getElem.mp h
  have hi : ss[i]? = some ss[i] := List.getElem?_eq_getElem hlt
  obtain ⟨record, hrecord⟩ : ∃ record, ss[i] = .waiting record := by
    cases hslot : ss[i] with
    | waiting record => exact ⟨record, rfl⟩
    | running request due => rw [hslot] at hwaiting; cases hwaiting
    | finished outcome => rw [hslot] at hwaiting; cases hwaiting
  refine ⟨record, by rw [hi, hrecord], fun j hj slot hslot => ?_⟩
  obtain ⟨hjlt, rfl⟩ := List.getElem?_eq_some_iff.mp hslot
  exact Bool.eq_false_iff.mpr (hbefore j hj)

theorem start_cases (h : f.start? p = some g) :
    ∃ i record, f.window[i]? = some (.waiting record) ∧
      (∀ j < i, ∀ slot, f.window[j]? = some slot → slot.isWaiting = false) ∧
      ((f.stopped = true ∧ f.beginning p = [] ∧
          g = { f with window := f.window.set i (.finished none) }) ∨
        (f.stopped = false ∧ ∃ entries e, p.bulk.launch p.plan record = (entries, .error e) ∧
          f.beginning p = [.refused (f.taken + i) e] ∧
          g = { f with window := f.window.set i (.finished (some (.error e))), stopped := true,
                       trace := f.trace ++ entries }) ∨
        (f.stopped = false ∧ ∃ entries request due,
          p.bulk.launch p.plan record = (entries, .ok request) ∧
          f.beginning p = [.began (f.taken + i) request] ∧
          g = { f with window := f.window.set i (.running request due),
                       trace := f.trace ++ entries })) := by
  unfold start? at h
  unfold beginning
  cases hfirst : f.window.findIdx? Slot.isWaiting with
  | none =>
    rw [hfirst] at h
    cases h
  | some i =>
    obtain ⟨record, hi, hbefore⟩ := findIdx_waiting hfirst
    refine ⟨i, record, hi, hbefore, ?_⟩
    rw [hfirst] at h
    simp only [hi] at h ⊢
    cases hstopped : f.stopped with
    | true =>
      rw [hstopped] at h
      cases h
      exact .inl ⟨rfl, rfl, rfl⟩
    | false =>
      rw [hstopped] at h
      rcases hl : p.bulk.launch p.plan record with ⟨entries, e | request⟩
      · rw [hl] at h
        cases h
        exact .inr (.inl ⟨rfl, entries, e, rfl, rfl, rfl⟩)
      · rw [hl] at h
        cases h
        exact .inr (.inr ⟨rfl, entries, request, _, rfl, rfl, rfl⟩)

theorem finish_cases {i : Nat} (h : f.finish? p i = some g) :
    ∃ request due outcome db now, f.window[i]? = some (.running request due) ∧
      p.conn.complete p.bulk.options.context request f.db = (outcome, db) ∧
      f.ending p i = [.ended (f.taken + i) request outcome] ∧
      g = { f with
        db, now, window := f.window.set i (.finished (some outcome)),
        stopped := f.stopped || isError outcome,
        trace := f.trace ++ [.executed p.bulk.options.context request] } := by
  unfold finish? at h
  split at h
  · rename_i request due hi
    rcases hc : p.conn.complete p.bulk.options.context request f.db with ⟨outcome, db⟩
    rw [hc] at h
    cases h
    refine ⟨request, due, outcome, db, _, hi, hc, ?_, rfl⟩
    rw [ending, hi]
    simp [hc]
  · cases h

end

end Flight

end BoundSql
