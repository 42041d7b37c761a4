import BoundSql.Bulk

/-!
# Records in flight

Records wait, run and finish in a window over the list of records.  A record enters the window when
there is room, in the order of the list; the result of the oldest one in the window is taken first,
and only then does the window move on.  The first failure keeps everything that has not begun yet
from beginning.

* `Slot`              a record of the window: waiting, running, or finished;
* `Flight`            the state of a run;
* `Flight.pull?`, `take?`, `start?`, `finish?`   the moves, where they are possible;
* `Flight.Moves`      some move leads from one state to another;
* `Flight.next?`      the move made by a connection whose executions take known times;
* `Flight.drive`      the moves up to the end.
-/

namespace BoundSql

/-- a record of the window; `due` is the time at which its execution ends, `none` for at once -/
inductive Slot where
  | waiting (record : Record)
  | running (request : Request) (due : Option Nat)
  /-- the outcome, `none` if it never began -/
  | finished (outcome : Option (Except Error ExecResult))

namespace Slot

def isWaiting : Slot → Bool
  | .waiting _ => true
  | _ => false

def isReady : Slot → Bool
  | .running _ none => true
  | _ => false

def due? : Slot → Option Nat
  | .running _ due => due
  | _ => none

/-- how many moves the slot can still take part in -/
def weight : Slot → Nat
  | .waiting _ => 3
  | .running _ _ => 2
  | .finished _ => 1

def weights : List Slot → Nat
  | [] => 0
  | s :: ss => s.weight + weights ss

theorem weights_cons (s : Slot) (ss : List Slot) : weights (s :: ss) = s.weight + weights ss := rfl
theorem weights_append (ss ts : List Slot) : weights (ss ++ ts) = weights ss + weights ts := by
  induction ss with
  | nil => exact (Nat.zero_add _).symm
  | cons s ss ih => rw [List.cons_append, weights_cons, weights_cons, ih, Nat.add_assoc]

theorem weights_set_lt (new : Slot) {ss : List Slot} {i : Nat} {old : Slot}
    (h : ss[i]? = some old) (hw : new.weight < old.weight) :
    weights (ss.set i new) < weights ss := by
  induction ss generalizing i with
  | nil => simp at h
  | cons s ss ih =>
    cases i with
    | zero =>
      have hs : s = old := by simpa using h
      rw [List.set_cons_zero, weights_cons, weights_cons, hs]
      omega
    | succ i =>
      have := ih (by simpa using h : ss[i]? = some old)
      rw [List.set_cons_succ, weights_cons, weights_cons]
      omega

end Slot

structure FlightPlan (δ : Type) where
  bulk : Bulk
  plan : Plan
  conn : Connection δ
  room : Nat

structure Flight (δ : Type) where
  db : δ
  now : Nat
  source : List Record
  /-- no record enters the window any more -/
  ended : Bool
  stopped : Bool
  /-- results taken, whatever they were -/
  taken : Nat
  /-- the records after the ones taken, oldest first -/
  window : List Slot
  done : List (Nat × ExecResult)
  failure : Option (Nat × Error)
  trace : List Entry

namespace Flight

variable {δ : Type} (p : FlightPlan δ)

def initial (db : δ) (records : List Record) : Flight δ where
  db := db
  now := 0
  source := records
  ended := false
  stopped := false
  taken := 0
  window := []
  done := []
  failure := none
  trace := []

/-! ## moves -/

/-- one more record enters the window, or the list of records has come to its end -/
def pull? (f : Flight δ) : Option (Flight δ) :=
  if f.ended ∨ p.room ≤ f.window.length then none
  else
    match f.source with
    | [] => some { f with ended := true }
    | record :: source =>
      if f.stopped then some { f with ended := true }
      else some { f with source, window := f.window ++ [.waiting record] }

def laterFailure (index : Nat) (e : Error) : Event where
  level := .debug
  fields := [("record", .number index), ("error", .text e.message),
    ("message", .text "concurrent record failed too")]

/-- the run after the result of the record `index` has been looked at -/
def note (f : Flight δ) (index : Nat) : Option (Except Error ExecResult) → Flight δ
  | none => f
  | some (.ok r) => { f with done := f.done ++ [(index, r)] }
  | some (.error e) =>
    match f.failure with
    | none => { f with failure := some (index, e) }
    | some _ => { f with trace := f.trace ++ [.logged (laterFailure index e)] }

def take? (f : Flight δ) : Option (Flight δ) :=
  match f.window with
  | .finished outcome :: window =>
    some (note { f with window, taken := f.taken + 1 } f.taken outcome)
  | _ => none

/-- the first waiting record begins, unless a record has failed -/
def start? (f : Flight δ) : Option (Flight δ) :=
  match f.window.findIdx? Slot.isWaiting with
  | none => none
  | some i =>
    match f.window[i]? with
    | some (.waiting record) =>
      if f.stopped then some { f with window := f.window.set i (.finished none) }
      else
        match p.bulk.launch p.plan record with
        | (entries, .error e) =>
          some { f with
            window := f.window.set i (.finished (some (.error e)))
            stopped := true
            trace := f.trace ++ entries }
        | (entries, .ok request) =>
          let ticks := p.conn.ticks request
          let due := if ticks = 0 then none else some (f.now + ticks)
          some { f with
            window := f.window.set i (.running request due)
            trace := f.trace ++ entries }
    | _ => none

def isError : Except Error ExecResult → Bool
  | .error _ => true
  | .ok _ => false

def finish? (f : Flight δ) (i : Nat) : Option (Flight δ) :=
  match f.window[i]? with
  | some (.running request due) =>
    let (outcome, db) := p.conn.complete p.bulk.options.context request f.db
    some { f with
      db
      now := due.getD f.now
      window := f.window.set i (.finished (some outcome))
      stopped := f.stopped || isError outcome
      trace := f.trace ++ [.executed p.bulk.options.context request] }
  | _ => none

/-- some move leads from one state to the other; executions end in any order -/
inductive Moves : Flight δ → Flight δ → Prop where
  | pull {f g : Flight δ} : f.pull? p = some g → Moves f g
  | take {f g : Flight δ} : f.take? = some g → Moves f g
  | start {f g : Flight δ} : f.start? p = some g → Moves f g
  | finish {f g : Flight δ} (i : Nat) : f.finish? p i = some g → Moves f g

inductive Reaches (db : δ) (records : List Record) : Flight δ → Prop where
  | initial : Reaches db records (initial db records)
  | move {f g : Flight δ} : Reaches db records f → Moves p f g → Reaches db records g

/-! ## known times -/

/-- the place of the running record that ends first; of those with the same time the oldest -/
def earliest? : List Slot → Option (Nat × Nat)
  | [] => none
  | s :: ss =>
    let later := (earliest? ss).map fun (i, due) => (i + 1, due)
    match s.due?, later with
    | some due, some (i, other) => if due ≤ other then some (0, due) else some (i, other)
    | some due, none => some (0, due)
    | none, later => later

def finishReady? (f : Flight δ) : Option (Flight δ) :=
  (f.window.findIdx? Slot.isReady).bind (f.finish? p)

def finishDue? (f : Flight δ) : Option (Flight δ) :=
  (earliest? f.window).bind fun (i, _) => f.finish? p i

/-- the next move: what takes no time ends at once, then the window fills up, then results are
taken, then records begin; time passes only when nothing else can happen -/
def next? (f : Flight δ) : Option (Flight δ) :=
  (f.finishReady? p).or <| (f.pull? p).or <| f.take?.or <| (f.start? p).or (f.finishDue? p)

/-! ## the end -/

def weight (f : Flight δ) : Nat :=
  (if f.ended then 0 else 1) + 4 * f.source.length + Slot.weights f.window

theorem weight_pull {f g : Flight δ} (h : f.pull? p = some g) : g.weight < f.weight := by
  unfold pull? at h
  split at h
  · cases h
  · rename_i hopen
    have he : f.ended = false := by
      cases hf : f.ended with
      | false => rfl
      | true => exact absurd (.inl hf) hopen
    split at h
    · cases h
      simp [weight, he]
    · rename_i hs
      split at h
      · cases h
        simp [weight, he]
      · cases h
        simp only [weight, he, hs, Slot.weights_append, Slot.weights, Slot.weight,
          List.length_cons]
        omega

theorem weight_note (f : Flight δ) (index : Nat) (outcome : Option (Except Error ExecResult)) :
    (f.note index outcome).weight = f.weight := by
  unfold note
  split
  · rfl
  · rfl
  · split <;> rfl

theorem weight_take {f g : Flight δ} (h : f.take? = some g) : g.weight < f.weight := by
  unfold take? at h
  split at h
  · rename_i hw
    cases h
    rw [weight_note]
    simp only [weight, hw, Slot.weights_cons, Slot.weight]
    omega
  · cases h

theorem weight_start {f g : Flight δ} (h : f.start? p = some g) : g.weight < f.weight := by
  unfold start? at h
  split at h
  · cases h
  · split at h
    · rename_i hi
      split at h
      · cases h
        have := Slot.weights_set_lt (.finished none) hi (by simp [Slot.weight])
        simp only [weight]
        omega
      · split at h
        · rename_i e _
          cases h
          have := Slot.weights_set_lt (.finished (some (.error e))) hi (by simp [Slot.weight])
          simp only [weight]
          omega
        · rename_i request _
          cases h
          have := Slot.weights_set_lt (.running request (if p.conn.ticks request = 0 then none
            else some (f.now + p.conn.ticks request))) hi (by simp [Slot.weight])
          simp only [weight]
          omega
    · cases h

theorem weight_finish {f g : Flight δ} {i : Nat} (h : f.finish? p i = some g) :
    g.weight < f.weight := by
  unfold finish? at h
  split at h
  · rename_i request _ hi
    cases h
    have := Slot.weights_set_lt
      (.finished (some (p.conn.complete p.bulk.options.context request f.db).1)) hi
      (by simp [Slot.weight])
    exact Nat.add_lt_add_left this _
  · cases h

theorem moves_of_next {f g : Flight δ} (h : f.next? p = some g) : Moves p f g := by
  unfold next? at h
  rcases Option.or_eq_some_iff.mp h with h | ⟨_, h⟩
  · obtain ⟨i, _, hi⟩ := Option.bind_eq_some_iff.mp h
    exact .finish i hi
  · rcases Option.or_eq_some_iff.mp h with h | ⟨_, h⟩
    · exact .pull h
    · rcases Option.or_eq_some_iff.mp h with h | ⟨_, h⟩
      · exact .take h
      · rcases Option.or_eq_some_iff.mp h with h | ⟨_, h⟩
        · exact .start h
        · obtain ⟨⟨i, due⟩, _, hi⟩ := Option.bind_eq_some_iff.mp h
          exact .finish i hi

theorem weight_lt_of_moves {f g : Flight δ} (h : Moves p f g) : g.weight < f.weight := by
  cases h with
  | pull h => exact weight_pull p h
  | take h => exact weight_take h
  | start h => exact weight_start p h
  | finish i h => exact weight_finish p h

/-- the state in which no move is possible any more -/
def drive (f : Flight δ) : Flight δ :=
  match _h : f.next? p with
  | none => f
  | some g => drive g
termination_by f.weight
decreasing_by exact weight_lt_of_moves p (moves_of_next p _h)

end Flight

end BoundSql
