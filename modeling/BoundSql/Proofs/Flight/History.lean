import BoundSql.Proofs.Flight.Roll

/-!
# The history of a flight

* `Happening.outcome?`, `failure?`, `success?`   what a happening says of its record;
* `Flight.Told`                                  a roll and the history that led to it;
* `told_of_runs`                                 every flight has such a roll.
-/

namespace BoundSql

namespace Happening

/-- the outcome of a record, be it refused or executed -/
def outcome? : Happening → Option (Nat × Except Error ExecResult)
  | .began _ _ => none
  | .refused i e => some (i, .error e)
  | .ended i _ outcome => some (i, outcome)

def failure? : Happening → Option (Nat × Error)
  | .refused i e => some (i, e)
  | .ended i _ (.error e) => some (i, e)
  | _ => none

def success? : Happening → Option (Nat × ExecResult)
  | .ended i _ (.ok r) => some (i, r)
  | _ => none

def executed? : Happening → Option Nat
  | .ended i _ _ => some i
  | _ => none

def isTurn : Happening → Bool
  | .ended _ _ _ => false
  | _ => true

/-- the call of the driver, at the end of the execution -/
def call? (ctx : Context) : Happening → Option Entry
  | .ended _ request _ => some (.executed ctx request)
  | _ => none

theorem failure?_eq_some {x : Happening} {i : Nat} {e : Error} :
    x.failure? = some (i, e) ↔ x.outcome? = some (i, .error e) := by
  rcases x with _ | _ | ⟨_, _, _ | _⟩ <;> simp [failure?, outcome?]

theorem success?_eq_some {x : Happening} {i : Nat} {r : ExecResult} :
    x.success? = some (i, r) ↔ x.outcome? = some (i, .ok r) := by
  rcases x with _ | _ | ⟨_, _, _ | _⟩ <;> simp [success?, outcome?]

/-! ## histories -/

def outcomes (history : List Happening) : List (Nat × Except Error ExecResult) :=
  history.filterMap outcome?

def failures (history : List Happening) : List (Nat × Error) :=
  history.filterMap failure?

def successes (history : List Happening) : List (Nat × ExecResult) :=
  history.filterMap success?

theorem mem_failures {history : List Happening} {i : Nat} {e : Error} :
    (i, e) ∈ failures history ↔ (i, .error e) ∈ outcomes history := by
  simp only [failures, outcomes, List.mem_filterMap, failure?_eq_some]

theorem mem_successes {history : List Happening} {i : Nat} {r : ExecResult} :
    (i, r) ∈ successes history ↔ (i, .ok r) ∈ outcomes history := by
  simp only [successes, outcomes, List.mem_filterMap, success?_eq_some]

/-- no record has its turn after the first failure -/
def Halts (history : List Happening) : Prop :=
  failures history ≠ [] → ∃ before first after,
    history = before ++ first :: after ∧ failures before = [] ∧ first.failure?.isSome ∧
      ∀ x ∈ after, x.isTurn = false

theorem halts_concat {history : List Happening} (h : failures history = []) (x : Happening) :
    Halts (history ++ [x]) := by
  intro hfailed
  refine ⟨history, x, [], rfl, h, ?_, fun _ hx => absurd hx List.not_mem_nil⟩
  cases hx : x.failure? with
  | some failure => rfl
  | none =>
    refine absurd ?_ hfailed
    rw [failures, List.filterMap_append, ← failures, h]
    simp [hx]

theorem Halts.concat {history : List Happening} (h : Halts history) {x : Happening}
    (hx : x.isTurn = false) : Halts (history ++ [x]) := by
  by_cases hnone : failures history = []
  · exact halts_concat hnone x
  · intro _
    obtain ⟨before, first, after, rfl, hbefore, hfirst, hafter⟩ := h hnone
    refine ⟨before, first, after ++ [x], by simp, hbefore, hfirst, fun y hy => ?_⟩
    rcases List.mem_append.mp hy with hy | hy
    · exact hafter y hy
    · rw [List.mem_singleton.mp hy]
      exact hx

end Happening

namespace Flight

open Happening

variable {δ : Type}

/-- the roll of a flight and the history that led to it -/
structure Told (p : FlightPlan δ) (records : List Record) (f : Flight δ) (roll : List Slot)
    (history : List Happening) : Prop where
  outcome : ∀ (i : Nat) outcome, (i, outcome) ∈ outcomes history ↔
    roll[i]? = some (.finished (some outcome))
  once : (outcomes history).Pairwise (fun a b => a.1 ≠ b.1)
  running : ∀ (i : Nat) request due, roll[i]? = some (.running request due) →
    .began i request ∈ history
  began : ∀ i request, .began i request ∈ history →
    (∃ due, roll[i]? = some (.running request due)) ∨
      ∃ outcome, .ended i request outcome ∈ history
  ended : ∀ i request outcome, .ended i request outcome ∈ history → .began i request ∈ history
  launched : ∀ i request, .began i request ∈ history → ∃ record, records[i]? = some record ∧
    (p.bulk.request p.plan record).2 = .ok request
  refused : ∀ i e, .refused i e ∈ history → ∃ record, records[i]? = some record ∧
    (p.bulk.request p.plan record).2 = .error e
  halts : Halts history
  calls : f.trace.filter Entry.isCall = history.filterMap (call? p.bulk.options.context)

variable {p : FlightPlan δ} {records : List Record} {f g : Flight δ} {roll roll' : List Slot}
variable {history : List Happening}

theorem told_initial (db : δ) : Told p records (initial db records) [] [] := by
  constructor <;> simp [outcomes, Halts, failures, initial]

section
variable (h : Told p records f roll history)
include h

theorem Told.keep
    (hfinished : ∀ (i : Nat) outcome, roll'[i]? = some (.finished (some outcome)) ↔
      roll[i]? = some (.finished (some outcome)))
    (hrunning : ∀ (i : Nat) request due, roll'[i]? = some (.running request due) ↔
      roll[i]? = some (.running request due))
    (htrace : g.trace.filter Entry.isCall = f.trace.filter Entry.isCall) :
    Told p records g roll' history :=
  { h with
    outcome := fun i outcome => (h.outcome i outcome).trans (hfinished i outcome).symm
    running := fun i request due hi => h.running i request due ((hrunning i request due).mp hi)
    began := fun i request hi => (h.began i request hi).imp_left fun ⟨due, hdue⟩ =>
      ⟨due, (hrunning i request due).mpr hdue⟩
    calls := htrace.trans h.calls }

/-- the outcomes after one more record has come to its end -/
theorem Told.outcome_set {n : Nat} {old : Slot} (hn : roll[n]? = some old)
    (hold : ∀ outcome, old ≠ .finished outcome) (x : Happening)
    (last : Except Error ExecResult) (hx : x.outcome? = some (n, last)) :
    (∀ (i : Nat) outcome, (i, outcome) ∈ outcomes (history ++ [x]) ↔
      (roll.set n (.finished (some last)))[i]? = some (.finished (some outcome))) ∧
      (outcomes (history ++ [x])).Pairwise (fun a b => a.1 ≠ b.1) := by
  have happend : outcomes (history ++ [x]) = outcomes history ++ [(n, last)] := by
    rw [outcomes, List.filterMap_append]
    simp [hx, outcomes]
  have hself : (roll.set n (.finished (some last)))[n]? = some (.finished (some last)) :=
    List.getElem?_set_self (List.getElem?_eq_some_iff.mp hn).1
  have hopen {outcome : Except Error ExecResult} : (n, outcome) ∉ outcomes history := by
    intro hmem
    have hfinished := (h.outcome n outcome).mp hmem
    exact hold _ (Option.some.inj (hn.symm.trans hfinished))
  rw [happend]
  constructor
  · intro i outcome
    rw [List.mem_append, List.mem_singleton]
    by_cases hi : i = n
    · subst hi
      rw [hself]
      constructor
      · rintro (hmem | heq)
        · exact absurd hmem hopen
        · cases heq
          rfl
      · intro heq
        cases heq
        exact .inr rfl
    · rw [List.getElem?_set_ne fun hni => hi hni.symm, ← h.outcome]
      exact ⟨fun hmem => hmem.resolve_right fun heq => hi (Prod.mk.inj heq).1, .inl⟩
  · rw [List.pairwise_append]
    refine ⟨h.once, List.pairwise_singleton _ _, ?_⟩
    rintro ⟨i, outcome⟩ hmem b hb rfl
    rw [List.mem_singleton.mp hb] at hmem
    exact hopen hmem

theorem Told.failed_iff (hroll : f.Rolls records roll) :
    f.stopped = true ↔ ∃ i e, (i, e) ∈ failures history := by
  rw [hroll.stopped]
  exact exists_congr fun i => exists_congr fun e => by rw [mem_failures, h.outcome]

theorem Told.no_failures (hroll : f.Rolls records roll) (hstopped : f.stopped = false) :
    failures history = [] := by
  rw [List.eq_nil_iff_forall_not_mem]
  rintro ⟨i, e⟩ hi
  rw [(h.failed_iff hroll).mpr ⟨i, e, hi⟩] at hstopped
  cases hstopped

section
variable (hroll : f.Rolls records roll) {i : Nat} {record : Record} {entries : List Entry}
variable (hi : f.window[i]? = some (.waiting record))
include hroll hi

theorem Told.refuse {e : Error} (hnone : failures history = [])
    (hl : p.bulk.launch p.plan record = (entries, .error e)) :
    Told p records { f with window := f.window.set i (.finished (some (.error e))),
                            stopped := true, trace := f.trace ++ entries }
      (roll.set (f.taken + i) (.finished (some (.error e))))
      (history ++ [.refused (f.taken + i) e]) := by
  have hslot : roll[f.taken + i]? = some (.waiting record) := hroll.slot hi
  have hrecord : records[f.taken + i]? = some record := hroll.waiting _ _ hslot
  obtain ⟨houtcome, honce⟩ :=
    h.outcome_set hslot nofun (.refused (f.taken + i) e) (.error e) rfl
  constructor
  case outcome => exact houtcome
  case once => exact honce
  case running =>
    intro j request due hj
    rcases getElem?_set_eq_some hj with ⟨_, hj'⟩ | ⟨_, heq⟩
    · exact List.mem_append_left _ (h.running j request due hj')
    · cases heq
  case began =>
    intro j request hj
    have hj' : .began j request ∈ history := by simpa using hj
    rcases h.began j request hj' with ⟨due, hdue⟩ | ⟨outcome, houtcome⟩
    · exact .inl ⟨due, (getElem?_set_of_ne hslot (by nofun) (by nofun)).mpr hdue⟩
    · exact .inr ⟨outcome, List.mem_append_left _ houtcome⟩
  case ended =>
    intro j request outcome hj
    have hj' : .ended j request outcome ∈ history := by simpa using hj
    exact List.mem_append_left _ (h.ended j request outcome hj')
  case launched =>
    intro j request hj
    have hj' : .began j request ∈ history := by simpa using hj
    exact h.launched j request hj'
  case refused =>
    intro j other hj
    rcases List.mem_append.mp hj with hj | hj
    · exact h.refused j other hj
    · cases List.mem_singleton.mp hj
      exact ⟨record, hrecord, Bulk.request_of_launch hl⟩
  case halts => exact halts_concat hnone _
  case calls =>
    show (f.trace ++ entries).filter Entry.isCall = _
    rw [List.filter_append, Bulk.calls_of_launch hl, List.filterMap_append, h.calls]
    rfl

theorem Told.begin {request : Request} {due : Option Nat} (hnone : failures history = [])
    (hl : p.bulk.launch p.plan record = (entries, .ok request)) :
    Told p records { f with window := f.window.set i (.running request due),
                            trace := f.trace ++ entries }
      (roll.set (f.taken + i) (.running request due))
      (history ++ [.began (f.taken + i) request]) := by
  have hslot : roll[f.taken + i]? = some (.waiting record) := hroll.slot hi
  have hrecord : records[f.taken + i]? = some record := hroll.waiting _ _ hslot
  have hself : (roll.set (f.taken + i) (.running request due))[f.taken + i]? =
      some (.running request due) :=
    List.getElem?_set_self (List.getElem?_eq_some_iff.mp hslot).1
  have houtcomes : outcomes (history ++ [.began (f.taken + i) request]) = outcomes history :=
    (List.filterMap_append ..).trans (List.append_nil _)
  constructor
  case outcome =>
    intro j outcome
    rw [houtcomes, h.outcome]
    exact (getElem?_set_of_ne hslot (by nofun) (by nofun)).symm
  case once =>
    rw [houtcomes]
    exact h.once
  case running =>
    intro j other due' hj
    rcases getElem?_set_eq_some hj with ⟨_, hj'⟩ | ⟨rfl, heq⟩
    · exact List.mem_append_left _ (h.running j other due' hj')
    · cases heq
      exact List.mem_append_right _ (List.mem_singleton_self _)
  case began =>
    intro j other hj
    rcases List.mem_append.mp hj with hj | hj
    · rcases h.began j other hj with ⟨due', hdue⟩ | ⟨outcome, houtcome⟩
      · refine .inl ⟨due', ?_⟩
        rw [List.getElem?_set_ne, hdue]
        rintro rfl
        cases hslot.symm.trans hdue
      · exact .inr ⟨outcome, List.mem_append_left _ houtcome⟩
    · cases List.mem_singleton.mp hj
      exact .inl ⟨due, hself⟩
  case ended =>
    intro j other outcome hj
    have hj' : .ended j other outcome ∈ history := by simpa using hj
    exact List.mem_append_left _ (h.ended j other outcome hj')
  case launched =>
    intro j other hj
    rcases List.mem_append.mp hj with hj | hj
    · exact h.launched j other hj
    · cases List.mem_singleton.mp hj
      exact ⟨record, hrecord, Bulk.request_of_launch hl⟩
  case refused =>
    intro j e hj
    have hj' : .refused j e ∈ history := by simpa using hj
    exact h.refused j e hj'
  case halts => exact halts_concat hnone _
  case calls =>
    show (f.trace ++ entries).filter Entry.isCall = _
    rw [List.filter_append, Bulk.calls_of_launch hl, List.filterMap_append, h.calls]
    rfl

end

theorem Told.finish (hroll : f.Rolls records roll) {i : Nat} {request : Request}
    {due : Option Nat} (hi : f.window[i]? = some (.running request due))
    {outcome : Except Error ExecResult} {db : δ} {now : Nat} {stopped : Bool} :
    Told p records { f with
        db, now, window := f.window.set i (.finished (some outcome)), stopped,
        trace := f.trace ++ [.executed p.bulk.options.context request] }
      (roll.set (f.taken + i) (.finished (some outcome)))
      (history ++ [.ended (f.taken + i) request outcome]) := by
  have hslot : roll[f.taken + i]? = some (.running request due) := hroll.slot hi
  obtain ⟨houtcome, honce⟩ :=
    h.outcome_set hslot nofun (.ended (f.taken + i) request outcome) outcome rfl
  constructor
  case outcome => exact houtcome
  case once => exact honce
  case running =>
    intro j other due' hj
    rcases getElem?_set_eq_some hj with ⟨_, hj'⟩ | ⟨_, heq⟩
    · exact List.mem_append_left _ (h.running j other due' hj')
    · cases heq
  case began =>
    intro j other hj
    have hj' : .began j other ∈ history := by simpa using hj
    rcases h.began j other hj' with ⟨due', hdue⟩ | ⟨last, hlast⟩
    · by_cases hji : j = f.taken + i
      · subst hji
        cases hslot.symm.trans hdue
        exact .inr ⟨outcome, List.mem_append_right _ (List.mem_singleton_self _)⟩
      · refine .inl ⟨due', ?_⟩
        rw [List.getElem?_set_ne fun hij => hji hij.symm, hdue]
    · exact .inr ⟨last, List.mem_append_left _ hlast⟩
  case ended =>
    intro j other last hj
    rcases List.mem_append.mp hj with hj | hj
    · exact List.mem_append_left _ (h.ended j other last hj)
    · cases List.mem_singleton.mp hj
      exact List.mem_append_left _ (h.running _ _ _ hslot)
  case launched =>
    intro j other hj
    have hj' : .began j other ∈ history := by simpa using hj
    exact h.launched j other hj'
  case refused =>
    intro j e hj
    have hj' : .refused j e ∈ history := by simpa using hj
    exact h.refused j e hj'
  case halts => exact h.halts.concat rfl
  case calls =>
    show (f.trace ++ [_]).filter Entry.isCall = _
    rw [List.filter_append, List.filterMap_append, h.calls]
    rfl

end

/-! ## whole runs -/

theorem told_of_runs {db : δ} (h : Runs p db records f history) :
    ∃ roll, f.Rolls records roll ∧ Told p records f roll history := by
  induction h with
  | initial => exact ⟨[], rolls_initial db records, told_initial db⟩
  | pull _ hpull ih =>
    obtain ⟨roll, hroll, htold⟩ := ih
    rcases pull_cases hpull with ⟨hend, rfl⟩ | ⟨record, source, hsource, _, rfl⟩
    · exact ⟨roll, hroll.end hend, htold.keep (fun _ _ => .rfl) (fun _ _ _ => .rfl) rfl⟩
    · exact ⟨_, hroll.append hsource, htold.keep (fun _ _ => getElem?_concat_of_ne (by nofun))
        (fun _ _ _ => getElem?_concat_of_ne (by nofun)) rfl⟩
  | take _ htake ih =>
    obtain ⟨roll, hroll, htold⟩ := ih
    obtain ⟨outcome, window, hw, rfl⟩ := take_cases htake
    refine ⟨roll, hroll.take hw, htold.keep (fun _ _ => .rfl) (fun _ _ _ => .rfl) ?_⟩
    exact calls_note ..
  | start _ hstart ih =>
    obtain ⟨roll, hroll, htold⟩ := ih
    obtain ⟨i, record, hi, hbefore, hcases⟩ := start_cases hstart
    have hslot := hroll.slot hi
    rcases hcases with ⟨hstopped, hnothing, rfl⟩ | ⟨hstopped, entries, e, hl, htells, rfl⟩ |
      ⟨hstopped, entries, request, due, hl, htells, rfl⟩
    · rw [hnothing, List.append_nil]
      exact ⟨_, hroll.passOver hi hstopped,
        htold.keep (fun _ _ => getElem?_set_of_ne hslot (by nofun) (by nofun))
          (fun _ _ _ => getElem?_set_of_ne hslot (by nofun) (by nofun)) rfl⟩
    · have hnone := htold.no_failures hroll hstopped
      rw [htells]
      exact ⟨_, hroll.refuse hi hbefore hstopped e _, htold.refuse hroll hi hnone hl⟩
    · have hnone := htold.no_failures hroll hstopped
      rw [htells]
      exact ⟨_, hroll.begin hi hbefore hstopped request due _, htold.begin hroll hi hnone hl⟩
  | finish i _ hfinish ih =>
    obtain ⟨roll, hroll, htold⟩ := ih
    obtain ⟨request, due, outcome, db, now, hi, _, htells, rfl⟩ := finish_cases hfinish
    rw [htells]
    exact ⟨_, hroll.finish hi outcome db now _, htold.finish hroll hi⟩

end Flight

end BoundSql
