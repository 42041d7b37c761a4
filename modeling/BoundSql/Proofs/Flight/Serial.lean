import BoundSql.Proofs.Flight

/-!
# One record at a time

With room for one record, a flight is a plain loop over the records.

* `Serial`, `Bulk.serially`   the loop, up to the first record that fails;
* `Flight.Idle`               nothing is in the window, and nothing has failed;
* `drive_serially`            from there on, the flight is the loop.
-/

namespace BoundSql

variable {δ : Type}

structure Serial (δ : Type) where
  trace : List Entry
  requests : List Request
  results : List ExecResult
  failure : Option (Nat × Error)
  db : δ

/-- the records from `index` on, one after the other up to the first one that fails -/
def Bulk.serially (b : Bulk) (plan : Plan) (conn : Connection δ) :
    Nat → List Record → δ → Serial δ
  | _, [], db => ⟨[], [], [], none, db⟩
  | index, record :: records, db =>
    match b.launch plan record with
    | (entries, .error e) => ⟨entries, [], [], some (index, e), db⟩
    | (entries, .ok request) =>
      let executed := .executed b.options.context request
      match conn.complete b.options.context request db with
      | (.error e, db) => ⟨entries ++ [executed], [request], [], some (index, e), db⟩
      | (.ok result, db) =>
        let later := b.serially plan conn (index + 1) records db
        ⟨entries ++ executed :: later.trace, request :: later.requests, result :: later.results,
          later.failure, later.db⟩

section
variable {b : Bulk} {plan : Plan} {conn : Connection δ} {record : Record} {records : List Record}
variable {index : Nat} {db db' : δ} {entries : List Entry} {request : Request}

theorem Bulk.serially_refused {e : Error} (hl : b.launch plan record = (entries, .error e)) :
    b.serially plan conn index (record :: records) db =
      ⟨entries, [], [], some (index, e), db⟩ := by
  rw [serially, hl]

theorem Bulk.serially_failed {e : Error} (hl : b.launch plan record = (entries, .ok request))
    (hc : conn.complete b.options.context request db = (.error e, db')) :
    b.serially plan conn index (record :: records) db =
      ⟨entries ++ [.executed b.options.context request], [request], [], some (index, e), db'⟩ := by
  simp only [serially, hl, hc]

theorem Bulk.serially_next {result : ExecResult}
    (hl : b.launch plan record = (entries, .ok request))
    (hc : conn.complete b.options.context request db = (.ok result, db')) :
    b.serially plan conn index (record :: records) db =
      let later := b.serially plan conn (index + 1) records db'
      ⟨entries ++ .executed b.options.context request :: later.trace, request :: later.requests,
        result :: later.results, later.failure, later.db⟩ := by
  simp only [serially, hl, hc]

end

/-! ## which records are executed -/

theorem Bulk.calls_serially (b : Bulk) (plan : Plan) (conn : Connection δ) (index : Nat)
    (records : List Record) (db : δ) :
    (b.serially plan conn index records db).trace.filter Entry.isCall =
      (b.serially plan conn index records db).requests.map (.executed b.options.context) := by
  induction records generalizing index db with
  | nil => rfl
  | cons record records ih =>
    rcases hl : b.launch plan record with ⟨entries, e | request⟩
    · rw [serially_refused hl]
      exact calls_of_launch hl
    · have hlaunch := calls_of_launch hl
      rcases hc : conn.complete b.options.context request db with ⟨e | result, db'⟩
      · rw [serially_failed hl hc, List.filter_append, hlaunch]
        rfl
      · rw [serially_next hl hc, List.filter_append, hlaunch, List.filter_cons, ih]
        rfl

/-- the records from `index` on are served in their order, up to the first one that fails -/
structure Serial.Serves (b : Bulk) (plan : Plan) (conn : Connection δ) (index : Nat)
    (records : List Record) (s : Serial δ) : Prop where
  request : ∀ (i : Nat) request, s.requests[i]? = some request →
    ∃ record, records[i]? = some record ∧ (b.request plan record).2 = .ok request
  result : ∀ (i : Nat) result, s.results[i]? = some result → ∃ request before after,
    s.requests[i]? = some request ∧
      conn.complete b.options.context request before = (.ok result, after)
  all : s.failure = none →
    s.requests.length = records.length ∧ s.results.length = records.length
  first : ∀ k e, s.failure = some (k, e) → ∃ (i : Nat) (record : Record),
    k = index + i ∧ records[i]? = some record ∧ s.results.length = i ∧
      ((b.request plan record).2 = .error e ∧ s.requests.length = i ∨
        ∃ request before after, (b.request plan record).2 = .ok request ∧
          s.requests[i]? = some request ∧ s.requests.length = i + 1 ∧
          conn.complete b.options.context request before = (.error e, after))

theorem Bulk.serves_serially (b : Bulk) (plan : Plan) (conn : Connection δ) (index : Nat)
    (records : List Record) (db : δ) :
    Serial.Serves b plan conn index records (b.serially plan conn index records db) := by
  induction records generalizing index db with
  | nil => exact ⟨by simp [serially], by simp [serially], by simp [serially], by simp [serially]⟩
  | cons record records ih =>
    rcases hl : b.launch plan record with ⟨entries, e | request⟩
    · have hrequest := request_of_launch hl
      rw [serially_refused hl]
      refine ⟨by simp, by simp, by simp, ?_⟩
      intro k e' h
      cases h
      exact ⟨0, record, rfl, rfl, rfl, .inl ⟨hrequest, rfl⟩⟩
    · have hrequest := request_of_launch hl
      rcases hc : conn.complete b.options.context request db with ⟨e | result, db'⟩
      · rw [serially_failed hl hc]
        refine ⟨?_, by simp, by simp, ?_⟩
        · intro i q h
          obtain ⟨rfl, rfl⟩ : i = 0 ∧ request = q := by
            simpa [List.getElem?_singleton] using h
          exact ⟨record, rfl, hrequest⟩
        · intro k e' h
          cases h
          exact ⟨0, record, rfl, rfl, rfl, .inr ⟨request, db, db', hrequest, rfl, rfl, hc⟩⟩
      · have later := ih (index + 1) db'
        rw [serially_next hl hc]
        refine ⟨?_, ?_, ?_, ?_⟩
        · intro i q h
          cases i with
          | zero =>
            cases h
            exact ⟨record, rfl, hrequest⟩
          | succ i => exact later.request i q h
        · intro i x h
          cases i with
          | zero =>
            cases h
            exact ⟨request, db, db', rfl, hc⟩
          | succ i => exact later.result i x h
        · intro h
          obtain ⟨hrequests, hresults⟩ := later.all h
          exact ⟨congrArg (· + 1) hrequests, congrArg (· + 1) hresults⟩
        · intro k e h
          obtain ⟨i, failing, hk, hi, hresults, hfails⟩ := later.first k e h
          refine ⟨i + 1, failing, by omega, hi, congrArg (· + 1) hresults, ?_⟩
          rcases hfails with ⟨hrefused, hrequests⟩ | ⟨q, before, after, hq, hqi, hrequests, hfailed⟩
          · exact .inl ⟨hrefused, congrArg (· + 1) hrequests⟩
          · exact .inr ⟨q, before, after, hq, hqi, congrArg (· + 1) hrequests, hfailed⟩

namespace Flight

section
variable {p : FlightPlan δ} {f : Flight δ}

/-! ## the next move -/

theorem pull_of_full (h : p.room ≤ f.window.length) : f.pull? p = none :=
  if_pos (.inr h)

theorem next_of_waiting (hroom : p.room = 1) {record : Record}
    (hw : f.window = [.waiting record]) : f.next? p = f.start? p := by
  have hpull : f.pull? p = none := pull_of_full (by simp [hroom, hw])
  have hdue : f.finishDue? p = none := by
    rw [finishDue?, hw]
    rfl
  rw [next?, finishReady?, hpull, take?, hdue, hw, Option.or_none]
  rfl

theorem next_of_running (hroom : p.room = 1) {request : Request} {due : Option Nat}
    (hw : f.window = [.running request due]) : f.next? p = f.finish? p 0 := by
  have hpull : f.pull? p = none := pull_of_full (by simp [hroom, hw])
  have hstart : f.start? p = none := by
    rw [start?, hw]
    rfl
  rw [next?, finishReady?, hpull, take?, hstart, finishDue?, hw]
  cases due with
  | none => exact Option.or_none
  | some due => rfl

theorem next_of_finished (hroom : p.room = 1) {outcome : Option (Except Error ExecResult)}
    (hw : f.window = [.finished outcome]) :
    f.next? p = some (note { f with window := [], taken := f.taken + 1 } f.taken outcome) := by
  have hpull : f.pull? p = none := pull_of_full (by simp [hroom, hw])
  rw [next?, finishReady?, hpull, take?, hw]
  rfl

theorem next_of_ended (hw : f.window = []) (he : f.ended = true) : f.next? p = none := by
  have hpull : f.pull? p = none := if_pos (.inl he)
  rw [next?, finishReady?, hpull, take?, start?, finishDue?, hw]
  rfl

theorem next_of_stopped (hroom : p.room = 1) (hw : f.window = []) (he : f.ended = false)
    (hs : f.stopped = true) : f.next? p = some { f with ended := true } := by
  have hpull : f.pull? p = some { f with ended := true } := by
    have hopen : ¬ (f.ended = true ∨ p.room ≤ f.window.length) := by
      rw [he, hroom, hw]
      simp
    rw [pull?, if_neg hopen]
    split
    · rfl
    · rw [if_pos hs]
  rw [next?, finishReady?, hpull, hw]
  rfl

/-! ## rounds -/

/-- nothing is in the window, and nothing has failed -/
structure Idle (f : Flight δ) : Prop where
  window : f.window = []
  ended : f.ended = false
  stopped : f.stopped = false
  failure : f.failure = none

theorem Idle.pull (h : f.Idle) (hroom : p.room = 1) :
    f.next? p =
      match f.source with
      | [] => some { f with ended := true }
      | record :: source => some { f with source, window := [.waiting record] } := by
  have hopen : ¬ (f.ended = true ∨ p.room ≤ f.window.length) := by
    rw [h.ended, hroom, h.window]
    simp
  have hpull : f.pull? p = match f.source with
      | [] => some { f with ended := true }
      | record :: source => some { f with source, window := [.waiting record] } := by
    rw [pull?, if_neg hopen, h.stopped, h.window]
    cases f.source <;> rfl
  rw [next?, finishReady?, hpull, h.window]
  cases f.source <;> rfl

theorem Idle.drive_nil (h : f.Idle) (hroom : p.room = 1) (hsource : f.source = []) :
    drive p f = { f with ended := true } := by
  have hnext : f.next? p = some { f with ended := true } := by
    rw [h.pull hroom, hsource]
  rw [drive_of_next hnext]
  exact drive_of_none (next_of_ended h.window rfl)

theorem drive_failed (hroom : p.room = 1) {e : Error}
    (hw : f.window = [.finished (some (.error e))]) (he : f.ended = false)
    (hs : f.stopped = true) (hf : f.failure = none) :
    drive p f = { f with window := [], ended := true, taken := f.taken + 1,
                         failure := some (f.taken, e) } := by
  have htake : f.next? p = some { f with window := [], taken := f.taken + 1,
                                         failure := some (f.taken, e) } := by
    rw [next_of_finished hroom hw, note, hf]
  have hend : next? p { f with window := [], taken := f.taken + 1,
                               failure := some (f.taken, e) } =
      some { f with window := [], ended := true, taken := f.taken + 1,
                    failure := some (f.taken, e) } :=
    next_of_stopped hroom rfl he hs
  rw [drive_of_next htake, drive_of_next hend]
  exact drive_of_none (next_of_ended rfl rfl)

section
variable {record : Record} {source : List Record} {entries : List Entry}
variable (h : f.Idle) (hroom : p.room = 1) (hsource : f.source = record :: source)
include h hroom hsource

theorem Idle.drive_refused {e : Error} (hl : p.bulk.launch p.plan record = (entries, .error e)) :
    drive p f = { f with source, ended := true, stopped := true, taken := f.taken + 1,
                         failure := some (f.taken, e), trace := f.trace ++ entries } := by
  have hpull : f.next? p = some { f with source, window := [.waiting record] } := by
    rw [h.pull hroom, hsource]
  have hstart : next? p { f with source, window := [.waiting record] } =
      some { f with source, window := [.finished (some (.error e))], stopped := true,
                    trace := f.trace ++ entries } := by
    rw [next_of_waiting hroom rfl]
    simp [start?, Slot.isWaiting, h.stopped, hl]
  rw [drive_of_next hpull, drive_of_next hstart, h.window]
  exact drive_failed hroom rfl h.ended rfl h.failure

theorem Idle.drive_launched {request : Request} {outcome : Except Error ExecResult} {db : δ}
    (hl : p.bulk.launch p.plan record = (entries, .ok request))
    (hc : p.conn.complete p.bulk.options.context request f.db = (outcome, db)) :
    ∃ now, drive p f = drive p { f with
      source, db, now, window := [.finished (some outcome)], stopped := isError outcome,
      trace := f.trace ++ entries ++ [.executed p.bulk.options.context request] } := by
  have hpull : f.next? p = some { f with source, window := [.waiting record] } := by
    rw [h.pull hroom, hsource]
  let due := if p.conn.ticks request = 0 then none else some (f.now + p.conn.ticks request)
  have hstart : next? p { f with source, window := [.waiting record] } =
      some { f with source, window := [.running request due], trace := f.trace ++ entries } := by
    rw [next_of_waiting hroom rfl]
    simp [start?, Slot.isWaiting, h.stopped, hl, due]
  have hfinish : next? p { f with source, window := [.running request due],
                                  trace := f.trace ++ entries } =
      some { f with
        source, db, now := due.getD f.now, window := [.finished (some outcome)],
        stopped := isError outcome,
        trace := f.trace ++ entries ++ [.executed p.bulk.options.context request] } := by
    rw [next_of_running hroom rfl]
    simp [finish?, hc, h.stopped]
  exact ⟨due.getD f.now,
    by rw [drive_of_next hpull, drive_of_next hstart, drive_of_next hfinish]⟩

theorem Idle.drive_error {request : Request} {e : Error} {db : δ}
    (hl : p.bulk.launch p.plan record = (entries, .ok request))
    (hc : p.conn.complete p.bulk.options.context request f.db = (.error e, db)) :
    ∃ now, drive p f = { f with
      source, db, now, window := [], ended := true, stopped := true, taken := f.taken + 1,
      failure := some (f.taken, e),
      trace := f.trace ++ entries ++ [.executed p.bulk.options.context request] } := by
  obtain ⟨now, hdrive⟩ := h.drive_launched hroom hsource hl hc
  refine ⟨now, ?_⟩
  rw [hdrive]
  exact drive_failed hroom rfl h.ended rfl h.failure

theorem Idle.drive_ok {request : Request} {result : ExecResult} {db : δ}
    (hl : p.bulk.launch p.plan record = (entries, .ok request))
    (hc : p.conn.complete p.bulk.options.context request f.db = (.ok result, db)) :
    ∃ now, drive p f = drive p { f with
      source, db, now, taken := f.taken + 1, done := f.done ++ [(f.taken, result)],
      trace := f.trace ++ entries ++ [.executed p.bulk.options.context request] } := by
  obtain ⟨now, hdrive⟩ := h.drive_launched hroom hsource hl hc
  refine ⟨now, ?_⟩
  rw [hdrive, h.window, h.stopped]
  exact drive_of_next (@next_of_finished δ p _ hroom (some (.ok result)) rfl)

end

/-- what a loop over records adds to a flight -/
structure Adds (f : Flight δ) (s : Serial δ) (g : Flight δ) : Prop where
  trace : g.trace = f.trace ++ s.trace
  results : g.done.map (·.2) = f.done.map (·.2) ++ s.results
  failure : g.failure = s.failure
  db : g.db = s.db

/-- from a state in which nothing is in the window, the flight is the loop -/
theorem Idle.drive_serially (h : f.Idle) (hroom : p.room = 1) :
    f.Adds (p.bulk.serially p.plan p.conn f.taken f.source f.db) (drive p f) := by
  induction hs : f.source generalizing f with
  | nil =>
    rw [h.drive_nil hroom hs]
    exact ⟨(List.append_nil _).symm, (List.append_nil _).symm, h.failure, rfl⟩
  | cons record source ih =>
    rcases hl : p.bulk.launch p.plan record with ⟨entries, e | request⟩
    · rw [h.drive_refused hroom hs hl, Bulk.serially_refused hl]
      exact ⟨rfl, (List.append_nil _).symm, rfl, rfl⟩
    · rcases hc : p.conn.complete p.bulk.options.context request f.db with ⟨e | result, db⟩
      · obtain ⟨now, hdrive⟩ := h.drive_error hroom hs hl hc
        rw [hdrive, Bulk.serially_failed hl hc]
        exact ⟨List.append_assoc .., (List.append_nil _).symm, rfl, rfl⟩
      · obtain ⟨now, hdrive⟩ := h.drive_ok hroom hs hl hc
        let g : Flight δ := { f with
          source, db, now, taken := f.taken + 1, done := f.done ++ [(f.taken, result)],
          trace := f.trace ++ entries ++ [.executed p.bulk.options.context request] }
        -- one round leads back to an idle flight, whose index is the next one
        have later := @ih g ⟨h.window, h.ended, h.stopped, h.failure⟩ rfl
        rw [hdrive, Bulk.serially_next hl hc]
        refine ⟨later.trace.trans ?_, later.results.trans ?_, later.failure, later.db⟩
        · simp [g]
        · simp [g]

end

end Flight

end BoundSql
