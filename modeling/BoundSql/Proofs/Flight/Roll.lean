import Mathlib.Data.List.Induction
import BoundSql.Proofs.Flight.Runs

/-!
# The roll of a flight

The slots of all records that have entered the window, those taken from it included, are the roll.
Its entries are set where they stand and never move.

* `numbered`         values of the entries with their indices;
* `Flight.Rolls`     a flight and its roll;
* `Rolls.append`, `Rolls.take`, `Rolls.set`   a record enters, the oldest one is taken, one is set;
* `rolls_of_runs`    every flight has a roll.
-/

namespace BoundSql

namespace Slot

/-- the record has had its turn, and was not passed over -/
def begun : Slot → Bool
  | .waiting _ => false
  | .running _ _ => true
  | .finished outcome => outcome.isSome

def result? : Slot → Option ExecResult
  | .finished (some (.ok r)) => some r
  | _ => none

def error? : Slot → Option Error
  | .finished (some (.error e)) => some e
  | _ => none

theorem result?_eq_some {s : Slot} {r : ExecResult} :
    s.result? = some r ↔ s = .finished (some (.ok r)) := by
  constructor
  · intro h
    unfold result? at h
    split at h
    · cases h
      rfl
    · cases h
  · rintro rfl
    rfl

theorem error?_eq_some {s : Slot} {e : Error} :
    s.error? = some e ↔ s = .finished (some (.error e)) := by
  constructor
  · intro h
    unfold error? at h
    split at h
    · cases h
      rfl
    · cases h
  · rintro rfl
    rfl

end Slot

/-! ## numbered values -/

section
variable {α : Type} (value : Slot → Option α)

def numbered (roll : List Slot) : List (Nat × α) :=
  roll.zipIdx.filterMap fun (slot, i) => (value slot).map (i, ·)

theorem numbered_concat (roll : List Slot) (s : Slot) :
    numbered value (roll ++ [s]) =
      numbered value roll ++ ((value s).map (roll.length, ·)).toList := by
  rw [numbered, List.zipIdx_append, List.filterMap_append]
  cases hs : value s <;> simp [numbered, hs]

variable {value}

theorem mem_numbered {roll : List Slot} {i : Nat} {a : α} :
    (i, a) ∈ numbered value roll ↔ ∃ s, roll[i]? = some s ∧ value s = some a := by
  unfold numbered
  rw [List.mem_filterMap]
  constructor
  · rintro ⟨⟨s, j⟩, hs, hvalue⟩
    obtain ⟨b, hb, heq⟩ := Option.map_eq_some_iff.mp hvalue
    cases heq
    exact ⟨s, List.mem_zipIdx_iff_getElem?.mp hs, hb⟩
  · rintro ⟨s, hs, hvalue⟩
    refine ⟨(s, i), List.mem_zipIdx_iff_getElem?.mpr hs, ?_⟩
    show (value s).map (i, ·) = some (i, a)
    rw [hvalue]
    rfl

theorem pairwise_numbered (roll : List Slot) :
    (numbered value roll).Pairwise (fun a b => a.1 < b.1) := by
  induction roll using List.reverseRecOn with
  | nil => exact .nil
  | append_singleton roll s ih =>
    rw [numbered_concat, List.pairwise_append]
    refine ⟨ih, ?_, ?_⟩
    · cases value s with
      | none => exact .nil
      | some a => exact List.pairwise_singleton _ _
    · rintro ⟨i, a⟩ ha ⟨j, b⟩ hb
      obtain ⟨t, ht, _⟩ := mem_numbered.mp ha
      obtain ⟨c, _, hc⟩ := Option.map_eq_some_iff.mp (Option.mem_toList.mp hb)
      cases hc
      exact (List.getElem?_eq_some_iff.mp ht).1

theorem map_snd_numbered (roll : List Slot) :
    (numbered value roll).map (·.2) = roll.filterMap value := by
  induction roll using List.reverseRecOn with
  | nil => rfl
  | append_singleton roll s ih =>
    rw [numbered_concat, List.map_append, ih, List.filterMap_append]
    cases hs : value s <;> simp [hs]

theorem filterMap_of_all {roll : List Slot} (h : ∀ s ∈ roll, (value s).isSome) :
    (roll.filterMap value).length = roll.length ∧
      ∀ i : Nat, (roll.filterMap value)[i]? = roll[i]?.bind value := by
  induction roll with
  | nil => exact ⟨rfl, fun i => by simp⟩
  | cons s roll ih =>
    obtain ⟨a, ha⟩ := Option.isSome_iff_exists.mp (h s (List.mem_cons_self ..))
    obtain ⟨hlength, hget⟩ := ih fun t ht => h t (List.mem_cons_of_mem _ ht)
    rw [List.filterMap_cons_some ha]
    refine ⟨congrArg (· + 1) hlength, fun i => ?_⟩
    cases i with
    | zero => simp [ha]
    | succ i => simpa using hget i

end

/-! ## the roll -/

theorem of_drop_eq_cons {α : Type} {l rest : List α} {a : α} {n : Nat}
    (h : l.drop n = a :: rest) : l[n]? = some a ∧ l.drop (n + 1) = rest := by
  constructor
  · rw [← List.head?_drop, h]
    rfl
  · rw [← List.tail_drop, h]
    rfl

theorem getElem?_concat_eq_some {ss : List Slot} {s t : Slot} {i : Nat}
    (h : (ss ++ [s])[i]? = some t) : ss[i]? = some t ∨ i = ss.length ∧ t = s := by
  rcases Nat.lt_or_ge i ss.length with hi | hi
  · rw [List.getElem?_append_left hi] at h
    exact .inl h
  · rw [List.getElem?_append_right hi] at h
    obtain ⟨hzero, hs⟩ := List.getElem?_eq_some_iff.mp h
    have : i - ss.length < 1 := hzero
    exact .inr ⟨by omega, by simpa using hs.symm⟩

theorem getElem?_set_eq_some {ss : List Slot} {s t : Slot} {i n : Nat}
    (h : (ss.set n s)[i]? = some t) : i ≠ n ∧ ss[i]? = some t ∨ i = n ∧ t = s := by
  by_cases hi : n = i
  · subst hi
    rw [List.getElem?_set_self'] at h
    obtain ⟨_, _, hs⟩ := Option.map_eq_some_iff.mp h
    exact .inr ⟨rfl, hs.symm⟩
  · rw [List.getElem?_set_ne hi] at h
    exact .inl ⟨fun h => hi h.symm, h⟩

theorem getElem?_concat_of_ne {ss : List Slot} {s t : Slot} {i : Nat} (hne : t ≠ s) :
    (ss ++ [s])[i]? = some t ↔ ss[i]? = some t := by
  constructor
  · intro h
    exact (getElem?_concat_eq_some h).resolve_right fun heq => hne heq.2
  · intro h
    rw [List.getElem?_append_left (List.getElem?_eq_some_iff.mp h).1, h]

theorem getElem?_set_of_ne {ss : List Slot} {s t old : Slot} {i n : Nat} (hn : ss[n]? = some old)
    (hold : t ≠ old) (hnew : t ≠ s) : (ss.set n s)[i]? = some t ↔ ss[i]? = some t := by
  constructor
  · intro h
    rcases getElem?_set_eq_some h with ⟨_, h⟩ | ⟨_, heq⟩
    · exact h
    · exact absurd heq hnew
  · intro h
    rw [List.getElem?_set_ne, h]
    rintro rfl
    exact hold (Option.some.inj (h.symm.trans hn))

namespace Flight

variable {δ : Type}

structure Rolls (records : List Record) (f : Flight δ) (roll : List Slot) : Prop where
  taken_le : f.taken ≤ roll.length
  length_le : roll.length ≤ records.length
  window : f.window = roll.drop f.taken
  source : f.source = records.drop roll.length
  taken : ∀ i < f.taken, ∃ outcome, roll[i]? = some (.finished outcome)
  waiting : ∀ (i : Nat) record, roll[i]? = some (.waiting record) → records[i]? = some record
  begun : ∀ (i j : Nat) s t, i < j → roll[i]? = some s → roll[j]? = some t →
    t.begun = true → s.begun = true
  stopped : f.stopped = true ↔ ∃ i : Nat, ∃ e, roll[i]? = some (.finished (some (.error e)))
  passedOver : f.stopped = false → ∀ i : Nat, roll[i]? ≠ some (.finished none)
  ended : f.ended = true → f.stopped = true ∨ f.source = []
  done : f.done = numbered Slot.result? (roll.take f.taken)
  failure : f.failure = (numbered Slot.error? (roll.take f.taken)).head?

theorem note_eq (f : Flight δ) (index : Nat) (outcome : Option (Except Error ExecResult)) :
    ∃ trace, trace.filter Entry.isCall = f.trace.filter Entry.isCall ∧
      f.note index outcome = { f with
        done := f.done ++ ((Slot.finished outcome).result?.map (index, ·)).toList
        failure := f.failure.or ((Slot.finished outcome).error?.map (index, ·))
        trace } := by
  rcases outcome with _ | e | r
  · refine ⟨f.trace, rfl, ?_⟩
    simp [note, Slot.result?, Slot.error?]
  · unfold note
    cases hf : f.failure with
    | none =>
      refine ⟨f.trace, rfl, ?_⟩
      simp [Slot.result?, Slot.error?]
    | some first =>
      refine ⟨f.trace ++ [.logged (laterFailure index e)], ?_, ?_⟩
      · rw [List.filter_append]
        exact List.append_nil _
      · simp [Slot.result?, Slot.error?]
  · refine ⟨f.trace, rfl, ?_⟩
    simp [note, Slot.result?, Slot.error?]

theorem calls_note (f : Flight δ) (index : Nat) (outcome : Option (Except Error ExecResult)) :
    (f.note index outcome).trace.filter Entry.isCall = f.trace.filter Entry.isCall := by
  obtain ⟨trace, htrace, hnote⟩ := note_eq f index outcome
  rw [hnote]
  exact htrace

theorem rolls_initial (db : δ) (records : List Record) :
    (initial db records).Rolls records [] where
  taken_le := Nat.le_refl 0
  length_le := Nat.zero_le _
  window := rfl
  source := rfl
  taken := fun i hi => absurd hi (Nat.not_lt_zero i)
  waiting := by simp
  begun := by simp
  stopped := by simp [initial]
  passedOver := by simp
  ended := by simp [initial]
  done := rfl
  failure := rfl

section
variable {records : List Record} {f : Flight δ} {roll : List Slot} (h : f.Rolls records roll)
include h

theorem Rolls.end (hend : f.source = [] ∨ f.stopped = true) :
    Rolls records { f with ended := true } roll :=
  { h with ended := fun _ => hend.symm }

theorem Rolls.append {record : Record} {source : List Record}
    (hsource : f.source = record :: source) :
    Rolls records { f with source, window := f.window ++ [.waiting record] }
      (roll ++ [.waiting record]) := by
  have hdrop : records.drop roll.length = record :: source := h.source.symm.trans hsource
  obtain ⟨hrecord, hrest⟩ := of_drop_eq_cons hdrop
  have hlength : roll.length < records.length := (List.getElem?_eq_some_iff.mp hrecord).1
  have htake : (roll ++ [Slot.waiting record]).take f.taken = roll.take f.taken :=
    List.take_append_of_le_length h.taken_le
  constructor
  case taken_le =>
    rw [List.length_append]
    exact Nat.le_add_right_of_le h.taken_le
  case length_le =>
    rw [List.length_append]
    exact hlength
  case window =>
    show f.window ++ [.waiting record] = _
    rw [List.drop_append_of_le_length h.taken_le, h.window]
  case source =>
    show source = _
    rw [List.length_append]
    exact hrest.symm
  case taken =>
    intro i hi
    obtain ⟨outcome, hslot⟩ := h.taken i hi
    exact ⟨outcome, (getElem?_concat_of_ne (by nofun)).mpr hslot⟩
  case waiting =>
    intro i other hi
    rcases getElem?_concat_eq_some hi with hi | ⟨rfl, hother⟩
    · exact h.waiting i other hi
    · cases hother
      exact hrecord
  case begun =>
    intro i j s t hij hi hj ht
    have hne : t ≠ .waiting record := by
      rintro rfl
      cases ht
    have hj : roll[j]? = some t := (getElem?_concat_of_ne hne).mp hj
    have hlt : i < roll.length := Nat.lt_trans hij (List.getElem?_eq_some_iff.mp hj).1
    rw [List.getElem?_append_left hlt] at hi
    exact h.begun i j s t hij hi hj ht
  case stopped =>
    rw [show ({ f with source, window := f.window ++ [.waiting record] } : Flight δ).stopped =
      f.stopped from rfl, h.stopped]
    exact exists_congr fun i => exists_congr fun e => (getElem?_concat_of_ne (by nofun)).symm
  case passedOver =>
    intro hs i hi
    exact h.passedOver hs i ((getElem?_concat_of_ne (by nofun)).mp hi)
  case ended =>
    intro he
    rcases h.ended he with hs | hs
    · exact .inl hs
    · rw [hs] at hsource
      cases hsource
  case done =>
    rw [htake]
    exact h.done
  case failure =>
    rw [htake]
    exact h.failure

theorem Rolls.take {outcome : Option (Except Error ExecResult)} {window : List Slot}
    (hw : f.window = .finished outcome :: window) :
    Rolls records (note { f with window, taken := f.taken + 1 } f.taken outcome) roll := by
  have hdrop : roll.drop f.taken = .finished outcome :: window := h.window.symm.trans hw
  obtain ⟨hslot, hmoved⟩ := of_drop_eq_cons hdrop
  have hlt : f.taken < roll.length := (List.getElem?_eq_some_iff.mp hslot).1
  have htake : roll.take (f.taken + 1) = roll.take f.taken ++ [.finished outcome] := by
    rw [List.take_add_one, hslot]
    rfl
  have hlength : (roll.take f.taken).length = f.taken := List.length_take_of_le h.taken_le
  have hpast : ∀ i < f.taken + 1, ∃ outcome, roll[i]? = some (.finished outcome) := by
    intro i hi
    rcases Nat.lt_succ_iff_lt_or_eq.mp hi with hi | rfl
    · exact h.taken i hi
    · exact ⟨outcome, hslot⟩
  obtain ⟨trace, _, hnote⟩ :=
    note_eq { f with window, taken := f.taken + 1 } f.taken outcome
  rw [hnote]
  exact {
    taken_le := hlt
    length_le := h.length_le
    window := hmoved.symm
    source := h.source
    taken := hpast
    waiting := h.waiting
    begun := h.begun
    stopped := h.stopped
    passedOver := h.passedOver
    ended := h.ended
    done := by
      show f.done ++ _ = numbered Slot.result? (roll.take (f.taken + 1))
      rw [htake, numbered_concat, hlength, h.done]
    failure := by
      show f.failure.or _ = (numbered Slot.error? (roll.take (f.taken + 1))).head?
      rw [htake, numbered_concat, hlength, List.head?_append, h.failure]
      cases (Slot.finished outcome).error? <;> rfl }

theorem Rolls.set {i : Nat} {old new : Slot} {db : δ} {now : Nat} {stopped : Bool}
    {trace : List Entry} (hi : f.window[i]? = some old) (hold : ∀ outcome, old ≠ .finished outcome)
    (hnew : new.isWaiting = false)
    (hbefore : new.begun = true → ∀ j < f.taken + i, ∀ s, roll[j]? = some s → s.begun = true)
    (hbegun : old.begun = true → new.begun = true)
    (hstopped : stopped = true ↔ f.stopped = true ∨ ∃ e, new = .finished (some (.error e)))
    (hpassed : new = .finished none → stopped = true) :
    Rolls records { f with db, now, window := f.window.set i new, stopped, trace }
      (roll.set (f.taken + i) new) := by
  have hslot : roll[f.taken + i]? = some old := by
    rw [← hi, h.window, List.getElem?_drop]
  have hlt : f.taken + i < roll.length := (List.getElem?_eq_some_iff.mp hslot).1
  have htake : (roll.set (f.taken + i) new).take f.taken = roll.take f.taken :=
    List.take_set_of_le (Nat.le_add_right ..)
  have hself : (roll.set (f.taken + i) new)[f.taken + i]? = some new := List.getElem?_set_self hlt
  have hother {j : Nat} (hj : j ≠ f.taken + i) : (roll.set (f.taken + i) new)[j]? = roll[j]? :=
    List.getElem?_set_ne hj.symm
  constructor
  case taken_le =>
    rw [List.length_set]
    exact h.taken_le
  case length_le =>
    rw [List.length_set]
    exact h.length_le
  case window =>
    show f.window.set i new = (roll.set (f.taken + i) new).drop f.taken
    rw [List.drop_set, if_neg (by omega), h.window, Nat.add_sub_cancel_left]
  case source =>
    rw [List.length_set]
    exact h.source
  case taken =>
    intro j hj
    rw [hother (by have : j < f.taken := hj; omega)]
    exact h.taken j hj
  case waiting =>
    intro j record hj
    rcases getElem?_set_eq_some hj with ⟨_, hj'⟩ | ⟨_, hrecord⟩
    · exact h.waiting j record hj'
    · rw [← hrecord] at hnew
      cases hnew
  case begun =>
    intro j k s t hjk hj hk ht
    rcases getElem?_set_eq_some hj with ⟨_, hj'⟩ | ⟨rfl, hs⟩
    · rcases getElem?_set_eq_some hk with ⟨_, hk'⟩ | ⟨rfl, hnew'⟩
      · exact h.begun j k s t hjk hj' hk' ht
      · exact hbefore (hnew' ▸ ht) j hjk s hj'
    · rcases getElem?_set_eq_some hk with ⟨_, hk'⟩ | ⟨hjk', _⟩
      · rw [hs]
        exact hbegun (h.begun _ k old t hjk hslot hk' ht)
      · exact absurd hjk' (Nat.ne_of_gt hjk)
  case stopped =>
    rw [show ({ f with db, now, window := f.window.set i new, stopped, trace } : Flight δ).stopped =
      stopped from rfl, hstopped, h.stopped]
    constructor
    · rintro (⟨j, e, hj⟩ | ⟨e, rfl⟩)
      · have hne : j ≠ f.taken + i := by
          rintro rfl
          rw [hslot] at hj
          exact hold _ (Option.some.inj hj)
        exact ⟨j, e, (hother hne).trans hj⟩
      · exact ⟨_, e, hself⟩
    · rintro ⟨j, e, hj⟩
      rcases getElem?_set_eq_some hj with ⟨_, hj'⟩ | ⟨_, he⟩
      · exact .inl ⟨j, e, hj'⟩
      · exact .inr ⟨e, he.symm⟩
  case passedOver =>
    intro hs j hj
    have hgoing : stopped = false := hs
    rcases getElem?_set_eq_some hj with ⟨_, hj'⟩ | ⟨_, hnone⟩
    · refine h.passedOver (Bool.eq_false_iff.mpr fun hf => ?_) j hj'
      rw [hstopped.mpr (.inl hf)] at hgoing
      cases hgoing
    · rw [hpassed hnone.symm] at hgoing
      cases hgoing
  case ended =>
    intro he
    rcases h.ended he with hs | hs
    · exact .inl (hstopped.mpr (.inl hs))
    · exact .inr hs
  case done =>
    rw [htake]
    exact h.done
  case failure =>
    rw [htake]
    exact h.failure

/-! ## turns -/

theorem Rolls.slot {i : Nat} {s : Slot} (hi : f.window[i]? = some s) :
    roll[f.taken + i]? = some s := by
  rw [← hi, h.window, List.getElem?_drop]

/-- as long as nothing has failed, everything in front of the first waiting record has begun -/
theorem Rolls.begun_before {i : Nat} (hstopped : f.stopped = false)
    (hbefore : ∀ j < i, ∀ slot, f.window[j]? = some slot → slot.isWaiting = false) :
    ∀ j < f.taken + i, ∀ s, roll[j]? = some s → s.begun = true := by
  intro j hj s hs
  have hnone : s ≠ .finished none := by
    rintro rfl
    exact h.passedOver hstopped j hs
  have hwaiting : s.isWaiting = false := by
    rcases Nat.lt_or_ge j f.taken with hlt | hge
    · obtain ⟨outcome, hfinished⟩ := h.taken j hlt
      cases hs.symm.trans hfinished
      rfl
    · refine hbefore (j - f.taken) (by omega) s ?_
      rw [h.window, List.getElem?_drop, Nat.add_sub_cancel' hge, hs]
  rcases s with _ | _ | _ | _
  · cases hwaiting
  · rfl
  · exact absurd rfl hnone
  · rfl

theorem Rolls.passOver {i : Nat} {record : Record} (hi : f.window[i]? = some (.waiting record))
    (hstopped : f.stopped = true) :
    Rolls records { f with window := f.window.set i (.finished none) }
      (roll.set (f.taken + i) (.finished none)) :=
  h.set hi nofun rfl nofun nofun (by simp) (fun _ => hstopped)

theorem Rolls.refuse {i : Nat} {record : Record} (hi : f.window[i]? = some (.waiting record))
    (hbefore : ∀ j < i, ∀ slot, f.window[j]? = some slot → slot.isWaiting = false)
    (hstopped : f.stopped = false) (e : Error) (trace : List Entry) :
    Rolls records { f with window := f.window.set i (.finished (some (.error e))), stopped := true,
                           trace }
      (roll.set (f.taken + i) (.finished (some (.error e)))) :=
  h.set hi nofun rfl (fun _ => h.begun_before hstopped hbefore) nofun (by simp) (fun _ => rfl)

theorem Rolls.begin {i : Nat} {record : Record} (hi : f.window[i]? = some (.waiting record))
    (hbefore : ∀ j < i, ∀ slot, f.window[j]? = some slot → slot.isWaiting = false)
    (hstopped : f.stopped = false) (request : Request) (due : Option Nat) (trace : List Entry) :
    Rolls records { f with window := f.window.set i (.running request due), trace }
      (roll.set (f.taken + i) (.running request due)) :=
  h.set hi nofun rfl (fun _ => h.begun_before hstopped hbefore) nofun (by simp) nofun

theorem Rolls.finish {i : Nat} {request : Request} {due : Option Nat}
    (hi : f.window[i]? = some (.running request due)) (outcome : Except Error ExecResult)
    (db : δ) (now : Nat) (trace : List Entry) :
    Rolls records { f with
        db, now, window := f.window.set i (.finished (some outcome)),
        stopped := f.stopped || isError outcome, trace }
      (roll.set (f.taken + i) (.finished (some outcome))) := by
  refine h.set hi nofun rfl (fun _ j hj s hs => ?_) (fun _ => rfl) ?_ nofun
  · exact h.begun j _ s _ hj hs (h.slot hi) rfl
  · cases outcome with
    | error e => simp [isError]
    | ok r => simp [isError]

end

end Flight

end BoundSql
