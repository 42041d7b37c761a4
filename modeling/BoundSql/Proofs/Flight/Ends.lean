import BoundSql.Proofs.Flight.Runs

/-!
# Where a flight ends

* `Terminal.landed`     where no move is possible, the window is empty and the records have ended;
* `earliest_running`, `earliest_isSome`   the execution that ends first;
* `terminal_of_next`    the move made by a connection with known times is missing only there.
-/

namespace BoundSql

namespace Flight

variable {δ : Type} {p : FlightPlan δ} {f : Flight δ}

theorem start_isSome {record : Record} {window : List Slot}
    (hw : f.window = .waiting record :: window) : (f.start? p).isSome := by
  have hfirst : f.window.findIdx? Slot.isWaiting = some 0 := by
    rw [hw]
    rfl
  unfold start?
  rw [hfirst, hw]
  simp only [List.getElem?_cons_zero]
  split
  · rfl
  · split <;> rfl

theorem finish_isSome {i : Nat} {request : Request} {due : Option Nat}
    (hi : f.window[i]? = some (.running request due)) : (f.finish? p i).isSome := by
  unfold finish?
  rw [hi]
  rfl

theorem Terminal.landed (h : f.Terminal p) (hroom : 0 < p.room) :
    f.window = [] ∧ f.ended = true := by
  have hnone {move : Option (Flight δ)} (hmove : ∀ g, move = some g → Moves p f g) :
      move = none :=
    Option.eq_none_iff_forall_not_mem.mpr fun g hg => h g (hmove g hg)
  have hempty : f.window = [] := by
    rcases hw : f.window with _ | ⟨record | ⟨request, due⟩ | outcome, window⟩
    · rfl
    · have hstart := @start_isSome δ p f record window hw
      rw [hnone fun _ => .start] at hstart
      cases hstart
    · have hfinish := @finish_isSome δ p f 0 request due (by rw [hw]; rfl)
      rw [hnone fun _ => .finish 0] at hfinish
      cases hfinish
    · have htake : f.take? = none := hnone fun _ => .take
      rw [take?, hw] at htake
      cases htake
  have hpull : f.pull? p = none := hnone fun _ => .pull
  refine ⟨hempty, ?_⟩
  cases he : f.ended with
  | true => rfl
  | false =>
    have hfree : ¬ (f.ended = true ∨ p.room ≤ f.window.length) := by
      rw [he, hempty, List.length_nil]
      rintro (hended | hle)
      · cases hended
      · omega
    rw [pull?, if_neg hfree] at hpull
    split at hpull
    · cases hpull
    · split at hpull <;> cases hpull

theorem running_of_due {s : Slot} {due : Nat} (h : s.due? = some due) :
    ∃ request, s = .running request (some due) := by
  rcases s with _ | ⟨request, _⟩ | _
  · cases h
  · cases h
    exact ⟨request, rfl⟩
  · cases h

theorem running_of_ready {s : Slot} (h : s.isReady = true) :
    ∃ request, s = .running request none := by
  rcases s with _ | ⟨request, _ | _⟩ | _
  · cases h
  · exact ⟨request, rfl⟩
  · cases h
  · cases h

theorem earliest_running {ss : List Slot} {i due : Nat} (h : earliest? ss = some (i, due)) :
    ∃ request, ss[i]? = some (.running request (some due)) := by
  induction ss generalizing i due with
  | nil => cases h
  | cons s ss ih =>
    unfold earliest? at h
    rcases hs : s.due? with _ | first
    · rw [hs] at h
      obtain ⟨⟨j, later⟩, hlater, heq⟩ := Option.map_eq_some_iff.mp h
      cases heq
      exact ih hlater
    · obtain ⟨request, hrunning⟩ := running_of_due hs
      rw [hs] at h
      rcases hlater : earliest? ss with _ | ⟨j, later⟩
      · rw [hlater] at h
        cases h
        exact ⟨request, congrArg some hrunning⟩
      · rw [hlater] at h
        simp only [Option.map_some] at h
        split at h
        · cases h
          exact ⟨request, congrArg some hrunning⟩
        · cases h
          exact ih hlater

theorem earliest_isSome {ss : List Slot} {i due : Nat} {request : Request}
    (h : ss[i]? = some (.running request (some due))) : (earliest? ss).isSome := by
  induction ss generalizing i with
  | nil => cases h
  | cons s ss ih =>
    unfold earliest?
    cases i with
    | zero =>
      cases h
      rcases earliest? ss with _ | ⟨j, later⟩
      · rfl
      · simp only [Slot.due?, Option.map_some]
        split <;> rfl
    | succ i =>
      obtain ⟨⟨j, later⟩, hlater⟩ := Option.isSome_iff_exists.mp (ih h)
      rw [hlater]
      cases s.due? with
      | none => rfl
      | some first =>
        simp only [Option.map_some]
        split <;> rfl

theorem terminal_of_next (h : f.next? p = none) : f.Terminal p := by
  obtain ⟨hready, h⟩ := Option.or_eq_none_iff.mp h
  obtain ⟨hpull, h⟩ := Option.or_eq_none_iff.mp h
  obtain ⟨htake, h⟩ := Option.or_eq_none_iff.mp h
  obtain ⟨hstart, hdue⟩ := Option.or_eq_none_iff.mp h
  intro g hg
  cases hg with
  | pull h => cases hpull.symm.trans h
  | take h => cases htake.symm.trans h
  | start h => cases hstart.symm.trans h
  | finish i h =>
    obtain ⟨request, due, _, _, _, hi, _⟩ := finish_cases h
    cases due with
    | none =>
      rcases hfirst : f.window.findIdx? Slot.isReady with _ | j
      · have hnot := List.findIdx?_eq_none_iff.mp hfirst _ (List.mem_of_getElem? hi)
        cases hnot
      · obtain ⟨hlt, hj, _⟩ := List.findIdx?_eq_some_iff_getElem.mp hfirst
        obtain ⟨other, hrunning⟩ := running_of_ready hj
        have hsome := @finish_isSome δ p f j other none
          (by rw [List.getElem?_eq_getElem hlt, hrunning])
        rw [finishReady?, hfirst] at hready
        rw [show f.finish? p j = none from hready] at hsome
        cases hsome
    | some due =>
      obtain ⟨⟨j, first⟩, hfirst⟩ := Option.isSome_iff_exists.mp (earliest_isSome hi)
      obtain ⟨other, hj⟩ := earliest_running hfirst
      have hsome := @finish_isSome δ p f j other (some first) hj
      rw [finishDue?, hfirst] at hdue
      rw [show f.finish? p j = none from hdue] at hsome
      cases hsome

end Flight

end BoundSql
