import BoundSql.Record

/-!
# Places for arguments

Arguments built without a record hold a marker wherever a record will supply a value.

* `Place`                an argument, or a marker together with the column whose value it waits for;
* `Place.columnsIn`      the columns waited for in one part of a statement;
* `Fills`                every marker replaced by the value that was given for its own column;
* `Fills.getElem?_eq`, `Fills.unmarked`   nothing else changes, and no marker stays;
* `backfill_of_fills`    values at the end of a list, moved one by one, end up in that way.
-/

namespace BoundSql

inductive Place where
  | held (a : Argument)
  | awaited (part : Part) (column : String)

namespace Place

def argument : Place → Argument
  | .held a => a
  | .awaited _ _ => .pending

/-- the column that is waited for in a part -/
def awaits? (part : Part) : Place → Option String
  | .held _ => none
  | .awaited p column => if p = part then some column else none

def columnsIn (part : Part) (places : List Place) : List String := places.filterMap (awaits? part)

theorem columnsIn_append (part : Part) (ps qs : List Place) :
    columnsIn part (ps ++ qs) = columnsIn part ps ++ columnsIn part qs := List.filterMap_append

theorem map_argument_held (as : Arguments) : (as.map held).map argument = as := by
  rw [List.map_map]
  exact List.map_id as

/-- the positions of markers in a list that begins at `start`, with their columns -/
def deferredFrom (start : Nat) : List Place → List (Nat × String)
  | [] => []
  | .held _ :: places => deferredFrom (start + 1) places
  | .awaited _ column :: places => (start, column) :: deferredFrom (start + 1) places

end Place

/-- every marker replaced by the next value, which was given for the marker's own column -/
inductive Fills : List Place → List (String × Argument) → Arguments → Prop
  | nil : Fills [] [] []
  | held (a : Argument) {places answers out} (rest : Fills places answers out) :
      Fills (.held a :: places) answers (a :: out)
  | awaited (part : Part) (column : String) (v : Argument) {places answers out}
      (rest : Fills places answers out) :
      Fills (.awaited part column :: places) ((column, v) :: answers) (v :: out)

theorem fills_held (as : Arguments) : Fills (as.map .held) [] as := by
  induction as with
  | nil => exact .nil
  | cons a as ih => exact .held a ih

theorem fills_awaited (part : Part) {columns : List String} {values : Arguments}
    (h : values.length = columns.length) :
    Fills (columns.map (.awaited part)) (columns.zip values) values := by
  induction columns generalizing values with
  | nil =>
    rw [List.length_eq_zero_iff.mp h]
    exact .nil
  | cons column columns ih =>
    cases values with
    | nil => cases h
    | cons v values => exact .awaited part column v (ih (Nat.succ.inj h))

namespace Fills

variable {places places' : List Place} {answers answers' : List (String × Argument)}
  {out out' : Arguments}

theorem append (h : Fills places answers out) (h' : Fills places' answers' out') :
    Fills (places ++ places') (answers ++ answers') (out ++ out') := by
  induction h with
  | nil => exact h'
  | held a _ ih => exact .held a ih
  | awaited part column v _ ih => exact .awaited part column v ih

theorem length_eq (h : Fills places answers out) : out.length = places.length := by
  induction h with
  | nil => rfl
  | held a _ ih => exact congrArg (· + 1) ih
  | awaited part column v _ ih => exact congrArg (· + 1) ih

theorem eq_of_nil (h : Fills places [] out) : out = places.map Place.argument := by
  generalize hnil : ([] : List (String × Argument)) = answers at h
  induction h with
  | nil => rfl
  | held a _ ih => exact congrArg (a :: ·) (ih hnil)
  | awaited part column v _ => cases hnil

/-- an argument that is no marker stays where it is -/
theorem getElem?_eq (h : Fills places answers out) (k : Nat)
    (hk : (places.map Place.argument)[k]? ≠ some .pending) :
    out[k]? = (places.map Place.argument)[k]? := by
  induction h generalizing k with
  | nil => rfl
  | held a _ ih =>
    cases k with
    | zero => rfl
    | succ k => exact ih k hk
  | awaited part column v _ ih =>
    cases k with
    | zero => exact absurd rfl hk
    | succ k => exact ih k hk

/-- what the arguments and the answers have in common, the outcome has too -/
theorem forall_mem {p : Argument → Prop} (h : Fills places answers out)
    (hheld : ∀ a, .held a ∈ places → p a) (hanswers : ∀ answer ∈ answers, p answer.2) :
    ∀ a ∈ out, p a := by
  induction h with
  | nil => exact fun _ ha => absurd ha List.not_mem_nil
  | held a _ ih =>
    refine List.forall_mem_cons.mpr ⟨hheld a (List.mem_cons_self ..), ?_⟩
    exact ih (fun b hb => hheld b (List.mem_cons_of_mem _ hb)) hanswers
  | awaited part column v _ ih =>
    refine List.forall_mem_cons.mpr ⟨hanswers _ (List.mem_cons_self ..), ?_⟩
    exact ih (fun b hb => hheld b (List.mem_cons_of_mem _ hb))
      fun answer ha => hanswers answer (List.mem_cons_of_mem _ ha)

theorem unmarked (h : Fills places answers out) (hheld : ∀ a, .held a ∈ places → a ≠ .pending)
    (hanswers : ∀ answer ∈ answers, answer.2 ≠ .pending) : .pending ∉ out := fun hmem =>
  h.forall_mem hheld hanswers .pending hmem rfl

end Fills

/-! ## moving values to their places -/

theorem exchange_append {α : Type} (as bs cs : List α) (x y : α) :
    exchange (as ++ x :: (bs ++ y :: cs)) as.length (as.length + 1 + bs.length) =
      as ++ y :: (bs ++ x :: cs) := by
  have hx : (as ++ x :: (bs ++ y :: cs))[as.length]? = some x := by simp
  have hy : (as ++ x :: (bs ++ y :: cs))[as.length + 1 + bs.length]? = some y := by
    rw [Nat.add_assoc, List.getElem?_append_right (Nat.le_add_right ..), Nat.add_sub_cancel_left,
      Nat.add_comm 1, List.getElem?_cons_succ]
    simp
  unfold exchange
  rw [hx, hy]
  show ((as ++ x :: (bs ++ y :: cs)).set as.length y).set (as.length + 1 + bs.length) x = _
  rw [List.set_append_right _ _ (Nat.le_refl _), Nat.sub_self, List.set_cons_zero, Nat.add_assoc,
    List.set_append_right _ _ (Nat.le_add_right ..), Nat.add_sub_cancel_left, Nat.add_comm 1,
    List.set_cons_succ]
  simp

/-- `done` is in place already, and `used` are the markers that came back for the values moved so
far -/
theorem exchangeAll_of_fills {places : List Place} {answers : List (String × Argument)}
    {out : Arguments} (h : Fills places answers out) (done used : Arguments) :
    exchangeAll (done.length + places.length)
        ((Place.deferredFrom done.length places).map (·.1))
        (done.length + places.length + used.length)
        (done ++ (places.map Place.argument ++ (used ++ answers.map (·.2)))) =
      (done ++ (out ++ (used ++ List.replicate answers.length .pending)), .ok ()) := by
  induction h generalizing done used with
  | nil => rfl
  | @held a places answers out _ ih =>
    have hrest := ih (done ++ [a]) used
    rw [List.length_append, List.length_singleton, Nat.add_assoc done.length, Nat.add_comm 1,
      List.append_assoc, List.append_assoc] at hrest
    exact hrest
  | @awaited part column v places answers out _ ih =>
    have hbound : ¬ done.length + (places.length + 1) ≤ done.length := by omega
    have hsource : done.length + (places.length + 1) + used.length =
        done.length + 1 + (places.map Place.argument ++ used).length := by
      rw [List.length_append, List.length_map]
      omega
    -- the marker goes where the value has come from, behind the markers moved there before
    have hmoved : exchange
        (done ++ ((.pending :: places.map Place.argument) ++ (used ++ v :: answers.map (·.2))))
        done.length (done.length + (places.length + 1) + used.length) =
          done ++ [v] ++ (places.map Place.argument ++
            (used ++ [.pending] ++ answers.map (·.2))) := by
      have h := exchange_append done (places.map Place.argument ++ used) (answers.map (·.2))
        Argument.pending v
      rw [hsource]
      simpa only [List.append_assoc, List.cons_append, List.nil_append] using h
    have hrest := ih (done ++ [v]) (used ++ [.pending])
    have hlength : (done ++ [v]).length + places.length = done.length + (places.length + 1) := by
      rw [List.length_append, List.length_singleton]
      omega
    have hnext : done.length + (places.length + 1) + (used ++ [Argument.pending]).length =
        done.length + (places.length + 1) + used.length + 1 := by
      rw [List.length_append, List.length_singleton]
      omega
    rw [hlength, hnext, List.length_append, List.length_singleton] at hrest
    show (if done.length + (places.length + 1) ≤ done.length then _
      else exchangeAll (done.length + (places.length + 1))
        ((Place.deferredFrom (done.length + 1) places).map (·.1))
        (done.length + (places.length + 1) + used.length + 1) (exchange
          (done ++ ((.pending :: places.map Place.argument) ++ (used ++ v :: answers.map (·.2))))
          done.length (done.length + (places.length + 1) + used.length))) = _
    rw [if_neg hbound, hmoved, hrest]
    simp only [List.append_assoc, List.cons_append, List.nil_append, List.length_cons,
      List.replicate_succ]

theorem length_deferredFrom {places : List Place} {answers : List (String × Argument)}
    {out : Arguments} (h : Fills places answers out) (start : Nat) :
    (Place.deferredFrom start places).length = answers.length := by
  induction h generalizing start with
  | nil => rfl
  | held a _ ih => exact ih (start + 1)
  | awaited part column v _ ih => exact congrArg (· + 1) (ih (start + 1))

/-- values behind a list with markers end up in their places, behind what is in place already -/
theorem backfill_of_fills {places : List Place} {answers : List (String × Argument)}
    {out : Arguments} (h : Fills places answers out) (done : Arguments) :
    backfill (done ++ places.map Place.argument ++ answers.map (·.2))
        ((Place.deferredFrom done.length places).map (·.1))
        (done ++ places.map Place.argument).length =
      (done ++ out, .ok ()) := by
  have hmoved := exchangeAll_of_fills h done []
  simp only [List.nil_append, List.length_nil, Nat.add_zero, ← List.append_assoc] at hmoved
  have hbefore : (done ++ places.map Place.argument).length = done.length + places.length := by
    rw [List.length_append, List.length_map]
  have hbehind : (done ++ places.map Place.argument ++ answers.map (·.2)).length =
      done.length + places.length + answers.length := by
    rw [List.length_append, hbefore, List.length_map]
  have hkept : ¬ (done ++ places.map Place.argument ++ answers.map (·.2)).length <
      done.length + places.length := by
    rw [hbehind]
    omega
  have hcount : (done ++ places.map Place.argument ++ answers.map (·.2)).length -
      (done.length + places.length) = ((Place.deferredFrom done.length places).map (·.1)).length := by
    rw [hbehind, List.length_map, length_deferredFrom h]
    omega
  have hout : (done ++ out).length = done.length + places.length := by
    rw [List.length_append, h.length_eq]
  unfold backfill
  rw [hbefore, if_neg hkept, if_neg (not_not_intro hcount), hmoved]
  show ((done ++ out ++ _).take _, _) = _
  rw [← hout, List.take_left]

end BoundSql
