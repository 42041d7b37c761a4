import BoundSql.Error

/-!
# Results

* `bind_ok`                        a successful sequence: both parts have succeeded;
* `mapM_cons_ok`, `forall_of_mapM`   a list of results is there when every result is;
* `ok_of_toOption`                 a result that is there as an option.
-/

namespace BoundSql

theorem bind_ok {α β : Type} {x : Except Error α} {f : α → Except Error β} {b : β}
    (h : (x >>= f) = .ok b) : ∃ a, x = .ok a ∧ f a = .ok b := by
  cases x with
  | error e => cases h
  | ok a => exact ⟨a, rfl, h⟩

theorem within_eq_ok {α : Type} {place : String} {x : Except Error α} {a : α}
    (h : within place x = .ok a) : x = .ok a := by
  cases x with
  | error e => cases h
  | ok b => exact h

theorem ok_of_toOption {α : Type} {x : Except Error α} {a : α} (h : x.toOption = some a) :
    x = .ok a := by
  cases x with
  | error e => cases h
  | ok b =>
    cases h
    rfl

theorem mapM_cons_ok {α β : Type} {f : α → Except Error β} {a : α} {as : List α} {bs : List β}
    (h : (a :: as).mapM f = .ok bs) :
    ∃ b bs', f a = .ok b ∧ as.mapM f = .ok bs' ∧ bs = b :: bs' := by
  rw [List.mapM_cons] at h
  obtain ⟨b, hb, h⟩ := bind_ok h
  obtain ⟨bs', hbs, h⟩ := bind_ok h
  cases h
  exact ⟨b, bs', hb, hbs, rfl⟩

theorem cons_mapM_ok {α β : Type} {f : α → Except Error β} {a : α} {as : List α} {b : β}
    {bs : List β} (hb : f a = .ok b) (hbs : as.mapM f = .ok bs) :
    (a :: as).mapM f = .ok (b :: bs) := by
  rw [List.mapM_cons, hb, hbs]
  rfl

theorem forall_of_mapM {α β : Type} {f : α → Except Error β} {P : β → Prop} {as : List α}
    {bs : List β} (h : as.mapM f = .ok bs) (hP : ∀ a ∈ as, ∀ b, f a = .ok b → P b) :
    ∀ b ∈ bs, P b := by
  induction as generalizing bs with
  | nil =>
    cases h
    simp
  | cons a as ih =>
    obtain ⟨b, bs', ha, has, rfl⟩ := mapM_cons_ok h
    intro c hc
    rcases List.mem_cons.mp hc with rfl | hc
    · exact hP a (List.mem_cons_self ..) c ha
    · exact ih has (fun a' h' => hP a' (List.mem_cons_of_mem _ h')) c hc

end BoundSql
