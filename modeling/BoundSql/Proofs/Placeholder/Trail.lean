import BoundSql.Proofs.Placeholder.Inert

/-!
# The pass over a woven text

A text is woven from a cut text and fills for its placeholders.  When no fill opens a quote, the pass
over the woven text stands at every character of the cut text where it stood there before.

* `Quoting.trail`    the characters of a text, each with the state in front of it;
* `substitute`       a trail with the trails of fills for its placeholders;
* `Follows`          what the pass finds in a woven text, with the placeholders of the fills;
* `follows_weave`    it finds so in every text woven with fills that open no quote;
* `Reads`, `reads_weave`   the same for fills without placeholders.
-/

namespace BoundSql

namespace Quoting

/-- the characters of a text, each with the state in front of it -/
def trail (s : Quoting) : Text → List (Quoting × Char)
  | [] => []
  | c :: t => (s, c) :: trail (s.next c) t

theorem trail_cons (s : Quoting) (c : Char) (t : Text) :
    s.trail (c :: t) = (s, c) :: (s.next c).trail t := rfl
theorem trail_append (s : Quoting) (t u : Text) :
    s.trail (t ++ u) = s.trail t ++ (s.after t).trail u := by
  induction t generalizing s with
  | nil => rfl
  | cons c t ih =>
    rw [List.cons_append, trail_cons, trail_cons, ih, after_cons]
    rfl

theorem isMark_iff {s : Quoting} {c : Char} : s.isMark c = true ↔ s = .plain ∧ c = '?' := by
  simp [isMark]

/-- the pass goes on behind a placeholder as in front of it -/
theorem next_mark {s : Quoting} {c : Char} (h : s.isMark c = true) : s = .plain ∧ s.next c = s := by
  obtain ⟨rfl, rfl⟩ := isMark_iff.mp h
  exact ⟨rfl, rfl⟩

end Quoting

namespace Placeholder

/-- the trail with the trails of the fills, each from outside quotes, for its placeholders in order;
everything else stays as it is -/
def substitute : List (Quoting × Char) → List Text → List (Quoting × Char)
  | [], _ => []
  | steps, [] => steps
  | (s, c) :: steps, fill :: fills =>
    if s.isMark c then Quoting.plain.trail fill ++ substitute steps fills
    else (s, c) :: substitute steps (fill :: fills)

section
variable {s : Quoting} {c : Char}

theorem substitute_mark (h : s.isMark c = true) (steps : List (Quoting × Char)) (fill : Text)
    (fills : List Text) :
    substitute ((s, c) :: steps) (fill :: fills) =
      Quoting.plain.trail fill ++ substitute steps fills := by
  rw [substitute, if_pos h]

theorem substitute_nil (steps : List (Quoting × Char)) : substitute steps [] = steps := by
  cases steps <;> rfl

theorem substitute_plain (h : s.isMark c = false) (steps : List (Quoting × Char))
    (fills : List Text) :
    substitute ((s, c) :: steps) fills = (s, c) :: substitute steps fills := by
  cases fills with
  | nil => rw [substitute_nil, substitute_nil]
  | cons fill fills => rw [substitute, if_neg (Bool.eq_false_iff.mp h)]

theorem countFrom_mark (h : s.isMark c = true) (t : Text) :
    countFrom s (c :: t) = countFrom s t + 1 := by
  rw [countFrom_cons, if_pos h, (Quoting.next_mark h).2, Nat.add_comm]

theorem countFrom_plain (h : s.isMark c = false) (t : Text) :
    countFrom s (c :: t) = countFrom (s.next c) t := by
  rw [countFrom_cons, if_neg (Bool.eq_false_iff.mp h), Nat.zero_add]

theorem weave_mark (h : s.isMark c = true) (t fill : Text) (fills : List Text) :
    weave (splitFrom s (c :: t)) (fill :: fills) = fill ++ weave (splitFrom s t) fills := by
  rw [splitFrom_mark h, weave_cons, (Quoting.next_mark h).2]
  rfl

theorem weave_plain (h : s.isMark c = false) (t : Text) (fills : List Text) :
    weave (splitFrom s (c :: t)) fills = c :: weave (splitFrom (s.next c) t) fills := by
  rw [splitFrom_plain h]
  rfl

/-- a fill is read from outside quotes, and the pass is outside quotes behind it -/
theorem after_fill (h : s.isMark c = true) {fill : Text} (hfill : Closed fill) :
    s.after fill = s ∧ s.trail fill = Quoting.plain.trail fill ∧ countFrom s fill = count fill := by
  rw [(Quoting.next_mark h).1]
  exact ⟨hfill, rfl, rfl⟩

end

/-! ## woven texts -/

theorem inert_flatten {ts : List Text} (h : ∀ t ∈ ts, Inert t) : Inert ts.flatten := by
  induction ts with
  | nil => exact inert_nil
  | cons t ts ih =>
    rw [List.flatten_cons]
    exact (h t (List.mem_cons_self ..)).append (ih fun u hu => h u (List.mem_cons_of_mem _ hu))

/-- what the pass finds in a text woven from `sql` and fills, which may hold placeholders again -/
structure Follows (s : Quoting) (sql : Text) (fills : List Text) (woven : Text) : Prop where
  trail : s.trail woven = substitute (s.trail sql) fills
  after : s.after woven = s.after sql
  count : countFrom s woven = Placeholder.count fills.flatten

theorem Follows.mark {s : Quoting} {c : Char} {t fill woven : Text} {fills : List Text}
    (h : s.isMark c = true) (hfill : Closed fill) (hrest : Follows s t fills woven) :
    Follows s (c :: t) (fill :: fills) (fill ++ woven) := by
  have hnext : s.next c = s := (Quoting.next_mark h).2
  obtain ⟨hafter, htrail, hcount⟩ := after_fill h hfill
  constructor
  · rw [Quoting.trail_append, hafter, htrail, hrest.trail, Quoting.trail_cons, substitute_mark h,
      hnext]
  · rw [Quoting.after_append, hafter, hrest.after, Quoting.after_cons, hnext]
  · rw [countFrom_append, hafter, hcount, hrest.count, List.flatten_cons, count_append hfill]

theorem Follows.plain {s : Quoting} {c : Char} {t woven : Text} {fills : List Text}
    (h : s.isMark c = false) (hrest : Follows (s.next c) t fills woven) :
    Follows s (c :: t) fills (c :: woven) := by
  constructor
  · rw [Quoting.trail_cons, hrest.trail, Quoting.trail_cons, substitute_plain h]
  · rw [Quoting.after_cons, hrest.after, Quoting.after_cons]
  · rw [countFrom_plain h, hrest.count]

theorem follows_weave (s : Quoting) (sql : Text) (fills : List Text)
    (hlength : fills.length = countFrom s sql) (hclosed : ∀ fill ∈ fills, Closed fill) :
    Follows s sql fills (weave (splitFrom s sql) fills) := by
  induction sql generalizing s fills with
  | nil =>
    rw [List.length_eq_zero_iff.mp hlength]
    exact ⟨rfl, rfl, rfl⟩
  | cons c t ih =>
    cases h : s.isMark c with
    | true =>
      rw [countFrom_mark h] at hlength
      obtain ⟨fill, fills, rfl⟩ := List.exists_cons_of_length_eq_add_one hlength
      rw [weave_mark h]
      exact .mark h (hclosed fill (List.mem_cons_self ..)) (ih s fills (Nat.succ.inj hlength)
        fun other hother => hclosed other (List.mem_cons_of_mem _ hother))
    | false =>
      rw [countFrom_plain h] at hlength
      rw [weave_plain h]
      exact .plain h (ih _ fills hlength hclosed)

/-- what the pass finds in a text woven from `sql` and fills without placeholders -/
structure Reads (s : Quoting) (sql : Text) (fills : List Text) (woven : Text) : Prop where
  trail : s.trail woven = substitute (s.trail sql) fills
  after : s.after woven = s.after sql
  count : countFrom s woven = 0

theorem reads_weave (s : Quoting) (sql : Text) (fills : List Text)
    (hlength : fills.length = countFrom s sql) (hinert : ∀ fill ∈ fills, Inert fill) :
    Reads s sql fills (weave (splitFrom s sql) fills) := by
  have hfollows := follows_weave s sql fills hlength fun fill hfill => (hinert fill hfill).1
  exact ⟨hfollows.trail, hfollows.after, hfollows.count.trans (inert_flatten hinert).2⟩

end Placeholder

end BoundSql
