import BoundSql.Text

/-!
# Placeholders of a statement text

A `?` is a placeholder unless it stands in a string literal or in a quoted name.  One pass over
the characters with three states decides it.

* `Quoting`              where the pass stands: outside, inside a quote, or behind a backslash in it;
* `Quoting.after`        the state behind a text;
* `Closed`               a text that leaves the pass outside when it starts outside;
* `positions`, `count`   the byte offsets of the placeholders, and their number;
* `split`                the text cut at its placeholders;
* `weave`                cut text put together again with other texts for the placeholders.
-/

namespace BoundSql

/-- where the pass over a statement text stands between two characters -/
inductive Quoting where
  | plain
  | inside (quote : Char)
  /-- behind a backslash inside a string opened by `quote` -/
  | escaped (quote : Char)
  deriving DecidableEq, Repr

namespace Quoting

def isQuote (c : Char) : Bool := c = '\'' || c = '"' || c = '`'

/-- one character on; a backslash escapes in strings and is ordinary in backtick names -/
def next : Quoting → Char → Quoting
  | .plain, c => if isQuote c then .inside c else .plain
  | .inside q, c =>
    if c = '\\' ∧ q ≠ '`' then .escaped q else if c = q then .plain else .inside q
  | .escaped q, _ => .inside q

def after (s : Quoting) (t : Text) : Quoting := t.foldl next s

theorem after_nil (s : Quoting) : s.after [] = s := rfl
theorem after_cons (s : Quoting) (c : Char) (t : Text) : s.after (c :: t) = (s.next c).after t := rfl
theorem after_append (s : Quoting) (t u : Text) : s.after (t ++ u) = (s.after t).after u := by
  simp [after, List.foldl_append]

def isMark (s : Quoting) (c : Char) : Bool := s = .plain && c = '?'

end Quoting

namespace Placeholder

/-- a text that neither opens a quote for what follows nor ends behind a backslash -/
def Closed (t : Text) : Prop := Quoting.plain.after t = .plain

instance (t : Text) : Decidable (Closed t) := inferInstanceAs (Decidable (_ = _))

theorem closed_nil : Closed [] := rfl
theorem Closed.append {t u : Text} (ht : Closed t) (hu : Closed u) : Closed (t ++ u) := by
  unfold Closed at *
  rw [Quoting.after_append, ht, hu]

/-! ## positions -/

/-- byte offsets of the placeholders of a text that starts at `offset` in state `s` -/
def positionsFrom (s : Quoting) (offset : Nat) : Text → List Nat
  | [] => []
  | c :: t =>
    let later := positionsFrom (s.next c) (offset + c.utf8Size) t
    if s.isMark c then offset :: later else later

def positions (t : Text) : List Nat := positionsFrom .plain 0 t

def countFrom (s : Quoting) : Text → Nat
  | [] => 0
  | c :: t => (if s.isMark c then 1 else 0) + countFrom (s.next c) t

def count (t : Text) : Nat := countFrom .plain t

theorem countFrom_nil (s : Quoting) : countFrom s [] = 0 := rfl
theorem countFrom_cons (s : Quoting) (c : Char) (t : Text) :
    countFrom s (c :: t) = (if s.isMark c then 1 else 0) + countFrom (s.next c) t := rfl

theorem countFrom_append (s : Quoting) (t u : Text) :
    countFrom s (t ++ u) = countFrom s t + countFrom (s.after t) u := by
  induction t generalizing s with
  | nil => simp [countFrom_nil, Quoting.after_nil]
  | cons c t ih => rw [List.cons_append, countFrom_cons, countFrom_cons, ih, Quoting.after_cons]; omega

theorem length_positionsFrom (s : Quoting) (offset : Nat) (t : Text) :
    (positionsFrom s offset t).length = countFrom s t := by
  induction t generalizing s offset with
  | nil => rfl
  | cons c t ih =>
    have := ih (s.next c) (offset + c.utf8Size)
    rw [countFrom_cons, positionsFrom]
    split
    · rw [List.length_cons]
      omega
    · omega

theorem length_positions (t : Text) : (positions t).length = count t :=
  length_positionsFrom .plain 0 t

/-! ## cutting and weaving -/

/-- the text before the first placeholder, and the texts behind each of them -/
def splitFrom (s : Quoting) : Text → Text × List Text
  | [] => ([], [])
  | c :: t =>
    let (first, rest) := splitFrom (s.next c) t
    if s.isMark c then ([], first :: rest) else (c :: first, rest)

def split (t : Text) : Text × List Text := splitFrom .plain t

theorem splitFrom_mark {s : Quoting} {c : Char} (h : s.isMark c) (t : Text) :
    splitFrom s (c :: t) = ([], (splitFrom (s.next c) t).1 :: (splitFrom (s.next c) t).2) := by
  simp [splitFrom, h]

theorem splitFrom_plain {s : Quoting} {c : Char} (h : s.isMark c = false) (t : Text) :
    splitFrom s (c :: t) = (c :: (splitFrom (s.next c) t).1, (splitFrom (s.next c) t).2) := by
  simp [splitFrom, h]

theorem length_splitFrom (s : Quoting) (t : Text) : (splitFrom s t).2.length = countFrom s t := by
  induction t generalizing s with
  | nil => rfl
  | cons c t ih =>
    rw [countFrom_cons, ← ih]
    cases h : s.isMark c with
    | false => simp [splitFrom_plain h]
    | true => simp [splitFrom_mark h, Nat.add_comm]

theorem length_split (t : Text) : (split t).2.length = count t := length_splitFrom .plain t

/-- every fill in front of its own piece, as far as both lists go -/
def fillIn : List Text → List Text → Text
  | behind :: rest, fill :: fills => fill ++ behind ++ fillIn rest fills
  | _, _ => []

/-- cut text with `fills` in the places of the placeholders -/
def weave (cut : Text × List Text) (fills : List Text) : Text := cut.1 ++ fillIn cut.2 fills

theorem weave_nil (first : Text) (fills : List Text) : weave (first, []) fills = first := by
  simp [weave, fillIn]
theorem weave_cons (first behind fill : Text) (rest fills : List Text) :
    weave (first, behind :: rest) (fill :: fills) = first ++ fill ++ weave (behind, rest) fills := by
  simp [weave, fillIn, List.append_assoc]

theorem weave_splitFrom (s : Quoting) (t : Text) :
    weave (splitFrom s t) (List.replicate (countFrom s t) ['?']) = t := by
  induction t generalizing s with
  | nil => rfl
  | cons c t ih =>
    rw [countFrom_cons]
    cases h : s.isMark c with
    | true =>
      have hc : c = '?' := by
        simp only [Quoting.isMark, Bool.and_eq_true, decide_eq_true_eq] at h
        exact h.2
      rw [splitFrom_mark h, if_pos rfl, Nat.add_comm, List.replicate_succ, weave_cons, ih, hc]
      rfl
    | false =>
      rw [splitFrom_plain h, if_neg Bool.false_ne_true, Nat.zero_add]
      show c :: weave (splitFrom (s.next c) t) _ = c :: t
      rw [ih]

def neighbours (cut : Text × List Text) : List (Text × Text) := (cut.1 :: cut.2).zip cut.2

theorem length_neighbours (cut : Text × List Text) : (neighbours cut).length = cut.2.length := by
  simp [neighbours]

end Placeholder

end BoundSql
