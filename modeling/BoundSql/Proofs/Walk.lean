import BoundSql.Argument
import BoundSql.Operator
import BoundSql.Proofs.Placeholder.Inert

/-!
# Walks

A walk writes a statement and binds its arguments in one go: every placeholder is written together
with the value that belongs there.  What is sent as text and what is sent as arguments are its two
projections.

* `Argument.members`   the values of an argument, markers and driver values as they are;
* `Symbol`, `Walk`     characters, and placeholders with their values;
* `Walk.text`, `Walk.bound`   the two projections;
* `Walk.cut`           the text cut at the placeholders that the walk has written;
* `Walk.Sound`         the placeholders of the text are those of the walk (`splitFrom_text`);
* `Walk.weave`, `Walk.bind`   walks, or values, in the places of the placeholders of a text;
* `Walk.bind_of_sound` a sound walk is its text with its values bound in order;
* `Walk.separated`     walks with a text between neighbours.
-/

namespace BoundSql

/-- the values of an argument one by one; a marker or a driver value is not looked into -/
def Argument.members : Argument → Arguments
  | .bools vs => vs.map .bool
  | .ints vs => vs.map .int
  | .floats vs => vs.map .float
  | .strings vs => vs.map .string
  | .bytesList vs => vs.map .bytes
  | .times vs => vs.map .time
  | a => [a]

theorem Argument.length_members (a : Argument) : a.members.length = a.slots := by
  cases a <;> simp [members, slots, isList, length]

/-- a value that takes one placeholder -/
def IsScalar (a : Argument) : Prop := a.isList = false

instance (a : Argument) : Decidable (IsScalar a) := inferInstanceAs (Decidable (_ = _))

theorem Argument.members_of_isScalar {a : Argument} (h : IsScalar a) : a.members = [a] := by
  cases a <;> first | rfl | cases h

theorem Arguments.length_members (as : Arguments) :
    (as.flatMap Argument.members).length = as.slotCount := by
  induction as with
  | nil => rfl
  | cons a as ih =>
    rw [List.flatMap_cons, List.length_append, ih, Argument.length_members, slotCount_cons]

theorem Arguments.members_of_scalars {as : Arguments} (h : ∀ a ∈ as, IsScalar a) :
    as.flatMap Argument.members = as := by
  induction as with
  | nil => rfl
  | cons a as ih =>
    rw [List.flatMap_cons, Argument.members_of_isScalar (h a (List.mem_cons_self ..)),
      ih fun b hb => h b (List.mem_cons_of_mem _ hb)]
    rfl

/-- a character of a statement, or a placeholder with the value bound to it -/
inductive Symbol where
  | char (c : Char)
  | mark (a : Argument)

abbrev Walk := List Symbol

namespace Symbol

def text : Symbol → Char
  | .char c => c
  | .mark _ => '?'

def bound? : Symbol → Option Argument
  | .char _ => none
  | .mark a => some a

end Symbol

namespace Walk

/-! ## the two projections -/

/-- the statement with a `?` for each placeholder -/
def text (w : Walk) : Text := w.map Symbol.text

/-- the values bound, in the order of their placeholders -/
def bound (w : Walk) : Arguments := w.filterMap Symbol.bound?

/-- a text without placeholders -/
def literal (t : Text) : Walk := t.map .char

theorem text_nil : text [] = [] := rfl
theorem text_append (w v : Walk) : text (w ++ v) = text w ++ text v := List.map_append
theorem bound_append (w v : Walk) : bound (w ++ v) = bound w ++ bound v := List.filterMap_append

theorem text_literal (t : Text) : text (literal t) = t := by
  induction t with
  | nil => rfl
  | cons c t ih => exact congrArg (c :: ·) ih

theorem bound_literal (t : Text) : bound (literal t) = [] := by
  induction t with
  | nil => rfl
  | cons c t ih => exact ih

/-- the text before the first placeholder, and the texts behind each of them -/
def cut : Walk → Text × List Text
  | [] => ([], [])
  | .char c :: w => (c :: (cut w).1, (cut w).2)
  | .mark _ :: w => ([], (cut w).1 :: (cut w).2)

/-! ## soundness -/

/-- read from state `s`, the characters hold no placeholder and the placeholders stand outside
quotes -/
def Sound (s : Quoting) : Walk → Prop
  | [] => True
  | .char c :: w => s.isMark c = false ∧ Sound (s.next c) w
  | .mark _ :: w => s = .plain ∧ Sound .plain w

theorem sound_append (s : Quoting) (w v : Walk) :
    Sound s (w ++ v) ↔ Sound s w ∧ Sound (s.after w.text) v := by
  induction w generalizing s with
  | nil => exact (Iff.of_eq (true_and _)).symm
  | cons x w ih =>
    cases x with
    | char c =>
      show s.isMark c = false ∧ Sound (s.next c) (w ++ v) ↔ _
      rw [ih, ← and_assoc]
      rfl
    | mark a =>
      show s = .plain ∧ Sound .plain (w ++ v) ↔ (s = .plain ∧ Sound .plain w) ∧ _
      rw [ih, and_assoc]
      constructor
      · rintro ⟨rfl, hw, hv⟩
        exact ⟨rfl, hw, hv⟩
      · rintro ⟨rfl, hw, hv⟩
        exact ⟨rfl, hw, hv⟩

theorem sound_literal {s : Quoting} {t : Text} (h : Placeholder.countFrom s t = 0) :
    Sound s (literal t) := by
  induction t generalizing s with
  | nil => trivial
  | cons c t ih =>
    rw [Placeholder.countFrom_cons] at h
    refine ⟨?_, ih (by omega)⟩
    cases hm : s.isMark c with
    | false => rfl
    | true => rw [hm] at h; simp at h

/-- the placeholders of the text are the ones that the walk has written -/
theorem splitFrom_text {s : Quoting} {w : Walk} (h : w.Sound s) :
    Placeholder.splitFrom s w.text = w.cut := by
  induction w generalizing s with
  | nil => rfl
  | cons x w ih =>
    cases x with
    | char c =>
      obtain ⟨hc, hw⟩ := h
      show Placeholder.splitFrom s (c :: text w) = _
      rw [Placeholder.splitFrom_plain hc, ih hw]
      rfl
    | mark a =>
      obtain ⟨rfl, hw⟩ := h
      show Placeholder.splitFrom .plain ('?' :: text w) = _
      rw [Placeholder.splitFrom_mark rfl, show Quoting.plain.next '?' = .plain from rfl, ih hw]
      rfl

theorem length_cut (w : Walk) : w.cut.2.length = w.bound.length := by
  induction w with
  | nil => rfl
  | cons x w ih =>
    cases x with
    | char c => exact ih
    | mark a => exact congrArg (· + 1) ih

theorem countFrom_text {s : Quoting} {w : Walk} (h : w.Sound s) :
    Placeholder.countFrom s w.text = w.bound.length := by
  rw [← Placeholder.length_splitFrom, splitFrom_text h, length_cut]

/-- a walk that can stand anywhere outside quotes -/
structure Whole (w : Walk) : Prop where
  sound : w.Sound .plain
  closed : Placeholder.Closed w.text

theorem Whole.append {w v : Walk} (hw : w.Whole) (hv : v.Whole) : (w ++ v).Whole where
  sound := (sound_append _ w v).mpr ⟨hw.sound, by rw [hw.closed]; exact hv.sound⟩
  closed := by
    rw [text_append]
    exact hw.closed.append hv.closed

theorem whole_literal {t : Text} (h : Placeholder.Inert t) : (literal t).Whole where
  sound := sound_literal h.2
  closed := by
    rw [text_literal]
    exact h.1

def parenthesized (w : Walk) : Walk := literal ['('] ++ w ++ literal [')']

theorem text_parenthesized (w : Walk) :
    w.parenthesized.text = Comparison.parenthesized w.text := by
  rw [parenthesized, text_append, text_append]
  rfl

theorem bound_parenthesized (w : Walk) : w.parenthesized.bound = w.bound := by
  rw [parenthesized, bound_append, bound_append]
  exact List.append_nil _

theorem whole_parenthesized {w : Walk} (h : w.Whole) : w.parenthesized.Whole :=
  ((whole_literal (by decide)).append h).append (whole_literal (by decide))

theorem whole_mark (a : Argument) : Whole [.mark a] := ⟨⟨rfl, trivial⟩, rfl⟩

/-! ## filling in the placeholders of a text -/

/-- every fill in front of its own piece, as far as both lists go -/
def fillIn : List Text → List Walk → Walk
  | behind :: rest, fill :: fills => fill ++ literal behind ++ fillIn rest fills
  | _, _ => []

/-- cut text with walks in the places of the placeholders -/
def weave (cut : Text × List Text) (fills : List Walk) : Walk := literal cut.1 ++ fillIn cut.2 fills

theorem weave_nil (first : Text) (fills : List Walk) : weave (first, []) fills = literal first := by
  simp [weave, fillIn]
theorem weave_cons (first behind : Text) (rest : List Text) (fill : Walk) (fills : List Walk) :
    weave (first, behind :: rest) (fill :: fills) =
      literal first ++ fill ++ weave (behind, rest) fills := by
  simp [weave, fillIn, List.append_assoc]

theorem text_weave (cut : Text × List Text) (fills : List Walk) :
    (weave cut fills).text = Placeholder.weave cut (fills.map text) := by
  obtain ⟨first, rest⟩ := cut
  induction rest generalizing first fills with
  | nil => rw [weave_nil, text_literal, Placeholder.weave_nil]
  | cons behind rest ih =>
    cases fills with
    | nil => simp [weave, fillIn, Placeholder.weave, Placeholder.fillIn, text_literal]
    | cons fill fills =>
      rw [weave_cons, text_append, text_append, text_literal, ih, List.map_cons,
        Placeholder.weave_cons]

theorem bound_weave (cut : Text × List Text) (fills : List Walk)
    (h : fills.length = cut.2.length) : (weave cut fills).bound = fills.flatMap bound := by
  obtain ⟨first, rest⟩ := cut
  induction rest generalizing first fills with
  | nil =>
    rw [weave_nil, bound_literal, List.length_eq_zero_iff.mp h]
    rfl
  | cons behind rest ih =>
    cases fills with
    | nil => cases h
    | cons fill fills =>
      rw [weave_cons, bound_append, bound_append, bound_literal, List.nil_append,
        ih fills behind (Nat.succ.inj h), List.flatMap_cons]

theorem sound_weave {s : Quoting} {sql : Text} {fills : List Walk}
    (h : fills.length = Placeholder.countFrom s sql) (hf : ∀ f ∈ fills, f.Whole) :
    (weave (Placeholder.splitFrom s sql) fills).Sound s ∧
      s.after (weave (Placeholder.splitFrom s sql) fills).text = s.after sql := by
  induction sql generalizing s fills with
  | nil => exact ⟨trivial, rfl⟩
  | cons c sql ih =>
    rw [Placeholder.countFrom_cons] at h
    cases hm : s.isMark c with
    | false =>
      rw [hm, if_neg Bool.false_ne_true, Nat.zero_add] at h
      rw [Placeholder.splitFrom_plain hm]
      obtain ⟨hsound, hafter⟩ := ih h hf
      exact ⟨⟨hm, hsound⟩, hafter⟩
    | true =>
      obtain ⟨rfl, rfl⟩ : s = .plain ∧ c = '?' := by simpa [Quoting.isMark] using hm
      rw [hm, if_pos rfl] at h
      cases fills with
      | nil =>
        rw [List.length_nil] at h
        omega
      | cons fill fills =>
        have hfill := hf fill (List.mem_cons_self ..)
        obtain ⟨hsound, hafter⟩ := @ih .plain fills
          (by rw [List.length_cons, Nat.add_comm] at h; exact Nat.add_left_cancel h)
          (fun f h' => hf f (List.mem_cons_of_mem _ h'))
        rw [Placeholder.splitFrom_mark rfl, weave_cons]
        show Sound .plain (fill ++ weave (Placeholder.splitFrom .plain sql) fills) ∧
          Quoting.plain.after (text (fill ++ weave (Placeholder.splitFrom .plain sql) fills)) = _
        rw [sound_append, text_append, Quoting.after_append, hfill.closed]
        exact ⟨⟨hfill.sound, hsound⟩, hafter⟩

theorem whole_weave {sql : Text} (hsql : Placeholder.Closed sql) {fills : List Walk}
    (h : fills.length = Placeholder.count sql) (hf : ∀ f ∈ fills, f.Whole) :
    (weave (Placeholder.split sql) fills).Whole := by
  obtain ⟨hsound, hafter⟩ := sound_weave h hf
  exact ⟨hsound, hafter.trans hsql⟩

/-- the text with the values bound to its placeholders in order -/
def bind (sql : Text) (values : Arguments) : Walk :=
  weave (Placeholder.split sql) (values.map fun a => [.mark a])

section
variable {sql : Text} {values : Arguments} (h : Placeholder.count sql = values.length)
include h

theorem text_bind : (bind sql values).text = sql := by
  have hmarks : (values.map fun a => [Symbol.mark a]).map text =
      List.replicate (Placeholder.count sql) ['?'] := by
    rw [h, List.map_map]
    show values.map (fun _ => ['?']) = _
    exact List.map_const'
  rw [bind, text_weave, hmarks]
  exact Placeholder.weave_splitFrom .plain sql

theorem bound_bind : (bind sql values).bound = values := by
  rw [bind, bound_weave _ _ (by rw [List.length_map, Placeholder.length_split, h]),
    List.flatMap_map]
  exact List.flatMap_singleton' values

theorem whole_bind (hsql : Placeholder.Closed sql) : (bind sql values).Whole := by
  refine whole_weave hsql (by rw [List.length_map, h]) ?_
  intro f hf
  obtain ⟨a, _, rfl⟩ := List.mem_map.mp hf
  exact whole_mark a

end

theorem weave_cut (w : Walk) : weave w.cut (w.bound.map fun a => [.mark a]) = w := by
  induction w with
  | nil => rfl
  | cons x w ih =>
    cases x with
    | char c => exact congrArg (Symbol.char c :: ·) ih
    | mark a =>
      show weave ([], (cut w).1 :: (cut w).2) ([.mark a] :: (bound w).map fun a => [.mark a]) = _
      rw [weave_cons, ih]
      rfl

/-- the values bound in order to the placeholders of the text stand where the walk has put them -/
theorem bind_of_sound {w : Walk} (h : w.Sound .plain) : bind w.text w.bound = w := by
  rw [bind, Placeholder.split, splitFrom_text h, weave_cut]

/-- a text without placeholders binds nothing, whatever is offered -/
theorem bind_of_count_zero {sql : Text} (h : Placeholder.count sql = 0) (values : Arguments) :
    bind sql values = bind sql [] := by
  have hrest : (Placeholder.split sql).2 = [] := by
    rw [← List.length_eq_zero_iff, Placeholder.length_split, h]
  unfold bind weave
  rw [hrest]
  simp [fillIn]

/-! ## lists of walks -/

/-- the walks in order with the text `sep` between neighbours -/
def separated (sep : Text) : List Walk → Walk
  | [] => []
  | [w] => w
  | w :: v :: vs => w ++ literal sep ++ separated sep (v :: vs)

theorem separated_cons (sep : Text) (w v : Walk) (vs : List Walk) :
    separated sep (w :: v :: vs) = w ++ literal sep ++ separated sep (v :: vs) := rfl

theorem text_separated (sep : Text) (ws : List Walk) :
    (separated sep ws).text = Text.separated sep (ws.map text) := by
  induction ws with
  | nil => rfl
  | cons w ws ih =>
    cases ws with
    | nil => rfl
    | cons v vs =>
      rw [separated_cons, text_append, text_append, text_literal, ih]
      rfl

theorem bound_separated (sep : Text) (ws : List Walk) :
    (separated sep ws).bound = ws.flatMap bound := by
  induction ws with
  | nil => rfl
  | cons w ws ih =>
    cases ws with
    | nil => exact (List.append_nil _).symm
    | cons v vs =>
      rw [separated_cons, bound_append, bound_append, bound_literal, List.append_nil, ih]
      rfl

theorem whole_separated {sep : Text} (hsep : Placeholder.Inert sep) {ws : List Walk}
    (h : ∀ w ∈ ws, w.Whole) : (separated sep ws).Whole := by
  induction ws with
  | nil => exact whole_literal Placeholder.inert_nil
  | cons w ws ih =>
    have hw := h w (List.mem_cons_self ..)
    cases ws with
    | nil => exact hw
    | cons v vs =>
      rw [separated_cons]
      exact (hw.append (whole_literal hsep)).append (ih fun u hu => h u (List.mem_cons_of_mem _ hu))

theorem whole_flatten {ws : List Walk} (h : ∀ w ∈ ws, w.Whole) : Whole ws.flatten := by
  induction ws with
  | nil => exact whole_literal Placeholder.inert_nil
  | cons w ws ih =>
    rw [List.flatten_cons]
    exact (h w (List.mem_cons_self ..)).append (ih fun u hu => h u (List.mem_cons_of_mem _ hu))

theorem text_flatten (ws : List Walk) : text ws.flatten = (ws.map text).flatten := List.map_flatten

theorem bound_flatten (ws : List Walk) : bound ws.flatten = ws.flatMap bound := by
  induction ws with
  | nil => rfl
  | cons w ws ih => rw [List.flatten_cons, bound_append, ih, List.flatMap_cons]

end Walk

end BoundSql
