import Mathlib
import BoundSql.Proofs.Interpolated
import BoundSql.Proofs.Walk.Condition

/-!
# Texts with one placeholder for each argument

Where a text has as many placeholders as it is given arguments, every argument stands at its own
placeholder.  There is one exception: the arguments may hold as many values as they are, although
not every one of them holds a single value.  Then the first of the two ways to bind is taken, and the
values stand at the placeholders in order, whichever arguments they come from.

* `listed`, `Argument.StandsAs`    what is written for an argument at its placeholder;
* `argumentTexts_eq_ok_iff`, `render_eq_ok_iff`   the texts that `render` puts in;
* `Argument.Carried`, `Arguments.Apiece`   every argument is bound at its own placeholder;
* `apiece_repeated`                so it is after `repeatMarks`;
* `Arguments.Ambiguous`            the exception, `not_apiece_of_ambiguous`;
* `template_apiece`                the two cases for literals and for values;
* `render_shifted`                 a list of two before an empty one.
-/

namespace BoundSql

open Placeholder

/-! ## literals at a placeholder -/

/-- literals with commas between them, NULL if there are none; but for a single one, in parentheses
unless they are `enclosed` already -/
def listed (enclosed : Bool) : List Text → Text
  | [] => if enclosed then "NULL".toList else "(NULL)".toList
  | [t] => t
  | ts => if enclosed then Text.separated [','] ts else '(' :: Text.separated [','] ts ++ [')']

/-- the literal of a scalar, or the literals of a list, between the texts of `gap` -/
inductive Argument.StandsAs (gap : Text × Text) : Argument → Text → Prop
  | scalar {a : Argument} {t : Text} : a.isList = false → a.literal = .ok t → StandsAs gap a t
  | list {a : Argument} {group : List Text} : a.isList = true → a.Written group →
      StandsAs gap a (listed (isEnclosed gap.1 gap.2) group)

theorem literalList_eq_ok_iff {enclosed : Bool} {items : Arguments} {t : Text} :
    literalList enclosed items = .ok t ↔
      ∃ texts, items.mapM Argument.literal = .ok texts ∧ t = listed enclosed texts := by
  have hlisted : ∀ texts : List Text,
      (if (enclosed || decide (texts.length = 1)) = true then
          if texts = [] then "NULL".toList else Text.separated [','] texts
        else '(' :: (if texts = [] then "NULL".toList else Text.separated [','] texts) ++ [')']) =
        listed enclosed texts := by
    intro texts
    match texts with
    | [] => cases enclosed <;> rfl
    | [_] => cases enclosed <;> rfl
    | _ :: _ :: _ => cases enclosed <;> rfl
  constructor
  · intro h
    obtain ⟨texts, htexts, h⟩ := bind_ok h
    refine ⟨texts, htexts, ?_⟩
    rw [← hlisted]
    simp only at h
    split at h
    · rename_i hone
      cases h
      rw [if_pos hone]
    · rename_i hone
      cases h
      rw [if_neg hone]
  · rintro ⟨texts, htexts, rfl⟩
    rw [literalList, htexts, ← hlisted]
    show (if _ then _ else _) = _
    split <;> rfl

theorem argumentText_eq_ok_iff {a : Argument} {gap : Text × Text} {t : Text} :
    argumentText a gap.1 gap.2 = .ok t ↔ a.StandsAs gap t := by
  unfold argumentText
  constructor
  · intro h
    split at h
    · rename_i hlist
      obtain ⟨values, hvalues, h⟩ := bind_ok h
      obtain ⟨group, hgroup, rfl⟩ := literalList_eq_ok_iff.mp h
      exact .list hlist ⟨values, hvalues, forall₂_of_mapM hgroup⟩
    · rename_i hlist
      exact .scalar (Bool.not_eq_true _ ▸ hlist) h
  · intro h
    cases h with
    | scalar hlist hliteral =>
      rw [hlist, if_neg Bool.false_ne_true]
      exact hliteral
    | list hlist hwritten =>
      obtain ⟨values, hvalues, hgroup⟩ := hwritten
      rw [if_pos hlist, hvalues]
      exact literalList_eq_ok_iff.mpr ⟨_, mapM_eq_ok_iff.mpr hgroup, rfl⟩

theorem argumentTexts_eq_ok_iff {args : Arguments} {gaps : List (Text × Text)} {fills : List Text}
    (hlength : gaps.length = args.length) : argumentTexts args gaps = .ok fills ↔
      List.Forall₂ (fun a fill => a.1.StandsAs a.2 fill) (args.zip gaps) fills := by
  induction args generalizing gaps fills with
  | nil =>
    show Except.ok [] = Except.ok fills ↔ List.Forall₂ _ [] fills
    rw [Except.ok.injEq, List.forall₂_nil_left_iff]
    exact eq_comm
  | cons a args ih =>
    obtain ⟨gap, gaps, rfl⟩ := List.exists_cons_of_length_eq_add_one hlength
    have hrest := Nat.succ.inj hlength
    rw [List.zip_cons_cons, List.forall₂_cons_left_iff]
    constructor
    · intro h
      obtain ⟨fill, hfill, h⟩ := bind_ok h
      obtain ⟨rest, hfills, h⟩ := bind_ok h
      cases h
      exact ⟨fill, rest, argumentText_eq_ok_iff.mp hfill, (ih hrest).mp hfills, rfl⟩
    · rintro ⟨fill, rest, hfill, hfills, rfl⟩
      show (do
        let first ← argumentText a gap.1 gap.2
        let rest ← argumentTexts args gaps
        return first :: rest) = _
      rw [argumentText_eq_ok_iff.mpr hfill, (ih hrest).mpr hfills]
      rfl

/-- the texts put in, value by value or argument by argument -/
theorem render_eq_ok_iff {sql out : Text} {args : Arguments} :
    render sql args = .ok out ↔ ∃ fills, out = weave (split sql) fills ∧
      ((count sql = args.slotCount ∧
          ∃ values, args.flatten = .ok values ∧ values.mapM Argument.literal = .ok fills) ∨
        (count sql ≠ args.slotCount ∧ count sql = args.length ∧
          argumentTexts args (neighbours (split sql)) = .ok fills)) := by
  refine ⟨render_inv, ?_⟩
  rintro ⟨fills, rfl, ⟨hslots, values, hvalues, hfills⟩ | ⟨hslots, hlength, hfills⟩⟩
  · unfold render
    simp only [if_pos hslots, hvalues]
    show (values.mapM Argument.literal >>= _) = _
    rw [hfills]
    rfl
  · unfold render
    simp only [if_neg hslots, if_pos hlength, hfills]
    rfl

/-! ## arguments with a single value -/

/-- what a driver value stands for is no driver value -/
theorem Argument.literal_of_resolve {look : String} {resolved : Except Error Argument}
    {scalar : Argument} (h : resolve look resolved = .ok scalar) :
    scalar.literal = scalar.plainLiteral := by
  obtain ⟨a, _, h⟩ := bind_ok h
  split at h
  · obtain ⟨_, h, _⟩ := bind_ok h
    cases h
  · rename_i hvalue
    cases h
    cases scalar with
    | value identity look resolved => exact absurd rfl hvalue
    | _ => rfl

/-- a scalar has the literal of the one value it stands for -/
theorem Argument.literal_eq_ok_iff {a : Argument} (h : a.isList = false) {t : Text} :
    a.literal = .ok t ↔ ∃ v, a.scalars = .ok [v] ∧ v.literal = .ok t := by
  have hone {scalar : Argument} (hscalars : a.scalars = .ok [scalar])
      (hliteral : a.literal = scalar.literal) :
      a.literal = .ok t ↔ ∃ v, a.scalars = .ok [v] ∧ v.literal = .ok t := by
    rw [hscalars, hliteral]
    refine ⟨fun ht => ⟨scalar, rfl, ht⟩, ?_⟩
    rintro ⟨v, hv, ht⟩
    cases hv
    exact ht
  have hnone {e : Error} (hscalars : a.scalars = .error e) (hliteral : a.literal = .error e) :
      a.literal = .ok t ↔ ∃ v, a.scalars = .ok [v] ∧ v.literal = .ok t := by
    rw [hscalars, hliteral]
    refine ⟨nofun, ?_⟩
    rintro ⟨v, hv, _⟩
    cases hv
  cases a with
  | value identity look resolved =>
    have hscalars : (value identity look resolved).scalars =
        (resolve look resolved).map ([·]) := rfl
    have hliteral : (value identity look resolved).literal =
        resolve look resolved >>= plainLiteral := rfl
    cases hresolved : resolve look resolved with
    | error e =>
      rw [hresolved] at hscalars hliteral
      exact hnone hscalars hliteral
    | ok scalar =>
      rw [hresolved] at hscalars hliteral
      exact hone hscalars (hliteral.trans (literal_of_resolve hresolved).symm)
  | pending => exact hnone rfl rfl
  | bools | ints | floats | strings | bytesList | times => cases h
  | _ => exact hone rfl rfl

/-- a list of one value has the literal of that value, enclosed or not -/
theorem Argument.written_iff {a : Argument} (h : a.slots = 1) {group : List Text} :
    a.Written group ↔ ∃ v t, a.scalars = .ok [v] ∧ v.literal = .ok t ∧ group = [t] := by
  constructor
  · rintro ⟨values, hvalues, hgroup⟩
    obtain ⟨v, rfl⟩ := List.length_eq_one_iff.mp ((length_scalars hvalues).trans h)
    obtain ⟨t, rest, ht, hrest, rfl⟩ := List.forall₂_cons_left_iff.mp hgroup
    rw [List.forall₂_nil_left_iff.mp hrest]
    exact ⟨v, t, hvalues, ht, rfl⟩
  · rintro ⟨v, t, hv, ht, rfl⟩
    exact ⟨[v], hv, .cons ht .nil⟩

/-- what stands for an argument with one value is the literal of that value -/
theorem Argument.standsAs_iff {a : Argument} (h : a.slots = 1) {gap : Text × Text} {t : Text} :
    a.StandsAs gap t ↔ ∃ v, a.scalars = .ok [v] ∧ v.literal = .ok t := by
  constructor
  · intro hstands
    cases hstands with
    | scalar hlist hliteral => exact (literal_eq_ok_iff hlist).mp hliteral
    | list hlist hwritten =>
      obtain ⟨v, t, hv, ht, rfl⟩ := (written_iff h).mp hwritten
      exact ⟨v, hv, ht⟩
  · rintro ⟨v, hv, ht⟩
    cases hlist : a.isList with
    | false => exact .scalar hlist ((literal_eq_ok_iff hlist).mpr ⟨v, hv, ht⟩)
    | true => exact .list hlist ((written_iff h).mpr ⟨v, t, hv, ht, rfl⟩)

/-- arguments with one value each: their values in order stand where the arguments stand -/
theorem literals_flatten_iff {args : Arguments} {gaps : List (Text × Text)} {fills : List Text}
    (hone : ∀ a ∈ args, a.slots = 1) (hlength : gaps.length = args.length) :
    (∃ values, args.flatten = .ok values ∧ values.mapM Argument.literal = .ok fills) ↔
      List.Forall₂ (fun a fill => a.1.StandsAs a.2 fill) (args.zip gaps) fills := by
  induction args generalizing gaps fills with
  | nil =>
    show (∃ values, Except.ok [] = Except.ok values ∧ _) ↔ List.Forall₂ _ [] fills
    rw [List.forall₂_nil_left_iff]
    constructor
    · rintro ⟨values, hvalues, hfills⟩
      cases hvalues
      cases hfills
      rfl
    · rintro rfl
      exact ⟨[], rfl, rfl⟩
  | cons a args ih =>
    obtain ⟨gap, gaps, rfl⟩ := List.exists_cons_of_length_eq_add_one hlength
    obtain ⟨ha, hone⟩ := List.forall_mem_cons.mp hone
    rw [List.zip_cons_cons, List.forall₂_cons_left_iff]
    constructor
    · rintro ⟨values, hvalues, hfills⟩
      obtain ⟨first, hfirst, hvalues⟩ := bind_ok hvalues
      obtain ⟨rest, hrest, hvalues⟩ := bind_ok hvalues
      cases hvalues
      obtain ⟨v, rfl⟩ := List.length_eq_one_iff.mp ((Argument.length_scalars hfirst).trans ha)
      obtain ⟨t, more, ht, hmore, rfl⟩ := mapM_cons_ok hfills
      exact ⟨t, more, (Argument.standsAs_iff ha).mpr ⟨v, hfirst, ht⟩,
        (ih hone (Nat.succ.inj hlength)).mp ⟨rest, hrest, hmore⟩, rfl⟩
    · rintro ⟨t, more, ht, hmore, rfl⟩
      obtain ⟨v, hv, ht⟩ := (Argument.standsAs_iff ha).mp ht
      obtain ⟨rest, hrest, hmore⟩ := (ih hone (Nat.succ.inj hlength)).mpr hmore
      exact ⟨v :: rest, Arguments.flatten_cons_ok hv hrest, cons_mapM_ok ht hmore⟩

/-! ## values at a placeholder -/

theorem argumentMarks_of_slots {a : Argument} (h : a.slots = 1) : argumentMarks a = ['?'] := by
  unfold Argument.slots at h
  unfold argumentMarks
  split
  · rename_i hlist
    rw [if_pos hlist] at h
    rw [h, if_neg one_ne_zero, Comparison.marks_one]
  · rfl

/-- an argument with no value or with several takes more than one character -/
theorem length_argumentMarks (a : Argument) :
    1 ≤ (argumentMarks a).length ∧ (a.slots ≠ 1 → 1 < (argumentMarks a).length) := by
  unfold argumentMarks Argument.slots
  split
  · match a.length with
    | 0 => decide
    | 1 => decide
    | n + 2 =>
      rw [if_neg (Nat.succ_ne_zero _), Comparison.marks_succ, List.length_cons, List.length_cons]
      omega
  · decide

/-- the placeholders of one argument with its own values bound to them -/
structure Argument.Carried (a : Argument) (piece : Walk) : Prop where
  text : piece.text = argumentMarks a
  values : a.scalars = .ok piece.bound
  whole : piece.Whole

theorem Argument.carried_of_scalars {a : Argument} {values : Arguments}
    (h : a.scalars = .ok values) : a.Carried (.bind (argumentMarks a) values) := by
  have hcount : count (argumentMarks a) = values.length :=
    (count_argumentMarks a).trans (length_scalars h).symm
  exact ⟨Walk.text_bind hcount, h.trans (congrArg _ (Walk.bound_bind hcount).symm),
    Walk.whole_bind hcount (closed_argumentMarks a)⟩

/-- the values bound to the placeholders of `text` in order are, at each placeholder of `sql`, those
of its argument -/
def Arguments.Apiece (sql : Text) (args : Arguments) (text : Text) (values : Arguments) : Prop :=
  ∃ pieces, List.Forall₂ Argument.Carried args pieces ∧
    Walk.bind text values = Walk.weave (split sql) pieces

theorem pieces_of_flatten {args values : Arguments} (h : args.flatten = .ok values) :
    ∃ pieces, List.Forall₂ Argument.Carried args pieces ∧ pieces.flatMap Walk.bound = values := by
  induction args generalizing values with
  | nil =>
    cases h
    exact ⟨[], .nil, rfl⟩
  | cons a args ih =>
    obtain ⟨first, hfirst, h⟩ := bind_ok h
    obtain ⟨rest, hrest, h⟩ := bind_ok h
    cases h
    obtain ⟨pieces, hpieces, rfl⟩ := ih hrest
    have hcount := (count_argumentMarks a).trans (Argument.length_scalars hfirst).symm
    refine ⟨_ :: pieces, .cons (Argument.carried_of_scalars hfirst) hpieces, ?_⟩
    rw [List.flatMap_cons, Walk.bound_bind hcount]

theorem texts_of_carried {args : Arguments} {pieces : List Walk}
    (h : List.Forall₂ Argument.Carried args pieces) :
    pieces.map Walk.text = args.map argumentMarks ∧ ∀ p ∈ pieces, p.Whole := by
  induction h with
  | nil => exact ⟨rfl, fun _ hp => absurd hp List.not_mem_nil⟩
  | cons ha _ ih =>
    refine ⟨?_, fun p hp => ?_⟩
    · rw [List.map_cons, List.map_cons, ha.text, ih.1]
    · exact (List.mem_cons.mp hp).elim (fun he => he ▸ ha.whole) (ih.2 p)

section
variable {sql : Text} {args values : Arguments} (hcount : count sql = args.length)
include hcount

/-- with as many placeholders at each place as its argument has values, every argument is bound at
its own place -/
theorem apiece_repeated (hvalues : args.flatten = .ok values) :
    count (weave (split sql) (args.map argumentMarks)) = values.length ∧
      args.Apiece sql (weave (split sql) (args.map argumentMarks)) values := by
  obtain ⟨pieces, hpieces, rfl⟩ := pieces_of_flatten hvalues
  obtain ⟨htexts, hwhole⟩ := texts_of_carried hpieces
  have hlength : pieces.length = count sql := hpieces.length_eq.symm.trans hcount.symm
  have hsound := (Walk.sound_weave (s := .plain) hlength hwhole).1
  have htext : (Walk.weave (split sql) pieces).text = weave (split sql) (args.map argumentMarks) :=
    (Walk.text_weave _ _).trans (congrArg _ htexts)
  have hbound : (Walk.weave (split sql) pieces).bound = pieces.flatMap Walk.bound :=
    Walk.bound_weave _ _ (hlength.trans (length_split sql).symm)
  rw [← htext, ← hbound]
  exact ⟨Walk.countFrom_text hsound, pieces, hpieces, Walk.bind_of_sound hsound⟩

theorem weave_argumentMarks (hone : ∀ a ∈ args, a.slots = 1) :
    weave (split sql) (args.map argumentMarks) = sql := by
  have hmarks : args.map argumentMarks = List.replicate (count sql) ['?'] := by
    rw [hcount, ← List.map_const']
    exact List.map_congr_left fun a ha => argumentMarks_of_slots (hone a ha)
  rw [hmarks]
  exact weave_splitFrom .plain sql

end

/-! ## the exception -/

/-- as many values as arguments, but not one for each -/
def Arguments.Ambiguous (args : Arguments) : Prop :=
  args.slotCount = args.length ∧ ∃ a ∈ args, a.slots ≠ 1

theorem Arguments.slots_of_not_ambiguous {args : Arguments} (h : ¬ args.Ambiguous)
    (hslots : args.slotCount = args.length) : ∀ a ∈ args, a.slots = 1 := by
  intro a ha
  by_contra hne
  exact h ⟨hslots, a, ha, hne⟩

theorem length_weave {cut : Text × List Text} {fills : List Text}
    (h : fills.length = cut.2.length) :
    (weave cut fills).length =
      cut.1.length + (cut.2.map List.length).sum + (fills.map List.length).sum := by
  obtain ⟨first, rest⟩ := cut
  induction rest generalizing first fills with
  | nil =>
    rw [weave_nil, List.length_eq_zero_iff.mp h]
    rfl
  | cons behind rest ih =>
    cases fills with
    | nil => cases h
    | cons fill fills =>
      rw [weave_cons, List.length_append, List.length_append, ih behind (Nat.succ.inj h)]
      simp only [List.map_cons, List.sum_cons]
      omega

section
variable {sql : Text} {args values : Arguments} (hcount : count sql = args.length)
include hcount

/-- the placeholders of lists take room that the text itself does not have -/
theorem length_lt_of_slots (h : ∃ a ∈ args, a.slots ≠ 1) :
    sql.length < (weave (split sql) (args.map argumentMarks)).length := by
  obtain ⟨a, ha, hslots⟩ := h
  have hrest : (split sql).2.length = args.length := (length_split sql).trans hcount
  have hroom : (args.map fun _ => 1).sum <
      (args.map fun a => (argumentMarks a).length).sum :=
    List.sum_lt_sum _ _ (fun b _ => (length_argumentMarks b).1)
      ⟨a, ha, (length_argumentMarks a).2 hslots⟩
  have hsql : sql = weave (split sql) (args.map fun _ => ['?']) := by
    rw [List.map_const', ← hcount]
    exact (weave_splitFrom .plain sql).symm
  have hplain : sql.length = (split sql).1.length + ((split sql).2.map List.length).sum +
      (args.map fun _ => 1).sum := by
    conv_lhs => rw [hsql, length_weave (by rw [List.length_map, hrest]), List.map_map]
    rfl
  rw [length_weave (by rw [List.length_map, hrest]), List.map_map, hplain]
  exact Nat.add_lt_add_left hroom _

theorem templateText_of_not_ambiguous (h : ¬ args.Ambiguous) :
    templateText sql args = .ok (weave (split sql) (args.map argumentMarks)) := by
  unfold templateText repeatMarks
  by_cases hslots : args.slotCount = args.length
  · rw [weave_argumentMarks hcount (args.slots_of_not_ambiguous h hslots)]
    simp only [if_pos (hcount.trans hslots.symm)]
  · have hne : count sql ≠ args.slotCount := fun heq => hslots (heq.symm.trans hcount)
    simp only [if_neg hne, if_pos hcount]

theorem templateText_of_ambiguous (h : args.Ambiguous) : templateText sql args = .ok sql := by
  unfold templateText
  simp only [if_pos (hcount.trans h.1.symm)]

/-- the text as it is has no room for more than one value at a placeholder, or for none -/
theorem not_apiece_of_ambiguous (h : args.Ambiguous) (hvalues : args.flatten = .ok values) :
    count sql = values.length ∧ ¬ args.Apiece sql sql values := by
  have hlength : count sql = values.length :=
    hcount.trans (h.1.symm.trans (Arguments.length_flatten hvalues).symm)
  refine ⟨hlength, ?_⟩
  rintro ⟨pieces, hpieces, hbind⟩
  have htext : sql = weave (split sql) (args.map argumentMarks) := by
    rw [← (texts_of_carried hpieces).1, ← Walk.text_weave, ← hbind, Walk.text_bind hlength]
  exact absurd (congrArg List.length htext) (length_lt_of_slots hcount h.2).ne

theorem render_of_not_ambiguous (h : ¬ args.Ambiguous) {out : Text} :
    render sql args = .ok out ↔ ∃ fills,
      List.Forall₂ (fun a fill => a.1.StandsAs a.2 fill)
        (args.zip (neighbours (split sql))) fills ∧ out = weave (split sql) fills := by
  have hgaps : (neighbours (split sql)).length = args.length := by
    rw [length_neighbours, length_split, hcount]
  rw [render_eq_ok_iff]
  refine exists_congr fun fills => ?_
  rw [and_comm]
  refine and_congr_left fun _ => ?_
  by_cases hslots : args.slotCount = args.length
  · have hone := args.slots_of_not_ambiguous h hslots
    rw [← literals_flatten_iff hone hgaps]
    exact ⟨fun hfills => hfills.elim (·.2) fun hne => absurd (hcount.trans hslots.symm) hne.1,
      fun hfills => .inl ⟨hcount.trans hslots.symm, hfills⟩⟩
  · have hne : count sql ≠ args.slotCount := fun heq => hslots (heq.symm.trans hcount)
    rw [← argumentTexts_eq_ok_iff hgaps]
    exact ⟨fun hfills => hfills.elim (fun heq => absurd heq.1 hne) (·.2.2),
      fun hfills => .inr ⟨hne, hcount, hfills⟩⟩

theorem render_of_ambiguous (h : args.Ambiguous) {out : Text} :
    render sql args = .ok out ↔ ∃ values fills, args.flatten = .ok values ∧
      List.Forall₂ (fun v fill => Argument.literal v = .ok fill) values fills ∧
      out = weave (split sql) fills := by
  have hslots : count sql = args.slotCount := hcount.trans h.1.symm
  rw [render_eq_ok_iff]
  constructor
  · rintro ⟨fills, hout, ⟨_, values, hvalues, hfills⟩ | ⟨hne, _⟩⟩
    · exact ⟨values, fills, hvalues, mapM_eq_ok_iff.mp hfills, hout⟩
    · exact absurd hslots hne
  · rintro ⟨values, fills, hvalues, hfills, hout⟩
    exact ⟨fills, hout, .inl ⟨hslots, values, hvalues, mapM_eq_ok_iff.mpr hfills⟩⟩

end

/-- A text with one placeholder for each argument.  What is written at a placeholder is the literal,
or the list of literals, of its argument; and where values are sent, each place has placeholders for
the values of its argument, and these values are bound to them.  The exception are ambiguous
arguments: their values are written, and bound, one after the other at the placeholders of the text
as it is, and never do they stand at the places of their arguments then. -/
theorem template_apiece {sql : Text} {args : Arguments} (hcount : count sql = args.length) :
    (¬ args.Ambiguous → ∀ out, render sql args = .ok out ↔ ∃ fills,
      List.Forall₂ (fun a fill => a.1.StandsAs a.2 fill)
        (args.zip (neighbours (split sql))) fills ∧ out = weave (split sql) fills) ∧
    (args.Ambiguous → ∀ out, render sql args = .ok out ↔ ∃ values fills,
      args.flatten = .ok values ∧
      List.Forall₂ (fun v fill => Argument.literal v = .ok fill) values fills ∧
      out = weave (split sql) fills) ∧
    ∃ text, templateText sql args = .ok text ∧ (args.Ambiguous → text = sql) ∧
      ∀ values, args.flatten = .ok values →
        count text = values.length ∧ (args.Apiece sql text values ↔ ¬ args.Ambiguous) := by
  refine ⟨fun h _ => render_of_not_ambiguous hcount h, fun h _ => render_of_ambiguous hcount h, ?_⟩
  by_cases h : args.Ambiguous
  · refine ⟨sql, templateText_of_ambiguous hcount h, fun _ => rfl, fun values hvalues => ?_⟩
    obtain ⟨hlength, hnot⟩ := not_apiece_of_ambiguous hcount h hvalues
    exact ⟨hlength, fun hapiece => absurd hapiece hnot, fun hn => absurd h hn⟩
  · refine ⟨_, templateText_of_not_ambiguous hcount h, fun ha => absurd ha h,
      fun values hvalues => ?_⟩
    obtain ⟨hlength, hapiece⟩ := apiece_repeated hcount hvalues
    exact ⟨hlength, fun _ => h, fun _ => hapiece⟩

/-! a list of three, NULL and an empty list; then a list of two before an empty one -/

def mixed : Text := "a IN (?) AND b = ? OR c IN (?)".toList

def mixedArgs : Arguments := [.ints [1, 2, 3], .null, .strings []]

theorem template_apiece_mixed :
    count mixed = mixedArgs.length ∧ ¬ mixedArgs.Ambiguous ∧
      (∃ fills, List.Forall₂ (fun a fill => a.1.StandsAs a.2 fill)
          (mixedArgs.zip (neighbours (split mixed))) fills ∧
        "a IN (1,2,3) AND b = NULL OR c IN (NULL)".toList = weave (split mixed) fills) ∧
      templateText mixed mixedArgs = .ok "a IN (?,?,?) AND b = ? OR c IN (NULL)".toList ∧
      mixedArgs.Apiece mixed "a IN (?,?,?) AND b = ? OR c IN (NULL)".toList
        [.int 1, .int 2, .int 3, .null] := by
  have hcount : count mixed = mixedArgs.length := by decide
  have hapart : ¬ mixedArgs.Ambiguous := fun h => absurd h.1 (by decide)
  have hrender : render mixed mixedArgs =
      .ok "a IN (1,2,3) AND b = NULL OR c IN (NULL)".toList := by cbv
  have htemplate : templateText mixed mixedArgs =
      .ok "a IN (?,?,?) AND b = ? OR c IN (NULL)".toList := by cbv
  obtain ⟨hliterals, _, text, htext, _, hbound⟩ := template_apiece hcount
  cases htext.symm.trans htemplate
  exact ⟨hcount, hapart, (hliterals hapart _).mp hrender, htemplate,
    (hbound _ rfl).2.mpr hapart⟩

def shifted : Text := "a IN (?) AND b IN (?)".toList

def shiftedArgs : Arguments := [.ints [1, 2], .ints []]

theorem render_shifted :
    count shifted = shiftedArgs.length ∧
      render shifted shiftedArgs = .ok "a IN (1) AND b IN (2)".toList ∧
      (¬ ∃ fills, List.Forall₂ (fun a fill => a.1.StandsAs a.2 fill)
          (shiftedArgs.zip (neighbours (split shifted))) fills ∧
        "a IN (1) AND b IN (2)".toList = weave (split shifted) fills) ∧
      templateText shifted shiftedArgs = .ok shifted ∧
      shiftedArgs.flatten = .ok [.int 1, .int 2] ∧
      ¬ shiftedArgs.Apiece shifted shifted [.int 1, .int 2] := by
  have hcount : count shifted = shiftedArgs.length := by decide
  have hempty : .ints [] ∈ shiftedArgs := List.mem_cons_of_mem _ (List.mem_cons_self ..)
  have hambiguous : shiftedArgs.Ambiguous := ⟨rfl, .ints [], hempty, by decide⟩
  refine ⟨hcount, by cbv, ?_, templateText_of_ambiguous hcount hambiguous, rfl,
    (not_apiece_of_ambiguous hcount hambiguous rfl).2⟩
  rintro ⟨fills, hfills, hout⟩
  have hgaps : (neighbours (split shifted)).length = shiftedArgs.length := by decide
  have htexts : argumentTexts shiftedArgs (neighbours (split shifted)) =
      .ok ["1,2".toList, "NULL".toList] := by cbv
  cases htexts.symm.trans ((argumentTexts_eq_ok_iff hgaps).mpr hfills)
  revert hout
  decide

end BoundSql
