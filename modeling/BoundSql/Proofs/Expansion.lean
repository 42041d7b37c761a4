import BoundSql.Proofs.Placeholder.Lexer
import BoundSql.Proofs.Placeholder.Trail
import BoundSql.Proofs.Walk.Condition

/-!
# A placeholder for each value

A text with one placeholder for each argument is brought to one for each value.  Scanned again, it
has exactly these placeholders, and all that stood around them is read as before.

* `Utf8.spread`              the bytes of a character with the states of the pass in front of them;
* `Utf8.trail_octets`        the pass over bytes meets every character in its own state;
* `Argument.Expands`         what takes the place of the placeholder of an argument;
* `repeatMarks_eq_ok_iff`    a text with all its placeholders replaced so;
* `repeated_follows`         what the pass finds in it;
* `templateText_cases`       the two ways to bring a caller's text to its values;
* `template_expanded`        the number of placeholders, and everything else, in both.
-/

namespace BoundSql

open Placeholder

/-! ## the pass over bytes -/

namespace Utf8

/-- the bytes of a text, each as the character with its number -/
def octets (t : Text) : Text := (encode t).map Char.ofUInt8

theorem octets_cons (c : Char) (t : Text) : octets (c :: t) = octets [c] ++ octets t := by
  rw [octets, encode_cons, List.map_append]
  exact congrArg (· ++ octets t) (congrArg (List.map _) (List.append_nil _).symm)

/-- a character brings the pass to the same state as its bytes do -/
theorem after_octets {s : Quoting} (hs : s.Proper) (c : Char) :
    s.after (octets [c]) = s.next c := by
  have hencode : encode [c] = String.utf8EncodeChar c := List.append_nil _
  rw [octets, hencode]
  rcases utf8EncodeChar_cases c with ⟨hlt, hbytes⟩ | ⟨hle, hbytes⟩
  · have hbyte : Char.ofUInt8 (UInt8.ofNat c.toNat) = c := by
      rw [← Char.toNat_inj, toNat_ofUInt8, UInt8.toNat_ofNat', Nat.mod_eq_of_lt (by omega)]
    rw [hbytes, List.map_singleton, hbyte]
    rfl
  · have hbland : Bland ((String.utf8EncodeChar c).map Char.ofUInt8) := by
      intro d hd
      obtain ⟨b, hb, rfl⟩ := List.mem_map.mp hd
      have hidle := isIdle_of_le (c := Char.ofUInt8 b) (by rw [toNat_ofUInt8]; exact hbytes b hb)
      simp only [isIdle, Bool.and_eq_true, Bool.not_eq_true', decide_eq_true_eq] at hidle
      exact ⟨hidle.1.1, hidle.1.2, hidle.2⟩
    rw [Quoting.after_bland hs hbland (by simp), next_idle hs (isIdle_of_le hle)]

/-- the bytes of a character in a text, each with the state in front of it -/
def spread (step : Quoting × Char) : List (Quoting × Char) := step.1.trail (octets [step.2])

theorem trail_octets {s : Quoting} (hs : s.Proper) (t : Text) :
    s.trail (octets t) = (s.trail t).flatMap spread := by
  induction t generalizing s with
  | nil => rfl
  | cons c t ih =>
    rw [octets_cons, Quoting.trail_append, after_octets hs, ih (hs.next c), Quoting.trail_cons,
      List.flatMap_cons]
    rfl

end Utf8

/-! ## placeholders for the values of an argument -/

/-- a placeholder for a scalar and for NULL, one for each value of a list with commas between them,
and NULL for a list without values -/
inductive Argument.Expands : Argument → Text → Prop
  | single {a : Argument} : a.isList = false → Expands a ['?']
  | empty {a : Argument} : a.isList = true → a.length = 0 → Expands a "NULL".toList
  | list {a : Argument} : a.isList = true → a.length ≠ 0 →
      Expands a (Text.separated [','] (List.replicate a.length ['?']))

theorem Argument.expands_iff {a : Argument} {fill : Text} :
    a.Expands fill ↔ argumentMarks a = fill := by
  unfold argumentMarks
  constructor
  · intro h
    cases h with
    | single hlist => rw [hlist, if_neg Bool.false_ne_true]
    | empty hlist hzero => rw [if_pos hlist, if_pos hzero]
    | list hlist hne =>
      rw [if_pos hlist, if_neg hne]
      rfl
  · rintro rfl
    split
    · rename_i hlist
      split
      · exact .empty hlist ‹_›
      · exact .list hlist ‹_›
    · exact .single (Bool.not_eq_true _ ▸ ‹_›)

theorem expands_all_iff {args : Arguments} {fills : List Text} :
    List.Forall₂ Argument.Expands args fills ↔ args.map argumentMarks = fills := by
  induction args generalizing fills with
  | nil => rw [List.forall₂_nil_left_iff, List.map_nil, eq_comm]
  | cons a args ih =>
    rw [List.forall₂_cons_left_iff, List.map_cons]
    constructor
    · rintro ⟨fill, rest, hfill, hrest, rfl⟩
      rw [Argument.expands_iff.mp hfill, ih.mp hrest]
    · rintro rfl
      exact ⟨_, _, Argument.expands_iff.mpr rfl, ih.mpr rfl, rfl⟩

theorem count_flatten_argumentMarks (args : Arguments) :
    count (args.map argumentMarks).flatten = args.slotCount := by
  induction args with
  | nil => rfl
  | cons a args ih =>
    rw [List.map_cons, List.flatten_cons, count_append (closed_argumentMarks a),
      count_argumentMarks, ih, Arguments.slotCount_cons]

/-! ## expanded texts -/

section
variable {sql : Text} {args : Arguments}

theorem repeatMarks_eq_ok_iff {out : Text} :
    repeatMarks sql args = .ok out ↔ count sql = args.length ∧
      out = weave (split sql) (args.map argumentMarks) := by
  unfold repeatMarks
  split
  · rename_i hlength
    rw [Except.ok.injEq, and_iff_right hlength, eq_comm]
  · rename_i hlength
    exact ⟨nofun, fun h => absurd h.1 hlength⟩

theorem repeatMarks_eq_error_iff :
    (∃ e, repeatMarks sql args = .error e) ↔ count sql ≠ args.length := by
  unfold repeatMarks
  split
  · rename_i hlength
    exact ⟨nofun, fun hne => absurd hlength hne⟩
  · rename_i hlength
    exact ⟨fun _ => hlength, fun _ => ⟨_, rfl⟩⟩

/-- the placeholders of the arguments open no quote -/
theorem repeated_follows (hlength : count sql = args.length) :
    Follows .plain sql (args.map argumentMarks)
      (weave (split sql) (args.map argumentMarks)) := by
  refine follows_weave .plain sql _ ((List.length_map ..).trans hlength.symm) fun fill hfill => ?_
  obtain ⟨a, _, rfl⟩ := List.mem_map.mp hfill
  exact closed_argumentMarks a

theorem count_repeated {out : Text} (h : repeatMarks sql args = .ok out) :
    count out = args.slotCount := by
  obtain ⟨hlength, rfl⟩ := repeatMarks_eq_ok_iff.mp h
  exact (repeated_follows hlength).count.trans (count_flatten_argumentMarks args)

/-- a caller's text is taken as it is, expanded, or refused -/
theorem templateText_cases (sql : Text) (args : Arguments) :
    (count sql = args.slotCount ∧ templateText sql args = .ok sql) ∨
    (count sql ≠ args.slotCount ∧ count sql = args.length ∧
      templateText sql args = repeatMarks sql args) ∨
    (count sql ≠ args.slotCount ∧ count sql ≠ args.length ∧
      ∃ e, templateText sql args = .error e) := by
  unfold templateText
  by_cases hslots : count sql = args.slotCount
  · exact .inl ⟨hslots, if_pos hslots⟩
  · by_cases hlength : count sql = args.length
    · exact .inr (.inl ⟨hslots, hlength, (if_neg hslots).trans (if_pos hlength)⟩)
    · exact .inr (.inr ⟨hslots, hlength, _, (if_neg hslots).trans (if_neg hlength)⟩)

theorem count_templateText {text : Text} (h : templateText sql args = .ok text) :
    count text = args.slotCount := by
  rcases templateText_cases sql args with ⟨hslots, heq⟩ | ⟨_, _, heq⟩ | ⟨_, _, e, heq⟩
  · cases heq.symm.trans h
    exact hslots
  · exact count_repeated (heq.symm.trans h)
  · cases heq.symm.trans h

theorem templateText_eq_error_iff :
    (∃ e, templateText sql args = .error e) ↔
      count sql ≠ args.length ∧ count sql ≠ args.slotCount := by
  rcases templateText_cases sql args with ⟨hslots, heq⟩ | ⟨_, hlength, heq⟩ | ⟨hslots, hlength, e, heq⟩
  · rw [heq]
    exact ⟨nofun, fun h => absurd hslots h.2⟩
  · rw [heq, repeatMarks_eq_error_iff]
    exact ⟨fun h => absurd hlength h, fun h => absurd hlength h.1⟩
  · exact ⟨fun _ => ⟨hlength, hslots⟩, fun _ => ⟨e, heq⟩⟩

end

/-- Expanding succeeds where every argument has its own placeholder.  Each of these is replaced by
the placeholders of its argument; the text has one for each value then, and all other characters, and
all their bytes, come in the same order and in the same state of the pass.  A caller's text that is
accepted has one placeholder for each value too, and it is refused only where its placeholders are
neither as many as the arguments nor as many as their values. -/
theorem template_expanded (sql : Text) (args : Arguments) :
    ((∃ out, repeatMarks sql args = .ok out) ↔ count sql = args.length) ∧
    (∀ out, repeatMarks sql args = .ok out → ∃ fills,
      List.Forall₂ Argument.Expands args fills ∧ out = weave (split sql) fills ∧
      count out = args.slotCount ∧
      Quoting.plain.trail out = substitute (Quoting.plain.trail sql) fills ∧
      Quoting.plain.trail (Utf8.octets out) =
        (substitute (Quoting.plain.trail sql) fills).flatMap Utf8.spread ∧
      Quoting.plain.trail (Utf8.octets sql) = (Quoting.plain.trail sql).flatMap Utf8.spread) ∧
    (∀ text, templateText sql args = .ok text → count text = args.slotCount) ∧
    ((∃ e, templateText sql args = .error e) ↔
      count sql ≠ args.length ∧ count sql ≠ args.slotCount) := by
  refine ⟨⟨fun ⟨_, h⟩ => (repeatMarks_eq_ok_iff.mp h).1,
    fun hlength => ⟨_, repeatMarks_eq_ok_iff.mpr ⟨hlength, rfl⟩⟩⟩, fun out h => ?_,
    fun _ => count_templateText, templateText_eq_error_iff⟩
  have hcount := count_repeated h
  obtain ⟨hlength, rfl⟩ := repeatMarks_eq_ok_iff.mp h
  have htrail := (repeated_follows hlength).trail
  refine ⟨_, expands_all_iff.mpr rfl, rfl, hcount, htrail, ?_,
    Utf8.trail_octets (s := .plain) trivial sql⟩
  rw [Utf8.trail_octets (s := .plain) trivial, htrail]

/-! characters of several bytes, a `?` in a string, and all kinds of arguments -/

def ligature : Text := "'?ﬁ' = ö AND a IN (?) OR b = ? OR c IN (?)".toList

def ligatureArgs : Arguments := [.strings ["x", "y"], .null, .ints []]

theorem template_expanded_ligature :
    repeatMarks ligature ligatureArgs =
        .ok "'?ﬁ' = ö AND a IN (?,?) OR b = ? OR c IN (NULL)".toList ∧
      count "'?ﬁ' = ö AND a IN (?,?) OR b = ? OR c IN (NULL)".toList = ligatureArgs.slotCount ∧
      templateText ligature ligatureArgs = .ok ligature ∧
      count ligature = ligatureArgs.slotCount := by
  have hrepeat : repeatMarks ligature ligatureArgs =
      .ok "'?ﬁ' = ö AND a IN (?,?) OR b = ? OR c IN (NULL)".toList := by cbv
  have htemplate : templateText ligature ligatureArgs = .ok ligature := by cbv
  obtain ⟨_, hrepeated, htemplated, _⟩ := template_expanded ligature ligatureArgs
  obtain ⟨_, _, _, hcount, _⟩ := hrepeated _ hrepeat
  exact ⟨hrepeat, hcount, htemplate, htemplated _ htemplate⟩

end BoundSql
