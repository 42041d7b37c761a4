import BoundSql.Proofs.Identifier.Grammar
import BoundSql.Proofs.Placeholder.Trail

/-!
# Quoted identifiers

Whatever its names contain, an identifier is written so that it is read back, and so that nothing of
it gets out of its backticks.

* `Valid`               the identifiers that are read from some text;
* `spells_text`, `valid_of_spells`   they are written in the grammar, and no others are read;
* `parseWith_text`      an identifier is read back from its text;
* `Placeholder.outside` the characters of a text outside backticks;
* `outside_text`        those of an identifier: the points and a last `*`;
* `quote_round_trip`    all of it, and that quoting twice is quoting once.
-/

namespace BoundSql

theorem Text.mem_separated {sep : Text} {c : Char} {ts : List Text}
    (h : c ∈ Text.separated sep ts) : c ∈ sep ∨ ∃ t ∈ ts, c ∈ t := by
  induction ts with
  | nil => cases h
  | cons t ts ih =>
    cases ts with
    | nil => exact .inr ⟨t, List.mem_cons_self .., h⟩
    | cons u us =>
      rw [Text.separated_cons, List.mem_append, List.mem_append] at h
      rcases h with (h | h) | h
      · exact .inr ⟨t, List.mem_cons_self .., h⟩
      · exact .inl h
      · rcases ih h with h | ⟨v, hv, hc⟩
        · exact .inl h
        · exact .inr ⟨v, List.mem_cons_of_mem _ hv, hc⟩

namespace Identifier

variable {letter : Char → Bool}

/-- there are parts, names are neither empty nor hold NUL, and only the last part may be `*` -/
structure Valid (id : Identifier) : Prop where
  nonempty : id.parts ≠ []
  names : ∀ name, .name name ∈ id.parts → name ≠ [] ∧ '\x00' ∉ name
  star_last : .star ∉ id.parts.dropLast

/-! ## written and read back -/

theorem Part.spelled_text {p : Part} (h : ∀ name, p = .name name → name ≠ []) :
    p.Spelled letter p.text := by
  cases p with
  | name name => exact .quoted (h name rfl)
  | star => exact .star

theorem text_cons (p q : Part) (ps : List Part) :
    text ⟨p :: q :: ps⟩ = p.text ++ '.' :: text ⟨q :: ps⟩ := by
  show Text.separated ['.'] (p.text :: q.text :: ps.map Part.text) = _
  rw [Text.separated_cons, List.append_assoc]
  rfl

theorem spells_text {ps : List Part} (hne : ps ≠ [])
    (hnames : ∀ name, .name name ∈ ps → name ≠ []) (hstar : .star ∉ ps.dropLast) :
    Spells letter ps (text ⟨ps⟩) := by
  induction ps with
  | nil => exact absurd rfl hne
  | cons p ps ih =>
    have hp : p.Spelled letter p.text := Part.spelled_text fun name hname =>
      hnames name (hname ▸ List.mem_cons_self ..)
    cases ps with
    | nil => exact .last hp
    | cons q ps =>
      rw [List.dropLast_cons_of_ne_nil (List.cons_ne_nil q ps), List.mem_cons, not_or] at hstar
      rw [text_cons]
      refine .cons hp (Ne.symm hstar.1) (ih (List.cons_ne_nil q ps) ?_ hstar.2)
      exact fun name hname => hnames name (List.mem_cons_of_mem _ hname)

theorem mem_quotedName {c : Char} {name : Text} (h : c ∈ name) : c ∈ quotedName name := by
  have hc : c ∈ quotedChar c := by
    unfold quotedChar
    split <;> simp [*]
  simp only [quotedName, List.cons_append, List.mem_cons, List.mem_append, List.mem_flatMap]
  exact .inr (.inl ⟨c, h, hc⟩)

theorem mem_of_mem_quotedName {c : Char} {name : Text} (h : c ∈ quotedName name) :
    c = '`' ∨ c ∈ name := by
  simp only [quotedName, List.cons_append, List.mem_cons, List.mem_append, List.mem_flatMap,
    List.not_mem_nil, or_false] at h
  rcases h with h | ⟨d, hd, h⟩ | h
  · exact .inl h
  · unfold quotedChar at h
    split at h
    · exact .inl (by simpa using h)
    · exact .inr (List.mem_singleton.mp h ▸ hd)
  · exact .inl h

theorem Part.Spelled.name {name t : Text} (h : (Part.name name).Spelled letter t) :
    name ≠ [] ∧ ∀ c ∈ name, c ∈ t := by
  cases h with
  | word h => exact ⟨h.ne_nil, fun _ hc => hc⟩
  | quoted h => exact ⟨h, fun _ hc => mem_quotedName hc⟩

theorem valid_of_spells {ps : List Part} {t : Text} (h : Spells letter ps t)
    (hnul : '\x00' ∉ t) : Valid ⟨ps⟩ := by
  induction h with
  | @last p t h =>
    refine ⟨by simp, fun name hname => ?_, by simp⟩
    cases List.mem_singleton.mp hname
    exact ⟨h.name.1, fun hmem => hnul (h.name.2 _ hmem)⟩
  | @cons p t u ps h hp rest ih =>
    simp only [List.mem_append, List.mem_cons, not_or] at hnul
    have hrest : Valid ⟨ps⟩ := ih hnul.2.2
    refine ⟨by simp, fun name hname => ?_, ?_⟩
    · rcases List.mem_cons.mp hname with rfl | hname
      · exact ⟨h.name.1, fun hmem => hnul.1 (h.name.2 _ hmem)⟩
      · exact hrest.names name hname
    · show .star ∉ (p :: ps).dropLast
      rw [List.dropLast_cons_of_ne_nil hrest.nonempty, List.mem_cons, not_or]
      exact ⟨Ne.symm hp, hrest.star_last⟩

theorem Valid.nul_not_mem_text {id : Identifier} (h : id.Valid) : '\x00' ∉ id.text := by
  intro hmem
  rcases Text.mem_separated hmem with hpoint | ⟨t, ht, hmem⟩
  · exact absurd hpoint (by decide)
  obtain ⟨p, hp, rfl⟩ := List.mem_map.mp ht
  cases p with
  | star => exact absurd hmem (by decide)
  | name name =>
    rcases mem_of_mem_quotedName hmem with hquote | hname
    · exact absurd hquote (by decide)
    · exact (h.names name hp).2 hname

theorem parseWith_text {id : Identifier} (h : id.Valid) : parseWith letter id.text = .ok id :=
  parseWith_of_spells h.nul_not_mem_text
    (spells_text h.nonempty (fun name hname => (h.names name hname).1) h.star_last)

theorem valid_of_parse {t : Text} {id : Identifier} (h : parse t = .ok id) : id.Valid := by
  obtain ⟨hnul, hspells⟩ := parseWith_eq_ok_iff.mp h
  exact valid_of_spells hspells hnul

end Identifier

/-! ## outside backticks -/

namespace Placeholder

/-- the characters of a text read from state `s` that stand neither between backticks nor are backticks
themselves -/
def outsideFrom (s : Quoting) (t : Text) : Text :=
  (s.trail t).filterMap fun (s, c) =>
    if s = .inside '`' ∨ s = .plain ∧ c = '`' then none else some c

def outside (t : Text) : Text := outsideFrom .plain t

theorem outsideFrom_cons (s : Quoting) (c : Char) (t : Text) :
    outsideFrom s (c :: t) =
      (if s = .inside '`' ∨ s = .plain ∧ c = '`' then [] else [c]) ++ outsideFrom (s.next c) t := by
  rw [outsideFrom, Quoting.trail_cons, List.filterMap_cons]
  split <;> split <;> simp_all [outsideFrom]

theorem outside_append {t : Text} (ht : Closed t) (u : Text) :
    outside (t ++ u) = outside t ++ outside u := by
  have hafter : Quoting.plain.after t = .plain := ht
  rw [outside, outsideFrom, Quoting.trail_append, List.filterMap_append, hafter]
  rfl

/-- a name does not get out of its backticks -/
theorem outsideFrom_name (name : Text) :
    outsideFrom (.inside '`') (name.flatMap Identifier.quotedChar ++ ['`']) = [] := by
  induction name with
  | nil => rfl
  | cons c name ih =>
    rw [List.flatMap_cons, List.append_assoc]
    by_cases hc : c = '`'
    · subst hc
      exact ih
    · have hchar : Identifier.quotedChar c = [c] := if_neg hc
      have hnext : (Quoting.inside '`').next c = .inside '`' := by simp [Quoting.next, hc]
      rw [hchar, List.singleton_append, outsideFrom_cons, hnext, ih]
      rfl

theorem outside_quotedName (name : Text) : outside (Identifier.quotedName name) = [] :=
  outsideFrom_name name

end Placeholder

namespace Identifier

open Placeholder

/-- outside the backticks there are the points between the parts and a last `*` -/
theorem outside_text {ps : List Part} (hstar : .star ∉ ps.dropLast) :
    outside (text ⟨ps⟩) =
      List.replicate (ps.length - 1) '.' ++ if ps.getLast? = some .star then ['*'] else [] := by
  induction ps with
  | nil => rfl
  | cons p ps ih =>
    cases ps with
    | nil =>
      cases p with
      | name name => exact outside_quotedName name
      | star => rfl
    | cons q ps =>
      rw [List.dropLast_cons_of_ne_nil (List.cons_ne_nil q ps), List.mem_cons, not_or] at hstar
      cases p with
      | star => exact absurd rfl hstar.1
      | name name =>
        have htext : text ⟨.name name :: q :: ps⟩ = quotedName name ++ (['.'] ++ text ⟨q :: ps⟩) :=
          text_cons (.name name) q ps
        rw [htext, outside_append (inert_quotedName name).1, outside_append (t := ['.']) (by decide),
          outside_quotedName, ih hstar.2]
        rfl

/-- An identifier is read back from its text, of which only the points and a last `*` stand outside
backticks; the text holds no placeholder, and the pass is outside quotes behind it.  What `quote` makes
of a text is such a text, read as the parts of the text it was made of, and quoted as itself. -/
theorem quote_round_trip :
    (∀ id : Identifier, id.Valid →
      parse id.text = .ok id ∧ Closed id.text ∧ count id.text = 0 ∧
      outside id.text = List.replicate (id.parts.length - 1) '.' ++
        if id.parts.getLast? = some .star then ['*'] else []) ∧
    ∀ s q, quote s = .ok q →
      ∃ id : Identifier, id.Valid ∧ q = id.text ∧ parse s = .ok id ∧ parse q = .ok id ∧
        quote q = .ok q := by
  refine ⟨fun id hid => ⟨parseWith_text hid, (inert_identifier id).1, (inert_identifier id).2,
    outside_text hid.star_last⟩, fun s q hquote => ?_⟩
  cases hparse : parse s with
  | error e =>
    rw [quote, hparse] at hquote
    cases hquote
  | ok id =>
    rw [quote, hparse] at hquote
    cases hquote
    have hid : id.Valid := valid_of_parse hparse
    have hread : parse id.text = .ok id := parseWith_text hid
    refine ⟨id, hid, rfl, rfl, hread, ?_⟩
    rw [quote, hread]
    rfl

/-! names made of delimiters, with a `?` and a quote among them, and `*` -/

theorem quote_round_trip_delimiters :
    Valid ⟨[.name "`.?".toList, .name "'\\`".toList, .star]⟩ ∧
      parse "```.?`.`'\\```.*".toList = .ok ⟨[.name "`.?".toList, .name "'\\`".toList, .star]⟩ ∧
      outside "```.?`.`'\\```.*".toList = "..*".toList ∧
      quote "```.?`.`'\\```.*".toList = .ok "```.?`.`'\\```.*".toList := by
  have hid : Valid ⟨[.name "`.?".toList, .name "'\\`".toList, .star]⟩ := by
    refine ⟨by decide, fun name hname => ?_, by decide⟩
    simp only [List.mem_cons, Part.name.injEq, reduceCtorEq, List.not_mem_nil, or_false] at hname
    rcases hname with rfl | rfl <;> exact ⟨by decide, by decide⟩
  obtain ⟨hread, _, _, houtside⟩ := quote_round_trip.1 _ hid
  have hquote : quote "```.?`.`'\\```.*".toList = .ok "```.?`.`'\\```.*".toList := by
    rw [quote]
    exact congrArg (Except.map text) hread
  obtain ⟨_, _, _, _, _, htwice⟩ := quote_round_trip.2 _ _ hquote
  exact ⟨hid, hread, houtside, htwice⟩

end Identifier

end BoundSql
