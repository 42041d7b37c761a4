import BoundSql.Proofs.Made
import BoundSql.Proofs.Placeholder.Lexer
import BoundSql.Proofs.Uses
import BoundSql.Proofs.Walk.Union

/-!
# Indexes in range

Statements are edited and built without a look outside of a list or a text, and without a division
by zero, except in one place: values are split into rows as wide as the first one, and that row may
have been one of no columns.

* `Insert.edit_fault_iff`       the edits that end the program;
* `Insert.Solid`, `Insert.uses_solid`   where the first row has values, none does;
* `Union.replaced?`, `Union.replaced?_eq`   every key has a value for every member of a made UNION;
* `backfill?`, `backfill?_eq`   deferred values are exchanged within the list;
* `History`, `uses_in_range`    all of it, for any uses of a builder of any kind.

The functions with a question mark give nothing where an index is out of range.
-/

namespace BoundSql

/-! ## rows of an INSERT -/

namespace Insert

/-- there are no columns, and the first row has no values: nothing says how wide rows are -/
def Hollow (i : Insert) : Prop := i.columns = [] ∧ i.rows.head? = some []

theorem splitWidth_eq_zero_iff {i : Insert} {values : Arguments} (hv : values ≠ []) :
    i.splitWidth values = 0 ↔ i.Hollow := by
  have hlength : values.length ≠ 0 := fun h => hv (List.length_eq_zero_iff.mp h)
  unfold splitWidth Hollow
  by_cases hcolumns : i.columns = []
  · rw [if_pos hcolumns]
    cases i.rows.head? with
    | none => simp [hcolumns, hlength]
    | some row => simp [hcolumns]
  · rw [if_neg hcolumns]
    simp [hcolumns]

theorem addValues_fault_iff {i : Insert} {values : Arguments} :
    (∃ fault, i.addValues values = .error fault) ↔
      (∀ a ∈ values, a.isList = false) ∧ values ≠ [] ∧ i.splitWidth values = 0 := by
  unfold addValues
  constructor
  · rintro ⟨fault, h⟩
    split at h
    · cases h
    · rename_i hfind
      split at h
      · cases h
      · rename_i hne
        simp only at h
        split at h
        · rename_i hwidth
          refine ⟨fun a ha => ?_, fun hnil => hne (List.isEmpty_iff.mpr hnil), hwidth⟩
          exact Bool.eq_false_iff.mpr (List.find?_eq_none.mp hfind a ha)
        · split at h <;> cases h
  · rintro ⟨hlists, hne, hwidth⟩
    have hfind : values.find? Argument.isList = none :=
      List.find?_eq_none.mpr fun a ha => Bool.eq_false_iff.mp (hlists a ha)
    refine ⟨.divisionByZero, ?_⟩
    rw [hfind]
    simp only [List.isEmpty_iff, hne, if_false, hwidth, if_true]

theorem Edit.apply_fault_iff {i : Insert} {e : Edit} :
    (∃ fault, e.apply i = .error fault) ↔
      ∃ values, e = .values values ∧ values ≠ [] ∧ (∀ a ∈ values, a.isList = false) ∧ i.Hollow := by
  constructor
  · rintro ⟨fault, h⟩
    cases e with
    | columns | pairs | rowCount | records | fromSelect | ignore | onDuplicate | interpolate => cases h
    | values values =>
      obtain ⟨hlists, hne, hwidth⟩ := addValues_fault_iff.mp ⟨fault, h⟩
      exact ⟨values, rfl, hne, hlists, (splitWidth_eq_zero_iff hne).mp hwidth⟩
  · rintro ⟨values, rfl, hne, hlists, hhollow⟩
    exact addValues_fault_iff.mpr ⟨hlists, hne, (splitWidth_eq_zero_iff hne).mpr hhollow⟩

theorem edit_eq_error_iff {i : Insert} {e : Edit} {fault : Fault} :
    i.edit e = .error fault ↔ i.failed = none ∧ e.apply i = .error fault := by
  unfold edit
  cases i.failed with
  | some error => simp
  | none =>
    cases e.apply i with
    | error fault' => simp [bind, Except.bind]
    | ok result => cases result <;> simp [bind, Except.bind, pure, Except.pure]

/-- the only edit that ends the program adds values to rows of no width -/
theorem edit_fault_iff {i : Insert} {e : Edit} :
    (∃ fault, i.edit e = .error fault) ↔
      i.failed = none ∧ i.Hollow ∧
        ∃ values, e = .values values ∧ values ≠ [] ∧ ∀ a ∈ values, a.isList = false := by
  simp only [edit_eq_error_iff, exists_and_left, Edit.apply_fault_iff]
  grind

/-- the first row has values -/
def Solid (i : Insert) : Prop := ∀ row ∈ i.rows.head?, row ≠ []

theorem Solid.not_hollow {i : Insert} (h : i.Solid) : ¬ i.Hollow := fun hhollow =>
  h [] hhollow.2 rfl

/-- an error, a column or a row is there, so that a row of no columns changes no width -/
def Begun (i : Insert) : Prop := i.failed ≠ none ∨ i.columns ≠ [] ∨ i.rows ≠ []

theorem solid_rows {rows more : List Arguments} (h : ∀ row ∈ rows.head?, row ≠ [])
    (hmore : rows = [] → ∀ row ∈ more.head?, row ≠ []) : ∀ row ∈ (rows ++ more).head?, row ≠ [] := by
  cases rows with
  | nil => exact hmore rfl
  | cons first rows => exact h

theorem head?_chunks {width : Nat} (hw : width ≠ 0) (values : Arguments) :
    ∀ row ∈ (chunks width values).head?, row ≠ [] := by
  intro row hrow
  by_cases hv : values = []
  · rw [hv, chunks_nil] at hrow
    cases hrow
  · rw [chunks_of_ne_nil hv hw] at hrow
    cases hrow
    simp [hv, hw]

theorem length_splitPairs {row : List Condition} {columns : List String} {values : Arguments}
    (h : splitPairs row = .ok (columns, values)) :
    columns.length = row.length ∧ values.length = row.length := by
  induction row generalizing columns values with
  | nil =>
    cases h
    exact ⟨rfl, rfl⟩
  | cons c row ih =>
    obtain ⟨⟨column, value⟩, _, h⟩ := bind_ok h
    simp only at h
    split at h
    · cases h
    · obtain ⟨⟨columns', values'⟩, hrest, h⟩ := bind_ok h
      cases h
      obtain ⟨hcolumns, hvalues⟩ := ih hrest
      exact ⟨congrArg (· + 1) hcolumns, congrArg (· + 1) hvalues⟩

theorem Edit.solid_of_apply {i i' : Insert} {e : Edit} (hi : i.Solid)
    (he : e = .pairs [] → i.columns ≠ [] ∨ i.rows ≠ []) (h : e.apply i = .ok (.ok i')) :
    i'.Solid := by
  cases e with
  | columns | rowCount | records | fromSelect | ignore | interpolate =>
    cases h
    exact hi
  | values given =>
    obtain ⟨_, width, hwidth, rfl⟩ := addValues_ok h
    exact solid_rows hi fun _ => head?_chunks hwidth given
  | onDuplicate column value =>
    obtain ⟨_, rfl⟩ := addDuplicate_ok (Except.ok.inj h)
    exact hi
  | pairs row =>
    obtain ⟨⟨columns, values⟩, hsplit, h⟩ := bind_ok (Except.ok.inj h)
    obtain ⟨hcolumns, hvalues⟩ := length_splitPairs hsplit
    have hnonempty : i.rows = [] → (i.columns ≠ [] → i.columns = columns) → values ≠ [] := by
      intro hrows hsame hnil
      have hrow : row = [] := List.length_eq_zero_iff.mp (by rw [← hvalues, hnil]; rfl)
      rcases he (congrArg Edit.pairs hrow) with hne | hne
      · refine hne ?_
        rw [hsame hne]
        exact List.length_eq_zero_iff.mp (by rw [hcolumns, hrow]; rfl)
      · exact hne hrows
    simp only at h
    split at h
    · rename_i hnone
      cases h
      refine solid_rows hi fun hrows row' hrow' => ?_
      cases hrow'
      exact hnonempty hrows fun hne => absurd hnone.1 hne
    · split at h
      · cases h
      · rename_i hsame
        cases h
        refine solid_rows hi fun hrows row' hrow' => ?_
        cases hrow'
        exact hnonempty hrows fun _ => Decidable.not_not.mp hsame

theorem edit_of_solid {i : Insert} (hi : i.Solid) {e : Edit} (he : e = .pairs [] → i.Begun) :
    ∃ i', i.edit e = .ok i' ∧ i'.Solid := by
  cases hedit : i.edit e with
  | error fault =>
    obtain ⟨_, hhollow, _⟩ := edit_fault_iff.mp ⟨fault, hedit⟩
    exact absurd hhollow hi.not_hollow
  | ok i' =>
    refine ⟨i', rfl, ?_⟩
    cases hfailed : i.failed with
    | some error =>
      rw [edit, hfailed] at hedit
      cases hedit
      exact hi
    | none =>
      have hbegun : e = .pairs [] → i.columns ≠ [] ∨ i.rows ≠ [] := fun h =>
        (he h).resolve_left (not_not_intro hfailed)
      rcases edit_cases hedit with rfl | ⟨error, rfl⟩ | happly
      · exact hi
      · exact hi
      · exact Edit.solid_of_apply hi hbegun happly

/-- uses of a builder whose first row has values go on, unless a row of no columns comes first -/
theorem uses_solid {b : Builder Insert} (hb : b.draft.Solid) {us : List (Use Insert)}
    (hus : ∀ before later b', us = before ++ .edit (.pairs []) :: later →
      b.uses before = .ok b' → b'.draft.Begun) :
    ∃ b', b.uses us = .ok b' ∧ b'.draft.Solid := by
  induction us generalizing b with
  | nil => exact ⟨b, rfl, hb⟩
  | cons u us ih =>
    have huse : ∃ c, b.use u = .ok c ∧ c.draft.Solid := by
      cases u with
      | keep => exact ⟨_, rfl, by rwa [Builder.keep_draft]⟩
      | build => exact ⟨_, rfl, by rwa [Builder.toSql_draft]⟩
      | edit e =>
        have hbegun : e = .pairs [] → b.draft.Begun := by
          rintro rfl
          exact hus [] us b rfl rfl
        obtain ⟨i', hedit, hsolid⟩ := edit_of_solid hb hbegun
        have hdraft := b.draft_of_edit e
        rw [show Draft.edit b.draft e = .ok i' from hedit] at hdraft
        show ∃ c, b.edit e = .ok c ∧ _
        cases hc : b.edit e with
        | error fault =>
          rw [hc] at hdraft
          cases hdraft
        | ok c =>
          rw [hc] at hdraft
          cases hdraft
          exact ⟨c, rfl, hsolid⟩
    -- what comes before an empty row among the later uses comes before it among all of them
    obtain ⟨c, hc, hsolid⟩ := huse
    obtain ⟨b', hb', hsolid'⟩ := ih hsolid fun before later b' hsplit hbefore =>
      hus (u :: before) later b' (congrArg (u :: ·) hsplit)
        (by rw [Builder.uses_cons, hc]; exact hbefore)
    refine ⟨b', ?_, hsolid'⟩
    rw [Builder.uses_cons, hc]
    exact hb'

end Insert

/-! ## members of a UNION -/

namespace Union

/-- the keys of a template replaced by their values for the `i`-th member -/
def replaced? (u : Union) (i : Nat) (t : Text) : Option Text :=
  u.replacements.foldlM (fun t (key, values) =>
    values[i]?.map fun value => Text.replaceAll key.toList value.toList t) t

theorem edit_even {u u' : Union} {e : Edit} (hu : u.Even) (h : Draft.edit u e = .ok u') :
    u'.Even := by
  cases h
  unfold Union.edit
  split
  · exact hu
  · split
    · rename_i happly
      exact Edit.even_of_apply hu happly
    · exact hu

theorem replaced?_eq {u : Union} (hu : u.Even) {i : Nat} (hi : i < u.members.length) (t : Text) :
    u.replaced? i t = some (u.replaced i t) := by
  have hlt : ∀ r ∈ u.replacements, i < r.2.length := fun r hr =>
    Nat.lt_of_lt_of_le hi (length_members hu r hr)
  unfold replaced? replaced
  revert hlt
  generalize u.replacements = replacements
  intro hlt
  induction replacements generalizing t with
  | nil => rfl
  | cons r replacements ih =>
    obtain ⟨key, values⟩ := r
    have hvalue : values[i]? = some (values.getD i "") := by
      have hi : i < values.length := hlt (key, values) (List.mem_cons_self ..)
      rw [List.getD_eq_getElem?_getD, List.getElem?_eq_getElem hi]
      rfl
    rw [List.foldlM_cons, List.foldl_cons]
    show (values[i]?.map _).bind _ = _
    rw [hvalue]
    exact ih _ fun r hr => hlt r (List.mem_cons_of_mem _ hr)

end Union

/-! ## deferred values -/

def exchange? {α : Type} (l : List α) (i j : Nat) : Option (List α) :=
  if i < l.length ∧ j < l.length then some (exchange l i j) else none

def exchangeAll? (bound : Nat) : List Nat → Nat → Arguments → Option (Arguments × Except Error Unit)
  | [], _, args => some (args, .ok ())
  | position :: positions, source, args => do
    if bound ≤ position then return (args, .error (.mismatch (.deferredPosition position bound)))
    else exchangeAll? bound positions (source + 1) (← exchange? args position source)

def backfill? (args : Arguments) (positions : List Nat) (before : Nat) :
    Option (Arguments × Except Error Unit) := do
  if args.length < before then return (args, .error (.mismatch (.recordShrank before args.length)))
  else if args.length - before ≠ positions.length then
    return (args, .error (.mismatch (.recordDeferred (args.length - before) positions.length)))
  else
    match ← exchangeAll? before positions before args with
    | (args, .ok ()) => return (args.take before, .ok ())
    | (args, .error e) => return (args, .error e)

theorem exchangeAll?_eq {bound : Nat} {positions : List Nat} {source : Nat} {args : Arguments}
    (hbound : bound ≤ args.length) (hsource : source + positions.length ≤ args.length) :
    exchangeAll? bound positions source args = some (exchangeAll bound positions source args) := by
  induction positions generalizing source args with
  | nil => rfl
  | cons position positions ih =>
    rw [List.length_cons] at hsource
    unfold exchangeAll? exchangeAll
    split
    · rfl
    · rename_i hposition
      have hrange : position < args.length ∧ source < args.length := by omega
      rw [exchange?, if_pos hrange]
      show exchangeAll? bound positions (source + 1) (exchange args position source) = _
      exact ih (by rw [length_exchange]; exact hbound) (by rw [length_exchange]; omega)

theorem backfill?_eq (args : Arguments) (positions : List Nat) (before : Nat) :
    backfill? args positions before = some (backfill args positions before) := by
  unfold backfill? backfill
  split
  · rfl
  · split
    · rfl
    · rename_i hlength hproduced
      rw [exchangeAll?_eq (by omega) (by omega)]
      obtain ⟨exchanged, result⟩ := exchangeAll before positions before args
      cases result <;> rfl

/-! ## histories -/

/-- what a caller may start with, and the uses of the builder -/
inductive History where
  | select (s : Select) (us : List (Use Select))
  | insert (table : String) (us : List (Use Insert))
  | update (u : Update) (us : List (Use Update))
  | delete (d : Delete) (us : List (Use Delete))
  | union (selects : List Select) (us : List (Use Union))
  | with (us : List (Use With))

def Builder.statementOf {σ : Type} [Draft σ] (d : σ) (us : List (Use σ)) : Except Fault Statement :=
  ((Builder.ofDraft d).uses us).map (·.statement)

/-- values can be split into rows, and the keys of a template replaced in every member -/
def Statement.InRange : Statement → Prop
  | .insert i => ∀ values, values ≠ [] → i.splitWidth values ≠ 0
  | .union u => ∀ i < u.members.length, ∀ t, u.replaced? i t = some (u.replaced i t)
  | _ => True

namespace History

def statement : History → Except Fault Statement
  | select s us => Builder.statementOf s us
  | insert table us => Builder.statementOf (Insert.ofTable table) us
  | update u us => Builder.statementOf u us
  | delete d us => Builder.statementOf d us
  | union selects us => Builder.statementOf (Union.ofSelects selects) us
  | .with us => Builder.statementOf ({} : With) us

/-- values are added where rows have no width -/
def Divides : History → Prop
  | insert table us => ∃ before values later b, us = before ++ .edit (.values values) :: later ∧
      (Builder.ofDraft (Insert.ofTable table)).uses before = .ok b ∧ b.draft.failed = none ∧
      b.draft.Hollow ∧ values ≠ [] ∧ ∀ a ∈ values, a.isList = false
  | _ => False

/-- a row of no columns comes before all columns and rows -/
def EmptyInFront : History → Prop
  | insert table us => ∃ before later b, us = before ++ .edit (.pairs []) :: later ∧
      (Builder.ofDraft (Insert.ofTable table)).uses before = .ok b ∧ ¬ b.draft.Begun
  | _ => False

end History

namespace Builder

variable {σ : Type} [Draft σ]

theorem statementOf_fault_iff {d : σ} {us : List (Use σ)} :
    (∃ fault, statementOf d us = .error fault) ↔ ∃ fault, (ofDraft d).uses us = .error fault := by
  unfold statementOf
  cases (ofDraft d).uses us <;> simp [Except.map]

theorem statementOf_ok {d : σ} {us : List (Use σ)} {b : Builder σ}
    (h : (ofDraft d).uses us = .ok b) : statementOf d us = .ok b.statement := by
  rw [statementOf, h]
  rfl

theorem uses_ok (h : ∀ (d : σ) e, ∃ d', Draft.edit d e = .ok d') (b : Builder σ)
    (us : List (Use σ)) : ∃ b', b.uses us = .ok b' := by
  cases hus : b.uses us with
  | ok b' => exact ⟨b', rfl⟩
  | error fault =>
    obtain ⟨_, e, _, b', _, _, fault', hfault⟩ := uses_fault_iff.mp ⟨fault, hus⟩
    obtain ⟨d', hd'⟩ := h b'.draft e
    cases hd'.symm.trans hfault

end Builder

namespace History

theorem in_range_of_not_emptyInFront {h : History} (hfront : ¬ h.EmptyInFront) :
    ∃ s, h.statement = .ok s ∧ s.InRange := by
  cases h with
  | insert table us =>
    have hstart : (Insert.ofTable table).Solid := by
      intro row hrow
      cases hrow
    obtain ⟨b, hb, hsolid⟩ := Insert.uses_solid (b := Builder.ofDraft (Insert.ofTable table))
      hstart fun before later b hsplit hbefore =>
        by_contra fun hbegun => hfront ⟨before, later, b, hsplit, hbefore, hbegun⟩
    exact ⟨_, Builder.statementOf_ok hb, fun values hne hwidth =>
      hsolid.not_hollow ((Insert.splitWidth_eq_zero_iff hne).mp hwidth)⟩
  | union selects us =>
    have hstart : (Union.ofSelects selects).Even := by
      intro first hfirst
      cases hfirst
    obtain ⟨b, hb⟩ := Builder.uses_ok (fun (u : Union) e => ⟨u.edit e, rfl⟩)
      (Builder.ofDraft (Union.ofSelects selects)) us
    have heven : b.draft.Even :=
      Builder.invariant_of_uses (fun _ _ _ => Union.edit_even) hstart hb
    exact ⟨_, Builder.statementOf_ok hb, fun i hi t => Union.replaced?_eq heven hi t⟩
  | select s us =>
    obtain ⟨b, hb⟩ := Builder.uses_ok (fun (s : Select) e => ⟨s.edit e, rfl⟩) (.ofDraft s) us
    exact ⟨_, Builder.statementOf_ok hb, trivial⟩
  | update u us =>
    obtain ⟨b, hb⟩ := Builder.uses_ok (fun (u : Update) e => ⟨u.edit e, rfl⟩) (.ofDraft u) us
    exact ⟨_, Builder.statementOf_ok hb, trivial⟩
  | delete d us =>
    obtain ⟨b, hb⟩ := Builder.uses_ok (fun (d : Delete) e => ⟨d.edit e, rfl⟩) (.ofDraft d) us
    exact ⟨_, Builder.statementOf_ok hb, trivial⟩
  | «with» us =>
    obtain ⟨b, hb⟩ := Builder.uses_ok (fun (w : With) e => ⟨w.edit e, rfl⟩) (.ofDraft {}) us
    exact ⟨_, Builder.statementOf_ok hb, trivial⟩

theorem emptyInFront_of_fault {h : History} {fault : Fault} (hfault : h.statement = .error fault) :
    h.EmptyInFront := by
  by_contra hfront
  obtain ⟨s, hs, _⟩ := in_range_of_not_emptyInFront hfront
  cases hs.symm.trans hfault

theorem fault_iff_divides (h : History) : (∃ fault, h.statement = .error fault) ↔ h.Divides := by
  cases h with
  | insert table us =>
    show (∃ fault, Builder.statementOf _ _ = .error fault) ↔ _
    rw [Builder.statementOf_fault_iff, Builder.uses_fault_iff]
    constructor
    · rintro ⟨before, e, later, b, hsplit, hbefore, hfault⟩
      obtain ⟨hfailed, hhollow, values, rfl, hne, hlists⟩ := Insert.edit_fault_iff.mp hfault
      exact ⟨before, values, later, b, hsplit, hbefore, hfailed, hhollow, hne, hlists⟩
    · rintro ⟨before, values, later, b, hsplit, hbefore, hfailed, hhollow, hne, hlists⟩
      exact ⟨before, .values values, later, b, hsplit, hbefore,
        Insert.edit_fault_iff.mpr ⟨hfailed, hhollow, values, rfl, hne, hlists⟩⟩
  | select | update | delete | union | «with» =>
    exact iff_of_false (fun ⟨_, hfault⟩ => emptyInFront_of_fault hfault) id

end History

/-- Whatever a caller starts with and does with the builder, the program ends only where values are
added while rows have no width: without columns, behind a first row of no values.  As long as no row
of no columns comes before all columns and rows, there is a statement, and it has a width for all values
and a value of every key for every member.  The pieces between the placeholders of any text start and
end between characters, in order, and deferred values are exchanged within the list, whatever a record
has made of it.  Builds are not named here, nor is the text for a record: the values of a UNION's keys,
the pieces of texts and the exchanged values are all that they look up, cut out or swap, and
`Union.replaced?`, `Placeholder.slices?` and `backfill?` stand for these operations. -/
theorem uses_in_range (h : History) :
    ((∃ fault, h.statement = .error fault) ↔ h.Divides) ∧
    (¬ h.EmptyInFront → ∃ s, h.statement = .ok s ∧ s.InRange) ∧
    (∀ t, Placeholder.slices? t 0 (Placeholder.positions t) =
      some ((Placeholder.split t).1 :: (Placeholder.split t).2)) ∧
    ∀ args positions before, backfill? args positions before = some (backfill args positions before) :=
  ⟨h.fault_iff_divides, History.in_range_of_not_emptyInFront,
    Placeholder.slices?_positions, backfill?_eq⟩

/-! a row of no columns behind another row, and in front of all rows -/

def emptyBehind : History :=
  .insert "t" [.edit (.values [.int 1, .int 2]), .edit (.pairs []), .edit (.values [.int 3, .int 4])]

theorem uses_in_range_behind :
    ¬ emptyBehind.EmptyInFront ∧ ∃ s, emptyBehind.statement = .ok s ∧ s.InRange := by
  have hfront : ¬ emptyBehind.EmptyInFront := by
    rintro ⟨before, later, b, hsplit, hbefore, hbegun⟩
    obtain _ | ⟨u, _ | ⟨v, _ | ⟨w, before⟩⟩⟩ := before <;> simp at hsplit
    obtain ⟨rfl, -⟩ := hsplit
    have hrun : (Builder.ofDraft (Insert.ofTable "t")).uses
        [.edit (Insert.Edit.values [.int 1, .int 2])] =
        .ok (Builder.ofDraft { Insert.ofTable "t" with rows := [[.int 1, .int 2]] }) := by cbv
    cases hbefore.symm.trans hrun
    exact hbegun (.inr (.inr (by decide)))
  exact ⟨hfront, (uses_in_range emptyBehind).2.1 hfront⟩

def emptyInFront : History :=
  .insert "t" [.edit (.pairs []), .edit (.values [.int 1])]

theorem uses_divide_by_zero : emptyInFront.statement = .error .divisionByZero := by
  cbv

end BoundSql
