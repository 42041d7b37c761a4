import BoundSql.Template
import BoundSql.Proofs.Placeholder.Inert

/-!
# Literals stand outside quotes

Whatever an argument holds, its literal opens no quote for what follows and holds no placeholder.

* `bland_ofNat`, `bland_float`, `bland_timestamp`   numbers and times: nothing to be quoted;
* `Kept`                                            a text that stays between the quotes of a string;
* `kept_escapeChar`, `inert_escape`                 any text, escaped;
* `inert_literal`, `inert_argumentText`             the texts of arguments.
-/

namespace BoundSql

namespace Placeholder

/-! ## numbers and times -/

theorem Bland.append {t u : Text} (ht : Bland t) (hu : Bland u) : Bland (t ++ u) :=
  fun c hc => (List.mem_append.mp hc).elim (ht c) (hu c)

theorem Bland.cons {c : Char} {t : Text} (hc : Bland [c]) (ht : Bland t) : Bland (c :: t) :=
  hc.append ht

theorem Bland.inert {t : Text} (h : Bland t) : Inert t := by
  refine inert_of_calm t fun c hc => ?_
  obtain ⟨hquote, _, hmark⟩ := h c hc
  simp [isCalm, hquote, hmark]

theorem bland_replicate {c : Char} (hc : Bland [c]) (n : Nat) : Bland (List.replicate n c) := by
  intro d hd
  rw [List.eq_of_mem_replicate hd]
  exact hc c (List.mem_singleton_self c)

theorem bland_ofNat (n : Nat) : Bland (Text.ofNat n) := by
  intro c hc
  have hdigit : c.isDigit := isDigit_of_mem_ofNat hc
  have hcalm := isCalm_of_isDigit hdigit
  simp only [isCalm, Bool.and_eq_true, Bool.not_eq_true', decide_eq_true_eq] at hcalm
  refine ⟨hcalm.1, ?_, hcalm.2⟩
  rintro rfl
  cases hdigit

theorem bland_ofInt (i : Int) : Bland (toString i).toList := by
  cases i with
  | ofNat n => exact bland_ofNat n
  | negSucc n =>
    show Bland ("-" ++ toString (n + 1)).toList
    rw [String.toList_append]
    exact Bland.append (by decide) (bland_ofNat (n + 1))

/-! ### floats -/

theorem bland_zeros (n : Nat) : Bland (Number.FloatStyle.zeros n) := bland_replicate (by decide) n

theorem bland_positional {ds : Text} (hds : Bland ds) (p : Int) :
    Bland (Number.FloatStyle.plain.positional ds p) := by
  unfold Number.FloatStyle.positional
  split
  · exact (Bland.append (by decide) (bland_zeros _)).append hds
  · split
    · exact (hds.append (bland_zeros _)).append (by decide)
    · refine Bland.append (fun c hc => hds c (List.mem_of_mem_take hc)) ?_
      exact Bland.cons (by decide) fun c hc => hds c (List.mem_of_mem_drop hc)

theorem bland_magnitude (mantissa : Nat) (exponent : Int) :
    Bland (Number.FloatStyle.plain.magnitude mantissa exponent) := by
  unfold Number.FloatStyle.magnitude
  split
  · decide
  · exact bland_positional (bland_ofNat _) _

theorem bland_float (x : Float) : Bland (Argument.floatText x).toList := by
  have hsign (negative : Bool) : Bland (Number.FloatStyle.sign negative) := by
    cases negative <;> decide
  rw [Argument.floatText, String.toList_ofList, Number.FloatStyle.text]
  split
  · decide
  · exact (hsign _).append (by decide)
  · exact (hsign _).append (bland_magnitude _ _)

/-! ### times -/

theorem bland_padded (width n : Nat) : Bland (Timestamp.padded width n) :=
  (bland_replicate (by decide) _).append (bland_ofNat n)

theorem bland_year (y : Int) : Bland (Timestamp.yearText y) := by
  unfold Timestamp.yearText
  split
  · exact Bland.cons (by decide) (bland_padded _ _)
  · split
    · exact Bland.cons (by decide) (bland_padded _ _)
    · exact bland_padded _ _

theorem bland_timestamp (t : Timestamp) : Bland t.literal := by
  have hdate : Bland t.dateText :=
    ((bland_year _).append (Bland.cons (by decide) (bland_padded _ _))).append
      (Bland.cons (by decide) (bland_padded _ _))
  have hclock : Bland t.clockText :=
    ((bland_padded _ _).append (Bland.cons (by decide) (bland_padded _ _))).append
      (Bland.cons (by decide) (bland_padded _ _))
  exact hdate.append (Bland.cons (by decide) hclock)

/-! ## between quotes -/

/-- a text that stays between the quotes of a string -/
def Kept (t : Text) : Prop :=
  (Quoting.inside '\'').after t = .inside '\'' ∧ countFrom (.inside '\'') t = 0

instance (t : Text) : Decidable (Kept t) := inferInstanceAs (Decidable (_ ∧ _))

theorem kept_nil : Kept [] := ⟨rfl, rfl⟩
theorem Kept.append {t u : Text} (ht : Kept t) (hu : Kept u) : Kept (t ++ u) :=
  ⟨by rw [Quoting.after_append, ht.1, hu.1], by rw [countFrom_append, ht.1, ht.2, hu.2]⟩

theorem kept_singleton {c : Char} (hquote : c ≠ '\'') (hescape : c ≠ '\\') : Kept [c] := by
  constructor
  · show (Quoting.inside '\'').next c = _
    simp [Quoting.next, hquote, hescape]
  · rfl

theorem kept_flatMap {α : Type} {piece : α → Text} (h : ∀ a, Kept (piece a)) (as : List α) :
    Kept (as.flatMap piece) := by
  induction as with
  | nil => exact kept_nil
  | cons a as ih =>
    rw [List.flatMap_cons]
    exact (h a).append ih

theorem Bland.kept {t : Text} (h : Bland t) : Kept t := by
  induction t with
  | nil => exact kept_nil
  | cons c t ih =>
    obtain ⟨hquote, hescape, _⟩ := h c (List.mem_cons_self ..)
    have hne : c ≠ '\'' := by
      rintro rfl
      cases hquote
    exact (kept_singleton hne hescape).append (ih fun d hd => h d (List.mem_cons_of_mem _ hd))

/-- a string literal ends where it seems to end -/
theorem Kept.inert {t : Text} (h : Kept t) : Inert ('\'' :: t ++ ['\'']) := by
  constructor
  · show (Quoting.inside '\'').after (t ++ ['\'']) = .plain
    rw [Quoting.after_append, h.1]
    rfl
  · show 0 + countFrom (.inside '\'') (t ++ ['\'']) = 0
    rw [countFrom_append, h.1, h.2]
    rfl

/-- a backslash stands in front of every character that would end the string, and of every other
backslash -/
theorem kept_escapeChar (c : Char) : Kept (escapeChar c) := by
  unfold escapeChar
  split
  · decide
  split
  · decide
  split
  · decide
  split
  · decide
  split
  · decide
  split
  · decide
  split
  · decide
  · exact kept_singleton ‹_› ‹_›

theorem inert_escape (t : Text) : Inert (escape t) := (kept_flatMap kept_escapeChar t).inert

theorem bland_hexByte (b : UInt8) : Bland (hexByte b) := by
  have hdigit : ∀ n < 16, Bland [Nat.digitChar n] := by decide
  have hlt := b.toNat_lt
  exact Bland.cons (hdigit _ (by omega)) (hdigit _ (by omega))

theorem inert_hexLiteral (bytes : List UInt8) : Inert (hexLiteral bytes) :=
  inert_cons (by decide) (kept_flatMap (fun b => (bland_hexByte b).kept) bytes).inert

theorem inert_bytesLiteral (bytes : List UInt8) : Inert (bytesLiteral bytes) := by
  unfold bytesLiteral
  split
  · exact inert_escape _
  · exact inert_hexLiteral bytes

/-! ## arguments -/

theorem inert_plainLiteral {a : Argument} {t : Text} (h : a.plainLiteral = .ok t) : Inert t := by
  cases a with
  | null =>
    cases h
    decide
  | bool b =>
    cases h
    cases b <;> decide
  | int i =>
    cases h
    exact (bland_ofInt i.toInt).inert
  | float x =>
    have h : (if x.isFinite then .ok (Argument.floatText x).toList
      else .error (Error.unsupported (.nonFiniteFloat (Argument.floatText x)))) = Except.ok t := h
    split at h
    · cases h
      exact (bland_float x).inert
    · cases h
  | string s =>
    cases h
    exact inert_escape s.toList
  | bytes b =>
    cases h
    exact inert_bytesLiteral b
  | time t =>
    cases h
    exact (bland_timestamp t).kept.inert
  | _ => cases h

/-- the literal of any scalar, a driver value included -/
theorem inert_literal {a : Argument} {t : Text} (h : a.literal = .ok t) : Inert t := by
  unfold Argument.literal at h
  split at h
  · obtain ⟨scalar, _, hscalar⟩ := bind_ok h
    exact inert_plainLiteral hscalar
  · exact inert_plainLiteral h

theorem inert_literalList {enclosed : Bool} {items : Arguments} {t : Text}
    (h : literalList enclosed items = .ok t) : Inert t := by
  obtain ⟨texts, htexts, h⟩ := bind_ok h
  have hlist : Inert (if texts = [] then "NULL".toList else Text.separated [','] texts) := by
    split
    · decide
    · exact inert_separated (by decide) texts
        (forall_of_mapM htexts fun _ _ _ => inert_literal)
  simp only at h
  split at h
  · cases h
    exact hlist
  · cases h
    exact (Inert.append (t := ['(']) (by decide) hlist).append (by decide)

theorem inert_argumentText {a : Argument} {before behind t : Text}
    (h : argumentText a before behind = .ok t) : Inert t := by
  unfold argumentText at h
  split at h
  · obtain ⟨items, _, h⟩ := bind_ok h
    exact inert_literalList h
  · exact inert_literal h

end Placeholder

end BoundSql
