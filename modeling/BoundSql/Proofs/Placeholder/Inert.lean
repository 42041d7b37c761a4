import BoundSql.Identifier
import BoundSql.Placeholder
import BoundSql.Proofs.Result

/-!
# Texts without placeholders

Most of a statement is text that neither holds a placeholder nor changes the state of the pass over
the quotes: keywords, numbers, names in backticks.

* `Inert`                closed and without a placeholder;
* `inert_of_calm`        no quote and no `?` at all;
* `inert_quotedName`, `inert_nameText`, `inert_aliasText`, `inert_nameListText`   names;
* `Bland`                a text that may replace another one in any quotes;
* `Quoting.after_bland`  all such texts lead to one and the same state.
-/

namespace BoundSql

namespace Placeholder

theorem count_append {t : Text} (ht : Closed t) (u : Text) : count (t ++ u) = count t + count u := by
  unfold count
  rw [countFrom_append, ht]

/-- a text that stands outside quotes and holds no placeholder -/
def Inert (t : Text) : Prop := Closed t ∧ count t = 0

instance (t : Text) : Decidable (Inert t) := inferInstanceAs (Decidable (_ ∧ _))

theorem inert_nil : Inert [] := ⟨rfl, rfl⟩
theorem Inert.append {t u : Text} (ht : Inert t) (hu : Inert u) : Inert (t ++ u) :=
  ⟨ht.1.append hu.1, by rw [count_append ht.1, ht.2, hu.2]⟩

theorem inert_cons {c : Char} {t : Text} (hc : Inert [c]) (ht : Inert t) : Inert (c :: t) :=
  hc.append ht

theorem inert_separated {sep : Text} (hsep : Inert sep) (ts : List Text)
    (h : ∀ t ∈ ts, Inert t) : Inert (Text.separated sep ts) := by
  induction ts with
  | nil => exact inert_nil
  | cons t ts ih =>
    have ht := h t (List.mem_cons_self ..)
    cases ts with
    | nil => exact ht
    | cons u us =>
      rw [Text.separated_cons]
      exact (ht.append hsep).append (ih fun v hv => h v (List.mem_cons_of_mem _ hv))

/-! ## characters without a meaning outside quotes -/

/-- a character that neither opens a quote nor is a placeholder -/
def isCalm (c : Char) : Bool := !Quoting.isQuote c && c ≠ '?'

theorem inert_singleton {c : Char} (h : isCalm c) : Inert [c] := by
  simp only [isCalm, Bool.and_eq_true, Bool.not_eq_true', decide_eq_true_eq, ne_eq] at h
  constructor
  · show (Quoting.plain.next c).after [] = .plain
    simp [Quoting.next, h.1, Quoting.after_nil]
  · show (if Quoting.plain.isMark c then 1 else 0) + 0 = 0
    simp [Quoting.isMark, h.2]

theorem inert_of_calm (t : Text) (h : ∀ c ∈ t, isCalm c) : Inert t := by
  induction t with
  | nil => exact inert_nil
  | cons c t ih =>
    exact inert_cons (inert_singleton (h c (List.mem_cons_self ..)))
      (ih fun d hd => h d (List.mem_cons_of_mem _ hd))

/-- characters that a test tells apart -/
theorem ne_of_test {test : Char → Bool} {c d : Char} (hc : test c) (hd : test d = false) :
    c ≠ d := by
  intro he
  rw [he, hd] at hc
  exact Bool.false_ne_true hc

theorem isCalm_of_isDigit {c : Char} (h : c.isDigit) : isCalm c := by
  have hne : ∀ d : Char, d.isDigit = false → c ≠ d := fun _ => ne_of_test h
  simp [isCalm, Quoting.isQuote, hne '\'' rfl, hne '"' rfl, hne '`' rfl, hne '?' rfl]

theorem isDigit_of_mem_ofNat {n : Nat} {c : Char} (h : c ∈ Text.ofNat n) : c.isDigit := by
  have hdigits : Text.ofNat n = Nat.toDigits 10 n := by
    show (toString n).toList = _
    rw [Nat.toString_eq_ofList_toDigits, String.toList_ofList]
  rw [hdigits] at h
  exact Nat.isDigit_of_mem_toDigits (by decide) (by decide) h

theorem inert_ofNat (n : Nat) : Inert (Text.ofNat n) :=
  inert_of_calm _ fun _ hc => isCalm_of_isDigit (isDigit_of_mem_ofNat hc)

/-! ## names -/

/-- the characters between backticks leave the pass between them -/
theorem after_quotedChars (chars : Text) :
    (Quoting.inside '`').after (chars.flatMap Identifier.quotedChar) = .inside '`' := by
  induction chars with
  | nil => rfl
  | cons c chars ih =>
    have hc : (Quoting.inside '`').after (Identifier.quotedChar c) = .inside '`' := by
      unfold Identifier.quotedChar
      split
      · rfl
      · rename_i h
        simp [Quoting.after_cons, Quoting.after_nil, Quoting.next, h]
    rw [List.flatMap_cons, Quoting.after_append, hc, ih]

theorem countFrom_quotedChars (chars : Text) :
    countFrom (.inside '`') (chars.flatMap Identifier.quotedChar) = 0 := by
  induction chars with
  | nil => rfl
  | cons c chars ih =>
    have hc : countFrom (.inside '`') (Identifier.quotedChar c) = 0 := by
      unfold Identifier.quotedChar
      split <;> rfl
    have ha := after_quotedChars [c]
    rw [List.flatMap_singleton] at ha
    rw [List.flatMap_cons, countFrom_append, hc, ha, ih]

theorem inert_quotedName (chars : Text) : Inert (Identifier.quotedName chars) := by
  constructor
  · show Quoting.after (.inside '`') (chars.flatMap Identifier.quotedChar ++ ['`']) = .plain
    rw [Quoting.after_append, after_quotedChars]
    rfl
  · show 0 + countFrom (.inside '`') (chars.flatMap Identifier.quotedChar ++ ['`']) = 0
    rw [countFrom_append, countFrom_quotedChars, after_quotedChars]
    rfl

theorem inert_identifier (id : Identifier) : Inert id.text := by
  apply inert_separated (by decide)
  intro t ht
  obtain ⟨p, _, rfl⟩ := List.mem_map.mp ht
  cases p with
  | name chars => exact inert_quotedName chars
  | star => exact inert_singleton rfl

theorem inert_quote {t quoted : Text} (h : quote t = .ok quoted) : Inert quoted := by
  unfold quote at h
  cases hp : Identifier.parse t with
  | error e => rw [hp] at h; cases h
  | ok id => rw [hp] at h; cases h; exact inert_identifier id

/-- the name is no identifier, so that a lenient place takes it as it is -/
def IsRawName (name : String) : Prop := ∀ quoted, quote name.toList ≠ .ok quoted

theorem inert_nameText {name : String} {lenient : Bool} {t : Text}
    (hraw : lenient = true → IsRawName name → Inert name.toList)
    (h : nameText name lenient = .ok t) : Inert t := by
  unfold nameText at h
  simp only at h
  split at h
  · rename_i hstar
    cases h
    rw [hstar]
    exact inert_singleton rfl
  · split at h
    · rename_i quoted hq
      cases h
      exact inert_quote hq
    · rename_i e he
      split at h
      · rename_i hl
        cases h
        simp only [Bool.and_eq_true, decide_eq_true_eq] at hl
        exact hraw hl.1 fun quoted hq => by rw [hq] at he; cases he
      · cases h

theorem inert_strictName {name : String} {t : Text} (h : nameText name false = .ok t) : Inert t :=
  inert_nameText (fun hl => absurd hl Bool.false_ne_true) h

theorem inert_aliasText {name : Option String} {t : Text} (h : aliasText name = .ok t) :
    Inert t := by
  cases name with
  | none => cases h; exact inert_nil
  | some name =>
    simp only [aliasText] at h
    split at h
    · cases h
      exact inert_nil
    · cases hn : nameText name false with
      | error e => rw [hn] at h; cases h
      | ok u =>
        rw [hn] at h
        cases h
        exact Inert.append (by decide) (inert_strictName hn)

theorem inert_nameListText {names : List String} {t : Text} (h : nameListText names = .ok t) :
    Inert t := by
  unfold nameListText at h
  cases hm : names.mapM (nameText · false) with
  | error e => rw [hm] at h; cases h
  | ok ts =>
    rw [hm] at h
    cases h
    exact inert_separated (by decide) ts (forall_of_mapM hm fun _ _ _ => inert_strictName)

end Placeholder

/-! ## texts that replace others -/

namespace Placeholder

/-- no quote, no backslash, no `?`: such a text means the same in and outside quotes -/
def Bland (t : Text) : Prop := ∀ c ∈ t, Quoting.isQuote c = false ∧ c ≠ '\\' ∧ c ≠ '?'

instance (t : Text) : Decidable (Bland t) := List.decidableBAll _ t

end Placeholder

namespace Quoting

/-- what is behind a backslash or in a quote was opened by a quote -/
def Proper : Quoting → Prop
  | .plain => True
  | .inside q | .escaped q => isQuote q

theorem Proper.next {s : Quoting} (h : s.Proper) (c : Char) : (s.next c).Proper := by
  cases s with
  | plain =>
    show (if isQuote c then Quoting.inside c else .plain).Proper
    split
    · assumption
    · trivial
  | inside q =>
    show (if c = '\\' ∧ q ≠ '`' then Quoting.escaped q else if c = q then .plain else .inside q).Proper
    split
    · exact h
    · split
      · trivial
      · exact h
  | escaped q => exact h

/-- the state behind any character that is no quote and no backslash -/
def settled : Quoting → Quoting
  | .escaped q => .inside q
  | s => s

theorem next_bland {s : Quoting} (h : s.Proper) {c : Char} (hq : isQuote c = false)
    (hb : c ≠ '\\') : s.next c = s.settled := by
  cases s with
  | plain => simp [Quoting.next, hq, settled]
  | inside q =>
    have hne : c ≠ q := by
      intro he
      rw [he] at hq
      exact Bool.false_ne_true (hq.symm.trans h)
    simp [Quoting.next, hb, hne, settled]
  | escaped q => rfl

theorem settled_settled (s : Quoting) : s.settled.settled = s.settled := by cases s <;> rfl

theorem Proper.settled {s : Quoting} (h : s.Proper) : s.settled.Proper := by
  cases s <;> exact h

theorem after_bland {s : Quoting} (hs : s.Proper) {t : Text} (ht : Placeholder.Bland t)
    (hne : t ≠ []) : s.after t = s.settled := by
  induction t generalizing s with
  | nil => exact absurd rfl hne
  | cons c t ih =>
    obtain ⟨hq, hb, _⟩ := ht c (List.mem_cons_self ..)
    rw [after_cons, next_bland hs hq hb]
    cases t with
    | nil => exact after_nil _
    | cons d u =>
      rw [ih hs.settled (fun e he => ht e (List.mem_cons_of_mem _ he)) (List.cons_ne_nil _ _),
        settled_settled]

end Quoting

end BoundSql
