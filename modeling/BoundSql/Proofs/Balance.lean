import BoundSql.Proofs.Identifier.Grammar
import BoundSql.Proofs.Placeholder.Inert
import BoundSql.Template

/-!
# Parentheses outside quotes

A parenthesis counts unless it stands in a string literal or in a quoted name.  A balanced text
opens no quote for what follows, closes every parenthesis that it opens, and closes none that was
open before; so it may stand at any depth of another text.

* `countOutside`, `Balanced`   the parentheses outside quotes, and the texts in which they pair up;
* `Scan`, `Scan.after`         one pass that keeps the quotes and the depth;
* `Leads`                      a text that brings the pass from one depth to another;
* `balanced_iff`               balanced texts are those that lead from depth 0 to depth 0;
* `balanced_nameText`, `balanced_aliasText`, `balanced_nameListText`   names;
* `Scan.after_weave`           texts in the places of placeholders;
* `Scan.after_replaceAll`      keys replaced by values.
-/

namespace BoundSql

open Placeholder

/-! ## balanced texts -/

/-- how often `p` stands outside quotes in a text that is read from state `q` -/
def countOutside (p : Char) (q : Quoting) : Text → Nat
  | [] => 0
  | c :: t => (if q = .plain ∧ c = p then 1 else 0) + countOutside p (q.next c) t

theorem countOutside_nil (p : Char) (q : Quoting) : countOutside p q [] = 0 := rfl
theorem countOutside_cons (p : Char) (q : Quoting) (c : Char) (t : Text) :
    countOutside p q (c :: t) =
      (if q = .plain ∧ c = p then 1 else 0) + countOutside p (q.next c) t := rfl

/-- the pass over the quotes ends outside of them, no beginning of the text closes more parentheses
than it opens, and the whole text closes as many as it opens -/
structure Balanced (t : Text) : Prop where
  closed : Closed t
  covered : ∀ front, front <+: t → countOutside ')' .plain front ≤ countOutside '(' .plain front
  even : countOutside '(' .plain t = countOutside ')' .plain t

/-! ## one pass for quotes and parentheses -/

structure Scan where
  quoting : Quoting
  depth : Nat
  deriving DecidableEq, Repr

namespace Scan

/-- the depth behind a character; `none` where it closes a parenthesis that is not open -/
def depthBehind (s : Scan) (c : Char) : Option Nat :=
  if s.quoting = .plain ∧ c = '(' then some (s.depth + 1)
  else if s.quoting = .plain ∧ c = ')' then
    if s.depth = 0 then none else some (s.depth - 1)
  else some s.depth

def next (s : Scan) (c : Char) : Option Scan :=
  (s.depthBehind c).map fun depth => ⟨s.quoting.next c, depth⟩

def after (s : Scan) : Text → Option Scan
  | [] => some s
  | c :: t => (s.next c).bind fun s => s.after t

theorem after_nil (s : Scan) : s.after [] = some s := rfl
theorem after_cons (s : Scan) (c : Char) (t : Text) :
    s.after (c :: t) = (s.next c).bind fun s => s.after t := rfl
theorem after_append (s : Scan) (t u : Text) :
    s.after (t ++ u) = (s.after t).bind fun s => s.after u := by
  induction t generalizing s with
  | nil => rfl
  | cons c t ih =>
    rw [List.cons_append, after_cons, after_cons, Option.bind_assoc]
    congr 1
    funext s
    exact ih s

theorem after_append_of_eq {s s' : Scan} {t : Text} (h : s.after t = some s') (u : Text) :
    s.after (t ++ u) = s'.after u := by rw [after_append, h, Option.bind_some]

/-- inside quotes, or at any other character, only the quotes matter -/
theorem next_eq {s : Scan} {c : Char} (h : s.quoting = .plain → c ≠ '(' ∧ c ≠ ')') :
    s.next c = some ⟨s.quoting.next c, s.depth⟩ := by
  have hopen : ¬ (s.quoting = .plain ∧ c = '(') := fun hc => (h hc.1).1 hc.2
  have hclose : ¬ (s.quoting = .plain ∧ c = ')') := fun hc => (h hc.1).2 hc.2
  rw [next, depthBehind, if_neg hopen, if_neg hclose, Option.map_some]

theorem next_open (n : Nat) : next ⟨.plain, n⟩ '(' = some ⟨.plain, n + 1⟩ := rfl
theorem next_close (n : Nat) : next ⟨.plain, n + 1⟩ ')' = some ⟨.plain, n⟩ := rfl
theorem next_close_zero : next ⟨.plain, 0⟩ ')' = none := rfl

theorem forall_prefix_cons {p : Text → Prop} {c : Char} {t : Text} :
    (∀ front, front <+: c :: t → p front) ↔ p [] ∧ ∀ front, front <+: t → p (c :: front) := by
  constructor
  · intro h
    exact ⟨h [] List.nil_prefix, fun front hf => h _ ((List.prefix_cons_inj c).mpr hf)⟩
  · rintro ⟨hnil, hcons⟩ front hf
    rcases List.prefix_cons_iff.mp hf with rfl | ⟨rest, rfl, hrest⟩
    · exact hnil
    · exact hcons rest hrest

/-- the pass counts: it goes on as long as nothing is closed that is not open -/
theorem after_eq_some {q : Quoting} {n : Nat} {t : Text} {s : Scan} :
    after ⟨q, n⟩ t = some s ↔
      s.quoting = q.after t ∧ s.depth + countOutside ')' q t = n + countOutside '(' q t ∧
        ∀ front, front <+: t → countOutside ')' q front ≤ n + countOutside '(' q front := by
  induction t generalizing q n with
  | nil =>
    obtain ⟨q', m⟩ := s
    simp only [after_nil, Option.some.injEq, Scan.mk.injEq, Quoting.after_nil, countOutside_nil,
      List.prefix_nil, forall_eq, Nat.add_zero, Nat.zero_le, and_true]
    exact and_congr eq_comm eq_comm
  | cons c t ih =>
    rw [forall_prefix_cons]
    simp only [after_cons, Quoting.after_cons, countOutside_cons, countOutside_nil]
    by_cases hopen : q = .plain ∧ c = '('
    · obtain ⟨rfl, rfl⟩ := hopen
      rw [next_open, Option.bind_some, show Quoting.plain.next '(' = .plain from rfl, ih]
      simp only [true_and, reduceIte, show ¬ '(' = ')' by decide]
      grind
    · by_cases hclose : q = .plain ∧ c = ')'
      · obtain ⟨rfl, rfl⟩ := hclose
        simp only [true_and, reduceIte, show ¬ ')' = '(' by decide,
          show Quoting.plain.next ')' = .plain from rfl]
        cases n with
        | zero =>
          rw [next_close_zero, Option.bind_none]
          simp only [reduceCtorEq, false_iff]
          rintro ⟨_, _, _, hcovered⟩
          have halone := hcovered [] List.nil_prefix
          simp only [countOutside_nil] at halone
          omega
        | succ n =>
          rw [next_close, Option.bind_some, ih]
          grind
      · rw [next_eq fun hq => ⟨fun hc => hopen ⟨hq, hc⟩, fun hc => hclose ⟨hq, hc⟩⟩,
          Option.bind_some, ih, if_neg hopen, if_neg hclose]
        simp

end Scan

/-- outside quotes, the text brings the pass from depth `m` to depth `n` -/
def Leads (m : Nat) (t : Text) (n : Nat) : Prop := Scan.after ⟨.plain, m⟩ t = some ⟨.plain, n⟩

instance (m : Nat) (t : Text) (n : Nat) : Decidable (Leads m t n) :=
  inferInstanceAs (Decidable (_ = _))

theorem leads_nil (n : Nat) : Leads n [] n := rfl

theorem Leads.append {m n k : Nat} {t u : Text} (ht : Leads m t n) (hu : Leads n u k) :
    Leads m (t ++ u) k := by
  unfold Leads
  rw [Scan.after_append_of_eq ht]
  exact hu

theorem leads_open (n : Nat) : Leads n ['('] (n + 1) := rfl
theorem leads_close (n : Nat) : Leads (n + 1) [')'] n := rfl

/-- a balanced text leaves any depth as it is -/
theorem Balanced.leads {t : Text} (h : Balanced t) (n : Nat) : Leads n t n := by
  refine Scan.after_eq_some.mpr ⟨h.closed.symm, by rw [h.even], fun front hfront => ?_⟩
  have := h.covered front hfront
  omega

theorem balanced_iff {t : Text} : Balanced t ↔ Leads 0 t 0 := by
  constructor
  · intro h
    exact h.leads 0
  · intro h
    obtain ⟨hquoting, hdepth, hcovered⟩ := Scan.after_eq_some.mp h
    simp only [Nat.zero_add] at hdepth hcovered
    exact ⟨hquoting.symm, hcovered, hdepth.symm⟩

theorem Leads.balanced {t : Text} (h : Leads 0 t 0) : Balanced t := balanced_iff.mpr h

instance (t : Text) : Decidable (Balanced t) := decidable_of_iff _ balanced_iff.symm

example : Balanced "f(`(`, ')')".toList := by decide
example : ¬ Balanced ")(".toList := by decide

/-! ## texts put together -/

theorem balanced_nil : Balanced [] := (leads_nil 0).balanced

theorem Balanced.append {t u : Text} (ht : Balanced t) (hu : Balanced u) : Balanced (t ++ u) :=
  ((ht.leads 0).append (hu.leads 0)).balanced

theorem balanced_cons {c : Char} {t : Text} (hc : Balanced [c]) (ht : Balanced t) :
    Balanced (c :: t) := hc.append ht

theorem balanced_parenthesized {t : Text} (h : Balanced t) :
    Balanced (Comparison.parenthesized t) :=
  (((leads_open 0).append (h.leads 1)).append (leads_close 0)).balanced

theorem balanced_separated {sep : Text} (hsep : Balanced sep) (ts : List Text)
    (h : ∀ t ∈ ts, Balanced t) : Balanced (Text.separated sep ts) := by
  induction ts with
  | nil => exact balanced_nil
  | cons t ts ih =>
    have ht := h t (List.mem_cons_self ..)
    cases ts with
    | nil => exact ht
    | cons u us =>
      rw [Text.separated_cons]
      exact (ht.append hsep).append (ih fun v hv => h v (List.mem_cons_of_mem _ hv))

theorem balanced_flatten {ts : List Text} (h : ∀ t ∈ ts, Balanced t) : Balanced ts.flatten := by
  induction ts with
  | nil => exact balanced_nil
  | cons t ts ih =>
    exact (h t (List.mem_cons_self ..)).append (ih fun u hu => h u (List.mem_cons_of_mem _ hu))

/-! ## characters that neither quote nor nest -/

/-- no quote and no parenthesis -/
def isFlat (c : Char) : Bool := !Quoting.isQuote c && c ≠ '(' && c ≠ ')'

theorem balanced_singleton {c : Char} (h : isFlat c) : Balanced [c] := by
  simp only [isFlat, Bool.and_eq_true, Bool.not_eq_true', decide_eq_true_eq, ne_eq] at h
  obtain ⟨⟨hquote, hopen⟩, hclose⟩ := h
  refine Leads.balanced ?_
  show (Scan.next ⟨.plain, 0⟩ c).bind (fun s => s.after []) = _
  rw [Scan.next_eq fun _ => ⟨hopen, hclose⟩]
  simp [Quoting.next, hquote, Scan.after_nil]

theorem balanced_of_flat (t : Text) (h : ∀ c ∈ t, isFlat c) : Balanced t := by
  induction t with
  | nil => exact balanced_nil
  | cons c t ih =>
    exact balanced_cons (balanced_singleton (h c (List.mem_cons_self ..)))
      (ih fun d hd => h d (List.mem_cons_of_mem _ hd))

theorem isFlat_of_isDigit {c : Char} (h : c.isDigit) : isFlat c := by
  have hne : ∀ d : Char, d.isDigit = false → c ≠ d := fun _ => ne_of_test h
  simp [isFlat, Quoting.isQuote, hne '\'' rfl, hne '"' rfl, hne '`' rfl, hne '(' rfl, hne ')' rfl]

theorem balanced_ofNat (n : Nat) : Balanced (Text.ofNat n) :=
  balanced_of_flat _ fun _ hc => isFlat_of_isDigit (isDigit_of_mem_ofNat hc)

/-! ## names -/

/-- whatever a name holds stays between its backticks -/
theorem Scan.after_quotedChars (n : Nat) (chars : Text) :
    Scan.after ⟨.inside '`', n⟩ (chars.flatMap Identifier.quotedChar) = some ⟨.inside '`', n⟩ := by
  induction chars with
  | nil => rfl
  | cons c chars ih =>
    have hc : Scan.after ⟨.inside '`', n⟩ (Identifier.quotedChar c) = some ⟨.inside '`', n⟩ := by
      unfold Identifier.quotedChar
      split
      · rfl
      · rename_i h
        rw [after_cons, next_eq fun hq => by cases hq]
        simp [Quoting.next, h, after_nil]
    rw [List.flatMap_cons, after_append_of_eq hc, ih]

theorem balanced_quotedName (chars : Text) : Balanced (Identifier.quotedName chars) := by
  refine Leads.balanced ?_
  show Scan.after ⟨.inside '`', 0⟩ (chars.flatMap Identifier.quotedChar ++ ['`']) = _
  rw [Scan.after_append_of_eq (Scan.after_quotedChars 0 chars)]
  rfl

theorem balanced_identifier (id : Identifier) : Balanced id.text := by
  apply balanced_separated (by decide)
  intro t ht
  obtain ⟨p, _, rfl⟩ := List.mem_map.mp ht
  cases p with
  | name chars => exact balanced_quotedName chars
  | star => exact balanced_singleton rfl

theorem balanced_quote {t quoted : Text} (h : quote t = .ok quoted) : Balanced quoted := by
  unfold quote at h
  cases hp : Identifier.parse t with
  | error e => rw [hp] at h; cases h
  | ok id => rw [hp] at h; cases h; exact balanced_identifier id

theorem balanced_nameText {name : String} {lenient : Bool} {t : Text}
    (hraw : lenient = true → IsRawName name → Balanced name.toList)
    (h : nameText name lenient = .ok t) : Balanced t := by
  unfold nameText at h
  simp only at h
  split at h
  · rename_i hstar
    cases h
    rw [hstar]
    exact balanced_singleton rfl
  · split at h
    · rename_i quoted hq
      cases h
      exact balanced_quote hq
    · rename_i e he
      split at h
      · rename_i hl
        cases h
        simp only [Bool.and_eq_true, decide_eq_true_eq] at hl
        exact hraw hl.1 fun quoted hq => by rw [hq] at he; cases he
      · cases h

theorem balanced_strictName {name : String} {t : Text} (h : nameText name false = .ok t) :
    Balanced t :=
  balanced_nameText (fun hl => absurd hl Bool.false_ne_true) h

theorem balanced_aliasText {name : Option String} {t : Text} (h : aliasText name = .ok t) :
    Balanced t := by
  cases name with
  | none => cases h; exact balanced_nil
  | some name =>
    simp only [aliasText] at h
    split at h
    · cases h
      exact balanced_nil
    · cases hn : nameText name false with
      | error e => rw [hn] at h; cases h
      | ok u =>
        rw [hn] at h
        cases h
        exact Balanced.append (by decide) (balanced_strictName hn)

theorem balanced_nameListText {names : List String} {t : Text} (h : nameListText names = .ok t) :
    Balanced t := by
  unfold nameListText at h
  cases hm : names.mapM (nameText · false) with
  | error e => rw [hm] at h; cases h
  | ok ts =>
    rw [hm] at h
    cases h
    exact balanced_separated (by decide) ts (forall_of_mapM hm fun _ _ _ => balanced_strictName)

/-! ## identifiers as a caller writes them -/

namespace Identifier

theorem isFlat_of_isBare {c : Char} (h : isBare Unicode.alphanumeric.contains c) : isFlat c := by
  have hne : ∀ d : Char, isBare Unicode.alphanumeric.contains d = false → c ≠ d :=
    fun _ => ne_of_test h
  simp [isFlat, Quoting.isQuote, hne '\'' (by decide), hne '"' (by decide), hne '`' (by decide),
    hne '(' (by decide), hne ')' (by decide)]

theorem balanced_of_spelled {p : Part} {t : Text}
    (h : p.Spelled Unicode.alphanumeric.contains t) : Balanced t := by
  cases h with
  | word h => exact balanced_of_flat _ fun c hc => isFlat_of_isBare (h.bare c hc)
  | quoted _ => exact balanced_quotedName _
  | star => decide

theorem balanced_of_spells {ps : List Part} {t : Text}
    (h : Spells Unicode.alphanumeric.contains ps t) : Balanced t := by
  induction h with
  | last h => exact balanced_of_spelled h
  | cons h _ _ ih => exact (balanced_of_spelled h).append (balanced_cons (by decide) ih)

end Identifier

/-- what can be read as an identifier is balanced as it stands -/
theorem balanced_of_quote {t quoted : Text} (h : quote t = .ok quoted) : Balanced t := by
  cases hparse : Identifier.parse t with
  | error e =>
    rw [quote, hparse] at h
    cases h
  | ok id => exact Identifier.balanced_of_spells (Identifier.parseWith_eq_ok_iff.mp hparse).2

/-! ## texts in the places of placeholders -/

namespace Scan

/-- a placeholder stands outside quotes, where a balanced text changes nothing -/
theorem after_weave {q : Quoting} {n : Nat} {t : Text} {fills : List Text}
    (hfills : ∀ f ∈ fills, Balanced f) (hlength : fills.length = countFrom q t) :
    after ⟨q, n⟩ (weave (splitFrom q t) fills) = after ⟨q, n⟩ t := by
  induction t generalizing q n fills with
  | nil => rw [show splitFrom q [] = ([], []) from rfl, weave_nil]
  | cons c t ih =>
    rw [countFrom_cons] at hlength
    cases hmark : q.isMark c with
    | true =>
      have hq : q = .plain ∧ c = '?' := by
        simpa only [Quoting.isMark, Bool.and_eq_true, decide_eq_true_eq] using hmark
      obtain ⟨rfl, rfl⟩ := hq
      rw [if_pos hmark] at hlength
      cases fills with
      | nil => rw [List.length_nil] at hlength; omega
      | cons fill fills =>
        rw [List.length_cons] at hlength
        have hrest := ih (n := n) (q := .plain) (fun f hf => hfills f (List.mem_cons_of_mem _ hf))
          (by rw [show Quoting.plain.next '?' = .plain from rfl] at hlength; omega)
        rw [splitFrom_mark hmark, weave_cons, List.nil_append,
          after_append_of_eq ((hfills fill (List.mem_cons_self ..)).leads n)]
        exact hrest
    | false =>
      rw [hmark, if_neg Bool.false_ne_true, Nat.zero_add] at hlength
      rw [splitFrom_plain hmark]
      show after ⟨q, n⟩ (c :: weave (splitFrom (q.next c) t) fills) = _
      rw [after_cons, after_cons]
      unfold next
      cases depthBehind ⟨q, n⟩ c with
      | none => rfl
      | some m => exact ih hfills hlength

end Scan

theorem balanced_weave {t : Text} (h : Balanced t) {fills : List Text}
    (hfills : ∀ f ∈ fills, Balanced f) (hlength : fills.length = count t) :
    Balanced (weave (split t) fills) := by
  refine Leads.balanced ?_
  unfold Leads split
  rw [Scan.after_weave hfills hlength]
  exact h.leads 0

theorem balanced_marks (n : Nat) : Balanced (Comparison.marks n) :=
  balanced_separated (by decide) _ fun t ht => by rw [(List.mem_replicate.mp ht).2]; decide

theorem balanced_argumentMarks (a : Argument) : Balanced (argumentMarks a) := by
  unfold argumentMarks
  split
  · split
    · decide
    · exact balanced_marks _
  · decide

/-- a caller's text stays balanced when its placeholders are repeated -/
theorem balanced_templateText {sql : Text} (hsql : Balanced sql) {args : Arguments} {t : Text}
    (h : templateText sql args = .ok t) : Balanced t := by
  unfold templateText repeatMarks at h
  simp only at h
  split at h
  · cases h
    exact hsql
  · split at h
    · rename_i hlength
      cases h
      refine balanced_weave hsql (fun f hf => ?_) (by rw [List.length_map, hlength])
      obtain ⟨a, _, rfl⟩ := List.mem_map.mp hf
      exact balanced_argumentMarks a
    · cases h

/-! ## texts that replace others -/

/-- no quote, no backslash, no parenthesis: such a text means the same in and outside quotes -/
def Neutral (t : Text) : Prop := ∀ c ∈ t, isFlat c ∧ c ≠ '\\'

instance (t : Text) : Decidable (Neutral t) := List.decidableBAll _ t

namespace Scan

theorem after_neutral {q : Quoting} (hq : q.Proper) {t : Text} (ht : Neutral t) (hne : t ≠ [])
    (n : Nat) : after ⟨q, n⟩ t = some ⟨q.settled, n⟩ := by
  induction t generalizing q with
  | nil => exact absurd rfl hne
  | cons c t ih =>
    obtain ⟨hflat, hslash⟩ := ht c (List.mem_cons_self ..)
    simp only [isFlat, Bool.and_eq_true, Bool.not_eq_true', decide_eq_true_eq, ne_eq] at hflat
    obtain ⟨⟨hquote, hopen⟩, hclose⟩ := hflat
    rw [after_cons, next_eq fun _ => ⟨hopen, hclose⟩, Option.bind_some,
      Quoting.next_bland hq hquote hslash]
    cases t with
    | nil => exact after_nil _
    | cons d u =>
      rw [ih hq.settled (fun e he => ht e (List.mem_cons_of_mem _ he)) (List.cons_ne_nil _ _),
        Quoting.settled_settled]

/-- key and value lead to the same state, so what follows is read from the same state -/
theorem after_replaceAll {key value : Text} (hkey : Neutral key) (hvalue : Neutral value)
    (hne : value ≠ []) {q : Quoting} (hq : q.Proper) (n : Nat) (t : Text) :
    after ⟨q, n⟩ (Text.replaceAll key value t) = after ⟨q, n⟩ t := by
  fun_induction Text.replaceAll key value t generalizing q n with
  | case1 => rfl
  | case2 c t h ih =>
    have ht : c :: t = key ++ (c :: t).drop key.length :=
      (List.prefix_iff_eq_append.mp (List.isPrefixOf_iff_prefix.mp h.1)).symm
    rw [after_append_of_eq (after_neutral hq hvalue hne n), ih hq.settled]
    conv => rhs; rw [ht, after_append_of_eq (after_neutral hq hkey h.2 n)]
  | case3 c t h ih =>
    rw [after_cons, after_cons]
    unfold next
    cases depthBehind ⟨q, n⟩ c with
    | none => rfl
    | some m => exact ih (hq.next c) m

end Scan

theorem balanced_replaceAll {key value t : Text} (hkey : Neutral key) (hvalue : Neutral value)
    (hne : value ≠ []) (h : Balanced t) : Balanced (Text.replaceAll key value t) := by
  refine Leads.balanced ?_
  unfold Leads
  rw [Scan.after_replaceAll hkey hvalue hne (q := .plain) trivial]
  exact h.leads 0

end BoundSql
