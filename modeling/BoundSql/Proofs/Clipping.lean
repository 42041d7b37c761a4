import BoundSql.Log
import BoundSql.Proofs.Placeholder.Lexer

/-!
# Statements cut for the log

A text that is too long for the log is cut at an offset in its bytes, which a search backwards from
the limit has to find between two characters.

* `Utf8.isBoundary`, `Utf8.isBoundary_encode_iff`   offsets at which a character begins or the text ends;
* `Utf8.lastBoundary`        the search;
* `Text.prefix_takeBytes`    no longer beginning of whole characters fits;
* `Utf8.lastBoundary_encode` the search ends behind the longest beginning that fits;
* `Logger.clip?`             the cut by offsets, which fails inside a character;
* `Logger.clip_longest`      it never does, and shows as much as fits.
-/

namespace BoundSql

/-! ## boundaries between characters -/

namespace Utf8

/-- a byte with which no character begins -/
def isTail (b : UInt8) : Bool := 128 ≤ b.toNat && b.toNat < 192

theorem utf8EncodeChar_eq_cons (c : Char) : ∃ first tail,
    String.utf8EncodeChar c = first :: tail ∧ isTail first = false ∧ ∀ b ∈ tail, isTail b := by
  have hval : c.val.toNat = c.toNat := rfl
  unfold String.utf8EncodeChar isTail
  simp only [hval]
  split
  · exact ⟨_, [], rfl, by simp; omega, by simp⟩
  · split
    · exact ⟨_, [_], rfl, by simp; omega, by simp; omega⟩
    · split
      · exact ⟨_, [_, _], rfl, by simp; omega, by simp; omega⟩
      · exact ⟨_, [_, _, _], rfl, by simp; omega, by simp; omega⟩

/-- the offset is the beginning, the end, or in front of a byte with which a character begins -/
def isBoundary (bytes : List UInt8) (i : Nat) : Bool :=
  if i = 0 then true
  else
    match bytes[i]? with
    | none => i = bytes.length
    | some b => !isTail b

theorem isBoundary_zero (bytes : List UInt8) : isBoundary bytes 0 = true := rfl

section
variable (c : Char) (t : Text)

theorem isBoundary_inside {i : Nat} (hpos : 0 < i) (hlt : i < c.utf8Size) :
    isBoundary (encode (c :: t)) i = false := by
  obtain ⟨first, tail, hbytes, -, htail⟩ := utf8EncodeChar_eq_cons c
  have hlength : tail.length + 1 = c.utf8Size := by
    rw [← String.length_utf8EncodeChar, hbytes, List.length_cons]
  obtain ⟨i, rfl⟩ := Nat.exists_eq_add_one.mpr hpos
  have hin : i < tail.length := by omega
  have hbyte : (encode (c :: t))[i + 1]? = some tail[i] := by
    rw [encode_cons, hbytes, List.cons_append, List.getElem?_cons_succ,
      List.getElem?_append_left hin, List.getElem?_eq_getElem hin]
  rw [isBoundary, if_neg (Nat.succ_ne_zero i), hbyte]
  simp only [htail _ (List.getElem_mem hin), Bool.not_true]

theorem isBoundary_behind (i : Nat) :
    isBoundary (encode (c :: t)) (c.utf8Size + i) = isBoundary (encode t) i := by
  have hpos := c.utf8Size_pos
  have hbyte : (encode (c :: t))[c.utf8Size + i]? = (encode t)[i]? := by
    rw [encode_cons, ← String.length_utf8EncodeChar, List.getElem?_append_right (Nat.le_add_right ..),
      Nat.add_sub_cancel_left]
  have hlength : (encode (c :: t)).length = c.utf8Size + (encode t).length := by
    rw [encode_cons, List.length_append, String.length_utf8EncodeChar]
  rw [isBoundary, if_neg (by omega), hbyte, hlength]
  cases i with
  | zero =>
    cases t with
    | nil => exact decide_eq_true rfl
    | cons d t =>
      obtain ⟨first, tail, hbytes, hfirst, -⟩ := utf8EncodeChar_eq_cons d
      rw [encode_cons, hbytes, isBoundary_zero]
      simp [hfirst]
  | succ i =>
    rw [isBoundary, if_neg (Nat.succ_ne_zero i)]
    split
    · simp
    · rfl

end

/-- the boundaries of a text are the sizes of its beginnings -/
theorem isBoundary_encode_iff {t : Text} {i : Nat} :
    isBoundary (encode t) i = true ↔ ∃ front, front <+: t ∧ i = Text.size front := by
  induction t generalizing i with
  | nil =>
    simp only [List.prefix_nil, exists_eq_left, Text.size_nil]
    cases i with
    | zero => exact iff_of_true rfl rfl
    | succ i => exact iff_of_false Bool.false_ne_true (Nat.succ_ne_zero i)
  | cons c t ih =>
    simp only [List.prefix_cons_iff, or_and_right, exists_or, exists_eq_left, Text.size_nil]
    have hpos := c.utf8Size_pos
    by_cases hzero : i = 0
    · exact iff_of_true (hzero ▸ isBoundary_zero _) (.inl hzero)
    · by_cases hlt : i < c.utf8Size
      · rw [isBoundary_inside c t (by omega) hlt]
        refine iff_of_false Bool.false_ne_true ?_
        rintro (h | ⟨_, ⟨front, rfl, _⟩, rfl⟩)
        · exact hzero h
        · rw [Text.size_cons] at hlt
          omega
      · obtain ⟨j, rfl⟩ := Nat.exists_eq_add_of_le (Nat.le_of_not_lt hlt)
        rw [isBoundary_behind, ih]
        constructor
        · rintro ⟨front, hfront, rfl⟩
          exact .inr ⟨c :: front, ⟨front, rfl, hfront⟩, rfl⟩
        · rintro (h | ⟨_, ⟨front, rfl, hfront⟩, hj⟩)
          · exact absurd h hzero
          · rw [Text.size_cons] at hj
            exact ⟨front, hfront, by omega⟩

/-- the greatest boundary up to the limit, searched from there backwards -/
def lastBoundary (bytes : List UInt8) (limit : Nat) : Nat :=
  ((List.range (limit + 1)).reverse.find? (isBoundary bytes)).getD 0

end Utf8

/-! ## the longest beginning that fits -/

theorem find?_reverse_range {p : Nat → Bool} {n i : Nat} (hi : i ≤ n) (hp : p i = true)
    (hlast : ∀ j, i < j → j ≤ n → p j = false) :
    (List.range (n + 1)).reverse.find? p = some i := by
  induction n with
  | zero =>
    cases Nat.le_zero.mp hi
    simp [hp]
  | succ n ih =>
    rw [List.range_succ, List.reverse_append, List.reverse_singleton, List.singleton_append]
    rcases Nat.lt_or_eq_of_le hi with hlt | rfl
    · rw [List.find?_cons_of_neg (by rw [hlast (n + 1) hlt (Nat.le_refl _)]; exact Bool.false_ne_true)]
      exact ih (Nat.le_of_lt_succ hlt) fun j hj hle => hlast j hj (Nat.le_succ_of_le hle)
    · exact List.find?_cons_of_pos hp

namespace Text

theorem size_le_of_prefix {front t : Text} (h : front <+: t) : size front ≤ size t := by
  obtain ⟨rest, rfl⟩ := h
  rw [size_append]
  exact Nat.le_add_right ..

/-- no longer beginning of whole characters fits into the budget -/
theorem prefix_takeBytes {front t : Text} {budget : Nat} (h : front <+: t)
    (hsize : size front ≤ budget) : front <+: takeBytes budget t := by
  induction t generalizing front budget with
  | nil => exact h
  | cons c t ih =>
    rcases List.prefix_cons_iff.mp h with rfl | ⟨front, rfl, hfront⟩
    · exact List.nil_prefix
    · rw [size_cons] at hsize
      rw [takeBytes, if_pos (by omega)]
      exact List.cons_prefix_cons.mpr ⟨rfl, ih hfront (by omega)⟩

end Text

/-- the search ends behind the longest beginning that fits -/
theorem Utf8.lastBoundary_encode (t : Text) (budget : Nat) :
    lastBoundary (encode t) budget = Text.size (t.takeBytes budget) := by
  have hlast : ∀ j, Text.size (t.takeBytes budget) < j → j ≤ budget →
      isBoundary (encode t) j = false := by
    intro j hj hle
    by_contra hboundary
    obtain ⟨front, hfront, rfl⟩ :=
      isBoundary_encode_iff.mp (Bool.eq_true_of_not_eq_false hboundary)
    have hfits := Text.size_le_of_prefix (Text.prefix_takeBytes hfront hle)
    omega
  have hboundary : isBoundary (encode t) (Text.size (t.takeBytes budget)) = true :=
    isBoundary_encode_iff.mpr ⟨_, Text.takeBytes_isPrefix budget t, rfl⟩
  rw [lastBoundary, find?_reverse_range (Text.size_takeBytes_le budget t) hboundary hlast]
  rfl

/-! ## what a logger shows -/

namespace Logger

/-- the text cut at the offset that the search finds; nothing if that is inside a character -/
def clip? (l : Logger) (t : Text) : Option Text :=
  match l.limit with
  | none => some t
  | some budget =>
    if (Utf8.encode t).length ≤ budget then some t
    else do
      let shown ← Text.slice? t 0 (Utf8.lastBoundary (Utf8.encode t) budget)
      return shown ++ "...".toList

theorem clip?_eq (l : Logger) (t : Text) : l.clip? t = some (l.clip t) := by
  unfold clip? clip
  cases l.limit with
  | none => rfl
  | some budget =>
    simp only [Utf8.length_encode]
    split
    · rfl
    · obtain ⟨rest, hrest⟩ := Text.takeBytes_isPrefix budget t
      have hslice := Text.slice?_append [] (t.takeBytes budget) rest
      rw [List.nil_append, hrest, Text.size_nil, ← Utf8.lastBoundary_encode] at hslice
      rw [hslice]
      rfl

/-- What is logged of a statement is the statement itself if its bytes fit, and otherwise the longest
beginning of whole characters that fits, marked as cut.  The search through the bytes always ends at
a boundary, behind this beginning, so that the text can be cut there. -/
theorem clip_longest (l : Logger) (t : Text) : ∃ shown,
    (∀ ctx arguments, ("sql", .text (String.ofList shown)) ∈ (l.statement ctx t arguments).fields) ∧
    l.clip? t = some shown ∧
    match l.limit with
    | none => shown = t
    | some budget =>
      if (Utf8.encode t).length ≤ budget then shown = t
      else ∃ front, shown = front ++ "...".toList ∧
        front <+: t ∧ (Utf8.encode front).length ≤ budget ∧
        (∀ other, other <+: t → (Utf8.encode other).length ≤ budget → other <+: front) ∧
        Utf8.lastBoundary (Utf8.encode t) budget = (Utf8.encode front).length ∧
        Utf8.isBoundary (Utf8.encode t) (Utf8.encode front).length = true := by
  refine ⟨l.clip t, fun ctx arguments => by simp [statement], l.clip?_eq t, ?_⟩
  unfold clip
  cases l.limit with
  | none => rfl
  | some budget =>
    simp only [Utf8.length_encode]
    split
    · rfl
    · have hprefix := Text.takeBytes_isPrefix budget t
      exact ⟨t.takeBytes budget, rfl, hprefix, Text.size_takeBytes_le budget t,
        fun _ => Text.prefix_takeBytes, Utf8.lastBoundary_encode t budget,
        Utf8.isBoundary_encode_iff.mpr ⟨_, hprefix, rfl⟩⟩

/-! a limit inside a character of two bytes -/

def narrow : Logger := { limit := some 2 }

theorem clip_longest_narrow :
    narrow.clip? "aé bcd".toList = some "a...".toList ∧
      ("sql", .text (String.ofList "a...".toList)) ∈
        (narrow.statement {} "aé bcd".toList 0).fields ∧
      Utf8.isBoundary (Utf8.encode "aé bcd".toList) 2 = false := by
  have hclip : narrow.clip? "aé bcd".toList = some "a...".toList := by cbv
  obtain ⟨shown, hlogged, hshown, _⟩ := clip_longest narrow "aé bcd".toList
  cases hshown.symm.trans hclip
  exact ⟨hclip, hlogged {} 0, by decide⟩

end Logger

end BoundSql
