import Mathlib
import BoundSql.Proofs.Placeholder.Inert
import BoundSql.Proofs.Utf8

/-!
# Placeholders and tokens

The pass over a text has no lookahead: it leaves a string at every delimiter and enters it again at
the next one if the delimiter stands twice, and in bytes it does not know where characters begin.  A
lexer reads whole tokens instead.  Both find the same placeholders.

* `readToken`, `tokens`        the tokens of a text, strings and names in backticks as a whole;
* `markOffsets`                where the placeholders among them begin;
* `positionsFrom_eq_markOffsets`   the pass finds those;
* `byteMarks`, `byteMarks_encode`   the same pass over bytes finds them too;
* `positionsFrom_pairwise`, `exists_of_mem_positionsFrom`   they follow each other, each the one byte
  of a `?`;
* `Text.slice?`, `slices?_positions`   the text between them, each piece between characters;
* `slices`, `slices_positions` the bytes between them are those of the text cut at its placeholders.
-/

namespace BoundSql

namespace Placeholder

/-! ## tokens -/

/-- a piece of a statement text as a lexer reads it -/
inductive Token where
  /-- a string or a name in backticks, with its delimiters -/
  | quoted (text : Text)
  | mark
  | other (c : Char)
  deriving DecidableEq, Repr

def Token.text : Token → Text
  | .quoted t => t
  | .mark => ['?']
  | .other c => [c]

/-- what belongs to a token behind the delimiter that has opened it, with the delimiter that closes
it, and what follows.  A delimiter that stands twice belongs to the token, and so does, in a string,
whatever stands behind a backslash; a token that is not closed goes on to the end -/
def readToken (quote : Char) : Text → Text × Text
  | [] => ([], [])
  | [c] => ([c], [])
  | c :: d :: t =>
    if (c = '\\' ∧ quote ≠ '`') ∨ (c = quote ∧ d = quote) then
      (c :: d :: (readToken quote t).1, (readToken quote t).2)
    else if c = quote then ([c], d :: t)
    else (c :: (readToken quote (d :: t)).1, (readToken quote (d :: t)).2)

theorem readToken_append (quote : Char) (t : Text) :
    (readToken quote t).1 ++ (readToken quote t).2 = t := by
  fun_induction readToken quote t with
  | case1 | case2 | case4 => rfl
  | case3 c d t _ ih => exact congrArg (fun u => c :: d :: u) ih
  | case5 c d t _ _ ih => exact congrArg (c :: ·) ih

theorem length_readToken (quote : Char) (t : Text) : (readToken quote t).2.length ≤ t.length := by
  have h := congrArg List.length (readToken_append quote t)
  rw [List.length_append] at h
  omega

def tokens : Text → List Token
  | [] => []
  | c :: t =>
    if Quoting.isQuote c then .quoted (c :: (readToken c t).1) :: tokens (readToken c t).2
    else (if c = '?' then .mark else .other c) :: tokens t
termination_by t => t.length
decreasing_by
  · exact Nat.lt_succ_of_le (length_readToken c t)
  · exact Nat.lt_succ_self _

/-- nothing of the text is lost -/
theorem text_tokens (t : Text) : (tokens t).flatMap Token.text = t := by
  fun_induction tokens t with
  | case1 => rfl
  | case2 c t _ ih =>
    rw [List.flatMap_cons, ih]
    exact congrArg (c :: ·) (readToken_append c t)
  | case3 c t _ ih =>
    rw [List.flatMap_cons, ih]
    split
    · rename_i hmark
      rw [hmark]
      rfl
    · rfl

/-- the byte offsets of the placeholders among tokens that begin at `offset` -/
def markOffsets (offset : Nat) : List Token → List Nat
  | [] => []
  | token :: rest =>
    let later := markOffsets (offset + Text.size token.text) rest
    if token = .mark then offset :: later else later

/-! ## the pass finds the placeholders of the tokens -/

theorem positionsFrom_cons (s : Quoting) (offset : Nat) (c : Char) (t : Text) :
    positionsFrom s offset (c :: t) =
      (if s.isMark c then [offset] else []) ++
        positionsFrom (s.next c) (offset + c.utf8Size) t := by
  rw [positionsFrom]
  split <;> rfl

theorem positionsFrom_inside_cons (quote : Char) (offset : Nat) (c : Char) (t : Text) :
    positionsFrom (.inside quote) offset (c :: t) =
      positionsFrom ((Quoting.inside quote).next c) (offset + c.utf8Size) t :=
  positionsFrom_cons (.inside quote) offset c t

/-- a quote is no backslash, so that a string can be left and entered again -/
theorem next_delimiter {quote : Char} (h : Quoting.isQuote quote) :
    (Quoting.inside quote).next quote = .plain ∧ Quoting.plain.next quote = .inside quote ∧
      Quoting.plain.isMark quote = false := by
  have hescape : quote ≠ '\\' := by
    rintro rfl
    cases h
  have hmark : quote ≠ '?' := by
    rintro rfl
    cases h
  simp [Quoting.next, Quoting.isMark, h, hescape, hmark]

/-- behind the delimiter that opens a token, the pass finds nothing in the token -/
theorem positionsFrom_token {quote : Char} (hquote : Quoting.isQuote quote) (offset : Nat)
    (t : Text) :
    positionsFrom (.inside quote) offset t =
      positionsFrom .plain (offset + Text.size (readToken quote t).1) (readToken quote t).2 := by
  obtain ⟨hleave, henter, hmark⟩ := next_delimiter hquote
  fun_induction readToken quote t generalizing offset with
  | case1 => rfl
  | case2 c =>
    rw [positionsFrom_inside_cons]
    rfl
  | case3 c d t hpair ih =>
    have hinside : ((Quoting.inside quote).next c).isMark d = false ∧
        ((Quoting.inside quote).next c).next d = .inside quote := by
      rcases hpair with ⟨rfl, hname⟩ | ⟨rfl, rfl⟩
      · rw [show (Quoting.inside quote).next '\\' = .escaped quote by simp [Quoting.next, hname]]
        exact ⟨rfl, rfl⟩
      · rw [hleave]
        exact ⟨hmark, henter⟩
    rw [positionsFrom_inside_cons, positionsFrom_cons, hinside.1, hinside.2]
    show positionsFrom _ _ t = _
    rw [ih, Text.size_cons, Text.size_cons, Nat.add_assoc, Nat.add_assoc]
  | case4 d t _ =>
    rw [positionsFrom_inside_cons, hleave]
    rfl
  | case5 c d t hpair hopen ih =>
    have hstay : (Quoting.inside quote).next c = .inside quote := by
      have hescape : ¬ (c = '\\' ∧ quote ≠ '`') := fun h => hpair (.inl h)
      simp [Quoting.next, hescape, hopen]
    rw [positionsFrom_inside_cons, hstay, ih, Text.size_cons, Nat.add_assoc]

theorem positionsFrom_eq_markOffsets (offset : Nat) (t : Text) :
    positionsFrom .plain offset t = markOffsets offset (tokens t) := by
  fun_induction tokens t generalizing offset with
  | case1 => rfl
  | case2 c t hquote ih =>
    rw [positionsFrom_cons, (next_delimiter hquote).2.1, (next_delimiter hquote).2.2,
      positionsFrom_token hquote, ih]
    show _ = markOffsets (offset + Text.size (c :: (readToken c t).1)) _
    rw [Text.size_cons, Nat.add_assoc]
    rfl
  | case3 c t hquote ih =>
    have hnext : Quoting.plain.next c = .plain := by simp [Quoting.next, hquote]
    rw [positionsFrom_cons, hnext, ih]
    by_cases hmark : c = '?'
    · subst hmark
      rfl
    · rw [if_neg hmark, if_neg (by simp [Quoting.isMark, hmark])]
      rfl

/-! ## the pass over bytes -/

/-- the offsets at which the pass, byte by byte, finds a placeholder -/
def byteMarks (s : Quoting) (offset : Nat) : List UInt8 → List Nat
  | [] => []
  | b :: bytes =>
    let later := byteMarks (s.next (Char.ofUInt8 b)) (offset + 1) bytes
    if s.isMark (Char.ofUInt8 b) then offset :: later else later

/-- a character that is neither a quote nor a backslash nor a placeholder -/
def isIdle (c : Char) : Bool := !Quoting.isQuote c && c ≠ '\\' && c ≠ '?'

theorem isIdle_of_le {c : Char} (h : 128 ≤ c.toNat) : isIdle c := by
  have hne (d : Char) (hd : d.toNat < 128) : c ≠ d := by
    rintro rfl
    omega
  simp [isIdle, Quoting.isQuote, hne '\'' (by decide), hne '"' (by decide), hne '`' (by decide),
    hne '\\' (by decide), hne '?' (by decide)]

theorem isMark_idle {c : Char} (h : isIdle c) (s : Quoting) : s.isMark c = false := by
  simp only [isIdle, Bool.and_eq_true, decide_eq_true_eq] at h
  simp [Quoting.isMark, h.2]

theorem next_idle {s : Quoting} (hs : s.Proper) {c : Char} (h : isIdle c) :
    s.next c = s.settled := by
  simp only [isIdle, Bool.and_eq_true, Bool.not_eq_true', decide_eq_true_eq] at h
  exact Quoting.next_bland hs h.1.1 h.1.2

theorem toNat_ofUInt8 (b : UInt8) : (Char.ofUInt8 b).toNat = b.toNat := UInt8.toNat_toUInt32 b

/-- the bytes of a character beyond ASCII: none of them is a quote, a backslash or a `?` -/
theorem byteMarks_high {s : Quoting} (hs : s.Proper) (offset : Nat) {high : List UInt8}
    (h : ∀ b ∈ high, 128 ≤ b.toNat) (hne : high ≠ []) (bytes : List UInt8) :
    byteMarks s offset (high ++ bytes) = byteMarks s.settled (offset + high.length) bytes := by
  induction high generalizing s offset with
  | nil => exact absurd rfl hne
  | cons b high ih =>
    obtain ⟨hb, hhigh⟩ := List.forall_mem_cons.mp h
    have hidle : isIdle (Char.ofUInt8 b) := isIdle_of_le (by rwa [toNat_ofUInt8])
    rw [List.cons_append, byteMarks, isMark_idle hidle, next_idle hs hidle, List.length_cons]
    cases high with
    | nil => rfl
    | cons d high =>
      simp only [Bool.false_eq_true, if_false]
      rw [ih hs.settled (offset + 1) hhigh (List.cons_ne_nil _ _), Quoting.settled_settled]
      congr 1
      omega

/-- byte by byte, the pass finds the same placeholders -/
theorem byteMarks_encode {s : Quoting} (hs : s.Proper) (offset : Nat) (t : Text) :
    byteMarks s offset (Utf8.encode t) = positionsFrom s offset t := by
  induction t generalizing s offset with
  | nil => rfl
  | cons c t ih =>
    rw [Utf8.encode_cons, positionsFrom_cons]
    rcases Utf8.utf8EncodeChar_cases c with ⟨hlt, hbytes⟩ | ⟨hle, hbytes⟩
    · have hbyte : Char.ofUInt8 (UInt8.ofNat c.toNat) = c := by
        rw [← Char.toNat_inj, toNat_ofUInt8, UInt8.toNat_ofNat', Nat.mod_eq_of_lt (by omega)]
      have hsize : c.utf8Size = 1 := by
        rw [← String.length_utf8EncodeChar, hbytes]
        rfl
      rw [hbytes, List.singleton_append, byteMarks, hbyte, ih (hs.next c), hsize]
      split <;> rfl
    · have hidle := isIdle_of_le hle
      have hne : String.utf8EncodeChar c ≠ [] := by simp
      rw [byteMarks_high hs offset hbytes hne, String.length_utf8EncodeChar, ih hs.settled,
        isMark_idle hidle, next_idle hs hidle]
      rfl

/-! ## the text between placeholders -/

theorem le_of_mem_positionsFrom {s : Quoting} {offset : Nat} {t : Text} :
    ∀ p ∈ positionsFrom s offset t, offset ≤ p := by
  induction t generalizing s offset with
  | nil => exact fun _ hp => absurd hp List.not_mem_nil
  | cons c t ih =>
    intro p hp
    rw [positionsFrom_cons] at hp
    rcases List.mem_append.mp hp with hp | hp
    · split at hp
      · exact Nat.le_of_eq (List.mem_singleton.mp hp).symm
      · exact absurd hp List.not_mem_nil
    · have := ih p hp
      omega

theorem positionsFrom_pairwise (s : Quoting) (offset : Nat) (t : Text) :
    (positionsFrom s offset t).Pairwise (· < ·) := by
  induction t generalizing s offset with
  | nil => exact .nil
  | cons c t ih =>
    rw [positionsFrom_cons]
    split
    · refine List.pairwise_cons.mpr ⟨fun p hp => ?_, ih _ _⟩
      have hpos := c.utf8Size_pos
      have := le_of_mem_positionsFrom p hp
      omega
    · exact ih _ _

/-- a placeholder is a `?`, which is one byte, between two characters of the text -/
theorem exists_of_mem_positionsFrom {s : Quoting} {offset p : Nat} {t : Text}
    (h : p ∈ positionsFrom s offset t) :
    ∃ before behind, t = before ++ '?' :: behind ∧ p = offset + Text.size before := by
  induction t generalizing s offset with
  | nil => exact absurd h List.not_mem_nil
  | cons c t ih =>
    rw [positionsFrom_cons] at h
    rcases List.mem_append.mp h with h | h
    · split at h
      · rename_i hmark
        simp only [Quoting.isMark, Bool.and_eq_true, decide_eq_true_eq] at hmark
        exact ⟨[], t, by rw [hmark.2, List.nil_append], List.mem_singleton.mp h⟩
      · exact absurd h List.not_mem_nil
    · obtain ⟨before, behind, rfl, rfl⟩ := ih h
      exact ⟨c :: before, behind, rfl, by rw [Text.size_cons, Nat.add_assoc]⟩

end Placeholder

namespace Text

/-- the first `n` bytes of a text and the rest, if a character ends there -/
def cut? : Nat → Text → Option (Text × Text)
  | 0, t => some ([], t)
  | _ + 1, [] => none
  | n + 1, c :: t =>
    if c.utf8Size ≤ n + 1 then
      (cut? (n + 1 - c.utf8Size) t).map fun (before, behind) => (c :: before, behind)
    else none

theorem cut?_append (before behind : Text) :
    cut? (size before) (before ++ behind) = some (before, behind) := by
  induction before with
  | nil => rw [size_nil, List.nil_append, cut?]
  | cons c before ih =>
    have hpos := c.utf8Size_pos
    obtain ⟨n, hn⟩ : ∃ n, size (c :: before) = n + 1 :=
      ⟨c.utf8Size + size before - 1, by rw [size_cons]; omega⟩
    rw [hn, List.cons_append, cut?, if_pos (by rw [size_cons] at hn; omega)]
    have hrest : n + 1 - c.utf8Size = size before := by
      rw [size_cons] at hn
      omega
    rw [hrest, ih]
    rfl

/-- the bytes of a text from `first` up to `last` -/
def slice? (t : Text) (first last : Nat) : Option Text := do
  if first ≤ last then
    let (front, _) ← cut? last t
    let (_, slice) ← cut? first front
    return slice
  else none

theorem cut?_inv {n : Nat} {t before behind : Text} (h : cut? n t = some (before, behind)) :
    t = before ++ behind ∧ n = size before := by
  fun_induction cut? n t generalizing before with
  | case1 t =>
    cases h
    exact ⟨rfl, rfl⟩
  | case2 n => cases h
  | case3 n c t hle ih =>
    obtain ⟨⟨before', behind'⟩, hcut, he⟩ := Option.map_eq_some_iff.mp h
    cases he
    obtain ⟨rfl, hsize⟩ := ih hcut
    refine ⟨rfl, ?_⟩
    rw [size_cons]
    omega
  | case4 n c t hle => cases h

theorem slice?_append (front gap behind : Text) :
    slice? (front ++ gap ++ behind) (size front) (size (front ++ gap)) = some gap := by
  have hle : size front ≤ size (front ++ gap) := by
    rw [size_append]
    omega
  rw [slice?, if_pos hle, cut?_append]
  show (cut? (size front) (front ++ gap)).bind _ = _
  rw [cut?_append]
  rfl

theorem slice?_inv {t slice : Text} {first last : Nat} (h : slice? t first last = some slice) :
    ∃ front behind, t = front ++ slice ++ behind ∧ first = size front ∧
      last = size (front ++ slice) := by
  unfold slice? at h
  split at h
  · obtain ⟨⟨upTo, behind⟩, hlast, h⟩ := Option.bind_eq_some_iff.mp h
    obtain ⟨⟨front, slice'⟩, hfirst, h⟩ := Option.bind_eq_some_iff.mp h
    cases h
    obtain ⟨rfl, rfl⟩ := cut?_inv hlast
    obtain ⟨rfl, rfl⟩ := cut?_inv hfirst
    exact ⟨front, behind, rfl, rfl, rfl⟩
  · cases h

end Text

namespace Placeholder

/-- the pieces of a text from `last` to the first of the positions, from behind each position to the
next one, and behind the last one -/
def slices? (t : Text) (last : Nat) : List Nat → Option (List Text)
  | [] => do
    let (_, behind) ← Text.cut? last t
    return [behind]
  | p :: rest => do
    let slice ← Text.slice? t last p
    let slices ← slices? t (p + 1) rest
    return slice :: slices

/-- the pass stands behind `gap`, the text since the last placeholder, in front of which stands
`front` -/
theorem slices?_positionsFrom (s : Quoting) (front gap t : Text) :
    slices? (front ++ gap ++ t) (Text.size front) (positionsFrom s (Text.size (front ++ gap)) t) =
      some ((gap ++ (splitFrom s t).1) :: (splitFrom s t).2) := by
  induction t generalizing s front gap with
  | nil =>
    show (Text.cut? (Text.size front) (front ++ gap ++ [])).bind _ = _
    rw [List.append_assoc, Text.cut?_append]
    rfl
  | cons c t ih =>
    rw [positionsFrom_cons]
    cases hmark : s.isMark c with
    | true =>
      have hmark' := hmark
      simp only [Quoting.isMark, Bool.and_eq_true, decide_eq_true_eq] at hmark'
      obtain ⟨-, rfl⟩ := hmark'
      have hsize : Text.size (front ++ gap ++ ['?']) = Text.size (front ++ gap) + 1 :=
        Text.size_append _ _
      have hrest := ih (s.next '?') (front ++ gap ++ ['?']) []
      rw [List.append_nil, List.nil_append, hsize, List.append_assoc (front ++ gap)] at hrest
      rw [splitFrom_mark hmark, List.append_nil]
      show (Text.slice? _ _ _).bind _ = _
      rw [Text.slice?_append]
      show (slices? (front ++ gap ++ (['?'] ++ t)) (Text.size (front ++ gap) + 1)
        (positionsFrom (s.next '?') (Text.size (front ++ gap) + 1) t)).bind _ = _
      rw [hrest]
      rfl
    | false =>
      have hrest := ih (s.next c) front (gap ++ [c])
      have hsize : Text.size (front ++ (gap ++ [c])) = Text.size (front ++ gap) + c.utf8Size := by
        rw [← List.append_assoc, Text.size_append]
        rfl
      rw [hsize, ← List.append_assoc, List.append_assoc (front ++ gap), List.append_assoc gap]
        at hrest
      rw [splitFrom_plain hmark]
      exact hrest

theorem slices?_positions (t : Text) :
    slices? t 0 (positions t) = some ((split t).1 :: (split t).2) :=
  slices?_positionsFrom .plain [] [] t

/-! ## the bytes between placeholders -/

/-- the bytes from `last` to the first of the positions, from behind each position to the next one,
and those behind the last one -/
def slices (last : Nat) : List Nat → List UInt8 → List (List UInt8)
  | [], bytes => [bytes.drop last]
  | p :: rest, bytes => (bytes.drop last).take (p - last) :: slices (p + 1) rest bytes

theorem take_encode (t behind : Text) :
    (Utf8.encode (t ++ behind)).take (Text.size t) = Utf8.encode t := by
  rw [Utf8.encode_append, ← Utf8.length_encode, List.take_left]

theorem drop_encode (front t : Text) :
    (Utf8.encode (front ++ t)).drop (Text.size front) = Utf8.encode t := by
  rw [Utf8.encode_append, ← Utf8.length_encode, List.drop_left]

/-- what lies between characters of a text lies between their bytes -/
theorem slices_of_slices? {t : Text} {last : Nat} {ps : List Nat} {pieces : List Text}
    (h : slices? t last ps = some pieces) :
    slices last ps (Utf8.encode t) = pieces.map Utf8.encode := by
  induction ps generalizing last pieces with
  | nil =>
    obtain ⟨⟨front, behind⟩, hcut, h⟩ := Option.bind_eq_some_iff.mp h
    cases h
    obtain ⟨rfl, rfl⟩ := Text.cut?_inv hcut
    exact congrArg (fun bytes => [bytes]) (drop_encode front behind)
  | cons p rest ih =>
    obtain ⟨slice, hslice, h⟩ := Option.bind_eq_some_iff.mp h
    obtain ⟨pieces, hpieces, h⟩ := Option.bind_eq_some_iff.mp h
    cases h
    obtain ⟨front, behind, rfl, rfl, rfl⟩ := Text.slice?_inv hslice
    show List.take _ (List.drop _ _) :: slices _ rest _ = _
    rw [ih hpieces, ← List.drop_take, take_encode, drop_encode]
    rfl

theorem slices_positions (t : Text) :
    slices 0 (positions t) (Utf8.encode t) = ((split t).1 :: (split t).2).map Utf8.encode :=
  slices_of_slices? (slices?_positions t)

/-- The placeholders that the pass finds are those of the tokens, and those that a pass over the
bytes finds.  They follow each other, each is the byte of a `?` between two characters, and the bytes
in front of, between and behind them are the texts that the text is cut into. -/
theorem positions_lexed (t : Text) :
    positions t = markOffsets 0 (tokens t) ∧ (tokens t).flatMap Token.text = t ∧
    positions t = byteMarks .plain 0 (Utf8.encode t) ∧
    (positions t).Pairwise (· < ·) ∧
    (∀ p ∈ positions t, (Utf8.encode t)[p]? = some 63 ∧
      ∃ before behind, t = before ++ '?' :: behind ∧ p = Text.size before) ∧
    slices 0 (positions t) (Utf8.encode t) = ((split t).1 :: (split t).2).map Utf8.encode := by
  have hbytes : positions t = byteMarks .plain 0 (Utf8.encode t) :=
    (byteMarks_encode (s := .plain) trivial 0 t).symm
  refine ⟨positionsFrom_eq_markOffsets 0 t, text_tokens t, hbytes,
    positionsFrom_pairwise .plain 0 t, fun p hp => ?_, slices_positions t⟩
  obtain ⟨before, behind, rfl, rfl⟩ := exists_of_mem_positionsFrom hp
  rw [Nat.zero_add]
  refine ⟨?_, before, behind, rfl, rfl⟩
  rw [Utf8.encode_append, ← Utf8.length_encode, List.getElem?_append_right (Nat.le_refl _),
    Nat.sub_self]
  rfl

/-! characters of several bytes, a doubled delimiter, an escaped one, and a string that is not closed -/

def accented : Text := "é'ö''?\\'?' = ? \"?".toList

theorem positions_lexed_accented :
    tokens accented = [.other 'é', .quoted "'ö''?\\'?'".toList, .other ' ', .other '=', .other ' ',
        .mark, .other ' ', .quoted "\"?".toList] ∧
      positions accented = [15] ∧
      ∃ before behind, accented = before ++ '?' :: behind ∧ 15 = Text.size before := by
  obtain ⟨hpositions, _, _, _, hbytes, _⟩ := positions_lexed accented
  have htokens : tokens accented = [.other 'é', .quoted "'ö''?\\'?'".toList, .other ' ',
      .other '=', .other ' ', .mark, .other ' ', .quoted "\"?".toList] := by cbv
  have hmarks : positions accented = [15] := by
    rw [hpositions, htokens]
    decide
  exact ⟨htokens, hmarks, (hbytes 15 (by rw [hmarks]; decide)).2⟩

end Placeholder

end BoundSql
