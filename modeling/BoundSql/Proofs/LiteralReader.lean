import BoundSql.Proofs.Literal
import BoundSql.Proofs.Utf8

/-!
# Reading literals back

The database reads a string literal from its opening quote to the first quote that stands neither
behind a backslash nor twice.  A literal is written so that this reader finds its end, whatever
follows but another quote, and gets out of it what was written.

* `readString`, `readStringLiteral`   the reader of string literals;
* `readBytesLiteral`                  strings as bytes, and literals in hexadecimal;
* `readString_escape`, `readStringLiteral_escape`   a text is read back;
* `readHex?_hexBytes`, `readBytesLiteral_bytesLiteral`   and so are bytes;
* `literals_read_back`                for strings and bytes, with what follows.
-/

namespace BoundSql

/-! ## the reader -/

/-- what a character behind a backslash stands for -/
def unescaped (c : Char) : Char :=
  if c = '0' then '\x00'
  else if c = 'n' then '\n'
  else if c = 'r' then '\r'
  else if c = 'Z' then '\x1a'
  else c

/-- the text of a string literal from behind its opening quote, and what follows the literal; a quote
that stands twice is a quote of the text -/
def readString : Text → Option (Text × Text)
  | [] => none
  | '\\' :: c :: t => (readString t).map fun (s, rest) => (unescaped c :: s, rest)
  | '\'' :: '\'' :: t => (readString t).map fun (s, rest) => ('\'' :: s, rest)
  | c :: t =>
    if c = '\'' then some ([], t) else (readString t).map fun (s, rest) => (c :: s, rest)

def readStringLiteral : Text → Option (Text × Text)
  | '\'' :: t => readString t
  | _ => none

/-- the bytes of a literal, and what follows it: a string stands for its bytes, and a literal in
hexadecimal goes on to the next quote -/
def readBytesLiteral : Text → Option (List UInt8 × Text)
  | 'X' :: '\'' :: t =>
    match t.dropWhile (· ≠ '\'') with
    | [] => none
    | _ :: rest => (readHex? (t.takeWhile (· ≠ '\''))).map (·, rest)
  | t => (readStringLiteral t).map fun (s, rest) => (Utf8.encode s, rest)

/-! ## strings -/

theorem readString_ordinary {c : Char} (hescape : c ≠ '\\') (hquote : c ≠ '\'') (t : Text) :
    readString (c :: t) = (readString t).map fun (s, rest) => (c :: s, rest) := by
  rw [readString, if_neg hquote]
  · exact fun _ _ h => absurd h hescape
  · exact fun _ h => absurd h hquote

theorem readString_close {rest : Text} (h : rest.head? ≠ some '\'') :
    readString ('\'' :: rest) = some ([], rest) := by
  rw [readString, if_pos rfl]
  · exact fun _ _ h => absurd h (by decide)
  · rintro t - rfl
    exact h rfl

theorem readString_escapeChar (c : Char) (t : Text) :
    readString (escapeChar c ++ t) = (readString t).map fun (s, rest) => (c :: s, rest) := by
  by_cases hc : c ∈ ['\x00', '\n', '\r', '\\', '\'', '"', '\x1a']
  · simp only [List.mem_cons, List.not_mem_nil, or_false] at hc
    rcases hc with rfl | rfl | rfl | rfl | rfl | rfl | rfl <;> rfl
  · simp only [List.mem_cons, List.not_mem_nil, or_false, not_or] at hc
    obtain ⟨hnul, hnewline, hreturn, hescape, hquote, hdouble, hsub⟩ := hc
    have hsame : escapeChar c = [c] := by
      simp [escapeChar, hnul, hnewline, hreturn, hescape, hquote, hdouble, hsub]
    rw [hsame]
    exact readString_ordinary hescape hquote t

theorem readString_escape (s : Text) {rest : Text} (h : rest.head? ≠ some '\'') :
    readString (s.flatMap escapeChar ++ '\'' :: rest) = some (s, rest) := by
  induction s with
  | nil => exact readString_close h
  | cons c s ih =>
    rw [List.flatMap_cons, List.append_assoc, readString_escapeChar, ih]
    rfl

theorem escape_append (s rest : Text) :
    escape s ++ rest = '\'' :: (s.flatMap escapeChar ++ '\'' :: rest) := by simp [escape]

theorem readStringLiteral_escape (s : Text) {rest : Text} (h : rest.head? ≠ some '\'') :
    readStringLiteral (escape s ++ rest) = some (s, rest) := by
  rw [escape_append]
  exact readString_escape s h

/-! ## bytes -/

theorem hexValue?_digitChar : ∀ n < 16, hexValue? (Nat.digitChar n) = some n := by decide

theorem readHex?_hexBytes (bytes : List UInt8) :
    readHex? (bytes.flatMap hexByte) = some bytes := by
  induction bytes with
  | nil => rfl
  | cons b bytes ih =>
    have hlt := b.toNat_lt
    have hbyte : UInt8.ofNat (16 * (b.toNat / 16) + b.toNat % 16) = b := by
      rw [Nat.div_add_mod, UInt8.ofNat_toNat]
    rw [List.flatMap_cons]
    show readHex? (Nat.digitChar (b.toNat / 16) :: Nat.digitChar (b.toNat % 16) ::
      bytes.flatMap hexByte) = _
    rw [readHex?, hexValue?_digitChar _ (by omega), hexValue?_digitChar _ (by omega), ih]
    exact congrArg (fun b => some (b :: bytes)) hbyte

theorem readBytesLiteral_hexLiteral (bytes : List UInt8) (rest : Text) :
    readBytesLiteral (hexLiteral bytes ++ rest) = some (bytes, rest) := by
  have hdigits : ∀ c ∈ bytes.flatMap hexByte, (decide (c ≠ '\'')) = true := by
    intro c hc
    obtain ⟨b, _, hc⟩ := List.mem_flatMap.mp hc
    have hquote := (Placeholder.bland_hexByte b c hc).1
    have hne : c ≠ '\'' := by
      rintro rfl
      cases hquote
    simp [hne]
  have htext : hexLiteral bytes ++ rest =
      'X' :: '\'' :: (bytes.flatMap hexByte ++ '\'' :: rest) := by simp [hexLiteral]
  rw [htext, readBytesLiteral, List.dropWhile_append_of_pos hdigits,
    List.takeWhile_append_of_pos hdigits]
  simp [readHex?_hexBytes]

theorem readBytesLiteral_escape (s : Text) {rest : Text} (h : rest.head? ≠ some '\'') :
    readBytesLiteral (escape s ++ rest) = some (Utf8.encode s, rest) := by
  have hread := readStringLiteral_escape s h
  show (readStringLiteral (escape s ++ rest)).map _ = _
  rw [hread]
  rfl

/-- the literal of bytes: the string that they encode, or hexadecimal if they encode none -/
theorem bytesLiteral_cases (bytes : List UInt8) :
    (∃ t, Utf8.encode t = bytes ∧ bytesLiteral bytes = escape t) ∨
      (∀ t, Utf8.encode t ≠ bytes) ∧ bytesLiteral bytes = hexLiteral bytes := by
  unfold bytesLiteral
  cases h : Utf8.decode? bytes with
  | some t => exact .inl ⟨t, Utf8.decode?_eq_some_iff.mp h, rfl⟩
  | none =>
    refine .inr ⟨fun t ht => ?_, rfl⟩
    rw [Utf8.decode?_eq_some_iff.mpr ht] at h
    cases h

theorem readBytesLiteral_bytesLiteral (bytes : List UInt8) {rest : Text}
    (h : rest.head? ≠ some '\'') :
    readBytesLiteral (bytesLiteral bytes ++ rest) = some (bytes, rest) := by
  rcases bytesLiteral_cases bytes with ⟨t, rfl, hliteral⟩ | ⟨_, hliteral⟩
  · rw [hliteral, readBytesLiteral_escape t h]
  · rw [hliteral, readBytesLiteral_hexLiteral]

/-- what is read back from its literal has a literal of its own -/
theorem injective_of_readBack {α : Type} {literal : α → Text} {read : Text → Option (α × Text)}
    (h : ∀ a, read (literal a ++ []) = some (a, [])) : Function.Injective literal := by
  intro a b hab
  have ha := h a
  rw [hab, h b] at ha
  exact (Prod.mk.inj (Option.some.inj ha)).1.symm

theorem escape_injective : Function.Injective escape :=
  injective_of_readBack fun s => readStringLiteral_escape s (by simp)

theorem bytesLiteral_injective : Function.Injective bytesLiteral :=
  injective_of_readBack fun bytes => readBytesLiteral_bytesLiteral bytes (by simp)

/-! ## all literals of strings and bytes -/

/-- Whatever follows but a quote, the literal of a string is read as this string up to its end, and
the literal of bytes as these bytes, whether it is a string or hexadecimal.  So no two strings share
a literal, and no two runs of bytes. -/
theorem literals_read_back (s : String) (bytes : List UInt8) {rest : Text}
    (h : rest.head? ≠ some '\'') :
    (∃ literal, (Argument.string s).literal = .ok literal ∧ literal = escape s.toList ∧
      readStringLiteral (literal ++ rest) = some (s.toList, rest)) ∧
    (∃ literal, (Argument.bytes bytes).literal = .ok literal ∧
      ((∃ t, Utf8.encode t = bytes ∧ literal = escape t) ∨
        (∀ t, Utf8.encode t ≠ bytes) ∧ literal = hexLiteral bytes) ∧
      readBytesLiteral (literal ++ rest) = some (bytes, rest)) ∧
    (Function.Injective fun s => (Argument.string s).literal) ∧
    (Function.Injective fun bytes => (Argument.bytes bytes).literal) := by
  refine ⟨⟨_, rfl, rfl, readStringLiteral_escape s.toList h⟩,
    ⟨_, rfl, bytesLiteral_cases bytes, readBytesLiteral_bytesLiteral bytes h⟩, ?_, ?_⟩
  · intro s u hliteral
    exact String.toList_inj.mp (escape_injective (Except.ok.inj hliteral))
  · intro bytes others hliteral
    exact bytesLiteral_injective (Except.ok.inj hliteral)

/-! quotes and backslashes at the ends of a string, bytes that are no text, and a literal behind each -/

theorem literals_read_back_spiteful :
    ", 'x'".toList.head? ≠ some '\'' ∧
      readStringLiteral ("'\\'\\\\'".toList ++ ", 'x'".toList) =
        some ("'\\".toList, ", 'x'".toList) ∧
      readBytesLiteral ("X'27ff'".toList ++ ", 'x'".toList) =
        some ([39, 255], ", 'x'".toList) := by
  have hhead : ", 'x'".toList.head? ≠ some '\'' := by decide
  obtain ⟨⟨string, _, hstring, hread⟩, ⟨hex, hliteral, _, hreadHex⟩, _, _⟩ :=
    literals_read_back "'\\" [39, 255] hhead
  have hescaped : string = "'\\'\\\\'".toList := hstring
  have hhex : hex = "X'27ff'".toList := by
    have hbytes : (Argument.bytes [39, 255]).literal = .ok "X'27ff'".toList :=
      ok_of_toOption (by decide +kernel)
    exact Except.ok.inj (hliteral.symm.trans hbytes)
  rw [hescaped] at hread
  rw [hhex] at hreadHex
  exact ⟨hhead, hread, hreadHex⟩

end BoundSql
