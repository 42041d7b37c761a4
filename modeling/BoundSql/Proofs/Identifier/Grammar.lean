import BoundSql.Identifier
import BoundSql.Proofs.Result

/-!
# The grammar of identifiers

An identifier is one part, or several with points between them: bare words, names in backticks and,
in the last place, `*`.  Every text that is none leaves this grammar at some place, and the first
one is what its error tells.

* `IsWord`, `Part.Spelled`, `Spells`   the grammar;
* `Breaks`                      how a text leaves it, with the fault that is found;
* `readQuoted_closed`, `readBare_word`, `readPart_word` …   what the readers make of the pieces;
* `readParts_of_spells`, `readParts_of_breaks`   and of whole texts;
* `spells_or_breaks`            there are no other texts;
* `parseWith_grammar`           what is an identifier, and why other texts are none.

Nothing here depends on which characters are letters.
-/

namespace BoundSql

namespace Identifier

/-! ## the grammar -/

/-- a bare word; letters in the usual sense meet the last two conditions anyhow -/
structure IsWord (letter : Char → Bool) (word : Text) : Prop where
  ne_nil : word ≠ []
  bare : ∀ c ∈ word, isBare letter c
  no_point : '.' ∉ word
  no_opening : word.head? ≠ some '`' ∧ word.head? ≠ some '*'

inductive Part.Spelled (letter : Char → Bool) : Part → Text → Prop
  | word {word : Text} (h : IsWord letter word) : Spelled letter (.name word) word
  | quoted {name : Text} (h : name ≠ []) : Spelled letter (.name name) (quotedName name)
  | star : Spelled letter .star ['*']

/-- parts with points between them, `*` only at the end -/
inductive Spells (letter : Char → Bool) : List Part → Text → Prop
  | last {p : Part} {t : Text} (h : p.Spelled letter t) : Spells letter [p] t
  | cons {p : Part} {t u : Text} {ps : List Part} (h : p.Spelled letter t) (hp : p ≠ .star)
      (rest : Spells letter ps u) : Spells letter (p :: ps) (t ++ '.' :: u)

/-- the first place at which a text leaves the grammar -/
inductive Breaks (letter : Char → Bool) : Text → NameFault → Prop
  /-- no part: a point in front, or one behind another -/
  | missing {t : Text} (h : ∀ c ∈ t.head?, c = '.') : Breaks letter t .emptyPart
  | unclosed (name : Text) : Breaks letter ('`' :: name.flatMap quotedChar) .unclosedQuote
  | hollow {t : Text} (h : t.head? ≠ some '`') : Breaks letter ('`' :: '`' :: t) .emptyQuoted
  | foreign {word t : Text} {c : Char} (hword : ∀ d ∈ word, isBare letter d ∧ d ≠ '.')
      (hopening : (word ++ c :: t).head? ≠ some '`' ∧ (word ++ c :: t).head? ≠ some '*')
      (hbare : isBare letter c = false) (hpoint : c ≠ '.') :
      Breaks letter (word ++ c :: t) (.invalidCharacter c)
  | trailing {p : Part} {t : Text} (h : p.Spelled letter t) : Breaks letter (t ++ ['.']) .trailingDot
  | behindQuoted {name t : Text} {c : Char} (h : name ≠ []) (hquote : c ≠ '`') (hpoint : c ≠ '.') :
      Breaks letter (quotedName name ++ c :: t) (.unexpected c)
  | behindStar {t : Text} {c : Char} (hpoint : c ≠ '.') : Breaks letter ('*' :: c :: t) (.unexpected c)
  | starNotLast {t : Text} (h : t ≠ []) : Breaks letter ('*' :: '.' :: t) .starNotLast
  | later {p : Part} {t u : Text} {fault : NameFault} (h : p.Spelled letter t) (hp : p ≠ .star)
      (hu : u ≠ []) (rest : Breaks letter u fault) : Breaks letter (t ++ '.' :: u) fault

variable {letter : Char → Bool}

/-- letters in the usual sense, points and the other delimiters not among them -/
theorem isWord_iff (h : ∀ c ∈ ['.', '`', '*'], letter c = false) (word : Text) :
    IsWord letter word ↔ word ≠ [] ∧ ∀ c ∈ word, isBare letter c := by
  have hbare : ∀ c ∈ ['.', '`', '*'], isBare letter c = false := by
    intro c hc
    have hletter := h c hc
    simp only [List.mem_cons, List.not_mem_nil, or_false] at hc
    rcases hc with rfl | rfl | rfl <;> simp [isBare, hletter]
  refine ⟨fun hw => ⟨hw.ne_nil, hw.bare⟩, fun ⟨hne, hall⟩ => ⟨hne, hall, ?_, ?_, ?_⟩⟩
  · exact fun hmem => absurd (hall _ hmem) (Bool.eq_false_iff.mp (hbare '.' (by simp)))
  · exact fun hhead => absurd (hall _ (List.mem_of_head? hhead))
      (Bool.eq_false_iff.mp (hbare '`' (by simp)))
  · exact fun hhead => absurd (hall _ (List.mem_of_head? hhead))
      (Bool.eq_false_iff.mp (hbare '*' (by simp)))

theorem Part.Spelled.ne_nil {p : Part} {t : Text} (h : p.Spelled letter t) : t ≠ [] := by
  cases h with
  | word h => exact h.ne_nil
  | quoted _ => exact List.cons_ne_nil _ _
  | star => exact List.cons_ne_nil _ _

theorem Spells.ne_nil {ps : List Part} {t : Text} (h : Spells letter ps t) : t ≠ [] := by
  cases h with
  | last h => exact h.ne_nil
  | cons h _ _ => simp

/-! ## names in backticks -/

theorem readQuoted_doubled (t : Text) :
    readQuoted ('`' :: '`' :: t) = (readQuoted t).map fun (name, rest) => ('`' :: name, rest) := by
  rw [readQuoted]

theorem readQuoted_ordinary {c : Char} (h : c ≠ '`') (t : Text) :
    readQuoted (c :: t) = (readQuoted t).map fun (name, rest) => (c :: name, rest) := by
  rw [readQuoted, if_neg h]
  exact fun _ hc => absurd hc h

theorem readQuoted_close {rest : Text} (h : rest.head? ≠ some '`') :
    readQuoted ('`' :: rest) = some ([], rest) := by
  rw [readQuoted, if_pos rfl]
  rintro t - rfl
  exact h rfl

theorem readQuoted_quotedChar (c : Char) (t : Text) :
    readQuoted (quotedChar c ++ t) = (readQuoted t).map fun (name, rest) => (c :: name, rest) := by
  unfold quotedChar
  split
  · rename_i h
    subst h
    exact readQuoted_doubled t
  · rename_i h
    exact readQuoted_ordinary h t

theorem readQuoted_closed (name : Text) {rest : Text} (h : rest.head? ≠ some '`') :
    readQuoted (name.flatMap quotedChar ++ '`' :: rest) = some (name, rest) := by
  induction name with
  | nil => exact readQuoted_close h
  | cons c name ih =>
    rw [List.flatMap_cons, List.append_assoc, readQuoted_quotedChar, ih]
    rfl

theorem readQuoted_unclosed (name : Text) : readQuoted (name.flatMap quotedChar) = none := by
  induction name with
  | nil => rfl
  | cons c name ih =>
    rw [List.flatMap_cons, readQuoted_quotedChar, ih]
    rfl

/-- a text is a name without end, or one that is closed -/
theorem quoted_cases (t : Text) :
    (∃ name : Text, t = name.flatMap quotedChar) ∨
      ∃ name rest : Text, t = name.flatMap quotedChar ++ '`' :: rest ∧ rest.head? ≠ some '`' := by
  fun_induction readQuoted t with
  | case1 => exact .inl ⟨[], rfl⟩
  | case2 t ih =>
    rcases ih with ⟨name, rfl⟩ | ⟨name, rest, rfl, hrest⟩
    · exact .inl ⟨'`' :: name, rfl⟩
    · exact .inr ⟨'`' :: name, rest, rfl, hrest⟩
  | case3 t hdoubled =>
    refine .inr ⟨[], t, rfl, fun hhead => ?_⟩
    obtain ⟨u, rfl⟩ := List.head?_eq_some_iff.mp hhead
    exact hdoubled u rfl rfl
  | case4 c t _ hc ih =>
    have hchar : quotedChar c = [c] := if_neg hc
    rcases ih with ⟨name, rfl⟩ | ⟨name, rest, rfl, hrest⟩
    · exact .inl ⟨c :: name, by rw [List.flatMap_cons, hchar]; rfl⟩
    · exact .inr ⟨c :: name, rest, by rw [List.flatMap_cons, hchar]; rfl, hrest⟩

/-! ## bare words -/

section
variable {word : Text} (hword : ∀ c ∈ word, isBare letter c ∧ c ≠ '.')
include hword

theorem readBare_word {rest : Text} (hrest : ∀ c ∈ rest.head?, c = '.') :
    readBare letter (word ++ rest) = .ok (word, rest) := by
  induction word with
  | nil =>
    cases rest with
    | nil => rfl
    | cons c rest =>
      obtain rfl : c = '.' := hrest c rfl
      rfl
  | cons c word ih =>
    obtain ⟨⟨hbare, hpoint⟩, hword⟩ := List.forall_mem_cons.mp hword
    rw [List.cons_append, readBare, if_neg hpoint, if_pos hbare, ih hword]

theorem readBare_foreign {c : Char} (hbare : isBare letter c = false) (hpoint : c ≠ '.')
    (t : Text) : readBare letter (word ++ c :: t) = .error (.invalidCharacter c) := by
  induction word with
  | nil => rw [List.nil_append, readBare, if_neg hpoint, if_neg (Bool.eq_false_iff.mp hbare)]
  | cons d word ih =>
    obtain ⟨⟨hd, hne⟩, hword⟩ := List.forall_mem_cons.mp hword
    rw [List.cons_append, readBare, if_neg hne, if_pos hd, ih hword]

end

/-- a text is a run of bare characters up to a point or the end, or up to a character that may not
stand there -/
theorem bare_cases (letter : Char → Bool) (t : Text) :
    ∃ word rest : Text, t = word ++ rest ∧ (∀ c ∈ word, isBare letter c ∧ c ≠ '.') ∧
      ((∀ c ∈ rest.head?, c = '.') ∨
        ∃ c u, rest = c :: u ∧ isBare letter c = false ∧ c ≠ '.') := by
  induction t with
  | nil => exact ⟨[], [], rfl, by simp, .inl (by simp)⟩
  | cons c t ih =>
    by_cases hpoint : c = '.'
    · exact ⟨[], c :: t, rfl, by simp, .inl (by simp [hpoint])⟩
    · cases hbare : isBare letter c with
      | false => exact ⟨[], c :: t, rfl, by simp, .inr ⟨c, t, rfl, hbare, hpoint⟩⟩
      | true =>
        obtain ⟨word, rest, rfl, hword, hrest⟩ := ih
        exact ⟨c :: word, rest, rfl, List.forall_mem_cons.mpr ⟨⟨hbare, hpoint⟩, hword⟩, hrest⟩

/-! ## parts -/

/-- a text that opens neither with a backtick nor with `*` is read as a bare word -/
theorem readPart_bare {t : Text} (h : t.head? ≠ some '`' ∧ t.head? ≠ some '*') :
    readPart letter t =
      match readBare letter t with
      | .error fault => .error fault
      | .ok ([], _) => .error .emptyPart
      | .ok (name, rest) => .ok (.name name, rest) := by
  unfold readPart
  split
  · exact absurd rfl h.1
  · exact absurd rfl h.2
  · cases readBare letter t with
    | error fault => rfl
    | ok read => rfl

theorem readPart_word {word rest : Text} (h : IsWord letter word)
    (hrest : ∀ c ∈ rest.head?, c = '.') :
    readPart letter (word ++ rest) = .ok (.name word, rest) := by
  have hword : ∀ c ∈ word, isBare letter c ∧ c ≠ '.' := fun c hc =>
    ⟨h.bare c hc, fun he => h.no_point (he ▸ hc)⟩
  have hread := readBare_word hword hrest
  obtain ⟨c, word, rfl⟩ := List.exists_cons_of_ne_nil h.ne_nil
  rw [readPart_bare (t := c :: word ++ rest) h.no_opening, hread]

theorem readPart_quoted {name rest : Text} (h : name ≠ []) (hrest : rest.head? ≠ some '`') :
    readPart letter (quotedName name ++ rest) = .ok (.name name, rest) := by
  obtain ⟨c, name, rfl⟩ := List.exists_cons_of_ne_nil h
  have htext : quotedName (c :: name) ++ rest =
      '`' :: ((c :: name).flatMap quotedChar ++ '`' :: rest) := by simp [quotedName]
  rw [htext, readPart, readQuoted_closed _ hrest]

theorem readPart_star (rest : Text) : readPart letter ('*' :: rest) = .ok (.star, rest) := rfl

/-- a part up to a point or the end -/
theorem readPart_spelled {p : Part} {t rest : Text} (h : p.Spelled letter t)
    (hrest : ∀ c ∈ rest.head?, c = '.') : readPart letter (t ++ rest) = .ok (p, rest) := by
  cases h with
  | word h => exact readPart_word h hrest
  | quoted h => exact readPart_quoted h fun hhead => absurd (hrest _ hhead) (by decide)
  | star => exact readPart_star rest

/-! ## several parts -/

theorem readPoint_point {u : Text} (hu : u ≠ []) : readPoint ('.' :: u) = .ok (some u) := by
  obtain ⟨c, u, rfl⟩ := List.exists_cons_of_ne_nil hu
  rfl

theorem readPoint_other {c : Char} (h : c ≠ '.') (t : Text) :
    readPoint (c :: t) = .error (.unexpected c) := by
  rw [readPoint, if_neg h]
  rintro rfl
  exact absurd rfl h

theorem readParts_eq (letter : Char → Bool) (t : Text) :
    readParts letter t =
      match readPart letter t with
      | .error fault => .error fault
      | .ok (p, rest) =>
        match readPoint rest with
        | .error fault => .error fault
        | .ok none => .ok [p]
        | .ok (some next) =>
          if p = .star then .error .starNotLast else (readParts letter next).map (p :: ·) := by
  rw [readParts]
  split
  · rename_i hpart
    rw [hpart]
  · rename_i hpart
    rw [hpart]
    dsimp only
    split
    · rename_i hpoint
      rw [hpoint]
    · rename_i hpoint
      rw [hpoint]
    · rename_i next hpoint
      rw [hpoint]
      dsimp only
      split
      · rfl
      · cases readParts letter next <;> rfl

section
variable {t rest : Text} {p : Part} {fault : NameFault}

theorem readParts_of_fault (h : readPart letter t = .error fault) :
    readParts letter t = .error fault := by rw [readParts_eq, h]

theorem readParts_of_point (h : readPart letter t = .ok (p, rest))
    (hpoint : readPoint rest = .error fault) : readParts letter t = .error fault := by
  rw [readParts_eq, h]
  dsimp only
  rw [hpoint]

theorem readParts_last (h : readPart letter t = .ok (p, [])) : readParts letter t = .ok [p] := by
  rw [readParts_eq, h]
  rfl

theorem readParts_next (h : readPart letter t = .ok (p, '.' :: rest)) (hrest : rest ≠ []) :
    readParts letter t =
      if p = .star then .error .starNotLast else (readParts letter rest).map (p :: ·) := by
  rw [readParts_eq, h]
  dsimp only
  rw [readPoint_point hrest]

end

theorem readParts_of_spells {ps : List Part} {t : Text} (h : Spells letter ps t) :
    readParts letter t = .ok ps := by
  induction h with
  | @last p t h =>
    have hread : readPart letter (t ++ []) = .ok (p, []) := readPart_spelled h (by simp)
    rw [List.append_nil] at hread
    exact readParts_last hread
  | cons h hp rest ih =>
    rw [readParts_next (readPart_spelled h (by simp)) rest.ne_nil, if_neg hp, ih]
    rfl

theorem readParts_of_breaks {t : Text} {fault : NameFault} (h : Breaks letter t fault) :
    readParts letter t = .error fault := by
  induction h with
  | @missing t h =>
    have hopening : t.head? ≠ some '`' ∧ t.head? ≠ some '*' :=
      ⟨fun hhead => absurd (h _ hhead) (by decide), fun hhead => absurd (h _ hhead) (by decide)⟩
    have hbare : readBare letter ([] ++ t) = .ok ([], t) := readBare_word (by simp) h
    rw [List.nil_append] at hbare
    exact readParts_of_fault (by rw [readPart_bare hopening, hbare])
  | unclosed name => exact readParts_of_fault (by rw [readPart, readQuoted_unclosed])
  | hollow h => exact readParts_of_fault (by rw [readPart, readQuoted_close h])
  | foreign hword hopening hbare hpoint =>
    exact readParts_of_fault (by rw [readPart_bare hopening, readBare_foreign hword hbare hpoint])
  | trailing h => exact readParts_of_point (readPart_spelled h (by simp)) rfl
  | behindQuoted h hquote hpoint =>
    exact readParts_of_point (readPart_quoted h (by simpa using hquote)) (readPoint_other hpoint _)
  | behindStar hpoint => exact readParts_of_point (readPart_star _) (readPoint_other hpoint _)
  | starNotLast h => rw [readParts_next (readPart_star _) h, if_pos rfl]
  | later h hp hu _ ih => rw [readParts_next (readPart_spelled h (by simp)) hu, if_neg hp, ih]; rfl

/-! ## there are no other texts -/

/-- a text starts with a part up to a point or the end, or it leaves the grammar before that -/
theorem part_or_breaks (letter : Char → Bool) (t : Text) :
    (∃ fault, Breaks letter t fault) ∨
      ∃ (p : Part) (front rest : Text), t = front ++ rest ∧ p.Spelled letter front ∧
        ∀ c ∈ rest.head?, c = '.' := by
  by_cases hquote : t.head? = some '`'
  · obtain ⟨u, rfl⟩ := List.head?_eq_some_iff.mp hquote
    rcases quoted_cases u with ⟨name, rfl⟩ | ⟨name, rest, rfl, hrest⟩
    · exact .inl ⟨_, .unclosed name⟩
    · by_cases hname : name = []
      · subst hname
        exact .inl ⟨_, .hollow hrest⟩
      · have htext : '`' :: (name.flatMap quotedChar ++ '`' :: rest) = quotedName name ++ rest := by
          simp [quotedName]
        rw [htext]
        cases rest with
        | nil => exact .inr ⟨_, _, [], rfl, .quoted hname, by simp⟩
        | cons c rest =>
          by_cases hpoint : c = '.'
          · exact .inr ⟨_, _, c :: rest, rfl, .quoted hname, by simp [hpoint]⟩
          · exact .inl ⟨_, .behindQuoted hname (by simpa using hrest) hpoint⟩
  by_cases hstar : t.head? = some '*'
  · obtain ⟨u, rfl⟩ := List.head?_eq_some_iff.mp hstar
    cases u with
    | nil => exact .inr ⟨.star, ['*'], [], rfl, .star, by simp⟩
    | cons c u =>
      by_cases hpoint : c = '.'
      · exact .inr ⟨.star, ['*'], c :: u, rfl, .star, by simp [hpoint]⟩
      · exact .inl ⟨_, .behindStar hpoint⟩
  obtain ⟨word, rest, rfl, hword, hrest | ⟨c, u, rfl, hbare, hpoint⟩⟩ := bare_cases letter t
  · cases word with
    | nil => exact .inl ⟨_, .missing hrest⟩
    | cons c word =>
      refine .inr ⟨_, _, rest, rfl, .word ⟨List.cons_ne_nil _ _, fun d hd => (hword d hd).1,
        fun hmem => (hword _ hmem).2 rfl, hquote, hstar⟩, hrest⟩
  · exact .inl ⟨_, .foreign hword ⟨hquote, hstar⟩ hbare hpoint⟩

theorem spells_or_breaks (letter : Char → Bool) (t : Text) :
    (∃ ps, Spells letter ps t) ∨ ∃ fault, Breaks letter t fault := by
  rcases part_or_breaks letter t with hbreaks | ⟨p, front, rest, ht, hfront, hrest⟩
  · exact .inr hbreaks
  cases rest with
  | nil =>
    rw [ht, List.append_nil]
    exact .inl ⟨[p], .last hfront⟩
  | cons c u =>
    obtain rfl : c = '.' := hrest c rfl
    have hshorter : u.length < t.length := by
      rw [ht, List.length_append, List.length_cons]
      omega
    rw [ht]
    by_cases hu : u = []
    · subst hu
      exact .inr ⟨_, .trailing hfront⟩
    by_cases hp : p = .star
    · subst hp
      cases hfront
      exact .inr ⟨_, .starNotLast hu⟩
    rcases spells_or_breaks letter u with ⟨ps, hps⟩ | ⟨fault, hfault⟩
    · exact .inl ⟨p :: ps, .cons hfront hp hps⟩
    · exact .inr ⟨fault, .later hfront hp hu hfault⟩
termination_by t.length

/-! ## identifiers -/

/-- what is wrong with a text that is no identifier -/
def Faulty (letter : Char → Bool) (t : Text) (fault : NameFault) : Prop :=
  ('\x00' ∈ t ∧ fault = .nul) ∨ ('\x00' ∉ t ∧ Breaks letter t fault)

theorem parseWith_of_ne_nil {t : Text} (ht : t ≠ []) (hnul : '\x00' ∉ t) :
    parseWith letter t =
      match readParts letter t with
      | .error fault => .error (.unsupported (.name (String.ofList t) fault))
      | .ok parts => .ok ⟨parts⟩ := by
  rw [parseWith, if_neg ht]
  exact (if_neg hnul).trans (by cases readParts letter t <;> rfl)

theorem parseWith_of_nul {t : Text} (hnul : '\x00' ∈ t) :
    parseWith letter t = .error (.unsupported (.name (String.ofList t) .nul)) := by
  rw [parseWith, if_neg (List.ne_nil_of_mem hnul)]
  dsimp only
  rw [if_pos hnul]

theorem parseWith_of_spells {ps : List Part} {t : Text} (hnul : '\x00' ∉ t)
    (h : Spells letter ps t) : parseWith letter t = .ok ⟨ps⟩ := by
  rw [parseWith_of_ne_nil h.ne_nil hnul, readParts_of_spells h]

theorem parseWith_of_faulty {t : Text} {fault : NameFault} (ht : t ≠ []) (h : Faulty letter t fault) :
    parseWith letter t = .error (.unsupported (.name (String.ofList t) fault)) := by
  rcases h with ⟨hnul, rfl⟩ | ⟨hnul, hbreaks⟩
  · exact parseWith_of_nul hnul
  · rw [parseWith_of_ne_nil ht hnul, readParts_of_breaks hbreaks]

theorem parseWith_cases (letter : Char → Bool) (t : Text) :
    t = [] ∨ (∃ ps, '\x00' ∉ t ∧ Spells letter ps t) ∨
      t ≠ [] ∧ ∃ fault, Faulty letter t fault := by
  by_cases ht : t = []
  · exact .inl ht
  by_cases hnul : '\x00' ∈ t
  · exact .inr (.inr ⟨ht, .nul, .inl ⟨hnul, rfl⟩⟩)
  rcases spells_or_breaks letter t with ⟨ps, hspells⟩ | ⟨fault, hbreaks⟩
  · exact .inr (.inl ⟨ps, hnul, hspells⟩)
  · exact .inr (.inr ⟨ht, fault, .inr ⟨hnul, hbreaks⟩⟩)

theorem parseWith_eq_ok_iff {t : Text} {id : Identifier} :
    parseWith letter t = .ok id ↔ '\x00' ∉ t ∧ Spells letter id.parts t := by
  refine ⟨fun hparse => ?_, fun ⟨hnul, hspells⟩ => parseWith_of_spells hnul hspells⟩
  rcases parseWith_cases letter t with rfl | ⟨ps, hnul, hspells⟩ | ⟨ht, fault, hfaulty⟩
  · cases hparse
  · cases (parseWith_of_spells hnul hspells).symm.trans hparse
    exact ⟨hnul, hspells⟩
  · cases (parseWith_of_faulty ht hfaulty).symm.trans hparse

theorem parseWith_eq_error_iff {t : Text} {e : Error} :
    parseWith letter t = .error e ↔
      (t = [] ∧ e = .missing .identifier) ∨
        t ≠ [] ∧ ∃ fault, Faulty letter t fault ∧
          e = .unsupported (.name (String.ofList t) fault) := by
  constructor
  · intro hparse
    rcases parseWith_cases letter t with rfl | ⟨ps, hnul, hspells⟩ | ⟨ht, fault, hfaulty⟩
    · cases hparse
      exact .inl ⟨rfl, rfl⟩
    · cases (parseWith_of_spells hnul hspells).symm.trans hparse
    · cases (parseWith_of_faulty ht hfaulty).symm.trans hparse
      exact .inr ⟨ht, fault, hfaulty, rfl⟩
  · rintro (⟨rfl, rfl⟩ | ⟨ht, fault, hfaulty, rfl⟩)
    · rfl
    · exact parseWith_of_faulty ht hfaulty

/-- For any notion of letters, a text without NUL that the grammar spells is read as the parts that it
spells, and no other text is read.  The empty text is missing, and every other one is not supported,
for a fault that says where it leaves the grammar: at a point in front, behind another or at the end, at
what follows a closing backtick or `*`, at a backtick that is not closed or closed at once, at a
character that no bare word has. -/
theorem parseWith_grammar (letter : Char → Bool) (t : Text) :
    (∀ parts, parseWith letter t = .ok ⟨parts⟩ ↔ '\x00' ∉ t ∧ Spells letter parts t) ∧
    (parseWith letter t = .error (.missing .identifier) ↔ t = []) ∧
    (t ≠ [] → (¬ ∃ parts, '\x00' ∉ t ∧ Spells letter parts t) →
      ∃ fault, parseWith letter t = .error (.unsupported (.name (String.ofList t) fault))) ∧
    (∀ fault, parseWith letter t = .error (.unsupported (.name (String.ofList t) fault)) ↔
      t ≠ [] ∧ Faulty letter t fault) ∧
    ((∀ c ∈ ['.', '`', '*'], letter c = false) →
      ∀ word, IsWord letter word ↔ word ≠ [] ∧ ∀ c ∈ word, isBare letter c) := by
  refine ⟨fun parts => parseWith_eq_ok_iff, ?_, ?_, ?_, isWord_iff⟩
  · rw [parseWith_eq_error_iff]
    refine ⟨?_, fun ht => .inl ⟨ht, rfl⟩⟩
    rintro (⟨ht, -⟩ | ⟨-, fault, -, he⟩)
    · exact ht
    · cases he
  · intro ht hspells
    rcases parseWith_cases letter t with hnil | hparts | ⟨-, fault, hfaulty⟩
    · exact absurd hnil ht
    · exact absurd hparts hspells
    · exact ⟨fault, parseWith_of_faulty ht hfaulty⟩
  · intro fault
    refine ⟨fun hparse => ?_, fun ⟨ht, hfaulty⟩ => parseWith_of_faulty ht hfaulty⟩
    rcases parseWith_eq_error_iff.mp hparse with ⟨-, he⟩ | ⟨ht, fault', hfaulty, he⟩
    · cases he
    · cases he
      exact ⟨ht, hfaulty⟩

/-! a bare word, a name with a backtick and a point in it and `*`; two points behind one another -/

theorem parseWith_grammar_mixed :
    (∀ c ∈ ['.', '`', '*'], Unicode.alphanumeric.contains c = false) ∧
      parse "é_1.`a``.b`.*".toList = .ok ⟨[.name "é_1".toList, .name "a`.b".toList, .star]⟩ ∧
      "a..b".toList ≠ [] ∧
      parse "a..b".toList = .error (.unsupported (.name "a..b" .emptyPart)) := by
  have hletters : ∀ c ∈ ['.', '`', '*'], Unicode.alphanumeric.contains c = false := by
    intro c hc
    simp only [List.mem_cons, List.not_mem_nil, or_false] at hc
    rcases hc with rfl | rfl | rfl <;> decide
  have hword : IsWord Unicode.alphanumeric.contains ['é', '_', '1'] ∧
      IsWord Unicode.alphanumeric.contains ['a'] := by
    obtain ⟨_, _, _, _, hwords⟩ := parseWith_grammar Unicode.alphanumeric.contains []
    refine ⟨(hwords hletters _).mpr ⟨by simp, fun c hc => ?_⟩,
      (hwords hletters _).mpr ⟨by simp, fun c hc => ?_⟩⟩ <;>
      simp only [List.mem_cons, List.not_mem_nil, or_false] at hc
    · rcases hc with rfl | rfl | rfl <;> decide
    · cases hc
      decide
  have hspells : Spells Unicode.alphanumeric.contains
      [.name "é_1".toList, .name "a`.b".toList, .star] "é_1.`a``.b`.*".toList :=
    .cons (.word hword.1) (by decide) (.cons (.quoted (by decide)) (by decide) (.last .star))
  have hbreaks : Breaks Unicode.alphanumeric.contains ['a', '.', '.', 'b'] .emptyPart :=
    .later (.word hword.2) (by decide) (by decide) (.missing (by simp))
  obtain ⟨hread, _⟩ := parseWith_grammar Unicode.alphanumeric.contains "é_1.`a``.b`.*".toList
  obtain ⟨_, _, _, hfault, _⟩ := parseWith_grammar Unicode.alphanumeric.contains "a..b".toList
  exact ⟨hletters, (hread _).mpr ⟨by decide, hspells⟩, by decide,
    (hfault _).mpr ⟨by decide, .inr ⟨by decide, hbreaks⟩⟩⟩

end Identifier

end BoundSql
