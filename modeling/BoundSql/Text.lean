import BoundSql.Unicode.Blank

/-!
# Text

SQL text is handled as the list of its characters.

* `Text`                 a list of characters;
* `Text.size`            its length in UTF-8 bytes;
* `Text.trimStart`, `Text.trimEnd`   the text without the white space at one end;
* `Text.separated`       a list of texts with a separator between neighbours;
* `Text.replaceAll`      every occurrence of one text replaced by another, from the left;
* `Text.ofNat`           decimal digits.
-/

namespace BoundSql

abbrev Text := List Char

namespace Text

/-- the number of bytes of the text in UTF-8 -/
def size : Text → Nat
  | [] => 0
  | c :: t => c.utf8Size + size t

theorem size_nil : size [] = 0 := rfl
theorem size_cons (c : Char) (t : Text) : size (c :: t) = c.utf8Size + size t := rfl
theorem size_append (s t : Text) : size (s ++ t) = size s + size t := by
  induction s with
  | nil => exact (Nat.zero_add _).symm
  | cons c s ih => rw [List.cons_append, size_cons, size_cons, ih, Nat.add_assoc]

def ofNat (n : Nat) : Text := (toString n).toList

def isBlank (c : Char) : Bool := Unicode.blank.contains c

def trimStart (t : Text) : Text := t.dropWhile isBlank

def trimEnd (t : Text) : Text := (t.reverse.dropWhile isBlank).reverse

/-! ## lists of texts -/

def separated (sep : Text) : List Text → Text
  | [] => []
  | [t] => t
  | t :: u :: ts => t ++ sep ++ separated sep (u :: ts)

theorem separated_nil (sep : Text) : separated sep [] = [] := rfl
theorem separated_singleton (sep t : Text) : separated sep [t] = t := rfl
theorem separated_cons (sep t u : Text) (ts : List Text) :
    separated sep (t :: u :: ts) = t ++ sep ++ separated sep (u :: ts) := rfl

/-! ## replacement -/

/-- every occurrence of `key` replaced by `value`, found from the left and without overlap -/
def replaceAll (key value : Text) : Text → Text
  | [] => []
  | c :: t =>
    if key.isPrefixOf (c :: t) ∧ key ≠ [] then
      value ++ replaceAll key value ((c :: t).drop key.length)
    else c :: replaceAll key value t
termination_by t => t.length
decreasing_by
  · rename_i h
    have : 0 < key.length := List.length_pos_iff.mpr h.2
    simp only [List.length_drop, List.length_cons]
    omega
  · simp

theorem replaceAll_nil (key value : Text) : replaceAll key value [] = [] := by
  rw [replaceAll]

end Text

end BoundSql
