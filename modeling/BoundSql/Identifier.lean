import BoundSql.Error
import BoundSql.Unicode.Alphanumeric

/-!
# Identifiers

A table, column or alias: parts between points, each a bare word, a name in backticks or, in the
last place, `*`.

* `Identifier.Part`, `Identifier`     the parts;
* `Identifier.text`                   the parts in backticks, a backtick in a name doubled;
* `Identifier.readParts`              reads the parts of a text, for any notion of letter;
* `Identifier.parse`                  reads a whole identifier;
* `quote`                             reads and writes;
* `nameText`, `aliasText`, `nameListText`   names in a statement.
-/

namespace BoundSql

namespace Identifier

inductive Part where
  | name (chars : Text)
  | star
  deriving DecidableEq, Repr

end Identifier

structure Identifier where
  parts : List Identifier.Part
  deriving DecidableEq, Repr

namespace Identifier

/-! ## writing -/

/-- a backtick is written twice -/
def quotedChar (c : Char) : Text := if c = '`' then ['`', '`'] else [c]

def quotedName (chars : Text) : Text := '`' :: chars.flatMap quotedChar ++ ['`']

def Part.text : Part → Text
  | .name chars => quotedName chars
  | .star => ['*']

def text (id : Identifier) : Text := Text.separated ['.'] (id.parts.map Part.text)

/-! ## reading -/

def isBare (letter : Char → Bool) (c : Char) : Bool := c = '_' || c = '$' || letter c

/-- a name up to its closing backtick, and what follows -/
def readQuoted : Text → Option (Text × Text)
  | [] => none
  | '`' :: '`' :: t => (readQuoted t).map fun (name, rest) => ('`' :: name, rest)
  | c :: t =>
    if c = '`' then some ([], t) else (readQuoted t).map fun (name, rest) => (c :: name, rest)

/-- a bare word up to a point or the end, and what follows -/
def readBare (letter : Char → Bool) : Text → Except NameFault (Text × Text)
  | [] => .ok ([], [])
  | c :: t =>
    if c = '.' then .ok ([], c :: t)
    else if isBare letter c then
      match readBare letter t with
      | .ok (name, rest) => .ok (c :: name, rest)
      | .error fault => .error fault
    else .error (.invalidCharacter c)

def readPart (letter : Char → Bool) : Text → Except NameFault (Part × Text)
  | '`' :: t =>
    match readQuoted t with
    | none => .error .unclosedQuote
    | some ([], _) => .error .emptyQuoted
    | some (name, rest) => .ok (.name name, rest)
  | '*' :: t => .ok (.star, t)
  | t =>
    match readBare letter t with
    | .error fault => .error fault
    | .ok ([], _) => .error .emptyPart
    | .ok (name, rest) => .ok (.name name, rest)

/-- what may stand between a part and the next one; `none` at the end of the text -/
def readPoint : Text → Except NameFault (Option Text)
  | [] => .ok none
  | ['.'] => .error .trailingDot
  | c :: t => if c = '.' then .ok (some t) else .error (.unexpected c)

theorem length_readQuoted {t name rest : Text} (h : readQuoted t = some (name, rest)) :
    rest.length < t.length := by
  fun_induction readQuoted t generalizing name rest with
  | case1 => simp at h
  | case2 t ih =>
    obtain ⟨⟨n, r⟩, hr, he⟩ := Option.map_eq_some_iff.mp h
    cases he
    have := ih hr
    simp only [List.length_cons]
    omega
  | case3 t => cases h; simp
  | case4 c t _ _ ih =>
    obtain ⟨⟨n, r⟩, hr, he⟩ := Option.map_eq_some_iff.mp h
    cases he
    have := ih hr
    simp only [List.length_cons]
    omega

theorem length_readBare {letter : Char → Bool} {t name rest : Text}
    (h : readBare letter t = .ok (name, rest)) : name.length + rest.length = t.length := by
  induction t generalizing name rest with
  | nil => cases h; rfl
  | cons c t ih =>
    rw [readBare] at h
    split at h
    · cases h; simp
    · split at h
      · split at h
        · rename_i n r hr
          cases h
          have := ih hr
          simp only [List.length_cons]
          omega
        · cases h
      · cases h

theorem length_readPart {letter : Char → Bool} {t rest : Text} {p : Part}
    (h : readPart letter t = .ok (p, rest)) : rest.length < t.length := by
  unfold readPart at h
  split at h
  · rename_i t
    split at h
    · cases h
    · cases h
    · rename_i hq
      cases h
      have := length_readQuoted hq
      simp only [List.length_cons]
      omega
  · cases h; simp
  · split at h
    · cases h
    · cases h
    · rename_i name rest' hne hb
      cases h
      have := length_readBare hb
      cases name with
      | nil => exact absurd rfl hne
      | cons c cs => simp only [List.length_cons] at this; omega

theorem length_readPoint {t rest : Text} (h : readPoint t = .ok (some rest)) :
    rest.length < t.length := by
  unfold readPoint at h
  split at h
  · cases h
  · cases h
  · split at h
    · cases h; simp
    · cases h

/-- the parts of a text that starts with one; `*` ends the list -/
def readParts (letter : Char → Bool) (t : Text) : Except NameFault (List Part) :=
  match _hp : readPart letter t with
  | .error fault => .error fault
  | .ok (p, rest) =>
    match _hr : readPoint rest with
    | .error fault => .error fault
    | .ok none => .ok [p]
    | .ok (some next) =>
      if p = .star then .error .starNotLast
      else
        match readParts letter next with
        | .error fault => .error fault
        | .ok ps => .ok (p :: ps)
termination_by t.length
decreasing_by
  have := length_readPart _hp
  have := length_readPoint _hr
  omega

/-- reads an identifier whose bare words are made of `letter`s, `_` and `$` -/
def parseWith (letter : Char → Bool) (t : Text) : Except Error Identifier :=
  if t = [] then .error (.missing .identifier)
  else
    let faulty (fault : NameFault) : Error := .unsupported (.name (String.ofList t) fault)
    if '\x00' ∈ t then .error (faulty .nul)
    else
      match readParts letter t with
      | .error fault => .error (faulty fault)
      | .ok parts => .ok ⟨parts⟩

/-- reads an identifier; letters and numbers of every script may stand in bare words -/
def parse (t : Text) : Except Error Identifier := parseWith Unicode.alphanumeric.contains t

end Identifier

/-! ## names in statements -/

def quote (t : Text) : Except Error Text := (Identifier.parse t).map (·.text)

/-- a name as it stands in a statement; a lenient place takes what is no identifier as it is -/
def nameText (name : String) (lenient : Bool) : Except Error Text :=
  let t := name.toList
  if t = ['*'] then .ok t
  else
    match quote t with
    | .ok quoted => .ok quoted
    | .error e => if lenient && t ≠ [] then .ok t else .error e

/-- an alias behind what it names; an empty one is left out -/
def aliasText : Option String → Except Error Text
  | none => .ok []
  | some name =>
    if name.toList = [] then .ok []
    else (nameText name false).map (" AS ".toList ++ ·)

def nameListText (names : List String) : Except Error Text :=
  (names.mapM (nameText · false)).map (Text.separated [','])

end BoundSql
