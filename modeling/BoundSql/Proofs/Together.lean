import BoundSql.Proofs.Made
import BoundSql.Proofs.Walk.Union

/-!
# Unions that keep their members together

Each member of such a union selects its own place as a last column, and the union sorts by this
column first.

* `KeepsOut`, `replaceAll_keepsOut`   a key that stands in front of a text or behind it only;
* `Apart`, `replaceKeys_apart`   keys that are replaced one after the other;
* `apart_of_delimited`           keys such as `$type$`;
* `SelectOf.clausesText_ok`      what stands in front of the place of a member, and what behind;
* `Union.edits_ok`               the union that edits without an error lead to;
* `Union.Writes`, `Union.text_together`   its members and its text.

A member that is a text of the caller's has no such column: nothing is written into it.
-/

namespace BoundSql

/-! ## keys in front and behind -/

/-- wherever the key stands, it stands in front of the middle part or behind it -/
def KeepsOut (key front middle rest : Text) : Prop :=
  ∀ before behind, front ++ middle ++ rest = before ++ key ++ behind →
    before ++ key <+: front ∨ front ++ middle <+: before

section
variable {key front middle rest : Text} {c : Char}

/-- the key does not begin with the middle part -/
theorem KeepsOut.not_isPrefix (h : KeepsOut key [] (c :: middle) rest) (hkey : key ≠ []) :
    ¬ key <+: c :: middle ++ rest := by
  rintro ⟨behind, hbehind⟩
  rcases h [] behind hbehind.symm with hp | hp
  · exact hkey (List.prefix_nil.mp hp)
  · cases List.prefix_nil.mp hp

theorem KeepsOut.of_middle (h : KeepsOut key [] (c :: middle) rest) :
    KeepsOut key [] middle rest := by
  intro before behind hsplit
  rcases h (c :: before) behind (congrArg (c :: ·) hsplit) with hp | hp
  · cases List.prefix_nil.mp hp
  · exact .inr (List.cons_prefix_cons.mp hp).2

theorem KeepsOut.of_front (h : KeepsOut key (c :: front) middle rest) :
    KeepsOut key front middle rest := by
  intro before behind hsplit
  rcases h (c :: before) behind (congrArg (c :: ·) hsplit) with hp | hp
  · exact .inl (List.cons_prefix_cons.mp hp).2
  · exact .inr (List.cons_prefix_cons.mp hp).2

theorem KeepsOut.of_key (h : KeepsOut key (key ++ front) middle rest) :
    KeepsOut key front middle rest := by
  intro before behind hsplit
  have hsplit : key ++ front ++ middle ++ rest = key ++ before ++ key ++ behind := by
    simp only [List.append_assoc] at hsplit ⊢
    rw [hsplit]
  rcases h (key ++ before) behind hsplit with hp | hp
  · rw [List.append_assoc] at hp
    exact .inl ((List.prefix_append_right_inj key).mp hp)
  · rw [List.append_assoc] at hp
    exact .inr ((List.prefix_append_right_inj key).mp hp)

/-- a key that begins in front of the middle part also ends there -/
theorem KeepsOut.isPrefix_iff (h : KeepsOut key (c :: front) middle rest) :
    key <+: c :: front ++ middle ++ rest ↔ key <+: c :: front := by
  refine ⟨fun hp => ?_, fun hp => ?_⟩
  · obtain ⟨behind, hbehind⟩ := hp
    rcases h [] behind hbehind.symm with hp | hp
    · exact hp
    · cases List.prefix_nil.mp hp
  · rw [List.append_assoc]
    exact hp.trans (List.prefix_append ..)

end

section
variable {key : Text} (value : Text) {middle rest : Text}

/-- nothing of the middle part is replaced -/
theorem replaceAll_middle (hkey : key ≠ []) (h : KeepsOut key [] middle rest) :
    Text.replaceAll key value (middle ++ rest) = middle ++ Text.replaceAll key value rest := by
  induction middle with
  | nil => rfl
  | cons c middle ih =>
    have hp : ¬ (key.isPrefixOf (c :: (middle ++ rest)) ∧ key ≠ []) := fun hp =>
      h.not_isPrefix hkey (List.isPrefixOf_iff_prefix.mp hp.1)
    rw [List.cons_append, Text.replaceAll, if_neg hp, ih h.of_middle]
    rfl

theorem replaceAll_keepsOut (hkey : key ≠ []) {front : Text} (h : KeepsOut key front middle rest) :
    Text.replaceAll key value (front ++ middle ++ rest) =
      Text.replaceAll key value front ++ middle ++ Text.replaceAll key value rest := by
  fun_induction Text.replaceAll key value front with
  | case1 => exact replaceAll_middle value hkey h
  | case2 c front hp ih =>
    have hfront : c :: front = key ++ (c :: front).drop key.length :=
      (List.prefix_iff_eq_append.mp (List.isPrefixOf_iff_prefix.mp hp.1)).symm
    have hwhole : key.isPrefixOf (c :: (front ++ middle ++ rest)) ∧ key ≠ [] :=
      ⟨List.isPrefixOf_iff_prefix.mpr (h.isPrefix_iff.mpr (List.isPrefixOf_iff_prefix.mp hp.1)), hkey⟩
    have hdrop : (c :: (front ++ middle ++ rest)).drop key.length =
        (c :: front).drop key.length ++ middle ++ rest := by
      have hlength : key.length ≤ (c :: front).length :=
        (List.isPrefixOf_iff_prefix.mp hp.1).length_le
      rw [List.append_assoc, ← List.cons_append, List.drop_append_of_le_length hlength,
        List.append_assoc]
    have hrest : KeepsOut key ((c :: front).drop key.length) middle rest :=
      KeepsOut.of_key (hfront ▸ h)
    rw [List.cons_append, List.cons_append, Text.replaceAll, if_pos hwhole, hdrop, ih hrest]
    simp only [List.append_assoc]
  | case3 c front hp ih =>
    have hwhole : ¬ (key.isPrefixOf (c :: (front ++ middle ++ rest)) ∧ key ≠ []) := fun hw =>
      hp ⟨List.isPrefixOf_iff_prefix.mpr (h.isPrefix_iff.mp (List.isPrefixOf_iff_prefix.mp hw.1)), hkey⟩
    rw [List.cons_append, List.cons_append, Text.replaceAll, if_neg hwhole, ih h.of_front]
    rfl

end

/-- keys with their values, replaced one after the other, none of which stands at its turn so that it
reaches into the middle part -/
def Apart (middle : Text) : List (Text × Text) → Text → Text → Prop
  | [], _, _ => True
  | (key, value) :: keys, front, rest => key ≠ [] ∧ KeepsOut key front middle rest ∧
      Apart middle keys (Text.replaceAll key value front) (Text.replaceAll key value rest)

def replaceKeys (keys : List (Text × Text)) (t : Text) : Text :=
  keys.foldl (fun t (key, value) => Text.replaceAll key value t) t

theorem replaceKeys_apart {middle : Text} {keys : List (Text × Text)} {front rest : Text}
    (h : Apart middle keys front rest) :
    replaceKeys keys (front ++ middle ++ rest) =
      replaceKeys keys front ++ middle ++ replaceKeys keys rest := by
  induction keys generalizing front rest with
  | nil => rfl
  | cons entry keys ih =>
    obtain ⟨key, value⟩ := entry
    obtain ⟨hkey, hout, hlater⟩ := h
    show replaceKeys keys (Text.replaceAll key value (front ++ middle ++ rest)) = _
    rw [replaceAll_keepsOut value hkey hout, ih hlater]
    rfl

/-- a key between characters that the middle part does not have, such as `$type$` -/
def Delimited (middle key : Text) : Prop :=
  key ≠ [] ∧ key.head?.all (· ∉ middle) ∧ key.getLast?.all (· ∉ middle) ∧ ¬ middle <:+: key

instance (middle key : Text) : Decidable (Delimited middle key) :=
  inferInstanceAs (Decidable (_ ∧ _ ∧ _ ∧ _))

section
variable {key middle : Text}

theorem Delimited.first (h : Delimited middle key) {c : Char} {t : Text} (hkey : key = c :: t) :
    c ∉ middle := by
  have hfirst := h.2.1
  rw [hkey] at hfirst
  exact of_decide_eq_true hfirst

theorem Delimited.last (h : Delimited middle key) {c : Char} {own t : Text}
    (hkey : key = own ++ c :: t) : (c :: t).getLast (List.cons_ne_nil c t) ∉ middle := by
  have hlast := h.2.2.1
  rw [hkey, List.getLast?_append_of_ne_nil _ (List.cons_ne_nil c t),
    List.getLast?_eq_some_getLast (List.cons_ne_nil c t)] at hlast
  exact of_decide_eq_true hlast

theorem Delimited.keepsOut (h : Delimited middle key) (front rest : Text) :
    KeepsOut key front middle rest := by
  intro before behind hsplit
  rw [List.append_assoc before] at hsplit
  rcases List.append_eq_append_iff.mp hsplit with ⟨between, hbefore, -⟩ | ⟨later, hfront, hlater⟩
  · exact .inr ⟨between, hbefore.symm⟩
  rcases List.append_eq_append_iff.mp hfront with ⟨between, hbefore, hmiddle⟩ | ⟨own, hfront, hown⟩
  · cases later with
    | nil => exact .inr ⟨[], by rw [hbefore, hmiddle, List.append_nil, List.append_nil]⟩
    | cons c later =>
      obtain ⟨d, t, hkey⟩ := List.exists_cons_of_ne_nil h.1
      rw [hkey] at hlater
      obtain ⟨rfl, -⟩ := List.cons_eq_cons.mp hlater
      refine absurd ?_ (h.first hkey)
      rw [hmiddle]
      simp
  · rw [hown, List.append_assoc] at hlater
    rcases List.append_eq_append_iff.mp hlater with ⟨between, hkeyown, -⟩ | ⟨late, hlate, hmiddle⟩
    · exact .inl ⟨between, by rw [hfront, hkeyown, List.append_assoc]⟩
    · cases late with
      | nil => exact .inl ⟨[], by rw [hfront, hlate, List.append_nil, List.append_nil]⟩
      | cons c late =>
        rcases List.append_eq_append_iff.mp hmiddle with ⟨z, hz, -⟩ | ⟨z, hz, -⟩
        · exact absurd ⟨own, z, by rw [hlate, hz, List.append_assoc]⟩ h.2.2.2
        · refine absurd ?_ (h.last hlate)
          rw [hz]
          exact List.mem_append_left _ (List.getLast_mem _)

theorem apart_of_delimited {keys : List (Text × Text)}
    (h : ∀ entry ∈ keys, Delimited middle entry.1) (front rest : Text) :
    Apart middle keys front rest := by
  induction keys generalizing front rest with
  | nil => trivial
  | cons entry keys ih =>
    have hentry := h entry (List.mem_cons_self ..)
    exact ⟨hentry.1, hentry.keepsOut _ _,
      ih (fun other hother => h other (List.mem_cons_of_mem _ hother)) _ _⟩

end

/-! ## the column with the place -/

namespace SelectOf

/-- what a SELECT writes up to its columns -/
def head (s : SelectOf (Except Error Text)) : Except Error Text := do
  let columns ← s.columnsText
  return "SELECT ".toList ++ (if s.distinct then "DISTINCT ".toList else []) ++ columns

/-- what it writes behind its columns -/
def tail (s : SelectOf (Except Error Text)) : Except Error Text := do
  let source ← s.sourceText
  let joins ← s.joins.mapM JoinOf.text
  let wheres ← clauseText .filter s.wheres
  let groupBy ← termsText " GROUP BY " s.groupBy s.lenient
  let havings ← clauseText .having s.havings
  let orderBy ← termsText " ORDER BY " s.orderBy s.lenient
  return source ++ joins.flatten ++ wheres ++ groupBy ++ havings ++ orderBy ++
    limitText s.limit s.offset

/-- the place in a union stands between the columns and all clauses -/
theorem clausesText_ok {s : SelectOf (Except Error Text)} {t : Text} (h : s.clausesText = .ok t) :
    ∃ front rest, s.head = .ok front ∧ s.tail = .ok rest ∧ t = front ++ s.memberText ++ rest := by
  obtain ⟨columns, hcolumns, h⟩ := bind_ok h
  obtain ⟨source, hsource, h⟩ := bind_ok h
  obtain ⟨joins, hjoins, h⟩ := bind_ok h
  obtain ⟨wheres, hwheres, h⟩ := bind_ok h
  obtain ⟨groupBy, hgroupBy, h⟩ := bind_ok h
  obtain ⟨havings, hhavings, h⟩ := bind_ok h
  obtain ⟨orderBy, horderBy, h⟩ := bind_ok h
  cases h
  refine ⟨"SELECT ".toList ++ (if s.distinct then "DISTINCT ".toList else []) ++ columns,
    source ++ joins.flatten ++ wheres ++ groupBy ++ havings ++ orderBy ++
      limitText s.limit s.offset, ?_, ?_, ?_⟩
  · unfold head
    rw [hcolumns]
    rfl
  · unfold tail
    rw [hsource, hjoins, hwheres, hgroupBy, hhavings, horderBy]
    rfl
  · simp only [List.append_assoc]

end SelectOf

/-- the place of a member as its last column -/
def placeColumn (i : Nat) : Text :=
  ", ".toList ++ Text.ofNat i ++ " AS ".toList ++ Identifier.quotedName memberColumn.toList

/-- the clauses of the `i`-th member stand around its place -/
theorem Select.asMember_text {s : Select} {i : Nat} {t : Text} (hraw : s.clauses.raw = none)
    (h : (s.asMember i).text = .ok t) :
    ∃ front rest, (s.clauses.map text).head = .ok front ∧ (s.clauses.map text).tail = .ok rest ∧
      t = front ++ placeColumn i ++ rest := by
  unfold asMember at h
  rw [text_mk] at h
  unfold SelectOf.text at h
  simp only [SelectOf.map, hraw] at h
  split at h
  · cases h
  · contradiction
  · exact SelectOf.clausesText_ok h

/-- nothing is written into a text of the caller's -/
theorem Select.asMember_text_raw {s : Select} {i : Nat} {t : Text} {sql : String} {args : Arguments}
    (hraw : s.clauses.raw = some (sql, args)) (h : (s.asMember i).text = .ok t) :
    templateText sql.toList args = .ok t := by
  unfold asMember at h
  rw [text_mk] at h
  unfold SelectOf.text at h
  simp only [SelectOf.map, hraw] at h
  split at h
  · cases h
  · rename_i hsome
    cases hsome
    exact h
  · contradiction

theorem Statement.failed_of_validate {s : Statement} (h : s.validate = .ok ()) :
    s.failed = none := by
  unfold validate at h
  split at h
  · cases h
  · assumption

namespace Union

/-! ## edits -/

def Edit.terms : Edit → List Term
  | .orderBy term => [term]
  | _ => []

def Edit.keys : Edit → List (String × List String)
  | .replace key values => [(key, values)]
  | _ => []

/-- the members of a union over `selects`, a template once for each value of its keys -/
def expanded (keys : List (String × List String)) (selects : List Select) : List Select :=
  members { selects, replacements := keys }

/-- a union with what the edits have added, and no more -/
structure Holds (u : Union) (es : List Edit) (before : Union) : Prop where
  selects : u.selects = before.selects ++ es.flatMap Edit.selects
  orderBy : u.orderBy = before.orderBy ++ es.flatMap Edit.terms
  replacements : u.replacements = before.replacements ++ es.flatMap Edit.keys
  together : u.together = true ↔ before.together = true ∨ Edit.together ∈ es

theorem Edit.holds_of_apply {u u' : Union} {e : Edit} (h : e.apply u = .ok u') : u'.Holds [e] u := by
  cases e with
  | append | all | distinct | together | orderBy | limit | offset | interpolate =>
    cases h
    constructor <;> simp [Edit.selects, Edit.terms, Edit.keys]
  | replace key values =>
    obtain ⟨-, rfl⟩ := addReplacement_ok h
    constructor <;> simp [Edit.selects, Edit.terms, Edit.keys]

theorem Holds.trans {u v w : Union} {es fs : List Edit} (h : v.Holds es u) (h' : w.Holds fs v) :
    w.Holds (es ++ fs) u := by
  constructor
  · rw [h'.selects, h.selects, List.flatMap_append, List.append_assoc]
  · rw [h'.orderBy, h.orderBy, List.flatMap_append, List.append_assoc]
  · rw [h'.replacements, h.replacements, List.flatMap_append, List.append_assoc]
  · rw [h'.together, h.together, List.mem_append, or_assoc]

/-- a union that has failed stays as it is -/
theorem foldl_edit_of_failed {u : Union} (es : List Edit) (h : u.failed ≠ none) :
    es.foldl edit u = u := by
  induction es with
  | nil => rfl
  | cons e es ih =>
    have hedit : u.edit e = u := by
      unfold edit
      split
      · rfl
      · contradiction
    rw [List.foldl_cons, hedit, ih]

theorem edit_ok {u : Union} {e : Edit} (h : (u.edit e).failed = none) : (u.edit e).Holds [e] u := by
  unfold edit at h ⊢
  split
  · simp_all
  · split
    · rename_i hu'
      exact Edit.holds_of_apply hu'
    · simp_all

/-- the union that edits without an error lead to -/
theorem edits_ok {u : Union} {es : List Edit} (h : (es.foldl edit u).failed = none) :
    (es.foldl edit u).Holds es u := by
  induction es generalizing u with
  | nil => constructor <;> simp
  | cons e es ih =>
    rw [List.foldl_cons] at h ⊢
    have hfirst : (u.edit e).failed = none := by
      by_contra hfailed
      rw [foldl_edit_of_failed es hfailed] at h
      exact hfailed h
    exact (edit_ok hfirst).trans (ih h)

/-! ## text -/

theorem mapMembers_ok {α : Type} {f : Nat → Select → Except Error α} {i : Nat} {ss : List Select}
    {as : List α} (h : mapMembers f i ss = .ok as) :
    as.length = ss.length ∧ ∀ k a, as[k]? = some a → ∃ s, ss[k]? = some s ∧ f (i + k) s = .ok a := by
  induction ss generalizing i as with
  | nil =>
    cases h
    exact ⟨rfl, fun k a ha => by cases ha⟩
  | cons s ss ih =>
    obtain ⟨first, hfirst, h⟩ := bind_ok h
    obtain ⟨rest, hrest, h⟩ := bind_ok h
    cases h
    obtain ⟨hlength, hother⟩ := ih hrest
    refine ⟨congrArg (· + 1) hlength, fun k a ha => ?_⟩
    cases k with
    | zero =>
      cases ha
      exact ⟨s, rfl, hfirst⟩
    | succ k =>
      obtain ⟨other, hs, hf⟩ := hother k a ha
      refine ⟨other, hs, ?_⟩
      rwa [show i + (k + 1) = i + 1 + k by omega]

/-- the keys with their values for the `i`-th member -/
def valuesAt (keys : List (String × List String)) (i : Nat) : List (Text × Text) :=
  keys.map fun (key, values) => (key.toList, (values.getD i "").toList)

theorem replaced_eq (u : Union) (i : Nat) (t : Text) :
    u.replaced i t = replaceKeys (valuesAt u.replacements i) t := by
  unfold replaced replaceKeys valuesAt
  rw [List.foldl_map]

/-- the `i`-th member: its place stands behind its columns, unless it is a text of the caller's -/
def Writes (keys : List (String × List String)) (i : Nat) (s : Select) (member : Text) : Prop :=
  match s.clauses.raw with
  | none => ∃ front rest, (s.clauses.map Select.text).head = .ok front ∧
      (s.clauses.map Select.text).tail = .ok rest ∧
      (Apart (placeColumn i) (valuesAt keys i) front rest →
        member = Comparison.parenthesized (replaceKeys (valuesAt keys i) front ++ placeColumn i ++
          replaceKeys (valuesAt keys i) rest))
  | some (sql, args) => ∃ t, templateText sql.toList args = .ok t ∧
      member = Comparison.parenthesized (replaceKeys (valuesAt keys i) t)

theorem writes_member {u : Union} (htogether : u.together = true) {i : Nat} {s : Select}
    {member : Text} (h : u.memberText i s = .ok member) : Writes u.replacements i s member := by
  unfold memberText at h
  rw [if_pos htogether] at h
  obtain ⟨t, ht, h⟩ := bind_ok h
  cases h
  have ht := within_eq_ok ht
  rw [replaced_eq]
  unfold Writes
  split
  · rename_i hraw
    obtain ⟨front, rest, hfront, hrest, rfl⟩ := Select.asMember_text hraw ht
    refine ⟨front, rest, hfront, hrest, fun happart => ?_⟩
    rw [replaceKeys_apart happart]
  · rename_i sql args hraw
    exact ⟨t, Select.asMember_text_raw hraw ht, rfl⟩

/-- the place comes first in ORDER BY -/
theorem orderBy_together {u : Union} (htogether : u.together = true) {t : Text}
    (h : termsText "\nORDER BY " u.terms false = .ok t) :
    ∃ terms, u.orderBy.mapM (Term.text false) = .ok terms ∧
      t = "\nORDER BY ".toList ++
        Text.separated ", ".toList (Identifier.quotedName memberColumn.toList :: terms) := by
  have hterms : u.terms = .name memberColumn false :: u.orderBy := by rw [terms, if_pos htogether]
  rw [hterms, termsText, if_neg (List.cons_ne_nil _ _)] at h
  obtain ⟨texts, htexts, h⟩ := bind_ok h
  cases h
  obtain ⟨first, terms, hfirst, hrest, rfl⟩ := mapM_cons_ok htexts
  have hplace : Term.text false (.name memberColumn false) =
      .ok (Identifier.quotedName memberColumn.toList) := ok_of_toOption (by decide +kernel)
  rw [hplace] at hfirst
  cases hfirst
  exact ⟨terms, hrest, rfl⟩

/-- a table for each type of value, the larger values first -/
def perType : List Edit :=
  [.replace "$type$" ["int", "text"], .together, .all, .orderBy (.name "value" true)]

end Union

end BoundSql
