import BoundSql.Proofs.Balance.Condition
import BoundSql.Proofs.Walk.Clause

/-!
# Clauses as forests

The members of a clause are a forest: leaves, and groups that stand between two markers.  The clause
is printed in one pass that knows of the open groups only how many there are, whether the next
member is a first one, and whether the innermost group is hollow.  That is enough: what is printed is
the forest, and what is no forest is refused.

* `Forest`, `Forest.conditions`   a forest, and the members of a clause that it is;
* `Forest.Formed`, `Forest.conditions_injective`   the forests of clauses, each the only one of its
  members;
* `chained`, `Forest.printed`     the printing: siblings with the connectors between them;
* `itemsText_forest`              a forest in front of other members is printed as it is;
* `itemsText_cons_inv`            a member that is printed, and what follows it;
* `Remains`, `remains_of_itemsText`   what is printed inside open groups is what closes them;
* `ConditionOf.IsBlank`           the conditions of which nothing is written but white space,
  `ConditionOf.blank_body`;
* `clauseText_forest`             a clause is printed if and only if it is a forest.
-/

namespace BoundSql

/-- a condition that is no marker -/
def ConditionOf.IsLeaf {σ : Type} (c : ConditionOf σ) : Prop :=
  c.kind = .column ∨ c.kind = .expression

def ConditionOf.IsShared {σ : Type} (c : ConditionOf σ) : Prop :=
  ∃ columns, c.kind = .shared columns

/-- members of a clause, one behind the other: leaves, and groups between their markers -/
inductive Forest (σ : Type) where
  | nil
  | leaf (c : ConditionOf σ) (later : Forest σ)
  | group (opening : ConditionOf σ) (inner : Forest σ) (closing : ConditionOf σ)
      (later : Forest σ)

namespace Forest

section
variable {σ : Type}

/-- the forest written out member by member -/
def conditions : Forest σ → List (ConditionOf σ)
  | .nil => []
  | .leaf c later => c :: later.conditions
  | .group opening inner closing later =>
    opening :: (inner.conditions ++ closing :: later.conditions)

/-- leaves are no markers, groups stand between the right ones, and no group is empty -/
def Formed : Forest σ → Prop
  | .nil => True
  | .leaf c later => c.IsLeaf ∧ later.Formed
  | .group opening inner closing later =>
    opening.kind = .groupOpen ∧ closing.kind = .groupClose ∧ inner ≠ .nil ∧ inner.Formed ∧
      later.Formed

def leaves : Forest σ → List (ConditionOf σ)
  | .nil => []
  | .leaf c later => c :: later.leaves
  | .group _ inner _ later => inner.leaves ++ later.leaves

/-- what the groups at every depth hold -/
def groups : Forest σ → List (Forest σ)
  | .nil => []
  | .leaf _ later => later.groups
  | .group _ inner _ later => inner :: (inner.groups ++ later.groups)

/-! ## one forest for each list -/

/-- nothing, or a marker that closes a group: here the members of a forest end -/
def Ends (cs : List (ConditionOf σ)) : Prop := ∀ c ∈ cs.head?, c.kind = .groupClose

theorem ends_nil : Ends ([] : List (ConditionOf σ)) := by simp [Ends]
theorem ends_cons {c : ConditionOf σ} (h : c.kind = .groupClose) (cs : List (ConditionOf σ)) :
    Ends (c :: cs) := by simp [Ends, h]

theorem not_isLeaf_of_groupClose {c : ConditionOf σ} (h : c.kind = .groupClose) : ¬ c.IsLeaf := by
  simp [ConditionOf.IsLeaf, h]

theorem not_isLeaf_of_groupOpen {c : ConditionOf σ} (h : c.kind = .groupOpen) : ¬ c.IsLeaf := by
  simp [ConditionOf.IsLeaf, h]

/-- the members themselves say where the forest ends and how it is grouped -/
theorem conditions_append_injective {f g : Forest σ} (hf : f.Formed) (hg : g.Formed)
    {cs ds : List (ConditionOf σ)} (hcs : Ends cs) (hds : Ends ds)
    (h : f.conditions ++ cs = g.conditions ++ ds) : f = g ∧ cs = ds := by
  induction f generalizing g cs ds with
  | nil =>
    cases g with
    | nil => exact ⟨rfl, h⟩
    | leaf c later =>
      rw [show cs = _ from h] at hcs
      exact absurd hg.1 (not_isLeaf_of_groupClose (hcs c rfl))
    | group opening inner closing later =>
      rw [show cs = _ from h] at hcs
      have hclose : opening.kind = .groupClose := hcs opening rfl
      rw [hg.1] at hclose
      cases hclose
  | leaf c later ih =>
    cases g with
    | nil =>
      rw [show ds = _ from h.symm] at hds
      exact absurd hf.1 (not_isLeaf_of_groupClose (hds c rfl))
    | leaf d later' =>
      obtain ⟨rfl, hlater⟩ := List.cons.inj h
      obtain ⟨rfl, hends⟩ := ih hf.2 hg.2 hcs hds hlater
      exact ⟨rfl, hends⟩
    | group opening inner closing later' =>
      obtain ⟨rfl, _⟩ := List.cons.inj h
      exact absurd hf.1 (not_isLeaf_of_groupOpen hg.1)
  | group opening inner closing later ihInner ihLater =>
    obtain ⟨hopen, hclose, _, hinner, hlater⟩ := hf
    cases g with
    | nil =>
      rw [show ds = _ from h.symm] at hds
      have hkind : opening.kind = .groupClose := hds opening rfl
      rw [hopen] at hkind
      cases hkind
    | leaf d later' =>
      obtain ⟨rfl, _⟩ := List.cons.inj h
      exact absurd hg.1 (not_isLeaf_of_groupOpen hopen)
    | group opening' inner' closing' later' =>
      obtain ⟨_, hclose', _, hinner', hlater'⟩ := hg
      simp only [conditions, List.cons_append, List.append_assoc] at h
      obtain ⟨rfl, hrest⟩ := List.cons.inj h
      obtain ⟨rfl, hbehind⟩ :=
        ihInner hinner hinner' (ends_cons hclose _) (ends_cons hclose' _) hrest
      obtain ⟨rfl, hafter⟩ := List.cons.inj hbehind
      obtain ⟨rfl, hends⟩ := ihLater hlater hlater' hcs hds hafter
      exact ⟨rfl, hends⟩

theorem conditions_injective {f g : Forest σ} (hf : f.Formed) (hg : g.Formed)
    (h : f.conditions = g.conditions) : f = g :=
  (conditions_append_injective hf hg ends_nil ends_nil (by rw [h])).1

/-- groups hold leaves, because no group is empty -/
theorem leaves_ne_nil {f : Forest σ} (hf : f.Formed) (h : f ≠ .nil) : f.leaves ≠ [] := by
  induction f with
  | nil => exact absurd rfl h
  | leaf c later => exact List.cons_ne_nil _ _
  | group opening inner closing later ihInner _ =>
    obtain ⟨_, _, hne, hinner, _⟩ := hf
    exact List.append_ne_nil_of_left_ne_nil (ihInner hinner hne) _

theorem leaves_ne_nil_of_mem_groups {f : Forest σ} (hf : f.Formed) :
    ∀ inner ∈ f.groups, inner.leaves ≠ [] := by
  induction f with
  | nil => exact fun _ h => absurd h List.not_mem_nil
  | leaf c later ih => exact ih hf.2
  | group opening inner closing later ihInner ihLater =>
    obtain ⟨_, _, hne, hinner, hlater⟩ := hf
    refine List.forall_mem_cons.mpr ⟨leaves_ne_nil hinner hne, ?_⟩
    exact List.forall_mem_append.mpr ⟨ihInner hinner, ihLater hlater⟩

end

end Forest

/-! ## printing -/

/-- the connector in front of the first of its siblings -/
def Connector.leading : Connector → Text
  | .not => "NOT ".toList
  | _ => []

/-- the connector between a sibling and the next one, whose connector it is -/
def Connector.joining : Connector → Text
  | .and => " AND ".toList
  | .or => " OR ".toList
  | .xor => " XOR ".toList
  | .not => " AND NOT ".toList

def following (siblings : List (Connector × Text)) : Text :=
  siblings.flatMap fun s => s.1.joining ++ s.2

/-- siblings with the connectors between them; the first one has no more than its `NOT` -/
def chained : List (Connector × Text) → Text
  | [] => []
  | s :: siblings => s.1.leading ++ s.2 ++ following siblings

/-- the text of a condition that can be written -/
def ConditionOf.written (c : ConditionOf (Except Error Text)) : Text := c.body.toOption.getD []

theorem ConditionOf.written_of_ok {c : ConditionOf (Except Error Text)} {t : Text}
    (h : c.body = .ok t) : c.written = t := by
  rw [written, h]
  rfl

namespace Forest

/-- the members outside of all groups, each with its connector: a leaf in parentheses of its own, a
group in one pair around what it holds -/
def siblings : Forest (Except Error Text) → List (Connector × Text)
  | .nil => []
  | .leaf c later => (c.connector, Comparison.parenthesized c.written) :: later.siblings
  | .group opening inner _ later =>
    (opening.connector, Comparison.parenthesized (chained inner.siblings)) :: later.siblings

def printed (f : Forest (Except Error Text)) : Text := chained f.siblings

def Writable (f : Forest (Except Error Text)) : Prop := ∀ c ∈ f.leaves, ∃ t, c.body = .ok t

end Forest

/-- siblings in a group, the first one of the group or behind others -/
def chainedFrom (first : Bool) (siblings : List (Connector × Text)) : Text :=
  if first then chained siblings else following siblings

theorem chainedFrom_nil (first : Bool) : chainedFrom first [] = [] := by cases first <;> rfl

theorem chainedFrom_cons (first : Bool) (connector : Connector) (t : Text)
    (siblings : List (Connector × Text)) :
    chainedFrom first ((connector, t) :: siblings) =
      connector.text first ++ t ++ chainedFrom false siblings := by
  cases first <;> cases connector <;> rfl

/-! ## a forest is printed as it is -/

section
variable {c : ConditionOf (Except Error Text)}

theorem ConditionOf.item_of_isLeaf (h : c.IsLeaf) : c.item = .leaf c.connector c.body := by
  rcases h with h | h <;> simp [item, h]

theorem ConditionOf.item_of_groupOpen (h : c.kind = .groupOpen) :
    c.item = .groupOpen c.connector := by simp [item, h]

theorem ConditionOf.item_of_groupClose (h : c.kind = .groupClose) : c.item = .groupClose := by
  simp [item, h]

theorem ConditionOf.item_of_shared {columns : List String} (h : c.kind = .shared columns) :
    c.item = .shared columns := by simp [item, h]

end

/-- where a clause stands behind a forest -/
def Grouping.past {σ : Type} (g : Grouping) : Forest σ → Grouping
  | .nil => g
  | _ => g.filled

theorem Grouping.past_filled {σ : Type} (g : Grouping) (f : Forest σ) :
    g.filled.past f = g.filled := by cases f <;> rfl

theorem Grouping.past_of_ne_nil {σ : Type} (g : Grouping) {f : Forest σ} (h : f ≠ .nil) :
    g.past f = g.filled := by
  cases f with
  | nil => exact absurd rfl h
  | leaf _ _ | group _ _ _ _ => rfl

theorem map_append_map (t u : Text) (x : Except Error Text) :
    (x.map (u ++ ·)).map (t ++ ·) = x.map (t ++ u ++ ·) := by
  cases x with
  | error e => rfl
  | ok v => exact congrArg Except.ok (List.append_assoc t u v).symm

theorem itemsText_leaf {c : ConditionOf (Except Error Text)} (hc : c.IsLeaf) {t : Text}
    (ht : c.body = .ok t) (clause : Clause) (g : Grouping) (items : List ClauseItem) :
    itemsText clause g (c.item :: items) =
      (itemsText clause g.filled items).map
        (c.connector.text g.first ++ Comparison.parenthesized t ++ ·) := by
  rw [ConditionOf.item_of_isLeaf hc, itemsText, ht]
  rfl

theorem itemsText_groupOpen {c : ConditionOf (Except Error Text)} (hc : c.kind = .groupOpen)
    (clause : Clause) (g : Grouping) (items : List ClauseItem) :
    itemsText clause g (c.item :: items) =
      (itemsText clause g.opened items).map (c.connector.text g.first ++ ['('] ++ ·) := by
  rw [ConditionOf.item_of_groupOpen hc, itemsText]
  cases itemsText clause g.opened items with
  | error e => rfl
  | ok t => exact congrArg Except.ok (List.append_assoc _ ['('] t).symm

theorem itemsText_groupClose {c : ConditionOf (Except Error Text)} (hc : c.kind = .groupClose)
    (clause : Clause) {g : Grouping} (hdepth : g.depth ≠ 0) (hhollow : g.hollow = false)
    (items : List ClauseItem) :
    itemsText clause g (c.item :: items) = (itemsText clause g.closed items).map ([')'] ++ ·) := by
  rw [ConditionOf.item_of_groupClose hc, itemsText, if_neg hdepth, if_neg (by simp [hhollow])]
  rfl

/-- whatever stands behind it, a forest is printed as it is, and behind it the members go on in the
group in which it stands -/
theorem itemsText_forest (clause : Clause) {f : Forest (Except Error Text)} (hf : f.Formed)
    (hw : f.Writable) (g : Grouping) (items : List ClauseItem) :
    itemsText clause g (f.conditions.map ConditionOf.item ++ items) =
      (itemsText clause (g.past f) items).map (chainedFrom g.first f.siblings ++ ·) := by
  induction f generalizing g items with
  | nil =>
    rw [Forest.siblings, chainedFrom_nil]
    show itemsText clause g items = (itemsText clause g items).map ([] ++ ·)
    cases itemsText clause g items <;> rfl
  | leaf c later ih =>
    obtain ⟨t, ht⟩ := hw c (List.mem_cons_self ..)
    have hlater := ih hf.2 (fun d hd => hw d (List.mem_cons_of_mem _ hd)) g.filled items
    show itemsText clause g (c.item :: (later.conditions.map ConditionOf.item ++ items)) = _
    rw [itemsText_leaf hf.1 ht, hlater, Grouping.past_filled, map_append_map, Forest.siblings,
      chainedFrom_cons, ConditionOf.written_of_ok ht]
    rfl
  | group opening inner closing later ihInner ihLater =>
    obtain ⟨hopen, hclose, hne, hinner, hlater⟩ := hf
    have hwInner : inner.Writable := fun d hd => hw d (List.mem_append_left _ hd)
    have hwLater : later.Writable := fun d hd => hw d (List.mem_append_right _ hd)
    have hmembers : (Forest.group opening inner closing later).conditions.map ConditionOf.item ++
        items = opening.item :: (inner.conditions.map ConditionOf.item ++
          (closing.item :: (later.conditions.map ConditionOf.item ++ items))) := by
      simp [Forest.conditions]
    have hclosed : (g.opened.past inner).closed = g.filled := by
      rw [Grouping.past_of_ne_nil _ hne]
      rfl
    have hinside : (g.opened.past inner).depth ≠ 0 ∧ (g.opened.past inner).hollow = false := by
      rw [Grouping.past_of_ne_nil _ hne]
      exact ⟨Nat.succ_ne_zero _, rfl⟩
    rw [hmembers, itemsText_groupOpen hopen, ihInner hinner hwInner,
      itemsText_groupClose hclose clause hinside.1 hinside.2, hclosed, ihLater hlater hwLater,
      Grouping.past_filled, map_append_map, map_append_map, map_append_map, Forest.siblings,
      chainedFrom_cons]
    congr 1
    funext t
    simp [Comparison.parenthesized, chainedFrom, Grouping.opened, Grouping.filled]

/-! ## what is no forest is refused -/

/-- a member that is printed: a leaf with its text, a marker that opens a group, or one that closes a
group which has a member -/
theorem itemsText_cons_inv {clause : Clause} {g : Grouping} {c : ConditionOf (Except Error Text)}
    {items : List ClauseItem} {t : Text} (h : itemsText clause g (c.item :: items) = .ok t) :
    ∃ rest,
      (c.IsLeaf ∧ itemsText clause g.filled items = .ok rest ∧ ∃ body, c.body = .ok body ∧
        t = c.connector.text g.first ++ Comparison.parenthesized body ++ rest) ∨
      (c.kind = .groupOpen ∧ itemsText clause g.opened items = .ok rest ∧
        t = c.connector.text g.first ++ '(' :: rest) ∨
      (c.kind = .groupClose ∧ g.depth ≠ 0 ∧ g.hollow = false ∧
        itemsText clause g.closed items = .ok rest ∧ t = ')' :: rest) := by
  cases hk : c.kind with
  | shared columns =>
    rw [ConditionOf.item_of_shared hk, itemsText] at h
    cases h
  | groupClose =>
    rw [ConditionOf.item_of_groupClose hk, itemsText] at h
    split at h
    · cases h
    · rename_i hdepth
      split at h
      · cases h
      · rename_i hhollow
        obtain ⟨rest, hrest, h⟩ := bind_ok h
        cases h
        exact ⟨rest, .inr (.inr ⟨rfl, hdepth, Bool.eq_false_iff.mpr hhollow, hrest, rfl⟩)⟩
  | groupOpen =>
    rw [ConditionOf.item_of_groupOpen hk, itemsText] at h
    obtain ⟨rest, hrest, h⟩ := bind_ok h
    cases h
    exact ⟨rest, .inr (.inl ⟨rfl, hrest, rfl⟩)⟩
  | column | expression =>
    have hleaf : c.IsLeaf := by simp [ConditionOf.IsLeaf, hk]
    rw [ConditionOf.item_of_isLeaf hleaf, itemsText] at h
    obtain ⟨body, hbody, h⟩ := bind_ok h
    obtain ⟨rest, hrest, h⟩ := bind_ok h
    cases h
    exact ⟨rest, .inl ⟨hleaf, hrest, body, hbody, rfl⟩⟩

/-- what is left of a clause inside of its open groups: the rest of the innermost group, its closing
marker, and so on outwards to the rest of the clause itself -/
inductive Remains where
  | clause (f : Forest (Except Error Text))
  | group (f : Forest (Except Error Text)) (closing : ConditionOf (Except Error Text))
      (outer : Remains)

namespace Remains

def depth : Remains → Nat
  | .clause _ => 0
  | .group _ _ outer => outer.depth + 1

def conditions : Remains → List (ConditionOf (Except Error Text))
  | .clause f => f.conditions
  | .group f closing outer => f.conditions ++ closing :: outer.conditions

/-- the rest of a group that is `hollow` so far is not empty -/
def Formed (hollow : Bool) : Remains → Prop
  | .clause f => f.Formed ∧ f.Writable
  | .group f closing outer =>
    closing.kind = .groupClose ∧ (hollow = true → f ≠ .nil) ∧ f.Formed ∧ f.Writable ∧
      outer.Formed false

def printed (first : Bool) : Remains → Text
  | .clause f => chainedFrom first f.siblings
  | .group f _ outer => chainedFrom first f.siblings ++ ')' :: outer.printed false

/-- with one more member in front, in the innermost group -/
def behind (member : Forest (Except Error Text) → Forest (Except Error Text)) : Remains → Remains
  | .clause f => .clause (member f)
  | .group f closing outer => .group (member f) closing outer

theorem depth_behind (member : Forest (Except Error Text) → Forest (Except Error Text))
    (r : Remains) : (r.behind member).depth = r.depth := by cases r <;> rfl

theorem leaf_in_front {r : Remains} (hr : r.Formed false) {c : ConditionOf (Except Error Text)}
    (hc : c.IsLeaf) {t : Text} (ht : c.body = .ok t) (hollow first : Bool) :
    (r.behind (.leaf c)).Formed hollow ∧ (r.behind (.leaf c)).conditions = c :: r.conditions ∧
      (r.behind (.leaf c)).printed first =
        c.connector.text first ++ Comparison.parenthesized t ++ r.printed false := by
  have hw {f : Forest (Except Error Text)} (hf : f.Writable) : (Forest.leaf c f).Writable :=
    List.forall_mem_cons.mpr ⟨⟨t, ht⟩, hf⟩
  cases r with
  | clause f =>
    refine ⟨⟨⟨hc, hr.1⟩, hw hr.2⟩, rfl, ?_⟩
    rw [behind, printed, Forest.siblings, chainedFrom_cons, ConditionOf.written_of_ok ht]
    rfl
  | group f closing outer =>
    obtain ⟨hclose, _, hf, hwf, houter⟩ := hr
    refine ⟨⟨hclose, fun _ => nofun, ⟨hc, hf⟩, hw hwf, houter⟩, rfl, ?_⟩
    rw [behind, printed, Forest.siblings, chainedFrom_cons, ConditionOf.written_of_ok ht, printed,
      List.append_assoc]

theorem group_in_front {inner : Forest (Except Error Text)}
    {opening closing : ConditionOf (Except Error Text)} {r : Remains}
    (hr : (Remains.group inner closing r).Formed true) (hopen : opening.kind = .groupOpen)
    (hollow first : Bool) :
    (r.behind (.group opening inner closing)).Formed hollow ∧
      (r.behind (.group opening inner closing)).conditions =
        opening :: (Remains.group inner closing r).conditions ∧
      (r.behind (.group opening inner closing)).printed first =
        opening.connector.text first ++ '(' :: (Remains.group inner closing r).printed true := by
  obtain ⟨hclose, hne, hinner, hwInner, hr⟩ := hr
  have hformed {f : Forest (Except Error Text)} (hf : f.Formed) :
      (Forest.group opening inner closing f).Formed := ⟨hopen, hclose, hne rfl, hinner, hf⟩
  have hw {f : Forest (Except Error Text)} (hf : f.Writable) :
      (Forest.group opening inner closing f).Writable := List.forall_mem_append.mpr ⟨hwInner, hf⟩
  have hchain : chainedFrom true inner.siblings = chained inner.siblings := rfl
  cases r with
  | clause f =>
    refine ⟨⟨hformed hr.1, hw hr.2⟩, rfl, ?_⟩
    rw [behind, printed, Forest.siblings, chainedFrom_cons, printed, printed, hchain]
    simp [Comparison.parenthesized]
  | group f closing' outer =>
    obtain ⟨hclose', _, hf, hwf, houter⟩ := hr
    refine ⟨⟨hclose', fun _ => nofun, hformed hf, hw hwf, houter⟩, ?_, ?_⟩
    · simp [behind, conditions, Forest.conditions]
    · rw [behind, printed, Forest.siblings, chainedFrom_cons, printed, printed, hchain]
      simp [Comparison.parenthesized]

end Remains

/-- the first member of a group finds the group hollow -/
def Grouping.Sensible (g : Grouping) : Prop := g.first = true → g.depth = 0 ∨ g.hollow = true

/-- a group that may be closed holds a member, so that what follows it is no first one -/
theorem Grouping.Sensible.first_eq_false {g : Grouping} (hg : g.Sensible) (hdepth : g.depth ≠ 0)
    (hhollow : g.hollow = false) : g.first = false := by
  by_contra hfirst
  rcases hg (Bool.eq_true_of_not_eq_false hfirst) with h0 | h1
  · exact hdepth h0
  · exact Bool.false_ne_true (hhollow.symm.trans h1)

theorem Grouping.sensible_closed {g : Grouping} (hfirst : g.first = false) : g.closed.Sensible :=
  fun h => absurd (hfirst.symm.trans h) Bool.false_ne_true

/-- members that are printed close every open group, and all other groups are opened among them -/
theorem remains_of_itemsText {clause : Clause} {cs : List (ConditionOf (Except Error Text))}
    {g : Grouping} (hg : g.Sensible) {t : Text}
    (h : itemsText clause g (cs.map ConditionOf.item) = .ok t) :
    ∃ r : Remains, r.depth = g.depth ∧ r.Formed g.hollow ∧ r.conditions = cs ∧
      t = r.printed g.first := by
  induction cs generalizing g t with
  | nil =>
    rw [List.map_nil, itemsText] at h
    split at h
    · cases h
    · rename_i hdepth
      cases h
      exact ⟨.clause .nil, (Nat.eq_zero_of_not_pos hdepth).symm,
        ⟨trivial, fun _ hc => absurd hc List.not_mem_nil⟩, rfl, (chainedFrom_nil _).symm⟩
  | cons c cs ih =>
    rw [List.map_cons] at h
    obtain ⟨rest, ⟨hleaf, hrest, body, hbody, rfl⟩ | ⟨hopen, hrest, rfl⟩ |
      ⟨hclose, hdepth, hhollow, hrest, rfl⟩⟩ := itemsText_cons_inv h
    · have hsensible : g.filled.Sensible := fun hf => absurd hf Bool.false_ne_true
      obtain ⟨r, hrd, hrf, rfl, rfl⟩ := ih hsensible hrest
      obtain ⟨hformed, hconditions, hprinted⟩ :=
        Remains.leaf_in_front hrf hleaf hbody g.hollow g.first
      exact ⟨r.behind (.leaf c), (Remains.depth_behind _ _).trans hrd, hformed, hconditions,
        hprinted.symm⟩
    · have hsensible : g.opened.Sensible := fun _ => .inr rfl
      obtain ⟨r, hrd, hrf, rfl, rfl⟩ := ih hsensible hrest
      cases r with
      | clause f => cases hrd
      | group inner closing outer =>
        obtain ⟨hformed, hconditions, hprinted⟩ :=
          Remains.group_in_front hrf hopen g.hollow g.first
        exact ⟨outer.behind (.group c inner closing),
          (Remains.depth_behind _ _).trans (Nat.succ.inj hrd), hformed, hconditions,
          hprinted.symm⟩
    · have hfirst : g.first = false := hg.first_eq_false hdepth hhollow
      obtain ⟨r, hrd, hrf, rfl, rfl⟩ := ih (Grouping.sensible_closed hfirst) hrest
      rw [show g.closed.hollow = false from hhollow] at hrf
      rw [show g.closed.first = false from hfirst, hfirst, hhollow]
      have hopen : r.depth + 1 = g.depth := by
        rw [hrd]
        exact Nat.succ_pred_eq_of_ne_zero hdepth
      exact ⟨.group .nil c r, hopen, ⟨hclose, fun h => absurd h Bool.false_ne_true, trivial,
        fun _ hc => absurd hc List.not_mem_nil, hrf⟩, rfl, rfl⟩

/-! ## blank conditions -/

/-- nothing but white space -/
def Text.Blank (t : Text) : Prop := t.all Text.isBlank = true

instance (t : Text) : Decidable t.Blank := inferInstanceAs (Decidable (_ = _))

/-- an expression of white space, with no operator and no argument -/
def ConditionOf.IsBlank {σ : Type} (c : ConditionOf σ) : Prop :=
  c.kind = .expression ∧ Text.Blank c.left.toList ∧ c.operator = none ∧ c.exprArgs = []

theorem Text.blank_append {t u : Text} : Text.Blank (t ++ u) ↔ t.Blank ∧ u.Blank := by
  rw [Blank, List.all_append, Bool.and_eq_true]
  rfl

theorem Text.not_blank_of_mem {t : Text} {c : Char} (hc : c ∈ t) (h : Text.isBlank c = false) :
    ¬ t.Blank := fun hblank =>
  Bool.false_ne_true (h.symm.trans (List.all_eq_true.mp hblank c hc))

theorem Text.not_blank_of_mark {t : Text} (h : '?' ∈ t) : ¬ t.Blank :=
  not_blank_of_mem h (by decide)

theorem mem_of_countFrom_ne_zero {s : Quoting} {t : Text} (h : Placeholder.countFrom s t ≠ 0) :
    '?' ∈ t := by
  induction t generalizing s with
  | nil => exact absurd rfl h
  | cons c t ih =>
    rw [Placeholder.countFrom_cons] at h
    by_cases hmark : s.isMark c = true
    · obtain ⟨_, rfl⟩ : s = .plain ∧ c = '?' := by simpa [Quoting.isMark] using hmark
      exact List.mem_cons_self ..
    · rw [if_neg hmark, Nat.zero_add] at h
      exact List.mem_cons_of_mem _ (ih h)

theorem Comparison.not_blank_text (c : Comparison) : ¬ c.text.Blank := by
  have hop : ∀ op : Operator, ¬ Text.Blank (' ' :: op.text) := fun op => by cases op <;> decide
  cases c with
  | coalesced => decide
  | bare op => exact hop op
  | tuple op _ | range op | null op | single op =>
    exact fun hblank => hop op (Text.blank_append.mp hblank).1

theorem not_blank_argumentMarks (a : Argument) : ¬ Text.Blank (argumentMarks a) := by
  unfold argumentMarks
  split
  · split
    · decide
    · rename_i hlength
      refine Text.not_blank_of_mark (mem_of_countFrom_ne_zero (s := .plain) ?_)
      exact (Comparison.count_marks a.length).trans_ne hlength
  · decide

theorem not_blank_weave {cut : Text × List Text} {fills : List Text} (hcut : cut.2 ≠ [])
    (hlength : fills.length = cut.2.length) (hfills : ∀ t ∈ fills, ¬ Text.Blank t) :
    ¬ Text.Blank (Placeholder.weave cut fills) := by
  obtain ⟨first, pieces⟩ := cut
  cases pieces with
  | nil => exact absurd rfl hcut
  | cons behind pieces =>
    cases fills with
    | nil => cases hlength
    | cons fill fills =>
      rw [Placeholder.weave_cons, Text.blank_append, Text.blank_append]
      exact fun hblank => hfills fill (List.mem_cons_self ..) hblank.1.2

theorem not_blank_templateText {sql t : Text} {args : Arguments}
    (hmarks : Placeholder.count sql ≠ 0) (h : templateText sql args = .ok t) : ¬ t.Blank := by
  unfold templateText at h
  simp only at h
  split at h
  · cases h
    exact Text.not_blank_of_mark (mem_of_countFrom_ne_zero hmarks)
  · split at h
    · rename_i hcount
      rw [repeatMarks, if_pos hcount] at h
      cases h
      refine not_blank_weave ?_ ?_ ?_
      · rw [← List.length_pos_iff, Placeholder.length_split]
        exact Nat.pos_of_ne_zero hmarks
      · rw [List.length_map, Placeholder.length_split, hcount]
      · simp [not_blank_argumentMarks]
    · cases h

section
variable {c : ConditionOf (Except Error Text)} {t : Text}

theorem ConditionOf.blank_expressionText (h : c.expressionText = .ok t) :
    t.Blank ↔ Text.Blank c.left.toList ∧ c.operator = none ∧ c.exprArgs = [] := by
  unfold expressionText at h
  simp only at h
  split at h
  · split at h
    · rename_i hargs
      split at h
      · rename_i op hop
        obtain ⟨comparison, _, h⟩ := bind_ok h
        cases h
        simp [Text.blank_append, hop, comparison.not_blank_text]
      · rename_i hop
        cases h
        simp [hop, hargs]
    · rename_i a hargs
      obtain ⟨comparison, _, h⟩ := bind_ok h
      cases h
      simp [Text.blank_append, hargs, comparison.not_blank_text]
    · cases h
  · rename_i hmarks
    refine iff_of_false (not_blank_templateText hmarks h) fun ⟨hleft, _⟩ => ?_
    exact Text.not_blank_of_mark (mem_of_countFrom_ne_zero hmarks) hleft

theorem ConditionOf.not_blank_columnText (h : c.columnText = .ok t) : ¬ t.Blank := by
  obtain ⟨left, _, h⟩ := bind_ok h
  obtain ⟨comparison, _, h⟩ := bind_ok h
  cases h
  exact fun hblank => comparison.not_blank_text (Text.blank_append.mp hblank).2

theorem ConditionOf.not_blank_subselectText {select : Except Error Text}
    (h : c.subselectText select = .ok t) : ¬ t.Blank := by
  rw [subselectText_eq] at h
  obtain ⟨left, _, h⟩ := bind_ok h
  obtain ⟨op, _, h⟩ := bind_ok h
  obtain ⟨inner, _, h⟩ := bind_ok h
  cases h
  have hopen : ¬ Text.Blank (Comparison.parenthesized inner) :=
    Text.not_blank_of_mem (List.mem_cons_self ..) (by decide)
  exact fun hblank => hopen (Text.blank_append.mp hblank).2

/-- what is written of a condition says something, unless the condition is blank -/
theorem ConditionOf.blank_body (h : c.body = .ok t) : t.Blank ↔ c.IsBlank := by
  obtain ⟨_, _, h⟩ := bind_ok h
  cases hk : c.kind with
  | expression =>
    simp only [hk] at h
    rw [blank_expressionText h, IsBlank, and_iff_right hk]
  | column =>
    simp only [hk] at h
    refine iff_of_false ?_ fun hblank => ?_
    · split at h
      · exact not_blank_subselectText h
      · exact not_blank_columnText h
    · cases hk.symm.trans hblank.1
  | groupOpen | groupClose | shared _ =>
    simp only [hk] at h
    cases h

end

/-! ## clauses -/

theorem balanced_following {siblings : List (Connector × Text)} (h : ∀ s ∈ siblings, Balanced s.2) :
    Balanced (following siblings) := by
  induction siblings with
  | nil => exact balanced_nil
  | cons s siblings ih =>
    obtain ⟨hs, hrest⟩ := List.forall_mem_cons.mp h
    have hjoining : Balanced s.1.joining := by cases s.1 <;> decide
    exact (hjoining.append hs).append (ih hrest)

theorem balanced_chained {siblings : List (Connector × Text)} (h : ∀ s ∈ siblings, Balanced s.2) :
    Balanced (chained siblings) := by
  cases siblings with
  | nil => exact balanced_nil
  | cons s siblings =>
    obtain ⟨hs, hrest⟩ := List.forall_mem_cons.mp h
    have hleading : Balanced s.1.leading := by cases s.1 <;> decide
    exact (hleading.append hs).append (balanced_following hrest)

theorem Forest.balanced_printed {f : Forest (Except Error Text)}
    (h : ∀ c ∈ f.leaves, Balanced c.written) : Balanced f.printed := by
  have hsiblings : ∀ s ∈ f.siblings, Balanced s.2 := by
    induction f with
    | nil => exact fun _ hs => absurd hs List.not_mem_nil
    | leaf c later ih =>
      obtain ⟨hc, hlater⟩ := List.forall_mem_cons.mp h
      exact List.forall_mem_cons.mpr ⟨balanced_parenthesized hc, ih hlater⟩
    | group opening inner closing later ihInner ihLater =>
      obtain ⟨hinner, hlater⟩ := List.forall_mem_append.mp h
      exact List.forall_mem_cons.mpr
        ⟨balanced_parenthesized (balanced_chained (ihInner hinner)), ihLater hlater⟩
  exact balanced_chained hsiblings

/-- there is a parenthesis at least -/
theorem Forest.printed_ne_nil {f : Forest (Except Error Text)} (h : f ≠ .nil) : f.printed ≠ [] := by
  cases f with
  | nil => exact absurd rfl h
  | leaf _ _ | group _ _ _ _ => simp [printed, siblings, chained, Comparison.parenthesized]

theorem clauseText_of_not_shared (clause : Clause) {cs : List (ConditionOf (Except Error Text))}
    (hne : cs ≠ []) (hcs : ∀ c ∈ cs, ¬ c.IsShared) :
    clauseText clause cs =
      (itemsText clause .start (cs.map ConditionOf.item)).map (clause.keyword ++ ·) := by
  cases cs with
  | nil => exact absurd rfl hne
  | cons c cs =>
    have hfirst : ¬ c.EndsJoin clause := fun h => hcs c (List.mem_cons_self ..) h.2
    rw [clauseText_of_not_endsJoin hfirst]
    rfl

/-- shared columns among the members are never printed -/
theorem itemsText_of_isShared (clause : Clause) {cs : List (ConditionOf (Except Error Text))}
    {c : ConditionOf (Except Error Text)} (hc : c ∈ cs) (hs : c.IsShared) (g : Grouping)
    (t : Text) : itemsText clause g (cs.map ConditionOf.item) ≠ .ok t := by
  induction cs generalizing g t with
  | nil => exact absurd hc List.not_mem_nil
  | cons d cs ih =>
    intro h
    obtain ⟨rest, hrest⟩ := itemsText_cons_inv h
    rcases List.mem_cons.mp hc with rfl | hc
    · obtain ⟨columns, hk⟩ := hs
      simp [ConditionOf.IsLeaf, hk] at hrest
    · obtain ⟨_, hrest, _⟩ | ⟨_, hrest, _⟩ | ⟨_, _, _, hrest, _⟩ := hrest
      all_goals exact ih hc _ rest hrest

/-- the text is the keyword and the forest of the members, which is the only one -/
structure PrintsForest (clause : Clause) (cs : List (ConditionOf (Except Error Text)))
    (f : Forest (Except Error Text)) (t : Text) : Prop where
  formed : f.Formed
  members : f.conditions = cs
  unique : ∀ g : Forest (Except Error Text), g.Formed → g.conditions = cs → g = f
  writable : f.Writable
  text : t = clause.keyword ++ f.printed

theorem PrintsForest.ne_nil {clause : Clause} {cs : List (ConditionOf (Except Error Text))}
    {f : Forest (Except Error Text)} {t : Text} (h : PrintsForest clause cs f t) (hne : cs ≠ []) :
    f ≠ .nil := by
  rintro rfl
  exact hne h.members.symm

theorem PrintsForest.blank_written {clause : Clause}
    {cs : List (ConditionOf (Except Error Text))} {f : Forest (Except Error Text)} {t : Text}
    (h : PrintsForest clause cs f t) : ∀ c ∈ f.leaves, (c.written.Blank ↔ c.IsBlank) := by
  intro c hc
  obtain ⟨body, hbody⟩ := h.writable c hc
  rw [ConditionOf.written_of_ok hbody]
  exact ConditionOf.blank_body hbody

theorem clauseText_ok_iff (clause : Clause) {cs : List (ConditionOf (Except Error Text))}
    (hne : cs ≠ []) (hcs : ∀ c ∈ cs, ¬ c.IsShared) (t : Text) :
    clauseText clause cs = .ok t ↔ ∃ f, PrintsForest clause cs f t := by
  rw [clauseText_of_not_shared clause hne hcs]
  constructor
  · intro h
    cases hitems : itemsText clause .start (cs.map ConditionOf.item) with
    | error e =>
      rw [hitems] at h
      cases h
    | ok u =>
      rw [hitems] at h
      cases h
      obtain ⟨r, hdepth, hr, hconditions, rfl⟩ :=
        remains_of_itemsText (g := .start) (fun _ => .inl rfl) hitems
      cases r with
      | group f closing outer => cases hdepth
      | clause f =>
        refine ⟨f, hr.1, hconditions, fun g hg hgc => ?_, hr.2, rfl⟩
        exact Forest.conditions_injective hg hr.1 (hgc.trans hconditions.symm)
  · rintro ⟨f, hf, rfl, _, hw, rfl⟩
    have hitems := itemsText_forest clause hf hw .start []
    rw [List.append_nil] at hitems
    have hend : itemsText clause (Grouping.start.past f) [] = .ok [] := by cases f <;> rfl
    rw [hitems, hend]
    show Except.ok (clause.keyword ++ (f.printed ++ [])) = _
    rw [List.append_nil]

/-- A clause is printed if and only if its members are a forest whose leaves can all be written, and
then as that forest: no group and no clause without a leaf, no parenthesis left open.  What is
written of a leaf is blank for a blank condition and for no other.  Shared columns stand alone, in
front of the conditions of a join. -/
theorem clauseText_forest (clause : Clause) (cs : List (ConditionOf (Except Error Text))) :
    clauseText clause [] = .ok [] ∧
    (cs ≠ [] → (∀ c ∈ cs, ¬ c.IsShared) → ∀ t,
      (clauseText clause cs = .ok t ↔ ∃ f, PrintsForest clause cs f t) ∧
      ∀ f, PrintsForest clause cs f t →
        f.printed ≠ [] ∧ f.leaves ≠ [] ∧ (∀ inner ∈ f.groups, inner.leaves ≠ []) ∧
          (∀ c ∈ f.leaves, (c.written.Blank ↔ c.IsBlank)) ∧
          ((∀ c ∈ f.leaves, Balanced c.written) → Balanced f.printed)) ∧
    (∀ c rest columns, cs = c :: rest → c.kind = .shared columns → clause = .join →
      clauseText clause cs =
        (nameListText columns).map fun names => " USING (".toList ++ names ++ [')']) ∧
    ((∃ c ∈ cs, c.IsShared) → (∀ c ∈ cs.head?, ¬ c.EndsJoin clause) →
      ∃ e, clauseText clause cs = .error e) := by
  refine ⟨?_, ?_, ?_, ?_⟩
  · cases clause <;> rfl
  · intro hne hcs t
    refine ⟨clauseText_ok_iff clause hne hcs t, fun f h => ?_⟩
    have hf := h.ne_nil hne
    exact ⟨f.printed_ne_nil hf, f.leaves_ne_nil h.formed hf, f.leaves_ne_nil_of_mem_groups h.formed,
      h.blank_written, f.balanced_printed⟩
  · rintro c rest columns rfl hk rfl
    have hitem := ConditionOf.item_of_shared hk
    simp only [clauseText, List.map_cons, hitem]
    cases nameListText columns <;> rfl
  · rintro ⟨c, hc, hs⟩ hhead
    cases cs with
    | nil => exact absurd hc List.not_mem_nil
    | cons d cs =>
      rw [clauseText_of_not_endsJoin (hhead d rfl)]
      cases hitems : itemsText clause .start ((d :: cs).map ConditionOf.item) with
      | error e => exact ⟨e, rfl⟩
      | ok t => exact absurd hitems (itemsText_of_isShared clause hc hs .start t)

/-! a negated group with a group in it, and a leaf behind it -/

def grouped : List (ConditionOf (Except Error Text)) :=
  [.join .groupOpen .not, .arg (.column "a") (.int 1), .join .groupOpen .or, .column "b",
    .join (.column "c") .not, .groupClose, .groupClose, .join (.expression "d") .xor]

theorem clauseText_forest_grouped :
    (∃ f, PrintsForest .filter grouped f
      " WHERE NOT ((`a` = ?) OR ((`b` IS NULL) AND NOT (`c` IS NULL))) XOR (d)".toList) ∧
    ∃ e, clauseText .join (grouped ++ [.sharing ["a"]]) = .error e := by
  have htext : clauseText .filter grouped = .ok
      " WHERE NOT ((`a` = ?) OR ((`b` IS NULL) AND NOT (`c` IS NULL))) XOR (d)".toList := by
    refine ok_of_toOption ?_
    decide +kernel
  obtain ⟨_, hforest, _, _⟩ := clauseText_forest .filter grouped
  obtain ⟨_, _, _, hshared⟩ := clauseText_forest .join (grouped ++ [.sharing ["a"]])
  have hleaves : ∀ c ∈ grouped, ¬ c.IsShared := by
    simp [grouped, ConditionOf.IsShared, ConditionOf.join, ConditionOf.groupOpen,
      ConditionOf.groupClose, ConditionOf.column, ConditionOf.expression, ConditionOf.arg]
  refine ⟨(hforest (List.cons_ne_nil _ _) hleaves _).1.mp htext, hshared ?_ ?_⟩
  · exact ⟨.sharing ["a"], List.mem_append_right _ (List.mem_singleton_self _), ["a"], rfl⟩
  · rintro c ⟨⟩ ⟨_, columns, hk⟩
    cases hk

/-- a predicate of which nothing is left but its parentheses -/
theorem clauseText_blank :
    clauseText .filter [.expression ""] = .ok " WHERE ()".toList ∧
    clauseText .having [.expression ""] = .ok " HAVING ()".toList ∧
    clauseText .join [.expression ""] = .ok " ON ()".toList := by
  refine ⟨ok_of_toOption ?_, ok_of_toOption ?_, ok_of_toOption ?_⟩
  all_goals decide +kernel

end BoundSql
