import BoundSql.Proofs.Balance.Select
import BoundSql.Proofs.Walk.Statement

/-!
# Parentheses of statements

* `Statement.fragments`      the caller's texts in a statement and in all SELECTs in it;
* `Statement.replacements`   the keys and values of its templates;
* `Insert.balances_text`, `Update.balances_text`, `Delete.balances_text`, `Union.balances_text`,
  `With.balances_text`       the text of each kind of statement;
* `Statement.buildText_balanced`   every text that is built is balanced;
* `Mutation.balances_recordText`   and so is the text for one record.
-/

namespace BoundSql

theorem balances_selects {ss : List Select}
    (hf : ∀ f ∈ ss.flatMap Select.fragments, Composed f) : ∀ s ∈ ss, Balances s.text :=
  fun s hs => Select.balances_text fun f h => hf f (List.mem_flatMap.mpr ⟨s, hs, h⟩)

theorem balances_wheres {clause : Clause} {cs : List Condition}
    (hf : ∀ c ∈ cs, ∀ f ∈ c.fragments, Composed f) (hsub : ∀ s ∈ subselects cs, Balances s.text) :
    Balances (clause.text cs) := by
  refine balances_clauseText (fun c hc => ?_) fun x hx => ?_
  · obtain ⟨c', hc', rfl⟩ := List.mem_map.mp hc
    exact hf c' hc'
  · obtain ⟨c, hc, hx⟩ := List.mem_filterMap.mp hx
    obtain ⟨c', hc', rfl⟩ := List.mem_map.mp hc
    obtain ⟨s, hs, rfl⟩ := Option.map_eq_some_iff.mp hx
    exact hsub s (mem_subselects hc' hs)

/-- names in parentheses behind what they belong to -/
theorem balanced_nameList {names : List String} {t : Text} (h : nameListText names = .ok t) :
    Balanced (" (".toList ++ t ++ [')']) := by
  have hopen : Leads 0 (" (".toList ++ t) 1 :=
    .append (n := 1) (by decide) ((balanced_nameListText h).leads 1)
  exact (hopen.append (leads_close 0)).balanced

/-! ## INSERT -/

namespace Insert

/-- the caller's texts for rows that are there already -/
def duplicateFragments : String × OnDuplicate → List String
  | (_, .expression sql _) => [sql]
  | _ => []

def ownFragments (i : Insert) : List String := i.onDuplicate.flatMap duplicateFragments

theorem balanced_rowsText (width count : Nat) : Balanced (rowsText width count) := by
  refine balanced_separated (by decide) _ fun t ht => ?_
  rw [(List.mem_replicate.mp ht).2]
  exact balanced_parenthesized (balanced_marks width)

theorem balances_columns (i : Insert) : Balances i.columnsText := by
  intro t h
  unfold columnsText at h
  split at h
  · cases h
    exact balanced_nil
  · obtain ⟨names, hnames, h⟩ := bind_ok h
    cases h
    exact balanced_nameList hnames

theorem balances_source {i : Insert} (hsub : ∀ s ∈ i.selects, Balances s.text) (extra : Nat) :
    Balances (i.sourceText extra) := by
  intro t h
  unfold sourceText at h
  split at h
  · obtain ⟨_, _, rfl⟩ := valuesText_ok h
    exact .append (by decide) (balanced_rowsText _ _)
  · rename_i select hselect
    split at h
    · cases h
    · obtain ⟨inner, hinner, h⟩ := bind_ok h
      cases h
      have hmem : select ∈ i.selects := by
        rw [selects, hselect]
        exact List.mem_singleton_self _
      exact balanced_cons (by decide) (hsub select hmem inner (within_eq_ok hinner))

theorem balances_duplicate {pair : String × OnDuplicate}
    (hf : ∀ f ∈ duplicateFragments pair, Composed f) : Balances (duplicateText pair) := by
  obtain ⟨column, value⟩ := pair
  intro t h
  obtain ⟨name, hname, h⟩ := bind_ok h
  have hname := balanced_strictName hname
  cases value with
  | inserted =>
    cases h
    have hopen : Leads 0 (name ++ "=VALUES(".toList) 1 := (hname.leads 0).append (by decide)
    exact ((hopen.append (hname.leads 1)).append (leads_close 0)).balanced
  | argument a =>
    cases h
    exact hname.append (by decide)
  | expression sql args =>
    obtain ⟨text, htext, h⟩ := bind_ok h
    cases h
    have hsql := (hf sql (List.mem_singleton_self sql)).balanced
    exact hname.append (balanced_cons (by decide) (balanced_templateText hsql htext))

theorem balances_duplicates {i : Insert} (hf : ∀ f ∈ i.ownFragments, Composed f) :
    Balances i.duplicatesText := by
  intro t h
  unfold duplicatesText at h
  split at h
  · cases h
    exact balanced_nil
  · obtain ⟨texts, htexts, h⟩ := bind_ok h
    cases h
    refine .append (by decide) (balanced_separated (by decide) texts ?_)
    exact forall_of_mapM htexts fun pair hpair =>
      balances_duplicate fun f h => hf f (List.mem_flatMap.mpr ⟨pair, hpair, h⟩)

/-- also with rows of placeholders for records behind the statement's own -/
theorem balances_textWith {i : Insert} (hf : ∀ f ∈ i.ownFragments, Composed f)
    (hsub : ∀ s ∈ i.selects, Balances s.text) (extra : Nat) : Balances (i.textWith extra) := by
  intro t h
  obtain ⟨_, table, columns, source, duplicates, htable, hcolumns, hsource, hduplicates, rfl⟩ :=
    textWith_ok h
  have hinto : Balanced (if i.ignore then "INSERT IGNORE INTO " else "INSERT INTO ").toList := by
    cases i.ignore <;> decide
  have hcolumns := (hinto.append (balanced_strictName htable)).append
    (balances_columns i columns hcolumns)
  exact (hcolumns.append (balances_source hsub extra source hsource)).append
    (balances_duplicates hf duplicates hduplicates)

end Insert

/-! ## UPDATE -/

namespace Update

def assignedFragments : String × Assigned → List String
  | (_, .argument _) => []
  | (_, .computed c) => c.fragments

def ownFragments (u : Update) : List String :=
  (u.raw.map Prod.fst).toList ++ u.sets.flatMap assignedFragments ++
    u.wheres.flatMap ConditionOf.fragments ++ u.orderBy.flatMap (Term.fragments false)

theorem balances_set (column : String) {value : Except Error Text} (h : Balances value) :
    Balances (setText column value) := by
  intro t ht
  obtain ⟨name, hname, ht⟩ := bind_ok ht
  obtain ⟨text, htext, ht⟩ := bind_ok ht
  cases ht
  exact (balanced_strictName hname).append (balanced_cons (by decide) (h text htext))

theorem balances_assigned {pair : String × Assigned}
    (hf : ∀ f ∈ assignedFragments pair, Composed f)
    (hsub : ∀ s ∈ assignedSelects pair, Balances s.text) : Balances (assignedText pair.2) := by
  obtain ⟨column, value⟩ := pair
  intro t h
  cases value with
  | argument a =>
    cases h
    decide
  | computed c =>
    refine ConditionOf.balances_body (c := c.map Select.text) hf (fun x hx => ?_) t h
    obtain ⟨s, hs, rfl⟩ := Option.map_eq_some_iff.mp hx
    exact hsub s (mem_subselects (List.mem_singleton_self c) hs)

theorem balances_clauses {u : Update} (hf : ∀ f ∈ u.ownFragments, Composed f)
    (hsub : ∀ s ∈ u.selects, Balances s.text) : Balances u.clausesText := by
  simp only [ownFragments, List.mem_append, List.mem_flatMap] at hf
  intro t h
  obtain ⟨table, name, sets, wheres, orderBy, htable, hname, hsets, hwheres, horderBy, rfl⟩ :=
    clausesText_ok h
  obtain ⟨own, hown, hsets⟩ := bind_ok hsets
  obtain ⟨others, hothers, hsets⟩ := bind_ok hsets
  cases hsets
  have hown : ∀ t ∈ own, Balanced t := forall_of_mapM hown fun column _ =>
    balances_set column fun t ht => by cases ht; decide
  have hothers : ∀ t ∈ others, Balanced t := forall_of_mapM hothers fun pair hpair =>
    balances_set pair.1 <| balances_assigned
      (fun f h => hf f (.inl (.inl (.inr ⟨pair, hpair, h⟩))))
      fun s hs => hsub s (mem_selects_of_sets hpair hs)
  have hassigned : Balanced (Text.separated ", ".toList (own ++ others)) :=
    balanced_separated (by decide) _ (List.forall_mem_append.mpr ⟨hown, hothers⟩)
  have hwheres := balances_wheres (fun c hc f h => hf f (.inl (.inr ⟨c, hc, h⟩)))
    (fun s hs => hsub s (List.mem_append_right _ hs)) wheres hwheres
  have horderBy := balances_termsText (by decide)
    (fun term hterm f h => hf f (.inr ⟨term, hterm, h⟩)) orderBy horderBy
  have hhead : Balanced ("UPDATE ".toList ++ table ++ name ++ " SET ".toList) :=
    ((Balanced.append (by decide) (balanced_strictName htable)).append
      (balanced_aliasText hname)).append (by decide)
  exact (((hhead.append hassigned).append hwheres).append horderBy).append
    (balanced_limitText u.limit none)

theorem balances_text {u : Update} (hf : ∀ f ∈ u.ownFragments, Composed f)
    (hsub : ∀ s ∈ u.selects, Balances s.text) : Balances u.text := by
  intro t h
  unfold Update.text at h
  split at h
  · cases h
  · rename_i sql args _ hraw
    refine balanced_templateText (hf sql ?_).balanced h
    simp [ownFragments, hraw]
  · exact balances_clauses hf hsub t h

end Update

/-! ## DELETE -/

namespace Delete

def ownFragments (d : Delete) : List String :=
  d.wheres.flatMap ConditionOf.fragments ++ d.orderBy.flatMap (Term.fragments false)

theorem balances_text {d : Delete} (hf : ∀ f ∈ d.ownFragments, Composed f)
    (hsub : ∀ s ∈ d.selects, Balances s.text) : Balances d.text := by
  simp only [ownFragments, List.mem_append, List.mem_flatMap] at hf
  intro t h
  obtain ⟨table, name, wheres, orderBy, htable, hname, hwheres, horderBy, rfl⟩ := text_ok h
  have hwheres := balances_wheres (fun c hc f h => hf f (.inl ⟨c, hc, h⟩)) hsub wheres hwheres
  have horderBy := balances_termsText (by decide)
    (fun term hterm f h => hf f (.inr ⟨term, hterm, h⟩)) orderBy horderBy
  have hhead : Balanced ("DELETE FROM ".toList ++ table ++ name) :=
    (Balanced.append (by decide) (balanced_strictName htable)).append (balanced_aliasText hname)
  exact ((hhead.append hwheres).append horderBy).append (balanced_limitText d.limit none)

end Delete

/-! ## UNION -/

theorem Select.fragments_asMember (s : Select) (i : Nat) :
    (s.asMember i).fragments = s.fragments := by
  obtain ⟨s⟩ := s
  rw [asMember, fragments_mk, fragments_mk]
  rfl

/-- a key and its values mean the same in and outside quotes, and no value is empty -/
def NeutralKey (r : String × List String) : Prop :=
  Neutral r.1.toList ∧ ∀ v ∈ r.2, Neutral v.toList ∧ v ≠ ""

namespace Union

def ownFragments (u : Union) : List String := u.orderBy.flatMap (Term.fragments false)

theorem balanced_replaced {u : Union} (hr : ∀ r ∈ u.replacements, NeutralKey r) {i : Nat}
    (hi : ∀ r ∈ u.replacements, i < r.2.length) {t : Text} (h : Balanced t) :
    Balanced (u.replaced i t) := by
  unfold replaced
  revert hr hi
  generalize u.replacements = replacements
  intro hr hi
  induction replacements generalizing t with
  | nil => exact h
  | cons r replacements ih =>
    obtain ⟨key, values⟩ := r
    obtain ⟨hkey, hvalues⟩ := hr (key, values) (List.mem_cons_self ..)
    have hlt : i < values.length := hi (key, values) (List.mem_cons_self ..)
    have hmem : values.getD i "" ∈ values := by
      rw [List.getD_eq_getElem?_getD, List.getElem?_eq_getElem hlt]
      exact List.getElem_mem hlt
    obtain ⟨hvalue, hne⟩ := hvalues _ hmem
    have hchars : (values.getD i "").toList ≠ [] := fun he => hne (String.toList_eq_nil_iff.mp he)
    exact ih (balanced_replaceAll hkey hvalue hchars h)
      (fun r h => hr r (List.mem_cons_of_mem _ h)) fun r h => hi r (List.mem_cons_of_mem _ h)

theorem balances_member {u : Union} (hr : ∀ r ∈ u.replacements, NeutralKey r) {s : Select}
    (hs : ∀ f ∈ s.fragments, Composed f) {i : Nat} (hi : ∀ r ∈ u.replacements, i < r.2.length) :
    Balances (u.memberText i s) := by
  intro t h
  obtain ⟨inner, hinner, h⟩ := bind_ok h
  cases h
  refine balanced_parenthesized (balanced_replaced hr hi ?_)
  refine Select.balances_text ?_ inner (within_eq_ok hinner)
  split
  · rwa [Select.fragments_asMember]
  · exact hs

theorem balanced_members {u : Union} (hr : ∀ r ∈ u.replacements, NeutralKey r)
    {ss : List Select} (hs : ∀ s ∈ ss, ∀ f ∈ s.fragments, Composed f) {i : Nat}
    (hi : ∀ r ∈ u.replacements, i + ss.length ≤ r.2.length) {ts : List Text}
    (h : mapMembers u.memberText i ss = .ok ts) : ∀ t ∈ ts, Balanced t := by
  induction ss generalizing i ts with
  | nil =>
    cases h
    simp
  | cons s ss ih =>
    obtain ⟨t, ht, h⟩ := bind_ok h
    obtain ⟨us, hus, h⟩ := bind_ok h
    cases h
    simp only [List.length_cons] at hi
    have hhere := balances_member hr (hs s (List.mem_cons_self ..))
      (fun r hmem => by have := hi r hmem; omega) t ht
    have hlater := ih (fun s h => hs s (List.mem_cons_of_mem _ h))
      (fun r hmem => by have := hi r hmem; omega) hus
    exact List.forall_mem_cons.mpr ⟨hhere, hlater⟩

theorem balances_text {u : Union} (he : u.Even) (hr : ∀ r ∈ u.replacements, NeutralKey r)
    (hf : ∀ f ∈ u.ownFragments, Composed f)
    (hs : ∀ f ∈ u.selects.flatMap Select.fragments, Composed f) : Balances u.text := by
  intro t h
  obtain ⟨_, _, h⟩ := bind_ok h
  obtain ⟨members, hmembers, h⟩ := bind_ok h
  obtain ⟨orderBy, horderBy, h⟩ := bind_ok h
  cases h
  have hmembers := balanced_members hr
    (fun s h f hfs => hs f (List.mem_flatMap.mpr ⟨s, mem_members h, hfs⟩))
    (by rw [Nat.zero_add]; exact length_members he) hmembers
  have hterms : ∀ term ∈ u.terms, ∀ f ∈ term.fragments false, Composed f := by
    have hown : ∀ term ∈ u.orderBy, ∀ f ∈ term.fragments false, Composed f :=
      fun term hterm f h => hf f (List.mem_flatMap.mpr ⟨term, hterm, h⟩)
    unfold terms
    split
    · exact List.forall_mem_cons.mpr ⟨fun f h => by simp [Term.fragments] at h, hown⟩
    · exact hown
  have hsep : Balanced u.separator := by
    unfold separator
    cases u.all <;> decide
  exact ((balanced_separated hsep members hmembers).append
    (balances_termsText (by decide) hterms orderBy horderBy)).append
    (balanced_limitText u.limit u.offset)

end Union

/-! ## WITH -/

namespace Query

/-- the caller's texts that a query does not leave to its SELECTs -/
def ownFragments : Query → List String
  | .select _ => []
  | .union u => u.ownFragments

def replacements : Query → List (String × List String)
  | .select _ => []
  | .union u => u.replacements

theorem balances_text {q : Query} (hm : q.Made) (hr : ∀ r ∈ q.replacements, NeutralKey r)
    (hf : ∀ f ∈ q.ownFragments, Composed f)
    (hs : ∀ f ∈ q.selects.flatMap Select.fragments, Composed f) : Balances q.text := by
  cases q with
  | select s => exact balances_selects hs s (List.mem_singleton_self s)
  | union u => exact Union.balances_text (Union.Made.even hm) hr hf hs

end Query

theorem TableExpression.balances_text {t : TableExpression} (h : Balances t.query.text) :
    Balances t.text := by
  intro sql hsql
  obtain ⟨name, hname, hsql⟩ := bind_ok hsql
  obtain ⟨columns, hcolumns, hsql⟩ := bind_ok hsql
  obtain ⟨query, hquery, hsql⟩ := bind_ok hsql
  cases hsql
  have hcolumns : Balanced columns := by
    unfold columnsText at hcolumns
    split at hcolumns
    · cases hcolumns
      exact balanced_nil
    · obtain ⟨names, hnames, hcolumns⟩ := bind_ok hcolumns
      cases hcolumns
      exact balanced_nameList hnames
  exact (((balanced_strictName hname).append hcolumns).append (by decide)).append
    (balanced_parenthesized (h query (within_eq_ok hquery)))

theorem With.balances_text {w : With} (h : ∀ q ∈ w.queries, Balances q.text) :
    Balances w.text := by
  intro t ht
  obtain ⟨query, hquery, ht⟩ := bind_ok ht
  obtain ⟨tables, htables, ht⟩ := bind_ok ht
  obtain ⟨last, hlast, ht⟩ := bind_ok ht
  cases ht
  have htables : ∀ t ∈ tables, Balanced t := forall_of_mapM htables fun table htable =>
    TableExpression.balances_text (h _ (List.mem_append_left _ (List.mem_map_of_mem htable)))
  have hhead : Balanced (if w.recursive then "WITH RECURSIVE " else "WITH ").toList := by
    cases w.recursive <;> decide
  exact (hhead.append (balanced_separated (by decide) tables htables)).append
    (balanced_cons (by decide) (h query (mem_queries_of_finalQuery hquery) last hlast))

/-! ## statements -/

namespace Statement

/-- the caller's texts that a statement does not leave to its SELECTs -/
def ownFragments : Statement → List String
  | .select _ => []
  | .insert i => i.ownFragments
  | .update u => u.ownFragments
  | .delete d => d.ownFragments
  | .union u => u.ownFragments
  | .with w => w.queries.flatMap Query.ownFragments

/-- the caller's texts in a statement and in all SELECTs in it -/
def fragments (s : Statement) : List String := s.ownFragments ++ s.selects.flatMap Select.fragments

def replacements : Statement → List (String × List String)
  | .union u => u.replacements
  | .with w => w.queries.flatMap Query.replacements
  | _ => []

theorem balances_text {s : Statement} (hm : s.Made) (hf : ∀ f ∈ s.fragments, Composed f)
    (hr : ∀ r ∈ s.replacements, NeutralKey r) : Balances s.text := by
  obtain ⟨hown, hselects⟩ := List.forall_mem_append.mp hf
  cases s with
  | select s => exact balances_selects hselects s (List.mem_singleton_self s)
  | insert i => exact Insert.balances_textWith hown (balances_selects hselects) 0
  | update u => exact Update.balances_text hown (balances_selects hselects)
  | delete d => exact Delete.balances_text hown (balances_selects hselects)
  | union u => exact Union.balances_text (Union.Made.even hm) hr hown hselects
  | «with» w =>
    refine With.balances_text fun q hq => ?_
    refine Query.balances_text (With.Made.queries hm q hq) ?_ ?_ ?_
    · exact fun r h => hr r (List.mem_flatMap.mpr ⟨q, hq, h⟩)
    · exact fun f h => hown f (List.mem_flatMap.mpr ⟨q, hq, h⟩)
    · intro f h
      obtain ⟨s, hs, hfs⟩ := List.mem_flatMap.mp h
      exact hselects f (List.mem_flatMap.mpr ⟨s, List.mem_flatMap.mpr ⟨q, hq, hs⟩, hfs⟩)

/-- whatever stands in its names and aliases, a statement whose raw texts are balanced is built as a
balanced text: it ends outside quotes, and its parentheses outside quotes pair up -/
theorem buildText_balanced {s : Statement} (hm : s.Made) (hf : ∀ f ∈ s.fragments, Composed f)
    (hr : ∀ r ∈ s.replacements, NeutralKey r) {sql : Text} (h : s.buildText = .ok sql) :
    Balanced sql := by
  obtain ⟨_, _, ht⟩ := bind_ok h
  exact balances_text hm hf hr sql ht

/-! a template in a WITH: names that hold a backtick, quotes, parentheses, `?` and a backslash, an
`IF` and a group -/

def templateMember : Select :=
  ((Select.ofTable "`t``('?`").edit (.computedColumns [.sqlIf "a" "')'" "b"])).edit
    (.filter [.groupOpen, (ConditionOf.expression "key IN (?)").arg (.ints [1, 2]), .groupClose])

def template : Union := (Union.ofSelects [templateMember]).edit (.replace "key" ["x", "y?"])

def templated : With :=
  (({} : With).edit (.table "`w\"\\(`" [] (.union template))).edit
    (.final (.select (.ofTable "`w\"\\(`")))

theorem made_templated : (Statement.with templated).Made := by
  have hmember : templateMember.Made := by
    refine .edit _ _ (.edit _ _ (.ofTable _) fun t ht => ?_) fun t ht => ?_
    · cases ht
    · cases ht
  have hunion : template.Made := by
    refine .edit _ _ (.ofSelects _ fun t ht => ?_) fun t ht => by cases ht
    rw [List.mem_singleton.mp ht]
    exact hmember
  refine With.Made.edit _ _ (.edit _ _ .empty fun q hq => ?_) fun q hq => ?_
  · rw [List.mem_singleton.mp hq]
    exact hunion
  · rw [List.mem_singleton.mp hq]
    exact Select.Made.ofTable _

def templatedText : Text :=
  "WITH `w\"\\(` AS ((SELECT IF((a), ')', b) FROM `t``('?` WHERE ((x IN (?,?))))".toList ++
    "\nUNION\n(SELECT IF((a), ')', b) FROM `t``('?` WHERE ((y? IN (?,?)))))".toList ++
    "\nSELECT * FROM `w\"\\(`".toList

theorem buildText_templated : (Statement.with templated).buildText = .ok templatedText := by
  refine ok_of_toOption ?_
  decide +kernel

theorem buildText_balanced_templated :
    (Statement.with templated).buildText = .ok templatedText ∧ Balanced templatedText := by
  have hfragments : ∀ f ∈ (Statement.with templated).fragments, Composed f := by
    intro f hf
    have hf : f ∈ ["IF((a), ')', b)", "key IN (?)"] := hf
    rcases List.mem_cons.mp hf with rfl | hf
    · show Composed (ConditionOf.sqlIf "a" "')'" "b" : Condition).left
      exact .sqlIf (by decide) (by decide) (by decide)
    · rw [List.mem_singleton.mp hf]
      exact .text (by decide)
  have hreplacements : ∀ r ∈ (Statement.with templated).replacements, NeutralKey r := by
    intro r hr
    rw [List.mem_singleton.mp (show r ∈ [("key", ["x", "y?"])] from hr)]
    exact ⟨by decide, by decide⟩
  exact ⟨buildText_templated,
    buildText_balanced made_templated hfragments hreplacements buildText_templated⟩

end Statement

/-- also the text for one record of a bulk run is balanced -/
theorem Mutation.balances_recordText {m : Mutation}
    (hf : ∀ f ∈ m.statement.fragments, Composed f) : Balances m.recordText := by
  obtain ⟨hown, hselects⟩ := List.forall_mem_append.mp hf
  intro t h
  obtain ⟨_, _, h⟩ := bind_ok h
  cases m with
  | insert i => exact Insert.balances_textWith hown (balances_selects hselects) 1 t h
  | update u => exact Update.balances_text hown (balances_selects hselects) t h

end BoundSql
