import Mathlib
import BoundSql.Builder

/-!
# Kept builds and fresh builds

A builder may keep its last build and hand it out again.  Whoever holds builders and copies of
them cannot tell: every result is the one that the statement, as it stands by then, builds to.

* `Builder.Sound`        a kept build is what the statement builds to now;
* `Builder.Sound.edit_eq`, `Builder.Sound.toSql`   what it says about edits and builds;
* `Act`, `Desk`          a caller's next action on the builders at hand, and these builders;
* `Desk.act`, `actAnew`  an action on the builders, and on their drafts alone, where every build
                         starts anew;
* `Desk.act_anew`, `Desk.run_anew`   one action, and a script of them, on both sides;
* `Desk.after_untouched` builders that a script does not name stay as they are;
* `Desk.run_transparent` all builds are the same whether or not any are kept.

A statement inside another one stands there as its draft.  Its text is written with every build of
the outer one, so whatever its own builder keeps is not asked for.
-/

namespace BoundSql

variable {σ : Type} [Draft σ]

/-! ## one builder -/

theorem Statement.build_of_failed {s : Statement} {e : Error} (h : s.failed = some e) :
    s.build = ([], .error e) := by
  have hv : s.validate = .error e := by rw [validate, h]
  rw [build, buildText, hv]
  rfl

namespace Builder

/-- a kept build is the one that the statement has now -/
def Sound (b : Builder σ) : Prop :=
  ∀ built, b.cache.built = some built → b.statement.build.2 = .ok built

theorem sound_of_none {b : Builder σ} (h : b.cache.built = none) : b.Sound := by
  intro built hb
  rw [h] at hb
  contradiction

theorem sound_ofDraft (draft : σ) : (ofDraft draft).Sound := sound_of_none rfl

/-- after a failed edit there is no build to keep -/
theorem Sound.clear_of_failed {b : Builder σ} (h : b.Sound) {e : Error}
    (hf : b.statement.failed = some e) : b.cache.clear = b.cache := by
  have hb : b.cache.built = none := by
    cases hb : b.cache.built with
    | none => rfl
    | some built =>
      have := h built hb
      rw [Statement.build_of_failed hf] at this
      contradiction
  rw [Cache.clear, ← hb]

/-- an edit forgets the build, also where it is not cleared -/
theorem Sound.edit_eq {b : Builder σ} (h : b.Sound) (e : Draft.Edit σ) :
    b.edit e = (Draft.edit b.draft e).map fun draft => ⟨draft, b.cache.clear⟩ := by
  rw [edit]
  cases Draft.edit b.draft e with
  | error fault => rfl
  | ok draft =>
    cases hf : b.statement.failed with
    | none => rfl
    | some error =>
      rw [h.clear_of_failed hf]
      rfl

theorem Sound.built_of_edit {b b' : Builder σ} (h : b.Sound) {e : Draft.Edit σ}
    (he : b.edit e = .ok b') : b'.cache.built = none := by
  rw [h.edit_eq] at he
  cases hd : Draft.edit b.draft e with
  | error fault =>
    rw [hd] at he
    cases he
  | ok draft =>
    rw [hd] at he
    cases he
    rfl

theorem keep_draft (b : Builder σ) : b.keep.draft = b.draft := by
  rw [keep]
  split <;> rfl

theorem Sound.keep {b : Builder σ} (h : b.Sound) : b.keep.Sound := by
  rw [Builder.keep]
  split
  · exact h
  · exact sound_of_none rfl

theorem toSql_draft (b : Builder σ) : b.toSql.2.2.draft = b.draft := by
  rw [toSql]
  split
  · rfl
  · dsimp only
    split <;> rfl

/-- from the cache or not, the result is that of a build -/
theorem Sound.toSql_result {b : Builder σ} (h : b.Sound) :
    b.toSql.2.1 = b.statement.build.2 := by
  rw [Builder.toSql]
  cases hg : b.cache.get with
  | some built =>
    have hb : b.cache.built = some built := by
      rw [Cache.get] at hg
      split at hg
      · exact hg
      · contradiction
    exact (h built hb).symm
  | none =>
    dsimp only
    split <;> rename_i hr <;> exact hr.symm

theorem Sound.toSql {b : Builder σ} (h : b.Sound) : b.toSql.2.2.Sound := by
  rw [Builder.toSql]
  cases b.cache.get with
  | some built => exact h
  | none =>
    dsimp only
    split
    · exact h
    · rename_i built hr
      intro kept hk
      show b.statement.build.2 = .ok kept
      cases hb : b.cache.built with
      | some older =>
        have : kept = older := by
          unfold Cache.put at hk
          split at hk <;> simpa [hb] using hk.symm
        rw [this]
        exact h older hb
      | none =>
        have : kept = built := by
          unfold Cache.put at hk
          split at hk <;> simp_all
        rw [this, hr]

/-- what is kept is handed out without asking any value again -/
theorem toSql_again {b : Builder σ} {built : Built} (h : b.cache.enabled = true)
    (hb : b.toSql.2.1 = .ok built) : b.toSql.2.2.toSql = ([], .ok built, b.toSql.2.2) := by
  have hg : b.toSql.2.2.cache.get = some built := by
    unfold Builder.toSql at hb ⊢
    cases hg : b.cache.get with
    | some kept =>
      rw [hg] at hb
      cases hb
      exact hg
    | none =>
      have hn : b.cache.built = none := by rwa [Cache.get, if_pos h] at hg
      rw [hg] at hb
      dsimp only at hb ⊢
      split at hb
      · contradiction
      · rename_i fresh hr
        cases hb
        simp only [Cache.get, Cache.put, h, hn, if_true, Option.getD_none]
  rw [Builder.toSql.eq_1 b.toSql.2.2, hg]

end Builder

/-! ## builders and their copies -/

inductive Act (σ : Type) [Draft σ] where
  | edit (n : Nat) (e : Draft.Edit σ)
  | keep (n : Nat)
  /-- a copy of the builder, which comes last -/
  | clone (n : Nat)
  | build (n : Nat)

namespace Act

def isKeep : Act σ → Bool
  | keep _ => true
  | _ => false

/-- the builder that an action works on; a copy leaves the original alone -/
def target : Act σ → Option Nat
  | edit n _ | keep n | build n => some n
  | clone _ => none

end Act

/-- the builders at hand; one whose edit had no result is gone -/
abbrev Desk (σ : Type) [Draft σ] := List (Option (Builder σ))

/-- the results of the builds in a script, and what is there after it -/
def replay {α : Type} (act : α → Act σ → Option (Except Error Built) × α) :
    α → List (Act σ) → List (Except Error Built) × α
  | desk, [] => ([], desk)
  | desk, a :: script =>
    let (result, desk) := act desk a
    let (results, desk) := replay act desk script
    (result.toList ++ results, desk)

theorem replay_cons {α : Type} (act : α → Act σ → Option (Except Error Built) × α) (desk : α)
    (a : Act σ) (script : List (Act σ)) :
    replay act desk (a :: script) =
      ((act desk a).1.toList ++ (replay act (act desk a).2 script).1,
        (replay act (act desk a).2 script).2) := rfl

namespace Desk

def act (desk : Desk σ) : Act σ → Option (Except Error Built) × Desk σ
  | .edit n e => (none, desk.modify n fun slot => slot.bind fun b => (b.edit e).toOption)
  | .keep n => (none, desk.modify n fun slot => slot.map (·.keep))
  | .clone n => (none, desk ++ [desk[n]?.join])
  | .build n => (desk[n]?.join.map (·.toSql.2.1), desk.modify n fun slot => slot.map (·.toSql.2.2))

/-- a builder for each draft, none of which keeps builds so far -/
def start (drafts : List σ) : Desk σ := drafts.map fun draft => some (Builder.ofDraft draft)

def results (desk : Desk σ) (script : List (Act σ)) : List (Except Error Built) :=
  (replay act desk script).1

def after (desk : Desk σ) (script : List (Act σ)) : Desk σ := (replay act desk script).2

def drafts (desk : Desk σ) : List (Option σ) := desk.map fun slot => slot.map (·.draft)

def Sound (desk : Desk σ) : Prop := ∀ slot ∈ desk, ∀ b ∈ slot, b.Sound

end Desk

/-- an action on the drafts alone: nothing is kept, and every build starts anew -/
def actAnew (drafts : List (Option σ)) : Act σ → Option (Except Error Built) × List (Option σ)
  | .edit n e => (none, drafts.modify n fun slot => slot.bind fun d => (Draft.edit d e).toOption)
  | .keep _ => (none, drafts)
  | .clone n => (none, drafts ++ [drafts[n]?.join])
  | .build n => (drafts[n]?.join.map fun d => (Draft.statement d).build.2, drafts)

/-! ## one action -/

namespace Desk

theorem sound_start (initial : List σ) : (start initial).Sound := by
  intro slot hs b hb
  obtain ⟨draft, _, rfl⟩ := List.mem_map.mp hs
  cases hb
  exact Builder.sound_ofDraft draft

theorem drafts_start (initial : List σ) : (start initial).drafts = initial.map some := by
  rw [drafts, start, List.map_map]
  rfl

/-- whatever works on the drafts of sound builders does so among others as well -/
theorem drafts_modify {desk : Desk σ} (h : desk.Sound) {n : Nat}
    {f : Option (Builder σ) → Option (Builder σ)} {g : Option σ → Option σ}
    (hfg : ∀ slot : Option (Builder σ), (∀ b ∈ slot, b.Sound) →
      (f slot).map (·.draft) = g (slot.map (·.draft))) :
    drafts (desk.modify n f) = (drafts desk).modify n g := by
  apply List.ext_getElem?
  intro i
  rw [drafts, drafts, List.getElem?_map, List.getElem?_modify, List.getElem?_modify,
    List.getElem?_map]
  cases hi : desk[i]? with
  | none => rfl
  | some slot =>
    by_cases hn : n = i
    · simp only [hn, if_true]
      exact congrArg some (hfg slot (h slot (List.mem_of_getElem? hi)))
    · simp only [hn, if_false]
      rfl

theorem Sound.modify {desk : Desk σ} (h : desk.Sound) {n : Nat}
    {f : Option (Builder σ) → Option (Builder σ)}
    (hf : ∀ slot : Option (Builder σ), (∀ b ∈ slot, b.Sound) → ∀ b ∈ f slot, b.Sound) :
    Sound (desk.modify n f) := by
  intro slot hs
  obtain ⟨i, hi⟩ := List.mem_iff_getElem?.mp hs
  rw [List.getElem?_modify] at hi
  obtain ⟨before, hb, rfl⟩ := Option.map_eq_some_iff.mp hi
  have := h before (List.mem_of_getElem? hb)
  by_cases hn : n = i
  · simpa only [hn, if_true] using hf before this
  · simpa only [hn, if_false] using this

theorem drafts_getElem?_join (desk : Desk σ) (n : Nat) :
    (drafts desk)[n]?.join = desk[n]?.join.map (·.draft) := by
  rw [drafts, List.getElem?_map]
  cases desk[n]? with
  | none => rfl
  | some slot => rfl

theorem Sound.getElem?_join {desk : Desk σ} (h : desk.Sound) {n : Nat} :
    ∀ b ∈ desk[n]?.join, b.Sound := by
  intro b hb
  cases hn : desk[n]? with
  | none =>
    rw [hn] at hb
    cases hb
  | some slot =>
    rw [hn] at hb
    exact h slot (List.mem_of_getElem? hn) b hb

theorem Sound.act {desk : Desk σ} (h : desk.Sound) (a : Act σ) : Sound (desk.act a).2 := by
  cases a with
  | edit n e =>
    refine h.modify fun slot hs b' hb' => ?_
    obtain ⟨b, hb, he⟩ := Option.bind_eq_some_iff.mp hb'
    refine Builder.sound_of_none ((hs b hb).built_of_edit (e := e) ?_)
    cases hd : b.edit e with
    | error fault =>
      rw [hd] at he
      cases he
    | ok edited =>
      rw [hd] at he
      cases he
      rfl
  | keep n =>
    refine h.modify fun slot hs b' hb' => ?_
    obtain ⟨b, hb, rfl⟩ := Option.map_eq_some_iff.mp hb'
    exact (hs b hb).keep
  | clone n =>
    intro slot hs
    rcases List.mem_append.mp hs with hs | hs
    · exact h slot hs
    · cases List.mem_singleton.mp hs
      exact h.getElem?_join
  | build n =>
    refine h.modify fun slot hs b' hb' => ?_
    obtain ⟨b, hb, rfl⟩ := Option.map_eq_some_iff.mp hb'
    exact (hs b hb).toSql

/-- an action on sound builders is that action on their drafts -/
theorem act_anew {desk : Desk σ} (h : desk.Sound) (a : Act σ) :
    actAnew desk.drafts a = ((desk.act a).1, drafts (desk.act a).2) := by
  cases a with
  | edit n e =>
    refine Prod.ext rfl (drafts_modify h fun slot hs => ?_).symm
    cases slot with
    | none => rfl
    | some b =>
      show Option.map _ (b.edit e).toOption = (Draft.edit b.draft e).toOption
      rw [(hs b rfl).edit_eq]
      cases Draft.edit b.draft e with
      | error fault => rfl
      | ok draft => rfl
  | keep n =>
    refine Prod.ext rfl ?_
    show drafts desk = drafts (desk.modify n _)
    rw [drafts_modify h (g := id) fun slot hs => ?_, List.modify_id]
    cases slot with
    | none => rfl
    | some b => exact congrArg some b.keep_draft
  | clone n =>
    refine Prod.ext rfl ?_
    show desk.drafts ++ [desk.drafts[n]?.join] = drafts (desk ++ [desk[n]?.join])
    rw [drafts_getElem?_join, drafts, drafts, List.map_append]
    rfl
  | build n =>
    refine Prod.ext ?_ ?_
    · show (desk.drafts[n]?.join).map _ = desk[n]?.join.map _
      rw [drafts_getElem?_join, Option.map_map]
      refine Option.map_congr fun b hb => ?_
      exact (h.getElem?_join b hb).toSql_result.symm
    · show drafts desk = drafts (desk.modify n _)
      rw [drafts_modify h (g := id) fun slot hs => ?_, List.modify_id]
      cases slot with
      | none => rfl
      | some b => exact congrArg some b.toSql_draft

/-- an action on one builder leaves all the others as they are, what they keep included -/
theorem act_untouched {desk : Desk σ} {a : Act σ} {n : Nat} (hn : n < desk.length)
    (ha : a.target ≠ some n) :
    (desk.act a).2[n]? = desk[n]? ∧ n < (desk.act a).2.length := by
  have other : ∀ {m : Nat} {f : Option (Builder σ) → Option (Builder σ)}, some m ≠ some n →
      (desk.modify m f)[n]? = desk[n]? ∧ n < (desk.modify m f).length := by
    intro m f hm
    have hne : m ≠ n := fun h => hm (congrArg some h)
    rw [List.length_modify, List.getElem?_modify_ne _ _ hne]
    exact ⟨rfl, hn⟩
  cases a with
  | edit m e => exact other ha
  | keep m => exact other ha
  | build m => exact other ha
  | clone m =>
    refine ⟨List.getElem?_append_left hn, ?_⟩
    show n < (desk ++ [_]).length
    rw [List.length_append]
    omega

end Desk

/-! ## scripts of actions -/

namespace Desk

theorem results_cons (desk : Desk σ) (a : Act σ) (script : List (Act σ)) :
    desk.results (a :: script) = (desk.act a).1.toList ++ (desk.act a).2.results script := rfl

theorem after_cons (desk : Desk σ) (a : Act σ) (script : List (Act σ)) :
    desk.after (a :: script) = (desk.act a).2.after script := rfl

theorem Sound.after {desk : Desk σ} (h : desk.Sound) (script : List (Act σ)) :
    (desk.after script).Sound := by
  induction script generalizing desk with
  | nil => exact h
  | cons a script ih => exact ih (h.act a)

/-- a script does to builders what it does to their drafts -/
theorem run_anew {desk : Desk σ} (h : desk.Sound) (script : List (Act σ)) :
    replay actAnew desk.drafts script = (desk.results script, (desk.after script).drafts) := by
  induction script generalizing desk with
  | nil => rfl
  | cons a script ih => rw [replay_cons, act_anew h a, ih (h.act a), results_cons, after_cons]

theorem replay_anew_filter (drafts : List (Option σ)) (script : List (Act σ)) :
    replay actAnew drafts (script.filter fun a => !a.isKeep) = replay actAnew drafts script := by
  induction script generalizing drafts with
  | nil => rfl
  | cons a script ih =>
    cases a with
    | keep n => exact ih drafts
    | edit n e => exact congrArg (fun r => (_ ++ r.1, r.2)) (ih _)
    | clone n => exact congrArg (fun r => (_ ++ r.1, r.2)) (ih _)
    | build n => exact congrArg (fun r => (_ ++ r.1, r.2)) (ih _)

theorem after_append (desk : Desk σ) (script more : List (Act σ)) :
    desk.after (script ++ more) = (desk.after script).after more := by
  induction script generalizing desk with
  | nil => rfl
  | cons a script ih => exact ih _

theorem after_untouched {desk : Desk σ} {script : List (Act σ)} {n : Nat} (hn : n < desk.length)
    (hs : ∀ a ∈ script, a.target ≠ some n) : (desk.after script)[n]? = desk[n]? := by
  induction script generalizing desk with
  | nil => rfl
  | cons a script ih =>
    obtain ⟨he, hn'⟩ := act_untouched hn (hs a (List.mem_cons_self ..))
    rw [after_cons, ih hn' fun a h => hs a (List.mem_cons_of_mem _ h), he]

/-- Every build of a script has the result that it has on the drafts alone, and that it has
without keeping any builds.  An edit, whether it succeeds or fails, leaves no build behind, and
what a script does to other builders, copies among them, leaves a builder as it is, with the build
that it keeps. -/
theorem run_transparent (initial : List σ) (script : List (Act σ)) :
    (start initial).results script = (replay actAnew (initial.map some) script).1 ∧
    (start initial).results script =
      (start initial).results (script.filter fun a => !a.isKeep) ∧
    (∀ b, some b ∈ (start initial).after script → ∀ e b', b.edit e = .ok b' →
      b'.cache.isFilled = false ∧ b'.toSql.2.1 = b'.statement.build.2) ∧
    ∀ n < ((start initial).after script).length, ∀ more : List (Act σ),
      (∀ a ∈ more, a.target ≠ some n) →
      ((start initial).after (script ++ more))[n]? = ((start initial).after script)[n]? := by
  have hstart := sound_start initial
  have anew : ∀ script, (start initial).results script =
      (replay actAnew (initial.map some) script).1 := by
    intro script
    rw [← drafts_start, run_anew hstart]
  refine ⟨anew script, ?_, ?_, ?_⟩
  · rw [anew, anew, replay_anew_filter]
  · intro b hb e b' he
    have hnone := (hstart.after script _ hb b rfl).built_of_edit he
    refine ⟨?_, (Builder.sound_of_none hnone).toSql_result⟩
    rw [Cache.isFilled, Cache.get, hnone]
    split <;> rfl
  · intro n hn more hm
    rw [after_append]
    exact after_untouched hn hm

/-- a kept build of one row: the copy gets another one, then the original an edit that fails -/
def rowTwice : List (Act Insert) :=
  [.edit 0 (.columns ["a"]), .edit 0 (.values [.int 1]), .keep 0, .build 0, .clone 0,
    .edit 1 (.values [.int 2]), .build 1, .build 0, .edit 0 (.values []), .build 0]

theorem run_transparent_copy :
    ((start [Insert.ofTable "t"]).results rowTwice).map
        (fun r => r.toOption.map fun built => String.ofList built.sql) =
      [some "INSERT INTO `t` (`a`) VALUES (?)", some "INSERT INTO `t` (`a`) VALUES (?),(?)",
        some "INSERT INTO `t` (`a`) VALUES (?)", none] := by
  rw [(run_transparent [Insert.ofTable "t"] rowTwice).1]
  cbv

end Desk

end BoundSql
