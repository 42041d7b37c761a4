import Mathlib
import BoundSql.Proofs.Literal
import BoundSql.Proofs.Placeholder.Trail

/-!
# Texts with their arguments written in

* `Argument.Written`       the literals of the values of an argument;
* `Arguments.Written`      texts for all arguments of a text, in one of the two ways;
* `render_inv`, `written_of_render`   they are what `render` puts in the places of the placeholders;
* `render_contained`       nothing of them reaches out of its place.
-/

namespace BoundSql

/-- the literals of the values of an argument, in order -/
def Argument.Written (a : Argument) (group : List Text) : Prop :=
  ∃ values, a.scalars = .ok values ∧
    List.Forall₂ (fun v fill => Argument.literal v = .ok fill) values group

/-- the texts for the arguments of `sql`, in a group for each argument: value by value, or one text
for a whole argument -/
inductive Arguments.Written (sql : Text) (args : Arguments) (groups : List (List Text)) : Prop
  | values : Placeholder.count sql = args.slotCount →
      List.Forall₂ Argument.Written args groups → Written sql args groups
  | arguments : Placeholder.count sql ≠ args.slotCount → Placeholder.count sql = args.length →
      List.Forall₂ (fun a group => ∃ fill, argumentText a.1 a.2.1 a.2.2 = .ok fill ∧ group = [fill])
        (args.zip (Placeholder.neighbours (Placeholder.split sql))) groups →
      Written sql args groups

theorem forall₂_of_mapM {α β : Type} {f : α → Except Error β} {as : List α} {bs : List β}
    (h : as.mapM f = .ok bs) : List.Forall₂ (fun a b => f a = .ok b) as bs := by
  induction as generalizing bs with
  | nil =>
    cases h
    exact .nil
  | cons a as ih =>
    obtain ⟨b, bs', ha, has, rfl⟩ := mapM_cons_ok h
    exact .cons ha (ih has)

theorem mapM_eq_ok_iff {α β : Type} {f : α → Except Error β} {as : List α} {bs : List β} :
    as.mapM f = .ok bs ↔ List.Forall₂ (fun a b => f a = .ok b) as bs := by
  refine ⟨forall₂_of_mapM, fun h => ?_⟩
  induction h with
  | nil => rfl
  | cons ha _ ih => exact cons_mapM_ok ha ih

theorem mapM_append_ok {α β : Type} {f : α → Except Error β} {as bs : List α} {cs : List β}
    (h : (as ++ bs).mapM f = .ok cs) :
    ∃ us vs, as.mapM f = .ok us ∧ bs.mapM f = .ok vs ∧ cs = us ++ vs := by
  rw [List.mapM_append] at h
  obtain ⟨us, hus, h⟩ := bind_ok h
  obtain ⟨vs, hvs, h⟩ := bind_ok h
  cases h
  exact ⟨us, vs, hus, hvs, rfl⟩

theorem Argument.length_scalars {a : Argument} {values : Arguments} (h : a.scalars = .ok values) :
    values.length = a.slots := by
  cases a with
  | value identity look resolved =>
    have h : (resolve look resolved).map ([·]) = .ok values := h
    cases hr : resolve look resolved with
    | error e =>
      rw [hr] at h
      cases h
    | ok scalar =>
      rw [hr] at h
      cases h
      rfl
  | pending => cases h
  | _ =>
    cases h
    simp [slots, isList, length]

/-- the literals of all values, taken apart argument by argument -/
theorem groups_of_flatten {args values : Arguments} {fills : List Text}
    (hvalues : args.flatten = .ok values) (hfills : values.mapM Argument.literal = .ok fills) :
    ∃ groups, List.Forall₂ Argument.Written args groups ∧ groups.flatten = fills := by
  induction args generalizing values fills with
  | nil =>
    cases hvalues
    cases hfills
    exact ⟨[], .nil, rfl⟩
  | cons a args ih =>
    obtain ⟨first, hfirst, hvalues⟩ := bind_ok hvalues
    obtain ⟨rest, hrest, hvalues⟩ := bind_ok hvalues
    cases hvalues
    obtain ⟨group, more, hgroup, hmore, rfl⟩ := mapM_append_ok hfills
    obtain ⟨groups, hgroups, rfl⟩ := ih hrest hmore
    exact ⟨group :: groups, .cons ⟨first, hfirst, forall₂_of_mapM hgroup⟩ hgroups, rfl⟩

/-- the texts of single arguments, each with its neighbours -/
theorem groups_of_argumentTexts {args : Arguments} {gaps : List (Text × Text)} {fills : List Text}
    (h : argumentTexts args gaps = .ok fills) :
    ∃ groups, List.Forall₂
        (fun a group => ∃ fill, argumentText a.1 a.2.1 a.2.2 = .ok fill ∧ group = [fill])
        (args.zip gaps) groups ∧ groups.flatten = fills := by
  induction args generalizing gaps fills with
  | nil =>
    cases h
    exact ⟨[], .nil, rfl⟩
  | cons a args ih =>
    rcases gaps with _ | ⟨⟨before, behind⟩, gaps⟩
    · cases h
      exact ⟨[], .nil, rfl⟩
    · obtain ⟨fill, hfill, h⟩ := bind_ok h
      obtain ⟨rest, hrest, h⟩ := bind_ok h
      cases h
      obtain ⟨groups, hgroups, rfl⟩ := ih hrest
      exact ⟨[fill] :: groups, .cons ⟨fill, hfill, rfl⟩ hgroups, rfl⟩

/-- the two ways to write arguments: value by value, or one by one -/
theorem render_inv {sql out : Text} {args : Arguments} (h : render sql args = .ok out) :
    ∃ fills, out = Placeholder.weave (Placeholder.split sql) fills ∧
      ((Placeholder.count sql = args.slotCount ∧
          ∃ values, args.flatten = .ok values ∧ values.mapM Argument.literal = .ok fills) ∨
        (Placeholder.count sql ≠ args.slotCount ∧ Placeholder.count sql = args.length ∧
          argumentTexts args (Placeholder.neighbours (Placeholder.split sql)) = .ok fills)) := by
  unfold render at h
  simp only at h
  split at h
  · rename_i hcount
    obtain ⟨values, hvalues, h⟩ := bind_ok h
    obtain ⟨fills, hfills, h⟩ := bind_ok h
    cases h
    exact ⟨fills, rfl, .inl ⟨hcount, values, hvalues, hfills⟩⟩
  · rename_i hslots
    split at h
    · rename_i hcount
      obtain ⟨fills, hfills, h⟩ := bind_ok h
      cases h
      exact ⟨fills, rfl, .inr ⟨hslots, hcount, hfills⟩⟩
    · cases h

theorem written_of_render {sql out : Text} {args : Arguments} (h : render sql args = .ok out) :
    ∃ groups, args.Written sql groups ∧
      out = Placeholder.weave (Placeholder.split sql) groups.flatten := by
  obtain ⟨fills, rfl, ⟨hcount, values, hvalues, hfills⟩ | ⟨hslots, hcount, hfills⟩⟩ := render_inv h
  · obtain ⟨groups, hgroups, rfl⟩ := groups_of_flatten hvalues hfills
    exact ⟨groups, .values hcount hgroups, rfl⟩
  · obtain ⟨groups, hgroups, rfl⟩ := groups_of_argumentTexts hfills
    exact ⟨groups, .arguments hslots hcount hgroups, rfl⟩

section
variable {sql : Text} {args : Arguments} {groups : List (List Text)}

theorem length_written (h : List.Forall₂ Argument.Written args groups) :
    groups.length = args.length ∧ groups.flatten.length = args.slotCount := by
  induction h with
  | nil => exact ⟨rfl, rfl⟩
  | cons hgroup _ ih =>
    obtain ⟨values, hvalues, hliterals⟩ := hgroup
    rw [List.length_cons, List.length_cons, List.flatten_cons, List.length_append, ih.1, ih.2,
      ← hliterals.length_eq, Argument.length_scalars hvalues]
    exact ⟨rfl, rfl⟩

theorem length_flatten_singletons {gaps : List (Argument × Text × Text)}
    (h : List.Forall₂
      (fun a group => ∃ fill, argumentText a.1 a.2.1 a.2.2 = .ok fill ∧ group = [fill])
      gaps groups) : groups.length = gaps.length ∧ groups.flatten.length = gaps.length := by
  induction h with
  | nil => exact ⟨rfl, rfl⟩
  | cons hgroup _ ih =>
    obtain ⟨fill, _, rfl⟩ := hgroup
    rw [List.length_cons, List.length_cons, List.flatten_cons, List.length_append, ih.1, ih.2,
      List.length_singleton, Nat.add_comm]
    exact ⟨rfl, rfl⟩

/-- there is a group for every argument, and a text for every placeholder -/
theorem Arguments.Written.lengths (h : args.Written sql groups) :
    groups.length = args.length ∧ groups.flatten.length = Placeholder.count sql := by
  cases h with
  | values hcount hgroups =>
    rw [hcount]
    exact length_written hgroups
  | arguments _ hcount hgroups =>
    obtain ⟨hlength, hflatten⟩ := length_flatten_singletons hgroups
    rw [List.length_zip, Placeholder.length_neighbours, Placeholder.length_split, hcount,
      Nat.min_self] at hlength hflatten
    exact ⟨hlength, hcount ▸ hflatten⟩

theorem inert_of_forall₂ {α : Type} {as : List α} {R : α → List Text → Prop}
    (hR : ∀ a group, R a group → ∀ fill ∈ group, Placeholder.Inert fill)
    (h : List.Forall₂ R as groups) : ∀ fill ∈ groups.flatten, Placeholder.Inert fill := by
  induction h with
  | nil => exact fun _ hfill => absurd hfill List.not_mem_nil
  | cons hgroup _ ih =>
    intro fill hfill
    rw [List.flatten_cons] at hfill
    exact (List.mem_append.mp hfill).elim (hR _ _ hgroup fill) (ih fill)

theorem inert_written {a : Argument} {group : List Text} (h : a.Written group) :
    ∀ fill ∈ group, Placeholder.Inert fill := by
  obtain ⟨values, _, hliterals⟩ := h
  clear * - hliterals
  induction hliterals with
  | nil => exact fun _ hfill => absurd hfill List.not_mem_nil
  | cons hliteral _ ih =>
    intro fill hfill
    rcases List.mem_cons.mp hfill with rfl | hfill
    · exact Placeholder.inert_literal hliteral
    · exact ih fill hfill

theorem Arguments.Written.inert (h : args.Written sql groups) :
    ∀ fill ∈ groups.flatten, Placeholder.Inert fill := by
  cases h with
  | values _ hgroups => exact inert_of_forall₂ (fun _ _ => inert_written) hgroups
  | arguments _ _ hgroups =>
    refine inert_of_forall₂ (fun a group hgroup fill hfill => ?_) hgroups
    obtain ⟨text, htext, rfl⟩ := hgroup
    rw [List.mem_singleton.mp hfill]
    exact Placeholder.inert_argumentText htext

end

/-- every placeholder is replaced, in order, by the text of its argument; each of these texts begins
and ends outside quotes, and every character of `sql` is read as before -/
theorem render_contained {sql out : Text} {args : Arguments} (h : render sql args = .ok out) :
    ∃ groups, args.Written sql groups ∧ groups.length = args.length ∧
      groups.flatten.length = Placeholder.count sql ∧
      (∀ fill ∈ groups.flatten, Placeholder.Closed fill ∧ Placeholder.count fill = 0) ∧
      out = Placeholder.weave (Placeholder.split sql) groups.flatten ∧
      Quoting.plain.trail out =
        Placeholder.substitute (Quoting.plain.trail sql) groups.flatten ∧
      Quoting.plain.after out = Quoting.plain.after sql ∧ Placeholder.count out = 0 := by
  obtain ⟨groups, hwritten, rfl⟩ := written_of_render h
  obtain ⟨hgroups, hfills⟩ := hwritten.lengths
  have hinert := hwritten.inert
  have hreads : Placeholder.Reads .plain sql groups.flatten _ :=
    Placeholder.reads_weave .plain sql groups.flatten hfills hinert
  exact ⟨groups, hwritten, hgroups, hfills, hinert, rfl, hreads.trail, hreads.after, hreads.count⟩

/-! a list, bytes that are no UTF-8 and a driver value, with all that ends a string in them -/

def spiteful : Text := "SELECT '?' FROM `b?` WHERE c IN (?) AND d = ? AND e = ?".toList

def payload : Arguments :=
  [.strings ["' OR ?", "\\"], .bytes [255, 39], .value 0 "v" (.ok (.string "`\x00'?"))]

def harmless : Text :=
  ("SELECT '?' FROM `b?` WHERE c IN ('\\' OR ?','\\\\') AND d = X'ff27' AND e = " ++
    "'`\\0\\'?'").toList

theorem render_contained_payload :
    ∃ groups, render spiteful payload = .ok harmless ∧ payload.Written spiteful groups ∧
      Quoting.plain.trail harmless =
        Placeholder.substitute (Quoting.plain.trail spiteful) groups.flatten ∧
      Placeholder.count harmless = 0 := by
  have hrender : render spiteful payload = .ok harmless := by cbv
  obtain ⟨groups, hwritten, _, _, _, _, htrail, _, hcount⟩ := render_contained hrender
  exact ⟨groups, hrender, hwritten, htrail, hcount⟩

end BoundSql
