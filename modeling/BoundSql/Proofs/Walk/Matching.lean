import BoundSql.Proofs.Binding
import BoundSql.Proofs.Walk

/-!
# Walks beside texts and steps

* `Step.planted`       the argument that a step adds, whoever the steps are carried out for;
* `Binds`              steps that bind the given values and nothing else (`Binds.yields`);
* `Walk.Matches`       a walk with a given text that binds what the given steps bind;
* `Walk.Projects`      the same for steps that are carried out for a subject;
* `Agrees`             wherever the text can be written there is such a walk.

Each construct of a statement is shown to agree when its parts do.
-/

namespace BoundSql

/-- the argument that a step adds without asking a record -/
def Step.planted : Step → Option Argument
  | .push a => some a
  | .defer _ => some .pending
  | _ => none

theorem Step.planted_within (place : String) (s : Step) : (s.within place).planted = s.planted := by
  cases s <;> rfl

/-- the steps succeed without a record, and these are the values they bind -/
def Binds (steps : List Step) (values : Arguments) : Prop :=
  ∃ args : Arguments,
    steps.map Step.planted = args.map some ∧ args.flatMap Argument.members = values

theorem binds_nil : Binds [] [] := ⟨[], rfl, rfl⟩

theorem Binds.append {ss rs : List Step} {us vs : Arguments} (hs : Binds ss us) (hr : Binds rs vs) :
    Binds (ss ++ rs) (us ++ vs) := by
  obtain ⟨as, has, rfl⟩ := hs
  obtain ⟨bs, hbs, rfl⟩ := hr
  exact ⟨as ++ bs, by rw [List.map_append, has, hbs, List.map_append], List.flatMap_append⟩

theorem binds_push (as : Arguments) : Binds (as.map .push) (as.flatMap Argument.members) :=
  ⟨as, by rw [List.map_map]; rfl, rfl⟩

theorem binds_defer (column : String) : Binds [.defer column] [.pending] := ⟨[.pending], rfl, rfl⟩

theorem Binds.within {ss : List Step} {vs : Arguments} (h : Binds ss vs) (place : String) :
    Binds (ss.map (·.within place)) vs := by
  obtain ⟨as, has, rfl⟩ := h
  refine ⟨as, ?_, rfl⟩
  rw [List.map_map, ← has]
  exact List.map_congr_left fun s _ => Step.planted_within place s

theorem Binds.of_push {as : Arguments} {ss : List Step} {vs : Arguments}
    (h : Binds (as.map .push ++ ss) vs) :
    ∃ us, Binds ss us ∧ vs = as.flatMap Argument.members ++ us := by
  obtain ⟨bs, hbs, rfl⟩ := h
  induction as generalizing bs with
  | nil => exact ⟨bs.flatMap Argument.members, ⟨bs, hbs, rfl⟩, rfl⟩
  | cons a as ih =>
    cases bs with
    | nil => cases hbs
    | cons b bs =>
      obtain ⟨hb, hrest⟩ := List.cons.inj hbs
      cases hb
      obtain ⟨us, hus, hvs⟩ := ih bs hrest
      refine ⟨us, hus, ?_⟩
      rw [List.flatMap_cons, hvs, List.flatMap_cons, List.append_assoc]

/-- carried out for anybody, behind any arguments, the steps add arguments with these values -/
theorem Binds.yields {ss : List Step} {vs : Arguments} (h : Binds ss vs) :
    ∃ new, (∀ s before, Yields s before ss new) ∧ new.flatMap Argument.members = vs := by
  obtain ⟨as, has, rfl⟩ := h
  refine ⟨as, fun s before => ?_, rfl⟩
  induction ss generalizing as before with
  | nil =>
    cases as with
    | nil => exact yields_nil
    | cons a as => cases has
  | cons step ss ih =>
    cases as with
    | nil => cases has
    | cons a as =>
      obtain ⟨ha, has⟩ := List.cons.inj has
      have hstep : Yields s before [step] [a] := by
        refine yields_step fun c hc => ?_
        cases step <;> cases ha <;> exact ⟨_, rfl, congrArg (· ++ [_]) hc⟩
      exact hstep.append (ih as has (before ++ [a]))

/-! ## walks with a given text and given steps -/

/-- the text is the walk's, and the steps bind the walk's values -/
structure Walk.Matches (w : Walk) (t : Text) (steps : List Step) : Prop where
  text_eq : w.text = t
  whole : w.Whole
  binds : Binds steps w.bound

namespace Walk.Matches

theorem literal {t : Text} (h : Placeholder.Inert t) : Matches (Walk.literal t) t [] :=
  ⟨text_literal t, whole_literal h, bound_literal t ▸ binds_nil⟩

theorem append {w v : Walk} {t u : Text} {ss rs : List Step} (hw : w.Matches t ss)
    (hv : v.Matches u rs) : (w ++ v).Matches (t ++ u) (ss ++ rs) where
  text_eq := by rw [text_append, hw.text_eq, hv.text_eq]
  whole := hw.whole.append hv.whole
  binds := by
    rw [bound_append]
    exact hw.binds.append hv.binds

theorem prepend {t u : Text} {v : Walk} {rs : List Step} (ht : Placeholder.Inert t)
    (hv : v.Matches u rs) : (Walk.literal t ++ v).Matches (t ++ u) rs :=
  (literal ht).append hv

theorem followed {t u : Text} {w : Walk} {ss : List Step} (hw : w.Matches t ss)
    (hu : Placeholder.Inert u) : (w ++ Walk.literal u).Matches (t ++ u) ss := by
  have h := hw.append (literal hu)
  rwa [List.append_nil] at h

theorem parenthesized {t : Text} {w : Walk} {ss : List Step} (hw : w.Matches t ss) :
    w.parenthesized.Matches ('(' :: t ++ [')']) ss :=
  (prepend (t := ['(']) (by decide) hw).followed (by decide)

theorem bind {sql : Text} {values : Arguments} {ss : List Step} (hsql : Placeholder.Closed sql)
    (hcount : Placeholder.count sql = values.length) (h : Binds ss values) :
    (Walk.bind sql values).Matches sql ss :=
  ⟨text_bind hcount, whole_bind hcount hsql, (bound_bind hcount).symm ▸ h⟩

theorem within {w : Walk} {t : Text} {ss : List Step} (h : w.Matches t ss) (place : String) :
    w.Matches t (ss.map (·.within place)) :=
  ⟨h.text_eq, h.whole, h.binds.within place⟩

end Walk.Matches

/-! ## walks for a subject -/

/-- the text is the walk's, and behind `before` the steps add `new`, which is what the walk binds -/
structure Walk.Projects (w : Walk) (t : Text) (s : Subject) (before : Arguments) (steps : List Step)
    (new : Arguments) : Prop where
  text_eq : w.text = t
  whole : w.Whole
  yields : Yields s before steps new
  members_eq : new.flatMap Argument.members = w.bound

/-- arguments in front that are known in the walk may come from steps that ask for them -/
theorem Walk.Matches.projects {w : Walk} {t : Text} {s : Subject} {known : Arguments}
    {front steps : List Step} (h : w.Matches t (known.map .push ++ steps))
    (hfront : Yields s [] front known) : ∃ new, w.Projects t s [] (front ++ steps) new := by
  obtain ⟨values, hbinds, hbound⟩ := h.binds.of_push
  obtain ⟨new, hyields, hmembers⟩ := hbinds.yields
  refine ⟨known ++ new, h.text_eq, h.whole, hfront.append (hyields s known), ?_⟩
  rw [List.flatMap_append, hmembers, hbound]

/-! ## writers -/

/-- wherever the text can be written, a walk writes it and binds what the steps bind -/
def Agrees (text : Except Error Text) (steps : List Step) (walk : Except Error Walk) : Prop :=
  ∀ t, text = .ok t → ∃ w, walk = .ok w ∧ w.Matches t steps

theorem agrees_error (e : Error) (steps : List Step) (walk : Except Error Walk) :
    Agrees (.error e) steps walk := by
  intro t h
  cases h

/-- walks of several texts, each with its own steps -/
structure MatchesAll (ws : List Walk) (ts : List Text) (steps : List Step) : Prop where
  texts_eq : ws.map Walk.text = ts
  whole : ∀ w ∈ ws, w.Whole
  binds : Binds steps (ws.flatMap Walk.bound)

namespace MatchesAll

theorem nil : MatchesAll [] [] [] := ⟨rfl, by simp, binds_nil⟩

theorem cons {w : Walk} {ws : List Walk} {t : Text} {ts : List Text} {ss rs : List Step}
    (hw : w.Matches t ss) (hws : MatchesAll ws ts rs) :
    MatchesAll (w :: ws) (t :: ts) (ss ++ rs) where
  texts_eq := by rw [List.map_cons, hw.text_eq, hws.texts_eq]
  whole := by
    intro v hv
    rcases List.mem_cons.mp hv with rfl | hv
    · exact hw.whole
    · exact hws.whole v hv
  binds := by
    rw [List.flatMap_cons]
    exact hw.binds.append hws.binds

theorem append {ws vs : List Walk} {ts us : List Text} {ss rs : List Step}
    (hw : MatchesAll ws ts ss) (hv : MatchesAll vs us rs) :
    MatchesAll (ws ++ vs) (ts ++ us) (ss ++ rs) where
  texts_eq := by rw [List.map_append, hw.texts_eq, hv.texts_eq]
  whole := by
    intro w h
    rcases List.mem_append.mp h with h | h
    · exact hw.whole w h
    · exact hv.whole w h
  binds := by
    rw [List.flatMap_append]
    exact hw.binds.append hv.binds

variable {ws : List Walk} {ts : List Text} {ss : List Step}

theorem separated {sep : Text} (hsep : Placeholder.Inert sep) (h : MatchesAll ws ts ss) :
    (Walk.separated sep ws).Matches (Text.separated sep ts) ss where
  text_eq := by rw [Walk.text_separated, h.texts_eq]
  whole := Walk.whole_separated hsep h.whole
  binds := by
    rw [Walk.bound_separated]
    exact h.binds

theorem flatten (h : MatchesAll ws ts ss) : Walk.Matches ws.flatten ts.flatten ss where
  text_eq := by rw [Walk.text_flatten, h.texts_eq]
  whole := Walk.whole_flatten h.whole
  binds := by
    rw [Walk.bound_flatten]
    exact h.binds

end MatchesAll

/-- a list of agreeing writers: the walks come in the order of the texts and of the steps -/
theorem matchesAll_of_mapM {α : Type} {text : α → Except Error Text} {steps : α → List Step}
    {walk : α → Except Error Walk} {as : List α}
    (h : ∀ a ∈ as, Agrees (text a) (steps a) (walk a)) {ts : List Text}
    (hts : as.mapM text = .ok ts) :
    ∃ ws, as.mapM walk = .ok ws ∧ MatchesAll ws ts (as.flatMap steps) := by
  induction as generalizing ts with
  | nil =>
    cases hts
    exact ⟨[], rfl, .nil⟩
  | cons a as ih =>
    obtain ⟨t, us, ht, hus, rfl⟩ := mapM_cons_ok hts
    obtain ⟨w, hw, hm⟩ := h a (List.mem_cons_self ..) t ht
    obtain ⟨ws, hws, hms⟩ := ih (fun b hb => h b (List.mem_cons_of_mem _ hb)) hus
    exact ⟨w :: ws, cons_mapM_ok hw hws, .cons hm hms⟩

theorem matchesAll_of_mapM_map {α β γ δ : Type} {f : α → β} {g : α → γ} {k : α → δ}
    {text : β → Except Error Text} {steps : γ → List Step} {walk : δ → Except Error Walk}
    {as : List α} (h : ∀ a ∈ as, Agrees (text (f a)) (steps (g a)) (walk (k a))) {ts : List Text}
    (hts : (as.map f).mapM text = .ok ts) :
    ∃ ws, (as.map k).mapM walk = .ok ws ∧ MatchesAll ws ts ((as.map g).flatMap steps) := by
  rw [List.mapM_map] at hts
  rw [List.mapM_map, List.flatMap_map]
  exact matchesAll_of_mapM h hts

end BoundSql
