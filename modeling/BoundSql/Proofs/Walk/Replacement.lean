import BoundSql.Proofs.Walk

/-!
# Replacement in walks

The members of a union made from a template are written first, and keys are replaced in what has
been written.  A key without quotes, backslashes and `?` never reaches over a placeholder, and a
value of that kind leaves the pass in the state in which the key would have left it.

* `Walk.replaceAll`        every occurrence of a key replaced;
* `Walk.text_replaceAll`   the same text as after a replacement in the text;
* `Walk.bound_replaceAll`  the values stay;
* `Walk.sound_replaceAll`  the placeholders stay placeholders, and nothing else becomes one.
-/

namespace BoundSql.Walk

/-- the walk begins with a text that holds no placeholder -/
def startsWith : Text → Walk → Bool
  | [], _ => true
  | k :: ks, .char c :: w => k == c && startsWith ks w
  | _ :: _, _ => false

/-- every occurrence of `key` replaced by `value`, found from the left and without overlap -/
def replaceAll (key value : Text) : Walk → Walk
  | [] => []
  | x :: w =>
    if startsWith key (x :: w) ∧ key ≠ [] then
      literal value ++ replaceAll key value ((x :: w).drop key.length)
    else x :: replaceAll key value w
termination_by w => w.length
decreasing_by
  · rename_i h
    have : 0 < key.length := List.length_pos_iff.mpr h.2
    simp only [List.length_drop, List.length_cons]
    omega
  · simp

theorem eq_literal_append_drop {key : Text} {w : Walk} (h : startsWith key w) :
    w = literal key ++ w.drop key.length := by
  induction key generalizing w with
  | nil => rfl
  | cons k ks ih =>
    cases w with
    | nil => cases h
    | cons x w =>
      cases x with
      | mark a => cases h
      | char c =>
        simp only [startsWith, Bool.and_eq_true, beq_iff_eq] at h
        show Symbol.char c :: w = .char k :: (literal ks ++ w.drop ks.length)
        rw [← ih h.2, h.1]

/-- a key without `?` is found in the walk where it is found in the text -/
theorem isPrefixOf_text {key : Text} (hkey : '?' ∉ key) (w : Walk) :
    key.isPrefixOf w.text = startsWith key w := by
  induction key generalizing w with
  | nil => rfl
  | cons k ks ih =>
    have hk : k ≠ '?' := fun he => hkey (he ▸ List.mem_cons_self ..)
    cases w with
    | nil => rfl
    | cons x w =>
      show (k == x.text && ks.isPrefixOf (text w)) = _
      rw [ih (fun h => hkey (List.mem_cons_of_mem _ h)) w]
      cases x with
      | char c => rfl
      | mark a =>
        show (k == '?' && startsWith ks w) = false
        simp [hk]

theorem text_drop (w : Walk) (n : Nat) : text (w.drop n) = w.text.drop n := List.map_drop

theorem text_replaceAll {key : Text} (hkey : '?' ∉ key) (value : Text) (w : Walk) :
    (replaceAll key value w).text = Text.replaceAll key value w.text := by
  fun_induction replaceAll key value w with
  | case1 => rw [text_nil, Text.replaceAll_nil]
  | case2 x w h ih =>
    have hp : key.isPrefixOf (x.text :: text w) ∧ key ≠ [] := by
      show key.isPrefixOf (text (x :: w)) ∧ key ≠ []
      rw [isPrefixOf_text hkey]
      exact h
    rw [text_append, text_literal, ih, text_drop]
    show _ = Text.replaceAll key value (x.text :: text w)
    rw [Text.replaceAll, if_pos hp]
    rfl
  | case3 x w h ih =>
    have hp : ¬ (key.isPrefixOf (x.text :: text w) ∧ key ≠ []) := by
      show ¬ (key.isPrefixOf (text (x :: w)) ∧ key ≠ [])
      rw [isPrefixOf_text hkey]
      exact h
    show x.text :: text (replaceAll key value w) = Text.replaceAll key value (x.text :: text w)
    rw [ih, Text.replaceAll, if_neg hp]

theorem bound_replaceAll (key value : Text) (w : Walk) :
    (replaceAll key value w).bound = w.bound := by
  fun_induction replaceAll key value w with
  | case1 => rfl
  | case2 x w h ih =>
    rw [bound_append, bound_literal, ih, List.nil_append]
    conv => rhs; rw [eq_literal_append_drop h.1, bound_append, bound_literal, List.nil_append]
  | case3 x w _ ih =>
    cases x with
    | char c => exact ih
    | mark a => exact congrArg (a :: ·) ih

theorem countFrom_bland {t : Text} (ht : Placeholder.Bland t) (s : Quoting) :
    Placeholder.countFrom s t = 0 := by
  induction t generalizing s with
  | nil => rfl
  | cons c t ih =>
    have hc := (ht c (List.mem_cons_self ..)).2.2
    rw [Placeholder.countFrom_cons, ih fun d hd => ht d (List.mem_cons_of_mem _ hd)]
    simp [Quoting.isMark, hc]

theorem sound_replaceAll {key value : Text} (hkey : Placeholder.Bland key)
    (hvalue : Placeholder.Bland value) (hne : value ≠ []) {s : Quoting} (hs : s.Proper) {w : Walk}
    (h : w.Sound s) :
    (replaceAll key value w).Sound s ∧ s.after (replaceAll key value w).text = s.after w.text := by
  fun_induction replaceAll key value w generalizing s with
  | case1 => exact ⟨trivial, rfl⟩
  | case2 x w hp ih =>
    have hw := eq_literal_append_drop hp.1
    have hafter : s.after value = s.after key := by
      rw [Quoting.after_bland hs hvalue hne, Quoting.after_bland hs hkey hp.2]
    rw [hw, sound_append, text_literal] at h
    have hproper : (s.after key).Proper := by
      rw [Quoting.after_bland hs hkey hp.2]
      exact hs.settled
    obtain ⟨hsound, hrest⟩ := ih hproper h.2
    rw [sound_append, text_append, text_literal, Quoting.after_append, hafter, hrest]
    refine ⟨⟨sound_literal (countFrom_bland hvalue s), hsound⟩, ?_⟩
    conv => rhs; rw [hw, text_append, text_literal, Quoting.after_append]
  | case3 x w _ ih =>
    cases x with
    | char c =>
      obtain ⟨hsound, hrest⟩ := ih (hs.next c) h.2
      exact ⟨⟨h.1, hsound⟩, hrest⟩
    | mark a =>
      obtain ⟨rfl, hw⟩ := h
      obtain ⟨hsound, hrest⟩ := ih hs hw
      exact ⟨⟨rfl, hsound⟩, hrest⟩

theorem whole_replaceAll {key value : Text} (hkey : Placeholder.Bland key)
    (hvalue : Placeholder.Bland value) (hne : value ≠ []) {w : Walk} (h : w.Whole) :
    (replaceAll key value w).Whole := by
  obtain ⟨hsound, hafter⟩ := sound_replaceAll hkey hvalue hne (s := .plain) trivial h.sound
  exact ⟨hsound, hafter.trans h.closed⟩

end BoundSql.Walk
