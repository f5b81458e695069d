import Dockboard.Proofs.Pager.Window
import Mathlib.Data.List.Induction

set_option autoImplicit false

/-! # Following

A pager that follows shows the end of what is visible. Whatever moves its window moves it there, or
ends following, save that a filter may be set that leaves more lines visible below the window.

    AtEnd p         if `p` follows, its window is at the end
    filterSet? p c  the filter that the change `c` sets
    Uncovers p c    `p` follows, and the end is further down under the filter that `c` sets

Of all changes only those that uncover lines lead away from the end (`change_atEnd_iff`). The window
is back there when text arrives, when it is resized or when following is switched on.
-/

namespace Dockboard

open Dockboard.Text

namespace Pager

/-- If the pager follows, its window is at the end of what is visible. -/
def AtEnd (p : Pager) : Prop := p.follow = true → p.offset = p.visible.length - p.height

/-- The filter that a key sets: what has been typed, or an empty one when the prompt is given up. -/
def filterTyped? (p : Pager) (key : Key) : Option (List Char) :=
  if p.mode = .filtering then
    match key.code with
    | .enter => some p.input
    | .esc => some []
    | _ => none
  else none

/-- The filter that a change sets. -/
def filterSet? (p : Pager) : Change → Option (List Char)
  | .press key => p.filterTyped? key
  | .setFilter filter => some filter
  | _ => none

/-- The pager follows, and a change sets a filter under which the end of what is visible is further
down. -/
def Uncovers (p : Pager) (c : Change) : Prop :=
  p.follow = true ∧
    ∃ filter, p.filterSet? c = some filter ∧ p.maxOffset < (p.setFilter filter).maxOffset

section Step

variable {p : Pager}

/-! ## Moving the window -/

theorem settleFollowing_atEnd (p : Pager) : p.settleFollowing.AtEnd := by
  unfold settleFollowing
  split
  · exact fun _ => rfl
  · next hstays => exact fun hfollow => absurd hfollow hstays

theorem resize_atEnd (p : Pager) (width height : Nat) : (p.resize width height).AtEnd :=
  settleFollowing_atEnd _

theorem append_atEnd (p : Pager) (text : List Char) : (p.append text).AtEnd :=
  settleFollowing_atEnd _

theorem setFollow_atEnd (p : Pager) (follow : Bool) : (p.setFollow follow).AtEnd := by
  cases follow with
  | true => exact fun _ => rfl
  | false => exact nofun

theorem AtEnd.scrollUp (h : p.AtEnd) (n : Nat) : (p.scrollUp n).AtEnd := by
  intro hfollow
  obtain ⟨hfollow, hn⟩ := Bool.and_eq_true_iff.mp hfollow
  show p.offset - n = _
  rw [h hfollow, beq_iff_eq.mp hn]
  rfl

theorem AtEnd.scrollDown (h : p.AtEnd) (n : Nat) : (p.scrollDown n).AtEnd := by
  intro hfollow
  show min (p.offset + n) p.maxOffset = p.maxOffset
  rw [h hfollow]
  exact Nat.min_eq_right (Nat.le_add_right _ _)

theorem AtEnd.jumpToCurrent (h : p.AtEnd) : p.jumpToCurrent.AtEnd := by
  unfold Pager.jumpToCurrent
  split
  · exact nofun
  · exact h

theorem AtEnd.stepMatch (h : p.AtEnd) (forward : Bool) : (p.stepMatch forward).AtEnd := by
  unfold Pager.stepMatch
  by_cases hnone : p.found.length = 0
  · simp only [if_pos hnone]
    exact h
  · simp only [if_neg hnone]
    exact AtEnd.jumpToCurrent h

/-! ## Keys -/

theorem AtEnd.browse (h : p.AtEnd) (key : Key) : (p.browse key).1.AtEnd :=
  browse_cases p key h h.scrollUp h.scrollDown nofun (fun _ => rfl) (setFollow_atEnd p)
    (fun _ _ => h) h.stepMatch

theorem AtEnd.confirmPrompt (h : p.AtEnd) (hmode : p.mode ≠ .filtering) :
    p.confirmPrompt.AtEnd := by
  have hdone {q : Pager} (hq : q.AtEnd) : ({ q with mode := .browsing } : Pager).AtEnd := hq
  unfold Pager.confirmPrompt
  refine hdone ?_
  split
  · exact AtEnd.jumpToCurrent h
  · next hfilter => exact absurd hfilter hmode
  · exact h

theorem AtEnd.cancelPrompt (h : p.AtEnd) (hmode : p.mode ≠ .filtering) : p.cancelPrompt.AtEnd := by
  unfold Pager.cancelPrompt
  rw [if_neg hmode]
  exact h

theorem AtEnd.edit (h : p.AtEnd) {key : Key} (hnone : p.filterTyped? key = none) :
    (p.edit key).AtEnd := by
  unfold filterTyped? at hnone
  refine edit_cases p key (fun _ => h) (fun hcode => ?_) (fun hcode => ?_)
  · refine h.confirmPrompt fun hmode => ?_
    rw [if_pos hmode, hcode] at hnone
    cases hnone
  · refine h.cancelPrompt fun hmode => ?_
    rw [if_pos hmode, hcode] at hnone
    cases hnone

theorem AtEnd.press (h : p.AtEnd) {key : Key} (hnone : p.filterTyped? key = none) :
    (p.press key).1.AtEnd := by
  unfold Pager.press
  cases p.mode with
  | browsing => exact h.browse key
  | searching => exact h.edit hnone
  | filtering => exact h.edit hnone

/-- A key that sets a filter does nothing else but close the prompt. -/
theorem press_of_filterTyped? {key : Key} {filter : List Char}
    (h : p.filterTyped? key = some filter) :
    (p.press key).1 = { p.setFilter filter with input := [], mode := .browsing } := by
  unfold filterTyped? at h
  split at h
  · next hmode =>
      have hedit : (p.press key).1 = p.edit key := by
        unfold Pager.press
        rw [hmode]
      rw [hedit]
      unfold Pager.edit
      split at h
      · next hcode =>
          cases h
          rw [hcode]
          show p.confirmPrompt = _
          unfold Pager.confirmPrompt
          simp only [hmode]
          rfl
      · next hcode =>
          cases h
          rw [hcode]
          show p.cancelPrompt = _
          unfold Pager.cancelPrompt
          rw [if_pos hmode]
      · cases h
  · cases h

/-! ## One change -/

/-- A change that sets no filter leaves the window at the end, or ends following. -/
theorem AtEnd.change (h : p.AtEnd) {c : Change} (hnone : p.filterSet? c = none) :
    (p.change c).AtEnd := by
  cases c with
  | press key => exact h.press hnone
  | append text => exact append_atEnd p text
  | setFilter filter => cases hnone
  | setSearch search => exact AtEnd.jumpToCurrent h
  | setFollow follow => exact setFollow_atEnd p follow
  | resize width height => exact resize_atEnd p width height
  | close error =>
      show (p.close error).AtEnd
      unfold Pager.close
      split <;> exact h

/-- After a filter has been set the window is no further down than before. -/
theorem setFilter_atEnd_iff (h : p.AtEnd) (filter : List Char) :
    (p.setFilter filter).AtEnd ↔
      ¬ (p.follow = true ∧ p.maxOffset < (p.setFilter filter).maxOffset) := by
  have hoffset : (p.setFilter filter).offset = min p.offset (p.setFilter filter).maxOffset := rfl
  show (p.follow = true → (p.setFilter filter).offset = (p.setFilter filter).maxOffset) ↔ _
  rw [hoffset, not_and, Nat.not_lt]
  refine imp_congr_right fun hfollow => ?_
  rw [h hfollow]
  show min p.maxOffset _ = _ ↔ _
  omega

theorem change_atEnd_of_filterSet? {c : Change} {filter : List Char}
    (h : p.filterSet? c = some filter) : (p.change c).AtEnd ↔ (p.setFilter filter).AtEnd := by
  cases c with
  | press key =>
      show (p.press key).1.AtEnd ↔ _
      rw [press_of_filterTyped? h]
      exact Iff.rfl
  | setFilter other =>
      cases h
      exact Iff.rfl
  | append text => cases h
  | setSearch search => cases h
  | setFollow follow => cases h
  | resize width height => cases h
  | close error => cases h

/-- **One change.** Only a change that uncovers lines leads away from the end. -/
theorem change_atEnd_iff (h : p.AtEnd) (c : Change) : (p.change c).AtEnd ↔ ¬ p.Uncovers c := by
  cases hset : p.filterSet? c with
  | none =>
      refine iff_of_true (h.change hset) ?_
      rintro ⟨-, filter, hfilter, -⟩
      cases hset.symm.trans hfilter
  | some filter =>
      rw [change_atEnd_of_filterSet? hset, setFilter_atEnd_iff h, Uncovers]
      simp only [hset, Option.some.injEq, exists_eq_left']

end Step

/-! ## Many changes -/

/-- The window of a pager that follows is away from the end exactly if some change has uncovered
lines and the window has not been at the end since. -/
theorem not_atEnd_changed_iff {start : Pager} (hstart : start.AtEnd) (changes : List Change) :
    ¬ (start.changed changes).AtEnd ↔
      ∃ before c after, changes = before ++ c :: after ∧
        (start.changed before).AtEnd ∧ (start.changed before).Uncovers c ∧
        ∀ later, later <+: after → ¬ (start.changed (before ++ c :: later)).AtEnd := by
  constructor
  · induction changes using List.reverseRecOn with
    | nil => exact fun h => absurd hstart h
    | append_singleton changes c ih =>
        intro hstrayed
        by_cases hearlier : (start.changed changes).AtEnd
        · have hlast : start.changed (changes ++ [c]) = (start.changed changes).change c :=
            List.foldl_concat _ _ _ _
          have huncovers : (start.changed changes).Uncovers c := by
            by_contra hnot
            exact hstrayed (hlast ▸ (change_atEnd_iff hearlier c).mpr hnot)
          refine ⟨changes, c, [], rfl, hearlier, huncovers, fun later hlater => ?_⟩
          rwa [List.prefix_nil.mp hlater]
        · obtain ⟨before, d, after, rfl, hbefore, huncovers, hsince⟩ := ih hearlier
          refine ⟨before, d, after ++ [c], by simp, hbefore, huncovers, fun later hlater => ?_⟩
          rcases List.prefix_concat_iff.mp hlater with rfl | hlater
          · simpa using hstrayed
          · exact hsince later hlater
  · rintro ⟨before, c, after, rfl, -, -, hsince⟩
    exact hsince after List.prefix_rfl

/-- What following means for the window of a pager after some changes. -/
structure Follows (start : Pager) (changes : List Change) : Prop where
  offset_le : (start.changed changes).offset ≤
    (start.changed changes).visible.length - (start.changed changes).height
  /-- The window is away from the end only if lines have been uncovered, and never back since. -/
  strayed_iff : ¬ (start.changed changes).AtEnd ↔
    ∃ before c after, changes = before ++ c :: after ∧
      (start.changed before).AtEnd ∧ (start.changed before).Uncovers c ∧
      ∀ later, later <+: after → ¬ (start.changed (before ++ c :: later)).AtEnd
  /-- The only changes that lead away from the end are those that uncover lines. -/
  change_iff : (start.changed changes).AtEnd → ∀ c,
    ((start.changed changes).change c).AtEnd ↔ ¬ (start.changed changes).Uncovers c
  /-- What moves the window to the end wherever it has been. -/
  back : (∀ text, ((start.changed changes).append text).AtEnd) ∧
    (∀ width height, ((start.changed changes).resize width height).AtEnd) ∧
    ∀ follow, ((start.changed changes).setFollow follow).AtEnd

theorem follows_of_atEnd {cap : Nat} {start : Pager} (hkept : start.Kept cap)
    (hstart : start.AtEnd) (changes : List Change) : start.Follows changes :=
  ⟨(hkept.changed changes).offset_le, not_atEnd_changed_iff hstart changes,
    fun h => change_atEnd_iff h, append_atEnd _, resize_atEnd _, setFollow_atEnd _⟩

/-- **Following.** After any keys, texts and changes the window of a pager that follows is at the
end of what is visible, unless a filter has been set that left more lines visible below the window,
and nothing has moved it to the end since. -/
theorem changed_follows (title : String) (text : List Char) (maxLines : Nat)
    (changes : List Change) :
    (new title text maxLines).Follows changes ∧ (live title maxLines).Follows changes :=
  ⟨follows_of_atEnd (new_kept title text maxLines) nofun changes,
    follows_of_atEnd (live_kept title maxLines) (fun _ => rfl) changes⟩

/-- A filter is typed and then taken away. The pager follows, and shows the first line of three. -/
theorem changed_follows_of_filter :
    let changes : List Change := [.append ['1', '\n', '2', '\n', '3', '\n'],
      .press { code := .char 'f' }, .press { code := .char '3' }, .press { code := .enter },
      .press { code := .char 'f' }, .press { code := .esc }]
    let p := (live "logs" 100).changed changes
    p.follow = true ∧ p.offset = 0 ∧ p.visible.length - p.height = 2 ∧
      ∃ before c after, changes = before ++ c :: after ∧
        ((live "logs" 100).changed before).Uncovers c := by
  intro changes p
  have hstate : p.follow = true ∧ p.offset = 0 ∧ p.visible.length - p.height = 2 := by
    decide
  obtain ⟨hfollow, hoffset, hend⟩ := hstate
  have haway : ¬ p.AtEnd := by
    intro hat
    have hsame := hat hfollow
    rw [hoffset, hend] at hsame
    cases hsame
  obtain ⟨before, c, after, hsplit, -, huncovers, -⟩ :=
    (changed_follows "logs" [] 100 changes).2.strayed_iff.mp haway
  exact ⟨hfollow, hoffset, hend, before, c, after, hsplit, huncovers⟩

end Pager

end Dockboard
