import Dockboard.Proofs.Session.Focus
import Dockboard.Proofs.Session.Requests

set_option autoImplicit false

/-! # The menus of a session

A menu is opened by one key, with the items of the active view, and keeps them for as long as it
stands there. So no menu of a session has more items than the longest of these lists.

    Short p          if `p` is a menu, it has no more items than that
    s.OffersShort    the prompt before the view is short, if there is one
-/

namespace Dockboard

/-- The most items that a menu of a view has. -/
def Bindings.mostItems : Nat := 7

theorem Bindings.length_menuItems? {view : View} {items : List (MenuItem Action)}
    (h : menuItems? view = some items) : items.length ≤ mostItems := by
  cases view <;> cases h <;> decide

namespace Prompt

/-- A menu has no more items than those of a view. -/
def Short (p : Prompt Followup Action) : Prop :=
  ∀ m, p.question = .menu m → m.items.length ≤ Bindings.mostItems

theorem short_confirm (tag : Followup) (target : Target) (prompt : String) :
    (confirm tag target prompt : Prompt Followup Action).Short :=
  fun _ hmenu => by cases hmenu

theorem short_input (tag : Followup) (target : Target) (prompt : String) (initial : List Char) :
    (input tag target prompt initial : Prompt Followup Action).Short :=
  fun _ hmenu => by cases hmenu

/-- The keys of a menu leave its items as they are. -/
theorem press_short {p p' : Prompt Followup Action} {key : Key} (h : p.Short)
    (hpress : p.press key = .inr p') : p'.Short := by
  have hitems (m : Menu Action) : m.up.items = m.items ∧ m.down.items = m.items := by
    unfold Menu.up Menu.down
    constructor
    · split <;> rfl
    · split <;> rfl
  unfold press at hpress
  split at hpress
  · cases hpress
  · next question hquestion =>
    cases hpress
    intro m' hm'
    obtain rfl : question = .menu m' := hm'
    unfold Question.press at hquestion
    split at hquestion
    · split at hquestion <;> cases hquestion
    · split at hquestion <;> cases hquestion
    · next m hm =>
      have hbefore := h m hm
      split at hquestion
      · cases hquestion
        rwa [(hitems m).1]
      · cases hquestion
        rwa [(hitems m).1]
      · cases hquestion
        rwa [(hitems m).2]
      · cases hquestion
        rwa [(hitems m).2]
      · split at hquestion
        · cases hquestion
        · cases hquestion
          exact hbefore
      · cases hquestion
      · cases hquestion
      · cases hquestion
        exact hbefore

end Prompt

namespace State

/-- The prompt before the view is short, if there is one. -/
def OffersShort (s : State) : Prop := ∀ p, s.layer = some (.prompt p) → p.Short

theorem Unasked.offersShort {s : State} (h : s.Unasked) : s.OffersShort :=
  fun p hp => absurd hp (h p)

theorem offersShort_of_eq {s s' : State} (hlayer : s.layer = none) (heq : s'.layer = s.layer) :
    s'.OffersShort :=
  (unasked_of_eq hlayer heq).offersShort

theorem openPrompt_offersShort (s : State) {p : Prompt Followup Action} (h : p.Short) :
    (s.openPrompt p).OffersShort := by
  rintro _ ⟨⟩
  exact h

theorem runAction_offersShort {s : State} (hlayer : s.layer = none) (action : Action)
    (target : Target) (row : Option Row) : (s.runAction action target row).1.OffersShort := by
  generalize hr : s.runAction action target row = r
  have heffect := runAction_effect s action target row
  rw [hr] at heffect
  cases heffect with
  | nothing => exact offersShort_of_eq hlayer rfl
  | inspect kind title => exact offersShort_of_eq hlayer rfl
  | logs => exact (openPager_unasked _ _ _ _).offersShort
  | stats => exact (openPager_unasked _ _ _ _).offersShort
  | tasks scope hscope => exact offersShort_of_eq hlayer (enterTaskView_plain s scope).1
  | availability prompt => exact openPrompt_offersShort s (Prompt.short_input _ _ _ _)
  | scale prompt offered => exact openPrompt_offersShort s (Prompt.short_input _ _ _ _)
  | confirm action op hop => exact openPrompt_offersShort s (Prompt.short_confirm _ _ _)

theorem pressAction_offersShort {s : State} (hlayer : s.layer = none) (key : Key) :
    (s.pressAction key).1.OffersShort := by
  unfold pressAction
  split
  · exact offersShort_of_eq hlayer rfl
  · split
    · split
      · exact runAction_offersShort hlayer _ _ _
      · exact offersShort_of_eq hlayer rfl
    · exact runAction_offersShort hlayer _ _ _

/-- The only key that opens a menu. -/
theorem pressEnter_offersShort {s : State} (hlayer : s.layer = none) (key : Key) :
    (s.pressEnter key).1.OffersShort := by
  unfold pressEnter
  split
  · exact pressAction_offersShort hlayer key
  · next items hitems =>
    split
    · refine openPrompt_offersShort s ?_
      rintro _ ⟨⟩
      exact Bindings.length_menuItems? hitems
    · exact offersShort_of_eq hlayer rfl

theorem pressView_offersShort {s : State} (hlayer : s.layer = none) (key : Key) :
    (s.pressView key).1.OffersShort := by
  have hback : s.back.1.OffersShort := by
    unfold back
    split
    · exact offersShort_of_eq hlayer (switchView_plain s _).1
    · exact offersShort_of_eq hlayer rfl
  unfold pressView
  by_cases hcontrol : key.control
  · rw [if_pos hcontrol]
    exact pressAction_offersShort hlayer key
  · rw [if_neg hcontrol]
    -- Most keys move the cursor or sort the table, and come with no prompt.
    split <;> try exact offersShort_of_eq hlayer rfl
    · split
      · exact offersShort_of_eq hlayer (requestLoad_layer _ _)
      · exact pressAction_offersShort hlayer key
    · exact offersShort_of_eq hlayer (requestLoad_layer _ _)
    · exact openPrompt_offersShort s (Prompt.short_input _ _ _ _)
    · exact hback
    · exact hback
    · exact pressEnter_offersShort hlayer key
    · exact pressAction_offersShort hlayer key

theorem pressGlobal?_offersShort {s : State} (hlayer : s.layer = none) {key : Key} {r : Step}
    (h : s.pressGlobal? key = some r) : r.1.OffersShort := by
  unfold pressGlobal? at h
  by_cases hcontrol : key.control
  · rw [if_pos hcontrol] at h
    split at h
    · cases h
      exact offersShort_of_eq hlayer rfl
    · cases h
  · rw [if_neg hcontrol] at h
    split at h
    · cases h
      exact offersShort_of_eq hlayer (switchView_plain s _).1
    · cases h
      exact (openPager_unasked _ _ _ _).offersShort
    · cases h
      exact offersShort_of_eq hlayer rfl
    · cases h
      exact offersShort_of_eq hlayer rfl
    · cases h
      exact (openPager_unasked _ _ _ _).offersShort
    · cases h
      exact offersShort_of_eq hlayer (switchView_plain s _).1
    · cases h
      exact offersShort_of_eq hlayer (by simp [resizeAll, noCmds, hlayer])
    · obtain ⟨target, -, rfl⟩ := Option.map_eq_some_iff.mp h
      exact offersShort_of_eq hlayer (switchView_plain s _).1
    · cases h

theorem onOutcome_offersShort {s : State} (hlayer : s.layer = none) (tag : Followup)
    (target : Target) (outcome : Outcome Action) :
    (s.onOutcome tag target outcome).1.OffersShort := by
  by_cases hchoice : tag = .menu ∧ ∃ action, outcome = .selected action
  · obtain ⟨rfl, action, rfl⟩ := hchoice
    exact runAction_offersShort hlayer action target none
  · refine offersShort_of_eq hlayer (onOutcome_layer (fun htag action houtcome => ?_) target)
    exact hchoice ⟨htag, action, houtcome⟩

theorem press_offersShort {s : State} (h : s.OffersShort) (key : Key) :
    (s.press key).1.OffersShort := by
  cases hlayer : s.layer with
  | none =>
      let s' : State := { s with status := none }
      have hlayer' : s'.layer = none := hlayer
      rw [press_bare key hlayer]
      show ((s'.pressGlobal? key).getD (s'.pressView key)).1.OffersShort
      cases hglobal : s'.pressGlobal? key with
      | none => exact pressView_offersShort hlayer' key
      | some r => exact pressGlobal?_offersShort hlayer' hglobal
  | some layer =>
      cases layer with
      | prompt p =>
          rw [press_prompt key hlayer]
          unfold pressPrompt
          split
          · exact onOutcome_offersShort rfl _ _ _
          · next p' hpress =>
            exact openPrompt_offersShort s (Prompt.press_short (h p hlayer) hpress)
      | pager layer =>
          rw [press_pager key hlayer]
          exact Unasked.offersShort fun p => pressPager_unasked s layer key p

/-- **One event** leads to no menu but a short one. -/
theorem react_offersShort {s : State} (h : s.OffersShort) (event : Event) :
    (s.react event).1.OffersShort := by
  cases hkey : event.key? with
  | none =>
      intro p hp
      exact h p (((react_untouched s hkey).prompt p).mp hp)
  | some key =>
      rw [react_key s hkey]
      exact press_offersShort h key

/-- The menus of every run are short. -/
theorem run_offersShort (config : Config) (now : Int) (events : List Event) :
    ((State.new config now).run events).OffersShort := by
  induction events using List.reverseRecOn with
  | nil => exact offersShort_of_eq (s := State.new config now) rfl rfl
  | append_singleton events event ih =>
      rw [run_concat]
      exact react_offersShort ih event

end State

end Dockboard
