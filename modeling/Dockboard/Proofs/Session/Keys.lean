import Dockboard.Session.Step

set_option autoImplicit false

/-! # What keys do

Each thing a key or an action can do is a case of a relation, so that whatever is kept by all of
them is kept by every key in every view.

    ActionEffect s target r    running some action on `target` in `s` can lead to `r`
    KeyEffect s r              some key can lead to `r` from `s`, where only the view is shown
-/

namespace Dockboard

open Dockboard.Stream

namespace State

/-- What an action can do. -/
inductive ActionEffect (s : State) (target : Target) : Step → Prop where
  | nothing : ActionEffect s target s.noCmds
  | inspect (kind : InspectKind) (title : String) :
      ActionEffect s target (s, [.inspect kind target.id title])
  | logs : ActionEffect s target (s.openLogs target)
  | stats : ActionEffect s target (s.openStats target)
  | tasks (scope : TaskScope) (hscope : scopeOf? s.view target = some scope) :
      ActionEffect s target (s.enterTaskView scope)
  | availability (prompt : String) :
      ActionEffect s target (s.openPrompt (.input .availability target prompt [])).noCmds
  | scale (prompt : String) (offered : List Char) :
      ActionEffect s target (s.openPrompt (.input .scale target prompt offered)).noCmds
  | confirm (action : Action) (op : Operation)
      (hop : Bindings.operation? action s.view target.id = some op) :
      ActionEffect s target (s.askFor op target).noCmds

theorem runAction_effect (s : State) (action : Action) (target : Target) (row : Option Row) :
    ActionEffect s target (s.runAction action target row) := by
  unfold runAction
  split
  · split
    · exact .inspect _ _
    · exact .nothing
  · exact .logs
  · exact .stats
  · split
    · next scope hscope => exact .tasks scope hscope
    · exact .nothing
  · exact .availability _
  · exact .scale _ _
  · -- The other actions ask for an operation, if there is one for the view.
    split
    · next op hop => exact .confirm action op hop
    · exact .nothing

/-- What a key can do when nothing stands before the view. -/
inductive KeyEffect (s : State) : Step → Prop where
  | nothing : KeyEffect s s.noCmds
  | quit : KeyEffect s ({ s with quit := true }, [])
  | help : KeyEffect s s.openHelp.noCmds
  | events : KeyEffect s s.openEvents.noCmds
  | info : KeyEffect s (s, [.info])
  | header : KeyEffect s ({ s with showHeader := !s.showHeader }.resizeAll).noCmds
  | switch (target : View) (hlist : target.isTaskView = false) : KeyEffect s (s.switchView target)
  | back : KeyEffect s s.back
  /-- The cursor goes to a place that depends on where it was. -/
  | move (place : Table Row → Nat) :
      KeyEffect s (s.modifyTable s.view fun t => t.moveTo (place t)).noCmds
  | sort : KeyEffect s s.sortNext.noCmds
  | filter : KeyEffect s s.askFilter.noCmds
  | toggle (hview : s.view = .containers) :
      KeyEffect s ({ s with showAll := !s.showAll }.requestLoad s.view)
  | refresh : KeyEffect s (s.requestLoad s.view)
  | menu (target : Target) (row : Row) (items : List (MenuItem Action))
      (hselected : s.selectedTarget? = some (target, row)) :
      KeyEffect s (s.openPrompt (.menu .menu target target.name items)).noCmds
  /-- An action on the view as a whole. -/
  | onView (action : Action) (hwhole : Bindings.needsTarget action = false) :
      KeyEffect s (s.runAction action {} none)
  | onRow (action : Action) (target : Target) (row : Row)
      (hselected : s.selectedTarget? = some (target, row)) :
      KeyEffect s (s.runAction action target (some row))

theorem pressAction_effect (s : State) (key : Key) : KeyEffect s (s.pressAction key) := by
  unfold pressAction
  cases Bindings.action? s.view key with
  | none => exact .nothing
  | some action =>
      cases hneeds : Bindings.needsTarget action with
      | false =>
          simp only [hneeds, Bool.false_eq_true, if_false]
          exact .onView action hneeds
      | true =>
          simp only [hneeds, if_true]
          cases hselected : s.selectedTarget? with
          | none => exact .nothing
          | some selected => exact .onRow action selected.1 selected.2 hselected

theorem pressEnter_effect (s : State) (key : Key) : KeyEffect s (s.pressEnter key) := by
  unfold pressEnter
  cases Bindings.menuItems? s.view with
  | none => exact pressAction_effect s key
  | some items =>
      cases hselected : s.selectedTarget? with
      | none => exact .nothing
      | some selected => exact .menu selected.1 selected.2 items hselected

theorem pressView_effect (s : State) (key : Key) : KeyEffect s (s.pressView key) := by
  unfold pressView
  by_cases hcontrol : key.control
  · rw [if_pos hcontrol]
    exact pressAction_effect s key
  · rw [if_neg hcontrol]
    split
    · exact .move fun t => t.cursor - 1
    · exact .move fun t => t.cursor - 1
    · exact .move fun t => t.cursor + 1
    · exact .move fun t => t.cursor + 1
    · exact .move fun t => t.cursor - t.height
    · exact .move fun t => t.cursor + t.height
    · exact .move fun _ => 0
    · exact .move fun _ => 0
    · exact .move fun t => t.shown.length - 1
    · exact .move fun t => t.shown.length - 1
    · exact .sort
    · by_cases hview : s.view = .containers
      · rw [if_pos hview]
        exact .toggle hview
      · rw [if_neg hview]
        exact pressAction_effect s key
    · exact .refresh
    · exact .filter
    · exact .back
    · exact .back
    · exact pressEnter_effect s key
    · exact pressAction_effect s key

theorem numberedView?_isTaskView {c : Char} {target : View} (h : numberedView? c = some target) :
    target.isTaskView = false := by
  have hmem : target ∈ View.numbered := by
    unfold numberedView? at h
    split at h
    · exact List.mem_of_getElem? h
    · cases h
  revert hmem
  cases target <;> decide

theorem pressGlobal?_effect {s : State} {key : Key} {r : Step} (h : s.pressGlobal? key = some r) :
    KeyEffect s r := by
  unfold pressGlobal? at h
  by_cases hcontrol : key.control
  · rw [if_pos hcontrol] at h
    split at h
    · cases h
      exact .quit
    · cases h
  · rw [if_neg hcontrol] at h
    split at h
    · cases h
      exact .switch .diskUsage rfl
    · cases h
      exact .events
    · cases h
      exact .info
    · cases h
      exact .quit
    · cases h
      exact .help
    · cases h
      exact .switch _ (by split <;> rfl)
    · cases h
      exact .header
    · obtain ⟨target, htarget, rfl⟩ := Option.map_eq_some_iff.mp h
      exact .switch target (numberedView?_isTaskView htarget)
    · cases h

theorem press_prompt {s : State} {prompt : Prompt Followup Action} (key : Key)
    (h : s.layer = some (.prompt prompt)) : s.press key = s.pressPrompt prompt key := by
  unfold press
  rw [h]

theorem press_pager {s : State} {layer : PagerLayer} (key : Key)
    (h : s.layer = some (.pager layer)) : s.press key = s.pressPager layer key := by
  unfold press
  rw [h]

/-- **Keys.** When nothing stands before the view, a key removes the status message and does one
of the things above. -/
theorem press_effect {s : State} (key : Key) (h : s.layer = none) :
    KeyEffect { s with status := none } (s.press key) := by
  unfold press
  split
  · next prompt hprompt => rw [h] at hprompt; cases hprompt
  · next layer hlayer => rw [h] at hlayer; cases hlayer
  · show KeyEffect { s with status := none }
      ((({ s with status := none } : State).pressGlobal? key).getD
        (({ s with status := none } : State).pressView key))
    cases hglobal : ({ s with status := none } : State).pressGlobal? key with
    | none => exact pressView_effect _ key
    | some r => exact pressGlobal?_effect hglobal

end State

end Dockboard
