import Dockboard.Proofs.Session.Background
import Dockboard.Proofs.Session.Chronicle

set_option autoImplicit false

/-! # The selected row

All tables share one part of the screen, its body, and are as high as that whether they are shown or
not. The height of the body depends on that of the screen and on the header. When either of them
changes, every table is fitted again, and no other event changes a height. So in every table the
cursor stays in a window of the right height, and the keys of the active view act on its row.

    s.bodyHeight      the lines of the body
    t.Fills height    the window of a table has so many lines, and fits
    s.Fitted          every table fills the body
    s.ActsOn row      the keys that act on a row act on this one
-/

namespace Dockboard

namespace Table

variable {R : Type}

/-- The window of a table has so many lines, and fits. -/
structure Fills (height : Nat) (t : Table R) : Prop where
  windowed : t.Windowed
  height_eq : t.height = height

theorem settle_fills {t : Table R} {height : Nat} (h : t.height = height) (hpos : 0 < height) :
    t.settle.Fills height := by
  rw [← h] at hpos
  exact ⟨settle_windowed hpos, (settle_height t).trans h⟩

theorem Fills.settle {t t' : Table R} {height : Nat} (h : t.Fills height)
    (hheight : t'.height = t.height) : t'.settle.Fills height := by
  have hpos : 0 < height := h.height_eq ▸ h.windowed.height_pos
  exact settle_fills (hheight.trans h.height_eq) hpos

/-- The height of a table changes only when it is fitted to a screen. -/
theorem fills_lasting (height : Nat) : Lasting (R := R) (Fills height) where
  moveTo _ _ h := h.settle rfl
  replaceRows _ _ _ h := h.settle rfl
  setFilter _ _ _ h := h.settle rfl
  nextSortField _ h := by
    obtain ⟨⟨hpos, hoffset, hcursor, hle, hend⟩, hheight⟩ := h
    exact ⟨⟨hpos, hoffset, hcursor, hle, hend⟩, hheight⟩
  sortByField _ _ h := h.settle rfl

theorem resize_fills (t : Table R) (width : Nat) {height : Nat} (h : 0 < height) :
    (t.resize width height).Fills height :=
  settle_fills (Nat.max_eq_left h) h

end Table

namespace State

/-! ## Heights -/

theorem bodyHeight_pos (s : State) : 0 < s.bodyHeight := Nat.le_max_right _ _

theorem bodyHeight_eq {s s' : State} (hheight : s'.height = s.height)
    (hheader : s'.showHeader = s.showHeader) : s'.bodyHeight = s.bodyHeight := by
  unfold bodyHeight
  rw [hheight, hheader]

/-- Every table fills the body of the screen. -/
def Fitted (s : State) : Prop := ∀ view, (s.tables.get view).Fills s.bodyHeight

theorem new_fitted (config : Config) (now : Int) : (State.new config now).Fitted := by
  intro view
  have hnew : (State.new config now).tables.get view = Table.new (Layout.columns view) :=
    ByView.get_ofFn _ _
  -- There is no screen at first, and one line is the least that a table has.
  have hbody : (State.new config now).bodyHeight = 1 := by
    unfold bodyHeight
    exact Nat.max_eq_right (Nat.le_trans (Nat.sub_le 0 _) (Nat.zero_le 1))
  rw [hnew, hbody]
  exact ⟨(Table.new_holds (State.new config now).format _).windowed, rfl⟩

theorem resizeAll_fitted (s : State) : s.resizeAll.Fitted := by
  intro view
  show ((s.tables.map fun t => t.resize s.width s.bodyHeight).get view).Fills s.bodyHeight
  rw [ByView.get_map]
  exact Table.resize_fills _ s.width s.bodyHeight_pos

/-- The width of the screen, and the height of its body, stay as they are unless everything is
fitted to them. -/
theorem Hears.screen {s : State} {msg? : Option Msg} {r : Step} (h : Hears s msg? r) :
    (∃ s' : State, r.1 = s'.resizeAll ∧ s'.tables = s.tables) ∨
      r.1.width = s.width ∧ r.1.bodyHeight = s.bodyHeight := by
  have hsame (hsetting : r.1.setting = s.setting) :
      r.1.width = s.width ∧ r.1.bodyHeight = s.bodyHeight :=
    ⟨congrArg Setting.width hsetting,
      bodyHeight_eq (congrArg Setting.height hsetting) (congrArg Setting.showHeader hsetting)⟩
  cases h with
  | deaf hquiet hdeaf => exact Or.inr (hsame hdeaf.setting)
  | fitted hquiet s' hr htables hevents hchronicle =>
      exact Or.inl ⟨s', congrArg Prod.fst hr, htables⟩
  | opened hquiet hsetting id hchronicle hcmds => exact Or.inr (hsame hsetting)
  | addressed hquiet hsetting chronicle hchronicle hto hcmds => exact Or.inr (hsame hsetting)
  | begun hquiet hsetting hchronicle hcmds => exact Or.inr (hsame hsetting)
  | heard event htold hsetting hchronicle hcmds =>
      exact Or.inr ⟨congrArg Setting.width hsetting,
        bodyHeight_eq (congrArg Setting.height hsetting) (congrArg Setting.showHeader hsetting)⟩

/-- What happens to the tables fits all of them to the screen, or leaves the screen alone and keeps
of every table what all other changes of tables keep. -/
inductive Fits (s s' : State) : Prop where
  | fitted (before : State) (heq : s' = before.resizeAll) (htables : before.tables = s.tables)
  | kept (hwidth : s'.width = s.width) (hheight : s'.bodyHeight = s.bodyHeight)
      (hkept : ∀ {P : Table Row → Prop}, Table.Lasting P → ∀ view,
        P (s.tables.get view) → P (s'.tables.get view))

theorem step_fits_or_keeps {s : State} (hsilent : s.Silent) (msg : Msg) :
    Fits s (s.step msg).1 := by
  rcases (s.step_hears msg).screen with ⟨before, heq, htables⟩ | ⟨hwidth, hheight⟩
  · exact .fitted before heq htables
  · by_cases hfits : msg.FitsTables
    · cases msg with
      | resize width height => exact .fitted { s with width, height } rfl rfl
      | key key =>
          obtain ⟨hcode, hcontrol⟩ := hfits
          cases hlayer : s.layer with
          | none =>
              exact .fitted { s with status := none, showHeader := !s.showHeader }
                (congrArg Prod.fst (press_header hcode hcontrol hlayer)) rfl
          | some layer =>
              refine .kept hwidth hheight fun {P} _ view h => ?_
              show P ((s.press key).1.tables.get view)
              rw [press_header_covered hcode hlayer]
              exact h
      | _ => cases hfits
    · refine .kept hwidth hheight fun hP view h => (step_reaches hsilent msg).lasting hP ?_ h
      rintro _ ⟨⟩ hmsg
      exact absurd hmsg hfits

/-- **One event** fits the tables to the screen, or keeps what all other changes of them keep. -/
theorem react_fits_or_keeps {s : State} (hsilent : s.Silent) (event : Event) :
    Fits s (s.react event).1 := by
  cases event with
  | begin =>
      obtain ⟨loading, stale, hload⟩ := requestLoad_changes s s.view
      show Fits s (s.requestLoad s.view).1
      rw [hload]
      exact .kept rfl rfl fun _ _ h => h
  | input msg => exact step_fits_or_keeps hsilent msg
  | answer cmd number msg => exact step_fits_or_keeps hsilent msg

/-- **One event** leaves every table fitted to the screen. -/
theorem react_fitted {s : State} (hsilent : s.Silent) (hs : s.Fitted) (event : Event) :
    (s.react event).1.Fitted := by
  cases react_fits_or_keeps hsilent event with
  | fitted before heq htables =>
      rw [heq]
      exact before.resizeAll_fitted
  | kept hwidth hheight hkept =>
      intro view
      rw [hheight]
      exact hkept (Table.fills_lasting _) view (hs view)

/-- **Runs** leave every table fitted to the screen. -/
theorem run_fitted (config : Config) (now : Int) (events : List Event) :
    ((State.new config now).run events).Fitted := by
  -- Samples reach the monitor only while it is shown, which has to be known on the way.
  suffices h : ((State.new config now).run events).Silent ∧
      ((State.new config now).run events).Fitted from h.2
  induction events using List.reverseRecOn with
  | nil => exact ⟨fun _ => rfl, new_fitted config now⟩
  | append_singleton events event ih =>
      obtain ⟨hsilent, hfitted⟩ := ih
      rw [run_concat]
      exact ⟨(react_reaction _ event).silent hsilent, react_fitted hsilent hfitted event⟩

end State

/-! ## What keys act on -/

/-- What an action is told of a row, if it can be acted on. -/
def Row.target? (row : Row) : Option Target := row.id?.map fun id => ⟨id, row.displayName⟩

namespace Bindings

/-- The keys that have an action without Control. -/
theorem plainAction?_cases {view : View} {code : KeyCode} {action : Action}
    (h : plainAction? view code = some action) :
    code = .char 'i' ∨ code = .char 'l' ∨ code = .char 's' ∨
      code = .enter ∧ menuItems? view = none := by
  unfold plainAction? at h
  split at h <;> simp_all [menuItems?]

theorem controlAction?_ne_quit {view : View} {code : KeyCode} {action : Action}
    (h : controlAction? view code = some action) : code ≠ .char 'c' := by
  rintro rfl
  cases view <;> cases h

end Bindings

namespace State

theorem selectedTarget?_eq {s : State} {row : Row} (h : s.activeTable.selected? = some row) :
    s.selectedTarget? = row.target?.map fun target => (target, row) := by
  unfold selectedTarget? Row.target?
  rw [h, Option.bind_some, Option.map_map]
  rfl

/-- A key with an action has no other meaning. -/
theorem press_action {s : State} {key : Key} {action : Action} (hlayer : s.layer = none)
    (hkey : Bindings.action? s.view key = some action) :
    s.press key = ({ s with status := none } : State).pressAction key := by
  rw [press_bare key hlayer]
  unfold Bindings.action? at hkey
  cases hcontrol : key.control with
  | true =>
      rw [hcontrol, if_pos rfl] at hkey
      have hcode := Bindings.controlAction?_ne_quit hkey
      simp only [pressGlobal?, pressView, hcontrol, if_true, hcode, if_false, Option.getD_none]
  | false =>
      rw [hcontrol, if_neg Bool.false_ne_true] at hkey
      rcases Bindings.plainAction?_cases hkey with hcode | hcode | hcode | ⟨hcode, hmenu⟩
      · simp [pressGlobal?, pressView, hcontrol, hcode, numberedView?]
      · simp [pressGlobal?, pressView, hcontrol, hcode, numberedView?]
      · simp [pressGlobal?, pressView, hcontrol, hcode, numberedView?]
      · simp [pressGlobal?, pressView, pressEnter, hcontrol, hcode, hmenu]

/-- The keys that act on a row act on this one. -/
structure ActsOn (s : State) (row : Row) : Prop where
  /-- The key of an action runs it on the row. -/
  action : ∀ key action, Bindings.action? s.view key = some action →
    Bindings.needsTarget action = true →
      s.step (.key key) =
        match row.target? with
        | some target => ({ s with status := none } : State).runAction action target (some row)
        | none => ({ s with status := none } : State).noCmds
  /-- Enter opens the menu of the row, where there is one. -/
  menu : ∀ (key : Key) items, key.code = .enter → key.control = false →
    Bindings.menuItems? s.view = some items →
      s.step (.key key) =
        match row.target? with
        | some target =>
            (({ s with status := none } : State).openPrompt
              (.menu .menu target target.name items)).noCmds
        | none => ({ s with status := none } : State).noCmds

/-- **Actions** act on the selected row. -/
theorem acts_on_selected {s : State} {row : Row} (hlayer : s.layer = none)
    (hselected : s.activeTable.selected? = some row) : s.ActsOn row := by
  have htarget : ({ s with status := none } : State).selectedTarget? =
      row.target?.map fun target => (target, row) :=
    selectedTarget?_eq hselected
  constructor
  · intro key action hkey hneeds
    show s.press key = _
    rw [press_action hlayer hkey]
    unfold pressAction
    simp only [hkey, hneeds, if_true, htarget]
    cases row.target? <;> rfl
  · intro key items hcode hcontrol hmenu
    show s.press key = _
    rw [press_bare key hlayer]
    simp only [pressGlobal?, pressView, pressEnter, hcontrol, hcode, hmenu, htarget,
      Bool.false_eq_true, if_false, Option.getD_none]
    cases row.target? <;> rfl

end State

end Dockboard
