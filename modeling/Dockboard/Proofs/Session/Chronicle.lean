import Dockboard.Proofs.Pager.Lines
import Dockboard.Proofs.Session.Requests
import Dockboard.Proofs.Session.Streams

set_option autoImplicit false

/-! # The chronicle of events

The latest events are kept, and a pager can show them. When it is opened they are read into it one
after the other, and as long as it is open it is given every event that comes. No other message
reaches its lines, and nothing else changes what is kept or what the screen is like:

    s.setting             the size of the screen, whether the header is shown, the events kept
    s.chronicle?          the pager of events on the screen, with what it has been given
    Deaf s r              a step leaves all of these alone, or closes the pager
    Hears s msg? r        what a step does about events
    Chronicled told x     what is kept and shown of the events `told`
-/

namespace Dockboard

open Dockboard.Stream Dockboard.Text

/-- Whether a command reads events. -/
def Cmd.readsEvents : Cmd → Bool
  | .watchEvents | .readEvents _ => true
  | _ => false

/-- The event of which a message tells. -/
def Msg.told? : Msg → Option DaemonEvent
  | .daemonEvent event _ => some event
  | _ => none

/-- Whether a message tells that there are no more events. -/
def Msg.endsEvents : Msg → Bool
  | .eventsEnded _ => true
  | _ => false

/-- The size of the screen, whether the header is shown, and the events that are kept. -/
structure Setting where
  width : Nat
  height : Nat
  showHeader : Bool
  events : List DaemonEvent

/-- What is known of a pager that shows events. -/
structure Chronicle where
  id : Nat
  holding : Holding

/-- What is known of a pager, if it shows events. -/
def PagerLayer.chronicle? (layer : PagerLayer) : Option Chronicle :=
  if layer.kind = .events then some ⟨layer.id, layer.pager.holding⟩ else none

namespace State

/-- The size of the screen, whether the header is shown, and the events that are kept. -/
def setting (s : State) : Setting where
  width := s.width
  height := s.height
  showHeader := s.showHeader
  events := s.events

/-- What is known of the pager of events on the screen. -/
def chronicle? (s : State) : Option Chronicle :=
  match s.layer with
  | some (.pager layer) => layer.chronicle?
  | _ => none

theorem chronicle?_of_pager {s : State} {layer : PagerLayer} (h : s.layer = some (.pager layer)) :
    s.chronicle? = layer.chronicle? := by
  unfold chronicle?
  rw [h]

theorem chronicle?_of_events {s : State} {layer : PagerLayer}
    (h : s.layer = some (.pager layer)) (hkind : layer.kind = .events) :
    s.chronicle? = some ⟨layer.id, layer.pager.holding⟩ := by
  rw [chronicle?_of_pager h, PagerLayer.chronicle?, if_pos hkind]

theorem chronicle?_eq_none {s : State} (h : ∀ layer, s.layer ≠ some (.pager layer)) :
    s.chronicle? = none := by
  unfold chronicle?
  split
  · next layer hlayer => exact absurd hlayer (h layer)
  · rfl

/-! ## What leaves events alone -/

/-- A step leaves the setting and what is shown of events alone, or closes the pager, and reads no
events. -/
structure Deaf (s : State) (r : Step) : Prop where
  setting : r.1.setting = s.setting
  chronicle : r.1.chronicle? = none ∨ r.1.chronicle? = s.chronicle?
  cmds : ∀ cmd ∈ r.2, cmd.readsEvents = false

namespace Deaf

variable {s s' : State} {r : Step}

theorem of_eq (hsetting : r.1.setting = s.setting) (hlayer : r.1.layer = s.layer)
    (hcmds : ∀ cmd ∈ r.2, cmd.readsEvents = false) : Deaf s r := by
  refine ⟨hsetting, Or.inr ?_, hcmds⟩
  unfold chronicle?
  rw [hlayer]

theorem noCmds (hsetting : s'.setting = s.setting) (hlayer : s'.layer = s.layer) :
    Deaf s s'.noCmds :=
  .of_eq hsetting hlayer fun _ hcmd => by cases hcmd

theorem issue {cmd : Cmd} (hsetting : s'.setting = s.setting) (hlayer : s'.layer = s.layer)
    (hcmd : cmd.readsEvents = false) : Deaf s (s', [cmd]) :=
  .of_eq hsetting hlayer (List.forall_mem_singleton.mpr hcmd)

/-- Something else is shown now. -/
theorem unshown (hsetting : s'.setting = s.setting) (hnone : s'.chronicle? = none) :
    Deaf s s'.noCmds :=
  ⟨hsetting, Or.inl hnone, fun _ hcmd => by cases hcmd⟩

theorem after (h : Deaf s' r) (hsetting : s'.setting = s.setting)
    (hchronicle : s'.chronicle? = none ∨ s'.chronicle? = s.chronicle?) : Deaf s r := by
  refine ⟨h.setting.trans hsetting, ?_, h.cmds⟩
  rcases h.chronicle with hnone | hsame
  · exact Or.inl hnone
  · rw [hsame]
    exact hchronicle

theorem prepend {cmds : List Cmd} (h : Deaf s r) (hcmds : ∀ cmd ∈ cmds, cmd.readsEvents = false) :
    Deaf s (r.1, cmds ++ r.2) :=
  ⟨h.setting, h.chronicle, List.forall_mem_append.mpr ⟨hcmds, h.cmds⟩⟩

theorem append {cmds : List Cmd} (h : Deaf s r) (hcmds : ∀ cmd ∈ cmds, cmd.readsEvents = false) :
    Deaf s (r.1, r.2 ++ cmds) :=
  ⟨h.setting, h.chronicle, List.forall_mem_append.mpr ⟨h.cmds, hcmds⟩⟩

theorem countP (h : Deaf s r) : r.2.countP Cmd.readsEvents = 0 := by
  rw [List.countP_eq_zero]
  intro cmd hcmd
  simp [h.cmds cmd hcmd]

end Deaf

theorem loadCmd_readsEvents (s : State) (view : View) : (s.loadCmd view).readsEvents = false := by
  rcases loadCmd_cases s view with ⟨-, hload⟩ | ⟨-, scope, hload⟩ <;> rw [hload] <;> rfl

theorem requestLoad_deaf (s : State) (view : View) : Deaf s (s.requestLoad view) := by
  obtain ⟨loading, stale, hload⟩ := requestLoad_changes s view
  refine .of_eq (by rw [hload]; rfl) (by rw [hload]) fun cmd hcmd => ?_
  rw [mem_requestLoad hcmd]
  exact loadCmd_readsEvents s view

theorem switchView_deaf (s : State) (target : View) : Deaf s (s.switchView target) := by
  obtain ⟨⟨monitorEpoch, loading, stale, hswitch⟩, hcmds⟩ := switchView_changes s target
  obtain ⟨tables, cancelled, hstop⟩ := stopMonitor_changes s
  rw [hstop] at hswitch
  refine .of_eq (by rw [hswitch]; split <;> rfl) (by rw [hswitch]; split <;> rfl) fun cmd hcmd => ?_
  rcases hcmds cmd hcmd with ⟨s', rfl⟩ | ⟨after, epoch, rfl⟩
  · exact loadCmd_readsEvents s' target
  · rfl

theorem enterTaskView_deaf (s : State) (scope : TaskScope) : Deaf s (s.enterTaskView scope) := by
  obtain ⟨previous, tables, -, henter⟩ := enterTaskView_changes s scope
  rw [henter]
  exact (switchView_deaf _ scope.view).after rfl (Or.inr rfl)

theorem closeLayer_deaf (s : State) : Deaf s s.closeLayer.noCmds := by
  obtain ⟨cancelled, hclose⟩ := closeLayer_changes s
  rw [hclose]
  exact .unshown rfl rfl

theorem openPager_setting (s : State) (kind : PagerKind) (pager : Pager) (token : Option Token) :
    (s.openPager kind pager token).setting = s.setting := by
  obtain ⟨cancelled, layer, -, hopen⟩ := openPager_changes s kind pager token
  rw [hopen]
  rfl

theorem openPager_layer (s : State) (kind : PagerKind) (pager : Pager) (token : Option Token) :
    (s.openPager kind pager token).layer = some (.pager
      { id := s.lastPager + 1, kind, pager := pager.resize s.width s.pagerHeight, token }) := by
  obtain ⟨cancelled, hclose⟩ := closeLayer_changes s
  unfold openPager
  rw [hclose]
  rfl

/-- What is shown of a pager that has just been opened. -/
theorem openPager_chronicle? (s : State) (kind : PagerKind) (pager : Pager)
    (token : Option Token) : (s.openPager kind pager token).chronicle? =
      if kind = .events then some ⟨s.lastPager + 1, pager.holding⟩ else none := by
  rw [chronicle?_of_pager (openPager_layer s kind pager token), PagerLayer.chronicle?,
    Pager.resize_holding]

theorem openPager_deaf (s : State) (kind : PagerKind) (hkind : kind ≠ .events) (pager : Pager)
    (token : Option Token) : Deaf s (s.openPager kind pager token).noCmds := by
  refine .unshown (openPager_setting s kind pager token) ?_
  rw [openPager_chronicle?, if_neg hkind]

theorem ActionEffect.deaf {s : State} {target : Target} {r : Step} (h : ActionEffect s target r) :
    Deaf s r := by
  have hfresh (kind : PagerKind) (hkind : kind ≠ .events) (pager : Pager) :
      Deaf s (s.freshToken.2.openPager kind pager (some s.freshToken.1)).noCmds :=
    (openPager_deaf s.freshToken.2 kind hkind pager _).after rfl (Or.inr rfl)
  cases h with
  | nothing => exact .noCmds rfl rfl
  | inspect kind title => exact .issue rfl rfl rfl
  | logs =>
      have hopened := hfresh .logs nofun (.live s!"Logs: {target.name}" s.config.logBuffer)
      exact ⟨hopened.setting, hopened.chronicle, List.forall_mem_singleton.mpr rfl⟩
  | stats =>
      have hopened := hfresh .stats nofun (.live s!"Stats: {target.name}" s.config.logBuffer)
      exact ⟨hopened.setting, hopened.chronicle, List.forall_mem_singleton.mpr rfl⟩
  | tasks scope hscope => exact enterTaskView_deaf s scope
  | availability prompt => exact .unshown rfl rfl
  | scale prompt offered => exact .unshown rfl rfl
  | confirm action op hop => exact .unshown rfl rfl

theorem fail_deaf (s : State) (text : String) : Deaf s (s.fail text) := .issue rfl rfl rfl

theorem onOutcome_deaf (s : State) (tag : Followup) (target : Target) (outcome : Outcome Action) :
    Deaf s (s.onOutcome tag target outcome) := by
  unfold onOutcome
  split
  · exact (runAction_effect s _ target none).deaf
  · exact .issue rfl rfl rfl
  · exact .noCmds rfl rfl
  · unfold onScale
    split
    · exact .issue rfl rfl rfl
    · exact fail_deaf s _
  · unfold onAvailability
    split
    · exact .issue rfl rfl rfl
    · exact fail_deaf s _
  · exact .noCmds rfl rfl

theorem pressPrompt_deaf (s : State) (prompt : Prompt Followup Action) (key : Key) :
    Deaf s (s.pressPrompt prompt key) := by
  unfold pressPrompt
  split
  · exact (onOutcome_deaf { s with layer := none } _ _ _).after rfl (Or.inl rfl)
  · exact .unshown rfl rfl

theorem pressPager_deaf {s : State} {layer : PagerLayer} (h : s.layer = some (.pager layer))
    (key : Key) : Deaf s (s.pressPager layer key) := by
  have hpressed : (s.setPager layer (layer.pager.press key).1).chronicle? = s.chronicle? := by
    rw [chronicle?_of_pager h]
    show PagerLayer.chronicle? { layer with pager := (layer.pager.press key).1 } = _
    unfold PagerLayer.chronicle?
    rw [Pager.press_holding]
  simp only [pressPager]
  split
  · exact (closeLayer_deaf _).after rfl (Or.inr hpressed)
  · exact ⟨rfl, Or.inr hpressed, fun _ hcmd => by cases hcmd⟩

theorem onLoaded_deaf (s : State) (view : View) (scope : Option TaskScope) (rows : List Row) :
    Deaf s (s.onLoaded view scope rows) := by
  obtain ⟨⟨tables, loading, stale, hloaded⟩, hcmds⟩ := onLoaded_changes s view scope rows
  refine .of_eq (by rw [hloaded]; rfl) (by rw [hloaded]) fun cmd hcmd => ?_
  rw [hcmds cmd hcmd]
  exact loadCmd_readsEvents s view

theorem onMonitorListed_deaf (s : State) (containers : List Container) :
    Deaf s (s.onMonitorListed containers) := by
  obtain ⟨⟨tables, loading, stale, monitor, nextToken, cancelled, hlisted⟩, hcmds⟩ :=
    onMonitorListed_changes s containers
  refine .of_eq (by rw [hlisted]; rfl) (by rw [hlisted]) fun cmd hcmd => ?_
  rcases hcmds cmd hcmd with rfl | ⟨id, token, rfl⟩ <;> rfl

theorem onText_deaf (s : State) (title text : String) : Deaf s (s.onText title text) := by
  unfold onText
  split
  · exact .noCmds rfl rfl
  · exact openPager_deaf s .text nofun _ _

theorem onDone_deaf (s : State) (op : Operation) (detail : String) :
    Deaf s (s.onDone op detail) := by
  have hload := requestLoad_deaf (s.setStatus false (op.successMessage detail)).1 s.view
  exact (hload.prepend (List.forall_mem_singleton.mpr rfl)).after rfl (Or.inr rfl)

theorem onMonitorTick_deaf (s : State) (epoch : Nat) : Deaf s (s.onMonitorTick epoch) := by
  unfold onMonitorTick
  split
  · exact (requestLoad_deaf s .monitor).append (List.forall_mem_singleton.mpr rfl)
  · exact .noCmds rfl rfl

theorem onAlarm_deaf (s : State) (alarm : Alarm) : Deaf s (s.onAlarm alarm) := by
  cases alarm with
  | monitorTick epoch => exact onMonitorTick_deaf s epoch
  | statusExpired seq =>
      simp only [onAlarm]
      split <;> exact .noCmds rfl rfl
  | debounceElapsed =>
      simp only [onAlarm]
      split
      · exact (requestLoad_deaf _ s.view).after rfl (Or.inr rfl)
      · exact .noCmds rfl rfl

/-! ## What is told of events -/

/-- What a pager of events holds once it is opened. -/
def replayed (events : List DaemonEvent) : Holding where
  lines := (events.map eventLine).foldl (Pager.appendText eventHistory) []
  maxLines := eventHistory
  stream := .live

theorem openEvents_chronicle? (s : State) :
    s.openEvents.chronicle? = some ⟨s.lastPager + 1, replayed s.events⟩ := by
  have hreplay : s.events.foldl (fun p event => p.append (eventLine event))
      (Pager.live "Events" eventHistory) =
      (s.events.map eventLine).foldl Pager.append (Pager.live "Events" eventHistory) :=
    List.foldl_map.symm
  unfold openEvents
  simp only [openPager_chronicle?, if_true, hreplay, Pager.foldl_append_holding]
  rfl

/-- What a step does about events. -/
inductive Hears (s : State) (msg? : Option Msg) (r : Step) : Prop where
  /-- It has to do with other things. -/
  | deaf (hquiet : msg?.bind Msg.told? = none) (hdeaf : Deaf s r)
  /-- Everything is fitted to another size of the screen, or to a header shown or hidden. -/
  | fitted (hquiet : msg?.bind Msg.told? = none) (s' : State) (hr : r = s'.resizeAll.noCmds)
      (htables : s'.tables = s.tables) (hevents : s'.events = s.events)
      (hchronicle : s'.chronicle? = s.chronicle?)
  /-- The events that are kept are shown. -/
  | opened (hquiet : msg?.bind Msg.told? = none) (hsetting : r.1.setting = s.setting)
      (id : Nat) (hchronicle : r.1.chronicle? = some ⟨id, replayed s.events⟩)
      (hcmds : r.2 = [])
  /-- A message is addressed to the pager of events. -/
  | addressed (hquiet : msg?.bind Msg.told? = none) (hsetting : r.1.setting = s.setting)
      (chronicle : Chronicle) (hchronicle : s.chronicle? = some chronicle)
      (hto : msg?.bind Msg.pager? = some chronicle.id) (hcmds : r.2.countP Cmd.readsEvents = 0)
  /-- Events are read from now on. -/
  | begun (hquiet : msg? = none) (hsetting : r.1.setting = s.setting)
      (hchronicle : r.1.chronicle? = s.chronicle?) (hcmds : r.2.countP Cmd.readsEvents = 1)
  /-- An event is kept and shown, and the next one is read. -/
  | heard (event : DaemonEvent) (htold : msg?.bind Msg.told? = some event)
      (hsetting : r.1.setting = { s.setting with events := remember s.events event })
      (hchronicle : r.1.chronicle? = s.chronicle?.map fun c =>
        { c with holding := c.holding.append (eventLine event) })
      (hcmds : r.2.countP Cmd.readsEvents = 1)

theorem resizeAll_chronicle? (s : State) : s.resizeAll.chronicle? = s.chronicle? := by
  unfold chronicle? resizeAll
  cases s.layer with
  | none => rfl
  | some layer =>
      cases layer with
      | prompt p => rfl
      | pager layer =>
          show PagerLayer.chronicle? { layer with pager := layer.pager.resize _ _ } = _
          unfold PagerLayer.chronicle?
          rw [Pager.resize_holding]

theorem KeyEffect.hears {s : State} {r : Step} (h : KeyEffect s r) (key : Key) :
    Hears s (some (.key key)) r := by
  cases h with
  | nothing => exact .deaf rfl (.noCmds rfl rfl)
  | quit => exact .deaf rfl (.noCmds rfl rfl)
  | help => exact .deaf rfl (openPager_deaf s .text nofun _ _)
  | events =>
      exact .opened rfl (openPager_setting s _ _ _) _ (openEvents_chronicle? s) rfl
  | info => exact .deaf rfl (.issue rfl rfl rfl)
  | header => exact .fitted rfl { s with showHeader := !s.showHeader } rfl rfl rfl rfl
  | switch target hlist => exact .deaf rfl (switchView_deaf s target)
  | back =>
      refine .deaf rfl ?_
      unfold State.back
      split
      · exact switchView_deaf s s.previous
      · exact .noCmds rfl rfl
  | move place => exact .deaf rfl (.noCmds rfl rfl)
  | sort => exact .deaf rfl (.noCmds rfl rfl)
  | filter => exact .deaf rfl (.unshown rfl rfl)
  | toggle hview => exact .deaf rfl ((requestLoad_deaf _ s.view).after rfl (Or.inr rfl))
  | refresh => exact .deaf rfl (requestLoad_deaf s s.view)
  | menu target row items hselected => exact .deaf rfl (.unshown rfl rfl)
  | onView action hwhole => exact .deaf rfl (runAction_effect s action _ _).deaf
  | onRow action target row hselected => exact .deaf rfl (runAction_effect s action _ _).deaf

theorem Hears.after {s s' : State} {msg? : Option Msg} {r : Step} (h : Hears s' msg? r)
    (htables : s'.tables = s.tables) (hsetting : s'.setting = s.setting)
    (hchronicle : s'.chronicle? = s.chronicle?) : Hears s msg? r := by
  have hevents : s'.events = s.events := congrArg Setting.events hsetting
  cases h with
  | deaf hquiet hdeaf => exact .deaf hquiet (hdeaf.after hsetting (Or.inr hchronicle))
  | fitted hquiet s'' hr htables' hevents' hchronicle' =>
      exact .fitted hquiet s'' hr (htables'.trans htables) (hevents'.trans hevents)
        (hchronicle'.trans hchronicle)
  | opened hquiet hsetting' id hchronicle' hcmds =>
      rw [hevents] at hchronicle'
      exact .opened hquiet (hsetting'.trans hsetting) id hchronicle' hcmds
  | addressed hquiet hsetting' chronicle hchronicle' hto hcmds =>
      exact .addressed hquiet (hsetting'.trans hsetting) chronicle
        (hchronicle.symm.trans hchronicle') hto hcmds
  | begun hquiet hsetting' hchronicle' hcmds =>
      exact .begun hquiet (hsetting'.trans hsetting) (hchronicle'.trans hchronicle) hcmds
  | heard event htold hsetting' hchronicle' hcmds =>
      rw [hsetting, hevents] at hsetting'
      rw [hchronicle] at hchronicle'
      exact .heard event htold hsetting' hchronicle' hcmds

theorem press_hears (s : State) (key : Key) : Hears s (some (.key key)) (s.press key) := by
  cases hlayer : s.layer with
  | none =>
      refine ((press_effect key hlayer).hears key).after rfl rfl ?_
      unfold chronicle?
      rw [hlayer]
  | some layer =>
      cases layer with
      | prompt p =>
          rw [press_prompt key hlayer]
          exact .deaf rfl (pressPrompt_deaf s p key)
      | pager layer =>
          rw [press_pager key hlayer]
          exact .deaf rfl (pressPager_deaf hlayer key)

/-- A message for a pager tells of no event. -/
theorem told?_of_pager? {msg : Msg} {id : Nat} (h : msg.pager? = some id) : msg.told? = none := by
  cases msg <;> first | rfl | cases h

/-- A message for a pager reaches the pager of events or has nothing to do with events. -/
theorem hears_of_pager? {s : State} {msg : Msg} {id : Nat} {r : Step} (hto : msg.pager? = some id)
    (hcmds : ∀ cmd ∈ r.2, cmd.readsEvents = false)
    (hother : s.pagerLayer? id = none → r = s.noCmds)
    (hreach : ∀ layer, s.pagerLayer? id = some layer → ∃ pager, r.1 = s.setPager layer pager) :
    Hears s (some msg) r := by
  have hquiet : (some msg).bind Msg.told? = none := told?_of_pager? hto
  rcases pagerLayer?_cases s id with ⟨layer, hfound, hlayer, rfl⟩ | ⟨hfound, -⟩
  · obtain ⟨pager, hpager⟩ := hreach layer hfound
    have hsetting : r.1.setting = s.setting := by rw [hpager]; rfl
    by_cases hkind : layer.kind = .events
    · refine .addressed hquiet hsetting _ (chronicle?_of_events hlayer hkind) hto ?_
      exact List.countP_eq_zero.mpr fun cmd hcmd => by simp [hcmds cmd hcmd]
    · refine .deaf hquiet ⟨hsetting, Or.inl ?_, hcmds⟩
      rw [hpager]
      exact if_neg hkind
  · rw [hother hfound]
    exact .deaf hquiet (.noCmds rfl rfl)

theorem onPagerText_hears (s : State) {msg : Msg} {id : Nat} (hto : msg.pager? = some id)
    (text : List Char) {next : Token → Cmd} (hnext : ∀ token, (next token).readsEvents = false) :
    Hears s (some msg) (s.onPagerText id text next) := by
  refine hears_of_pager? hto (fun cmd hcmd => ?_) (fun hfound => ?_) fun layer hfound => ?_
  · obtain ⟨token, rfl⟩ := (onPagerText_changes s id text next).2 cmd hcmd
    exact hnext token
  · simp only [onPagerText, hfound]
  · refine ⟨layer.pager.append text, ?_⟩
    simp only [onPagerText, hfound]
    split
    · split <;> rfl
    · rfl

theorem onPagerEnded_hears (s : State) {msg : Msg} {id : Nat} (hto : msg.pager? = some id)
    (error : Option String) : Hears s (some msg) (s.onPagerEnded id error) := by
  refine hears_of_pager? hto (fun cmd hcmd => ?_) (fun hfound => ?_) fun layer hfound => ?_
  · obtain ⟨layer, hended⟩ := onPagerEnded_changes s id error
    rw [hended] at hcmd
    cases hcmd
  · simp only [onPagerEnded, hfound]
  · exact ⟨layer.pager.close error, by simp only [onPagerEnded, hfound]; rfl⟩

theorem showEvent_chronicle? (s : State) (event : DaemonEvent) :
    (s.showEvent event).chronicle? = s.chronicle?.map fun c =>
      { c with holding := c.holding.append (eventLine event) } := by
  unfold showEvent
  split
  · next layer hlayer =>
    rw [chronicle?_of_pager hlayer]
    by_cases hkind : layer.kind = .events
    · rw [if_pos hkind]
      show PagerLayer.chronicle? { layer with pager := layer.pager.append _ } = _
      rw [PagerLayer.chronicle?, PagerLayer.chronicle?, if_pos hkind, if_pos hkind,
        Pager.append_holding]
      rfl
    · rw [if_neg hkind, chronicle?_of_pager hlayer, PagerLayer.chronicle?, if_neg hkind]
      rfl
  · next hnone =>
    rw [chronicle?_eq_none hnone]
    rfl

theorem showEvent_setting (s : State) (event : DaemonEvent) :
    (s.showEvent event).setting = s.setting := by
  unfold showEvent
  split
  · split <;> rfl
  · rfl

theorem onEvent_hears (s : State) (event : DaemonEvent) (rest : Feed DaemonEvent) :
    Hears s (some (.daemonEvent event rest)) (s.onEvent event rest) := by
  obtain ⟨debouncer, hnote⟩ := noteChange_changes s event
  have hcmds : (s.onEvent event rest).2 = .readEvents rest :: (s.noteChange event).2 := rfl
  have hstate : (s.onEvent event rest).1 = { ({ s with debouncer } : State).showEvent event with
      events := remember (({ s with debouncer } : State).showEvent event).events event } := by
    rw [← hnote]
    rfl
  have hshown := showEvent_setting { s with debouncer } event
  refine .heard event rfl ?_ ?_ ?_
  · have hevents : (({ s with debouncer } : State).showEvent event).events = s.events :=
      congrArg Setting.events hshown
    rw [hstate, hevents]
    exact congrArg (fun setting => { setting with events := remember s.events event }) hshown
  · rw [hstate]
    exact showEvent_chronicle? { s with debouncer } event
  · have htimers : (s.noteChange event).2.countP Cmd.readsEvents = 0 := by
      refine List.countP_eq_zero.mpr fun cmd hcmd => ?_
      obtain ⟨after, rfl⟩ := mem_noteChange hcmd
      exact Bool.false_ne_true
    rw [hcmds, List.countP_cons, htimers]
    rfl

theorem begin_reads (s : State) : s.begin.2.countP Cmd.readsEvents = 1 := by
  show ([Cmd.summary, .watchEvents] ++ (s.requestLoad s.view).2).countP Cmd.readsEvents = 1
  rw [List.countP_append, (requestLoad_deaf s s.view).countP]
  rfl

theorem begin_hears (s : State) : Hears s none s.begin := by
  obtain ⟨loading, stale, hchanges⟩ := requestLoad_changes s s.view
  refine .begun rfl (requestLoad_deaf s s.view).setting ?_ (begin_reads s)
  show (s.requestLoad s.view).1.chronicle? = s.chronicle?
  rw [hchanges]
  rfl

theorem step_hears (s : State) (msg : Msg) : Hears s (some msg) (s.step msg) := by
  cases msg with
  | key key => exact press_hears s key
  | resize width height =>
      exact .fitted rfl { s with width, height } rfl rfl rfl rfl
  | summary summary => exact .deaf rfl (.noCmds rfl rfl)
  | summaryFailed error => exact .deaf rfl (.noCmds rfl rfl)
  | loaded view scope rows => exact .deaf rfl (onLoaded_deaf s view scope rows)
  | loadFailed view error => exact .deaf rfl (.issue rfl rfl rfl)
  | monitorListed containers => exact .deaf rfl (onMonitorListed_deaf s containers)
  | textLoaded title text => exact .deaf rfl (onText_deaf s title text)
  | textFailed title error => exact .deaf rfl (fail_deaf s _)
  | operationDone op detail => exact .deaf rfl (onDone_deaf s op detail)
  | operationFailed op error => exact .deaf rfl (fail_deaf s _)
  | logChunk pager text reader => exact onPagerText_hears s rfl text fun _ => rfl
  | logEnded pager error => exact onPagerEnded_hears s rfl error
  | statSample sink sample rest =>
      cases sink with
      | pager id => exact onPagerText_hears s rfl _ fun _ => rfl
      | monitor id =>
          obtain ⟨⟨tables, hsample⟩, hcmds⟩ := onSample_changes s id sample rest
          refine .deaf rfl (.of_eq (by rw [step, hsample]; rfl) (by rw [step, hsample]) ?_)
          intro cmd hcmd
          obtain ⟨token, rfl⟩ := hcmds cmd hcmd
          rfl
  | statsEnded sink error =>
      cases sink with
      | pager id => exact onPagerEnded_hears s rfl error
      | monitor id =>
          obtain ⟨⟨tables, monitor, hended⟩, hcmds⟩ := onStatsEnded_changes s id error
          refine .deaf rfl (.of_eq (by rw [step, hended]; rfl) (by rw [step, hended]) ?_)
          rw [step, hcmds]
          exact List.forall_mem_nil _
  | daemonEvent event rest => exact onEvent_hears s event rest
  | eventsEnded error => exact .deaf rfl (fail_deaf s _)
  | alarm alarm => exact .deaf rfl (onAlarm_deaf s alarm)

/-- **Events of a session and events it is told of.** -/
theorem react_hears (s : State) (event : Event) : Hears s event.msg? (s.react event) := by
  cases event with
  | begin => exact begin_hears s
  | input msg => exact step_hears s msg
  | answer cmd number msg => exact step_hears s msg

/-- A function key shows the events. -/
theorem press_events (s : State) {key : Key} (hcode : key.code = .function 9)
    (hcontrol : key.control = false) (hlayer : s.layer = none) :
    s.step (.key key) = ({ s with status := none } : State).openEvents.noCmds := by
  have hglobal : ({ s with status := none } : State).pressGlobal? key =
      some ({ s with status := none } : State).openEvents.noCmds := by
    simp only [pressGlobal?, hcontrol, hcode, Bool.false_eq_true, if_false]
  show s.press key = _
  rw [press_bare key hlayer, hglobal]
  rfl

/-! ## What is kept -/

theorem remember_eq {events : List DaemonEvent} (h : events.length ≤ eventHistory)
    (event : DaemonEvent) : remember events event = latest eventHistory (events ++ [event]) := by
  rw [latest, List.length_append, List.length_singleton, remember]
  by_cases hfull : events.length = eventHistory
  · have hone : 1 ≤ events.length := hfull ▸ by decide
    have hdrop : events.length + 1 - eventHistory = 1 := by omega
    rw [if_pos hfull, hdrop, List.drop_append_of_le_length hone, List.drop_one]
  · have hdrop : events.length + 1 - eventHistory = 0 := by omega
    rw [if_neg hfull, hdrop, List.drop_zero]

theorem remember_latest (told : List DaemonEvent) (event : DaemonEvent) :
    remember (latest eventHistory told) event = latest eventHistory (told ++ [event]) := by
  have hle : (latest eventHistory told).length ≤ eventHistory := by
    rw [length_latest]
    exact Nat.min_le_left _ _
  rw [remember_eq hle, latest_latest_append]

theorem replayed_concat (told : List DaemonEvent) (event : DaemonEvent) :
    replayed (told ++ [event]) = (replayed told).append (eventLine event) := by
  unfold replayed Holding.append
  rw [List.map_append, List.map_singleton, List.foldl_concat]

theorem map_eventLine (told : List DaemonEvent) :
    told.map eventLine = (told.map DaemonEvent.describe).map (· ++ ['\n']) := by
  rw [List.map_map]
  rfl

/-- The lines of all events that a session is told of. -/
theorem content_replayed (told : List DaemonEvent) :
    Pager.content (replayed told).lines =
      latest eventHistory (told.flatMap fun event => Pager.linesOf event.describe) := by
  simp only [replayed]
  rw [map_eventLine, Pager.foldl_appendText_paged (by decide), Pager.content_paged,
    List.flatMap_map]

/-- The latest events make the same pager as all of them. -/
theorem replayed_latest (told : List DaemonEvent) :
    replayed (latest eventHistory told) = replayed told := by
  have hmap : (latest eventHistory told).map DaemonEvent.describe =
      latest eventHistory (told.map DaemonEvent.describe) := by
    unfold latest
    rw [List.map_drop, List.length_map]
  unfold replayed
  rw [map_eventLine, map_eventLine, hmap, Pager.foldl_appendText_latest (by decide)]

end State

/-! ## Runs -/

/-- The event of the daemon of which an event of a session tells it. -/
def Event.told? (event : Event) : Option DaemonEvent := event.msg?.bind Msg.told?

/-- Whether an event of a session tells it that there are no more events. -/
def Event.endsEvents (event : Event) : Bool := event.msg?.any Msg.endsEvents

/-- Whether an event is the beginning of a session's work. -/
def Event.begins : Event → Bool
  | .begin => true
  | _ => false

theorem Event.told?_apart (event : Event) :
    (event.told?.isSome && event.endsEvents) = false ∧
      (event.begins && (event.told?.isSome || event.endsEvents)) = false := by
  have hmsg (msg : Msg) : (msg.told?.isSome && msg.endsEvents) = false := by cases msg <;> rfl
  cases event with
  | begin => exact ⟨rfl, rfl⟩
  | input msg => exact ⟨hmsg msg, rfl⟩
  | answer cmd number msg => exact ⟨hmsg msg, rfl⟩

/-- The events of which a session has been told. -/
def toldIn (history : History) : List DaemonEvent := history.filterMap fun p => p.2.told?

/-- How often a session has been told that there are no more events. -/
def endsIn (history : History) : Nat := history.countP fun p => p.2.endsEvents

/-- How often a session has begun its work. -/
def beginsIn (history : History) : Nat := history.countP fun p => p.2.begins

theorem State.step_reads (s : State) (msg : Msg) :
    (s.step msg).2.countP Cmd.readsEvents = if msg.told?.isSome then 1 else 0 := by
  have hnone {msg : Msg} (hquiet : (some msg).bind Msg.told? = none) :
      (if msg.told?.isSome then 1 else 0) = 0 := by
    rw [Option.bind_some] at hquiet
    rw [hquiet]
    rfl
  cases s.step_hears msg with
  | deaf hquiet hdeaf => rw [hnone hquiet, hdeaf.countP]
  | fitted hquiet s' hr => rw [hnone hquiet, hr]; rfl
  | opened hquiet hsetting id hchronicle hcmds => rw [hnone hquiet, hcmds]; rfl
  | addressed hquiet hsetting chronicle hchronicle hto hcmds => rw [hnone hquiet, hcmds]
  | begun hquiet => cases hquiet
  | heard event htold hsetting hchronicle hcmds =>
      rw [Option.bind_some] at htold
      rw [htold, hcmds]
      rfl

/-- Events are read from the beginning on, and after each of them. -/
theorem State.react_reads (s : State) (event : Event) :
    (s.react event).2.countP Cmd.readsEvents =
      if event.begins || event.told?.isSome then 1 else 0 := by
  cases event with
  | begin => exact s.begin_reads
  | input msg => exact s.step_reads msg
  | answer cmd number msg => exact s.step_reads msg

theorem toldIn_concat (history : History) (x : System) (event : Event) :
    toldIn (history ++ [(x, event)]) = toldIn history ++ event.told?.toList := by
  unfold toldIn
  rw [List.filterMap_append, List.filterMap_cons, List.filterMap_nil]
  cases event.told? <;> rfl

namespace System

/-- What is kept and shown of the events of which a session has been told. -/
structure Chronicled (told : List DaemonEvent) (x : System) : Prop where
  kept : x.state.events = latest eventHistory told
  shown : ∀ chronicle, x.state.chronicle? = some chronicle →
    chronicle.holding = State.replayed told

/-- No message is addressed to a pager of events, as nothing is read for it. -/
theorem Served.unaddressed {x : System} (h : x.Served) (hnumbered : x.Numbered) {event : Event}
    (allowed : x.Allows event) {chronicle : Chronicle}
    (hchronicle : x.state.chronicle? = some chronicle) :
    event.msg?.bind Msg.pager? ≠ some chronicle.id := by
  intro hto
  obtain ⟨layer, hlayer, hkind, hid⟩ : ∃ layer, x.state.layer = some (.pager layer) ∧
      layer.kind = .events ∧ layer.id = chronicle.id := by
    unfold State.chronicle? PagerLayer.chronicle? at hchronicle
    split at hchronicle
    · next layer hlayer =>
      split at hchronicle
      · next hkind =>
        cases hchronicle
        exact ⟨layer, hlayer, hkind, rfl⟩
      · cases hchronicle
    · cases hchronicle
  have hsource := State.source?_eq_some hlayer
  have htoken : layer.source.token.isSome = false := by
    rw [h.kind _ hsource]
    exact congrArg PagerKind.isStream hkind
  have hnone : x.outstanding (Cmd.readsFor layer.id) = 0 := by
    refine (h.shown _ hsource).trans (if_neg fun hlive => ?_)
    rw [htoken] at hlive
    cases hlive.1
  have hanswers := answers_le_outstanding hnumbered allowed (Cmd.readsFor layer.id)
  rw [← hid] at hto
  rw [(answers_readsFor allowed layer.id).mpr hto, hnone] at hanswers
  exact absurd hanswers (by decide)

/-- **One event.** What is kept and shown is what has been told. -/
theorem Chronicled.after {x : System} {told : List DaemonEvent} (h : Chronicled told x)
    (hserved : x.Served) (hnumbered : x.Numbered) {event : Event} (allowed : x.Allows event) :
    Chronicled (told ++ event.told?.toList) (x.after event) := by
  obtain ⟨hkept, hshown⟩ := h
  cases State.react_hears x.state event with
  | deaf hquiet hdeaf =>
      have hnone : event.told? = none := hquiet
      rw [hnone, Option.toList_none, List.append_nil]
      refine ⟨(congrArg Setting.events hdeaf.setting).trans hkept, fun chronicle hafter => ?_⟩
      rcases hdeaf.chronicle with hclosed | hsame
      · cases hclosed.symm.trans hafter
      · exact hshown chronicle (hsame.symm.trans hafter)
  | fitted hquiet s' hr htables hevents hchronicle =>
      have hnone : event.told? = none := hquiet
      have hstate : (x.after event).state = s'.resizeAll := congrArg Prod.fst hr
      rw [hnone, Option.toList_none, List.append_nil]
      refine ⟨?_, fun chronicle hafter => hshown chronicle ?_⟩
      · rw [hstate]
        exact hevents.trans hkept
      · rw [hstate, State.resizeAll_chronicle?, hchronicle] at hafter
        exact hafter
  | opened hquiet hsetting id hchronicle hcmds =>
      have hnone : event.told? = none := hquiet
      rw [hnone, Option.toList_none, List.append_nil]
      refine ⟨(congrArg Setting.events hsetting).trans hkept, fun chronicle hafter => ?_⟩
      cases hchronicle.symm.trans hafter
      rw [hkept, State.replayed_latest]
  | addressed hquiet hsetting chronicle hchronicle hto hcmds =>
      exact absurd hto (hserved.unaddressed hnumbered allowed hchronicle)
  | begun hquiet hsetting hchronicle hcmds =>
      have hnone : event.told? = none := congrArg (·.bind Msg.told?) hquiet
      rw [hnone, Option.toList_none, List.append_nil]
      refine ⟨(congrArg Setting.events hsetting).trans hkept, fun chronicle hafter => ?_⟩
      exact hshown chronicle (hchronicle.symm.trans hafter)
  | heard new htold hsetting hchronicle hcmds =>
      have hnew : event.told? = some new := htold
      rw [hnew, Option.toList_some]
      refine ⟨?_, fun chronicle hafter => ?_⟩
      · rw [← State.remember_latest, ← hkept]
        exact congrArg Setting.events hsetting
      · obtain ⟨before, hbefore, rfl⟩ :=
          Option.map_eq_some_iff.mp (hchronicle.symm.trans hafter)
        rw [State.replayed_concat, ← hshown before hbefore]

/-- A read of events is answered by an event, or by word that there are no more of them. -/
theorem answers_readsEvents {x : System} {event : Event} (allowed : x.Allows event) :
    event.answers Cmd.readsEvents = (event.told?.isSome || event.endsEvents) := by
  cases event with
  | begin => rfl
  | input msg => cases msg <;> first | rfl | cases allowed
  | answer cmd number msg =>
      show cmd.readsEvents = (msg.told?.isSome || msg.endsEvents)
      obtain ⟨-, hyields⟩ := allowed
      cases hyields <;> rfl

end System

namespace Run

variable {config : Config} {now : Int} {history : History} {x : System}

theorem chronicled (h : Run config now history x) : x.Chronicled (toldIn history) := by
  induction h with
  | start => exact ⟨rfl, nofun⟩
  | step event run allowed ih =>
      rw [toldIn_concat]
      exact ih.after run.served run.numbered allowed

/-- One read of events is outstanding for each time a session has begun its work, unless its events
have ended. -/
theorem outstanding_readsEvents (h : Run config now history x) :
    x.outstanding Cmd.readsEvents + endsIn history = beginsIn history := by
  induction h with
  | start => rfl
  | @step history x event run allowed ih =>
      have hcount := System.outstanding_after run.numbered allowed Cmd.readsEvents
      rw [System.answers_readsEvents allowed, x.state.react_reads] at hcount
      have hends : endsIn (history ++ [(x, event)]) =
          endsIn history + if event.endsEvents then 1 else 0 := by
        rw [endsIn, List.countP_append, List.countP_singleton]
        rfl
      have hbegins : beginsIn (history ++ [(x, event)]) =
          beginsIn history + if event.begins then 1 else 0 := by
        rw [beginsIn, List.countP_append, List.countP_singleton]
        rfl
      rw [hends, hbegins]
      -- An event is one of three things at most: a beginning, an event that is told, an end.
      have hapart := event.told?_apart
      generalize event.begins = begins, event.endsEvents = ends, event.told?.isSome = told at *
      cases begins <;> cases ends <;> cases told <;> simp at hapart hcount ⊢ <;> omega

/-- **Events of the daemon.** The latest of them are kept, and a pager that is opened now holds the
last lines of all that have been told. So does a pager that has been open, however many of them were
read into it when it was opened, and however many came later. -/
theorem events_replayed (h : Run config now history x) :
    x.state.events = latest eventHistory (toldIn history) ∧
    ∃ fresh, x.state.openEvents.layer = some (.pager fresh) ∧ fresh.kind = .events ∧
      Pager.content fresh.pager.lines =
        latest eventHistory ((toldIn history).flatMap fun event => Pager.linesOf event.describe) ∧
      (∀ key : Key, key.code = .function 9 → key.control = false → x.state.layer = none →
        (x.state.step (.key key)).1.layer = some (.pager fresh)) ∧
      ∀ shown, x.state.layer = some (.pager shown) → shown.kind = .events →
        Pager.content shown.pager.lines = Pager.content fresh.pager.lines := by
  obtain ⟨hkept, hshown⟩ := h.chronicled
  obtain ⟨fresh, hfresh⟩ : ∃ fresh, x.state.openEvents.layer = some (.pager fresh) := ⟨_, rfl⟩
  have hkind : fresh.kind = .events := by cases hfresh; rfl
  have hreplayed : fresh.pager.holding = State.replayed (toldIn history) := by
    have hchronicle := x.state.openEvents_chronicle?
    rw [State.chronicle?_of_pager hfresh, PagerLayer.chronicle?, if_pos hkind] at hchronicle
    rw [← State.replayed_latest, ← hkept]
    exact congrArg Chronicle.holding (Option.some.inj hchronicle)
  have hlines : Pager.content fresh.pager.lines =
      latest eventHistory ((toldIn history).flatMap fun event => Pager.linesOf event.describe) := by
    rw [← State.content_replayed, ← hreplayed]
    rfl
  refine ⟨hkept, fresh, hfresh, hkind, hlines, fun key hcode hcontrol hlayer => ?_,
    fun shown hlayer hevents => ?_⟩
  · rw [← hfresh, x.state.press_events hcode hcontrol hlayer]
    exact (State.openPager_layer _ _ _ _).trans (State.openPager_layer x.state _ _ _).symm
  · have hholding : shown.pager.holding = fresh.pager.holding :=
      (hshown _ (State.chronicle?_of_events hlayer hevents)).trans hreplayed.symm
    exact congrArg (fun held => Pager.content held.lines) hholding

/-- A pager of events is opened after one event, the description of which has two lines, and is
given another one. -/
theorem events_replayed_of_two : ∃ history x, Run {} 0 history x ∧
    x.state.events.length = 2 ∧
    ∃ fresh shown, x.state.openEvents.layer = some (.pager fresh) ∧
      x.state.layer = some (.pager shown) ∧ shown.kind = .events ∧
      Pager.content shown.pager.lines = Pager.content fresh.pager.lines ∧
      (Pager.content fresh.pager.lines).length = 3 := by
  have hbegun := (Run.start : Run {} 0 [] _).step .begin trivial
  have hfirst := hbegun.step
    (.answer .watchEvents 1 (.daemonEvent { kind := "image", actorName := "a\nb" } ⟨[], true⟩))
    ⟨List.mem_of_getElem? (i := 1) rfl, .eventsOpened _ _⟩
  have hopened := hfirst.step (.input (.key { code := .function 9 })) rfl
  have hsecond := hopened.step
    (.answer (.readEvents ⟨[], true⟩) 3 (.daemonEvent { kind := "node" } ⟨[], true⟩))
    ⟨List.mem_of_getElem? (i := 2) rfl, .eventsRead _ _ _⟩
  obtain ⟨hkept, fresh, hfresh, -, hlines, -, hshown⟩ := events_replayed hsecond
  refine ⟨_, _, hsecond, ?_, fresh, _, hfresh, rfl, rfl, hshown _ rfl rfl, ?_⟩
  · rw [hkept]
    rfl
  · rw [hlines]
    decide +kernel

/-- **The stream of the pager of events.** Whether events are still read or have ended, a pager of
events is live: the one on the screen, and one that is opened. -/
theorem events_stay_live (h : Run config now history x) :
    (∀ layer, x.state.layer = some (.pager layer) → layer.kind = .events →
      layer.pager.stream = .live) ∧
    (∀ key : Key, key.code = .function 9 → key.control = false → x.state.layer = none →
      ∃ layer, (x.state.step (.key key)).1.layer = some (.pager layer) ∧ layer.kind = .events ∧
        layer.pager.stream = .live) ∧
    x.outstanding Cmd.readsEvents + endsIn history = beginsIn history := by
  obtain ⟨-, hshown⟩ := h.chronicled
  have hlive (s : State) :
      s.openEvents.chronicle?.map (fun c => c.holding.stream) = some .live := by
    rw [State.openEvents_chronicle?]
    rfl
  refine ⟨fun layer hlayer hevents => ?_, fun key hcode hcontrol hlayer => ?_,
    h.outstanding_readsEvents⟩
  · exact congrArg Holding.stream (hshown _ (State.chronicle?_of_events hlayer hevents))
  · rw [x.state.press_events hcode hcontrol hlayer]
    exact ⟨_, rfl, rfl, Option.some.inj (hlive { x.state with status := none })⟩

/-- Events end while a pager shows them, and again none are read while it is live. -/
theorem events_stay_live_of_end : ∃ history x, Run {} 0 history x ∧ endsIn history = 1 ∧
    x.outstanding Cmd.readsEvents = 0 ∧
    ∃ layer, x.state.layer = some (.pager layer) ∧ layer.kind = .events ∧
      layer.pager.stream = .live := by
  have hbegun := (Run.start : Run {} 0 [] _).step .begin trivial
  have hopened := hbegun.step (.input (.key { code := .function 9 })) rfl
  have hended := hopened.step (.answer .watchEvents 1 (.eventsEnded none))
    ⟨List.mem_of_getElem? (i := 1) rfl, .eventsNotOpened none⟩
  obtain ⟨hlive, -, hcount⟩ := events_stay_live hended
  exact ⟨_, _, hended, rfl, Nat.add_right_cancel hcount, _, rfl, rfl, hlive _ rfl rfl⟩

end Run

end Dockboard
