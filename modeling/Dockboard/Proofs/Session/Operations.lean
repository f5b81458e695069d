import Dockboard.Proofs.Session.Changes
import Dockboard.Proofs.Session.Keys
import Dockboard.Proofs.Session.Run
import Mathlib.Data.List.Induction

set_option autoImplicit false

/-! # Operations

Nothing is changed before a prompt has been answered, and what is changed then is what was
selected when the prompt was opened. A prompt stands before the view until it is answered; no
message but a key removes it, changes what it is for, or leads to another view meanwhile.

    Prompt.Fits p             `p` confirms only operations on its own target
    Answers p key op          `key` is the answer to `p` that has `op` carried out
    Untouched s r             `r` leaves the prompt and the view of `s` alone
    OpenedOn s events p       `p` was opened, by itself or from a menu, on the selected row
-/

namespace Dockboard

open Dockboard.Stream Dockboard.Text

/-- The identifier of the resource an operation changes, if it is a single one. -/
def Operation.resource? : Operation → Option String
  | .killContainer id | .stopContainer id | .restartContainer id | .removeContainer id => some id
  | .removeImage id _ => some id
  | .removeNetwork id => some id
  | .removeVolume name => some name
  | .setNodeAvailability id _ => some id
  | .scaleService id _ => some id
  | .forceUpdateService id | .removeService id => some id
  | .removeStack name => some name
  | .removeStoppedContainers | .removeDanglingImages | .prune => none

theorem Bindings.operation?_resource? {action : Action} {view : View} {id : String}
    {op : Operation} (h : operation? action view id = some op) :
    op.resource? = none ∨ op.resource? = some id := by
  unfold operation? at h
  split at h <;> cases h <;> first | exact Or.inr rfl | exact Or.inl rfl

namespace Prompt

/-- A prompt confirms only an operation on its own target, or on no single resource. -/
def Fits (p : Prompt Followup Action) : Prop :=
  ∀ op, p.tag = .confirm op → op.resource? = none ∨ op.resource? = some p.target.id

/-- No answer to the prompt changes a single resource. -/
def Harmless (p : Prompt Followup Action) : Prop :=
  p.tag = .filter ∨ ∃ op, p.tag = .confirm op ∧ op.resource? = none

/-- A key is the answer to a prompt that has an operation carried out. -/
inductive Answers (p : Prompt Followup Action) (key : Key) : Operation → Prop where
  | confirmed (op : Operation) (htag : p.tag = .confirm op)
      (hkey : key.code = .char 'y' ∨ key.code = .char 'Y') : Answers p key op
  | scaled (label : String) (field : Field) (replicas : Nat) (htag : p.tag = .scale)
      (hquestion : p.question = .input label field) (hkey : key.code = .enter)
      (hread : Numeral.read? Numeral.max64 (trim field.text) = some replicas) :
      Answers p key (.scaleService p.target.id replicas)
  | available (label : String) (field : Field) (availability : Availability)
      (htag : p.tag = .availability) (hquestion : p.question = .input label field)
      (hkey : key.code = .enter) (hread : Availability.ofText? field.text = some availability) :
      Answers p key (.setNodeAvailability p.target.id availability)

theorem Answers.tag {p : Prompt Followup Action} {key : Key} {op : Operation}
    (h : p.Answers key op) : p.tag = .confirm op ∨ p.tag = .scale ∨ p.tag = .availability := by
  cases h with
  | confirmed op htag _ => exact Or.inl htag
  | scaled _ _ _ htag _ _ _ => exact Or.inr (Or.inl htag)
  | available _ _ _ htag _ _ _ => exact Or.inr (Or.inr htag)

theorem Answers.not_harmless {p : Prompt Followup Action} {key : Key} {op : Operation}
    {id : String} (h : p.Answers key op) (hid : op.resource? = some id) : ¬ p.Harmless := by
  rintro (hfilter | ⟨op', hconfirm, hnone⟩)
  · rcases h.tag with htag | htag | htag <;> simp [htag] at hfilter
  · rcases h.tag with htag | htag | htag
    · rw [htag] at hconfirm
      cases hconfirm
      simp [hid] at hnone
    · simp [htag] at hconfirm
    · simp [htag] at hconfirm

theorem Answers.target_id {p : Prompt Followup Action} {key : Key} {op : Operation}
    {id : String} (h : p.Answers key op) (hfits : p.Fits) (hid : op.resource? = some id) :
    p.target.id = id := by
  cases h with
  | confirmed op htag _ =>
      have htarget := (hfits op htag).resolve_left (by rw [hid]; nofun)
      rw [hid] at htarget
      exact (Option.some.inj htarget).symm
  | scaled _ _ _ _ _ _ _ => exact Option.some.inj hid
  | available _ _ _ _ _ _ _ => exact Option.some.inj hid

theorem press_inl {p : Prompt Followup Action} {key : Key} {outcome : Outcome Action}
    (h : p.press key = .inl outcome) : p.question.press key = .inl outcome := by
  unfold press at h
  split at h
  · next heq =>
    cases h
    exact heq
  · cases h

theorem press_confirmed {p : Prompt Followup Action} {key : Key}
    (h : p.press key = .inl .confirmed) : key.code = .char 'y' ∨ key.code = .char 'Y' := by
  have hpress := press_inl h
  unfold Question.press at hpress
  split at hpress
  · split at hpress
    · exact Or.inl ‹_›
    · exact Or.inr ‹_›
    all_goals cases hpress
  all_goals
    repeat' split at hpress
    all_goals cases hpress

theorem press_value {p : Prompt Followup Action} {key : Key} {text : List Char}
    (h : p.press key = .inl (.value text)) :
    ∃ label field, p.question = .input label field ∧ field.text = text ∧ key.code = .enter := by
  have hpress := press_inl h
  unfold Question.press at hpress
  split at hpress
  · split at hpress <;> cases hpress
  · next label field hquestion =>
    split at hpress
    · next hkey =>
      cases hpress
      exact ⟨label, field, hquestion, rfl, hkey⟩
    all_goals cases hpress
  · repeat' split at hpress
    all_goals cases hpress

theorem press_stays {p p' : Prompt Followup Action} {key : Key} (h : p.press key = .inr p') :
    p'.tag = p.tag ∧ p'.target = p.target := by
  unfold press at h
  split at h
  · cases h
  · cases h
    exact ⟨rfl, rfl⟩

end Prompt

namespace State

/-! ## Messages other than keys -/

/-- A step that leaves the active view and the prompt before it alone, and changes nothing. -/
structure Untouched (s : State) (r : Step) : Prop where
  view : r.1.view = s.view
  prompt : ∀ p, r.1.layer = some (.prompt p) ↔ s.layer = some (.prompt p)
  acts : ∀ op, Cmd.act op ∉ r.2

theorem untouched {s : State} {r : Step} (hview : r.1.view = s.view)
    (hlayer : r.1.layer = s.layer) (hacts : ∀ op, Cmd.act op ∉ r.2) : Untouched s r :=
  ⟨hview, fun p => by rw [hlayer], hacts⟩

theorem untouched_nil {s s' : State} (hview : s'.view = s.view) (hlayer : s'.layer = s.layer) :
    Untouched s s'.noCmds :=
  untouched hview hlayer fun op h => by cases h

theorem requestLoad_acts (s : State) (view : View) (op : Operation) :
    Cmd.act op ∉ (s.requestLoad view).2 := by
  intro h
  have hload := mem_requestLoad h
  rcases loadCmd_cases s view with ⟨-, hcmd⟩ | ⟨-, scope, hcmd⟩
  · rw [hcmd] at hload
    cases hload
  · rw [hcmd] at hload
    cases hload

theorem requestLoad_untouched (s : State) (view : View) : Untouched s (s.requestLoad view) := by
  obtain ⟨loading, stale, hload⟩ := requestLoad_changes s view
  exact untouched (by rw [hload]) (by rw [hload]) (requestLoad_acts s view)

/-- What is done after a change of other things. -/
theorem Untouched.of_eq {s s' : State} {r : Step} (h : Untouched s' r) (hview : s'.view = s.view)
    (hlayer : s'.layer = s.layer) : Untouched s r :=
  ⟨h.view.trans hview, fun p => by rw [h.prompt p, hlayer], h.acts⟩

/-- More commands that change nothing. -/
theorem Untouched.cmds {s : State} {r : Step} (h : Untouched s r) {cmds : List Cmd}
    (hacts : ∀ op, Cmd.act op ∉ cmds) : Untouched s (r.1, cmds) :=
  ⟨h.view, h.prompt, hacts⟩

/-- A pager stands before the view, before and after. -/
theorem untouched_pager {s : State} {r : Step} {layer layer' : PagerLayer}
    (hview : r.1.view = s.view) (hbefore : s.layer = some (.pager layer))
    (hafter : r.1.layer = some (.pager layer')) (hacts : ∀ op, Cmd.act op ∉ r.2) :
    Untouched s r := by
  refine ⟨hview, fun p => ?_, hacts⟩
  rw [hbefore, hafter]
  constructor <;> intro h <;> cases h

theorem resizeAll_untouched (s : State) : Untouched s s.resizeAll.noCmds := by
  cases hlayer : s.layer with
  | none => exact untouched_nil rfl (by simp [resizeAll, hlayer])
  | some layer =>
      cases layer with
      | prompt p => exact untouched_nil rfl (by simp [resizeAll, hlayer])
      | pager layer =>
          exact untouched_pager rfl hlayer (by simp [resizeAll, noCmds, hlayer]; rfl)
            fun op h => by cases h

theorem onPagerText_untouched (s : State) (id : Nat) (text : List Char) {next : Token → Cmd}
    (hnext : ∀ token op, next token ≠ .act op) : Untouched s (s.onPagerText id text next) := by
  unfold onPagerText
  split
  · exact untouched_nil rfl rfl
  · next layer hfound =>
    have hlayer := pagerLayer?_eq_some hfound
    simp only
    split
    · next token _ =>
      split
      · exact untouched_pager rfl hlayer rfl fun op h => by cases h
      · refine untouched_pager rfl hlayer rfl fun op h => ?_
        exact hnext token op (List.mem_singleton.mp h).symm
    · exact untouched_pager rfl hlayer rfl fun op h => by cases h

theorem onPagerEnded_untouched (s : State) (id : Nat) (error : Option String) :
    Untouched s (s.onPagerEnded id error) := by
  unfold onPagerEnded
  split
  · exact untouched_nil rfl rfl
  · next layer hfound =>
    exact untouched_pager rfl (pagerLayer?_eq_some hfound) rfl fun op h => by cases h

theorem fail_untouched (s : State) (text : String) : Untouched s (s.fail text) :=
  untouched rfl rfl fun op h => by simp [fail, setStatus] at h

theorem onLoaded_untouched (s : State) (view : View) (scope : Option TaskScope)
    (rows : List Row) : Untouched s (s.onLoaded view scope rows) := by
  unfold onLoaded
  split
  · exact untouched_nil rfl rfl
  · simp only
    split
    · exact (requestLoad_untouched _ view).of_eq rfl rfl
    · exact untouched_nil rfl rfl

theorem onMonitorListed_untouched (s : State) (containers : List Container) :
    Untouched s (s.onMonitorListed containers) := by
  by_cases hview : s.view = .monitor
  · let s' : State := { s with loading := s.loading.set .monitor false }
    obtain ⟨tables, monitor, nextToken, cancelled, hrelisted⟩ := relisted_changes s' containers
    have hopens (op : Operation) : Cmd.act op ∉ (s'.relisted containers).2 := by
      intro h
      obtain ⟨id, token, hcmd⟩ := relist_opens h
      cases hcmd
    rcases onMonitorListed_cases containers hview with hlisted | ⟨stale, hlisted⟩
    · rw [hlisted]
      exact untouched (by rw [hrelisted]) (by rw [hrelisted]) hopens
    · have hload := requestLoad_untouched { (s'.relisted containers).1 with stale } .monitor
      rw [hlisted]
      refine (hload.of_eq (s := s) ?_ ?_).cmds fun op h => ?_
      · rw [hrelisted]
      · rw [hrelisted]
      · rcases List.mem_append.mp h with h | h
        · exact hopens op h
        · exact hload.acts op h
  · rw [onMonitorListed_left containers hview]
    exact untouched_nil rfl rfl

theorem onText_untouched (s : State) (title text : String) :
    Untouched s (s.onText title text) := by
  unfold onText
  split
  · exact untouched_nil rfl rfl
  · next hprompt =>
    obtain ⟨cancelled, layer, -, hopen⟩ := openPager_changes s .text
      (.new title text.toList s.config.logBuffer) none
    rw [hopen]
    exact ⟨rfl, fun p => ⟨nofun, fun h => absurd h (hprompt p)⟩, fun op h => by cases h⟩

theorem onSample_untouched (s : State) (sink : StatSink) (sample : Sample) (rest : Feed Sample) :
    Untouched s (s.onSample sink sample rest) := by
  cases sink with
  | pager id => exact onPagerText_untouched s id _ fun token op => nofun
  | monitor id =>
      simp only [onSample]
      split
      · exact untouched_nil rfl rfl
      · obtain ⟨tables, hupdate⟩ := updateMonitored_changes s id fun m =>
          { m with sample := some sample }
        rw [hupdate]
        exact untouched rfl rfl fun op h => by simp at h

theorem onStatsEnded_untouched (s : State) (sink : StatSink) (error : Option String) :
    Untouched s (s.onStatsEnded sink error) := by
  cases sink with
  | pager id => exact onPagerEnded_untouched s id error
  | monitor id =>
      simp only [onStatsEnded]
      split
      · exact untouched_nil rfl rfl
      · obtain ⟨tables, hupdate⟩ := updateMonitored_changes (s.unsubscribe id) id fun m =>
          { m with ended := some (error.getD "ended") }
        rw [hupdate]
        exact untouched_nil rfl rfl

theorem showEvent_untouched (s : State) (event : DaemonEvent) :
    Untouched s (s.showEvent event).noCmds := by
  unfold showEvent
  split
  · next layer hlayer =>
    split
    · exact untouched_pager rfl hlayer rfl fun op h => by cases h
    · exact untouched_nil rfl rfl
  · exact untouched_nil rfl rfl

theorem onEvent_untouched (s : State) (event : DaemonEvent) (rest : Feed DaemonEvent) :
    Untouched s (s.onEvent event rest) := by
  obtain ⟨debouncer, hnote⟩ := noteChange_changes s event
  have hshow := showEvent_untouched (s.noteChange event).1 event
  have hshown : Untouched s ((s.noteChange event).1.showEvent event).noCmds :=
    hshow.of_eq (by rw [hnote]) (by rw [hnote])
  refine ⟨hshown.view, hshown.prompt, fun op h => ?_⟩
  rcases List.mem_cons.mp h with h | h
  · cases h
  · obtain ⟨after, hcmd⟩ := mem_noteChange h
    cases hcmd

theorem onAlarm_untouched (s : State) (alarm : Alarm) : Untouched s (s.onAlarm alarm) := by
  cases alarm with
  | debounceElapsed =>
      simp only [onAlarm]
      split
      · exact (requestLoad_untouched _ _).of_eq rfl rfl
      · exact untouched_nil rfl rfl
  | statusExpired seq =>
      simp only [onAlarm]
      split <;> exact untouched_nil rfl rfl
  | monitorTick epoch =>
      simp only [onAlarm, onMonitorTick]
      split
      · refine (requestLoad_untouched s .monitor).cmds fun op h => ?_
        rcases List.mem_append.mp h with h | h
        · exact requestLoad_acts s .monitor op h
        · cases List.mem_singleton.mp h
      · exact untouched_nil rfl rfl

theorem onDone_untouched (s : State) (op : Operation) (detail : String) :
    Untouched s (s.onDone op detail) := by
  have hload := requestLoad_untouched (s.setStatus false (op.successMessage detail)).1 s.view
  refine (hload.of_eq (s := s) rfl rfl).cmds fun op' h => ?_
  rcases List.mem_append.mp h with h | h
  · cases List.mem_singleton.mp h
  · exact hload.acts op' h

/-- **Messages.** Only keys touch a prompt or the active view, and only keys change anything. -/
theorem step_untouched (s : State) (msg : Msg) (h : ∀ key, msg ≠ .key key) :
    Untouched s (s.step msg) := by
  cases msg with
  | key key => exact absurd rfl (h key)
  | resize width height => exact (resizeAll_untouched { s with width, height }).of_eq rfl rfl
  | summary summary => exact untouched_nil rfl rfl
  | summaryFailed error => exact untouched_nil rfl rfl
  | loaded view scope rows => exact onLoaded_untouched s view scope rows
  | loadFailed view error => exact (fail_untouched _ _).of_eq rfl rfl
  | monitorListed containers => exact onMonitorListed_untouched s containers
  | textLoaded title text => exact onText_untouched s title text
  | textFailed title error => exact fail_untouched s _
  | operationDone op detail => exact onDone_untouched s op detail
  | operationFailed op error => exact fail_untouched s _
  | logChunk pager text reader => exact onPagerText_untouched s pager text fun token op => nofun
  | logEnded pager error => exact onPagerEnded_untouched s pager error
  | statSample sink sample rest => exact onSample_untouched s sink sample rest
  | statsEnded sink error => exact onStatsEnded_untouched s sink error
  | daemonEvent event rest => exact onEvent_untouched s event rest
  | eventsEnded error => exact fail_untouched s _
  | alarm alarm => exact onAlarm_untouched s alarm

/-! ## Keys -/

theorem requestLoad_layer (s : State) (view : View) : (s.requestLoad view).1.layer = s.layer := by
  obtain ⟨loading, stale, hload⟩ := requestLoad_changes s view
  rw [hload]

/-- Another view comes without a prompt, and changes nothing. -/
theorem switchView_plain (s : State) (target : View) :
    (s.switchView target).1.layer = s.layer ∧ ∀ op, Cmd.act op ∉ (s.switchView target).2 := by
  unfold switchView
  by_cases hsame : target = s.view
  · rw [if_pos hsame]
    exact ⟨requestLoad_layer s target, requestLoad_acts s target⟩
  · rw [if_neg hsame]
    obtain ⟨tables, cancelled, monitor, monitorEpoch, hleave⟩ := leave_changes s
    simp only [hleave]
    by_cases hmonitor : target = .monitor
    · rw [if_pos hmonitor]
      unfold startMonitor
      refine ⟨requestLoad_layer _ _, fun op h => ?_⟩
      rcases List.mem_append.mp h with h | h
      · exact requestLoad_acts _ _ op h
      · cases List.mem_singleton.mp h
    · rw [if_neg hmonitor]
      exact ⟨requestLoad_layer _ _, requestLoad_acts _ _⟩

theorem enterTaskView_plain (s : State) (scope : TaskScope) :
    (s.enterTaskView scope).1.layer = s.layer ∧ ∀ op, Cmd.act op ∉ (s.enterTaskView scope).2 := by
  obtain ⟨previous, tables, -, henter⟩ := enterTaskView_changes s scope
  rw [henter]
  exact switchView_plain _ _

/-- What stands before the view in a state is no prompt. -/
def Unasked (s : State) : Prop := ∀ p, s.layer ≠ some (.prompt p)

theorem unasked_of_eq {s s' : State} (hlayer : s.layer = none) (heq : s'.layer = s.layer) :
    s'.Unasked := by
  intro p hp
  rw [heq, hlayer] at hp
  cases hp

theorem openPager_unasked (s : State) (kind : PagerKind) (pager : Pager) (token : Option Token) :
    (s.openPager kind pager token).Unasked := by
  intro p hp
  obtain ⟨cancelled, layer, -, hopen⟩ := openPager_changes s kind pager token
  rw [hopen] at hp
  cases hp

/-- What an action opens is a prompt on its target, and it changes nothing. -/
theorem ActionEffect.opens {s : State} {target : Target} {r : Step} (h : ActionEffect s target r)
    (hlayer : s.layer = none) :
    (∀ op, Cmd.act op ∉ r.2) ∧ ∀ p, r.1.layer = some (.prompt p) →
      r.1.view = s.view ∧ p.target = target ∧ p.Fits := by
  cases h with
  | nothing =>
      exact ⟨fun op h => by (cases h), fun p hp => absurd hp (unasked_of_eq hlayer rfl p)⟩
  | inspect kind title =>
      exact ⟨fun op h => by (simp at h), fun p hp => absurd hp (unasked_of_eq hlayer rfl p)⟩
  | logs =>
      exact ⟨fun op h => by (simp [openLogs] at h),
        fun p hp => absurd hp (openPager_unasked _ _ _ _ p)⟩
  | stats =>
      exact ⟨fun op h => by (simp [openStats] at h),
        fun p hp => absurd hp (openPager_unasked _ _ _ _ p)⟩
  | tasks scope hscope =>
      obtain ⟨hsame, hacts⟩ := enterTaskView_plain s scope
      exact ⟨hacts, fun p hp => absurd hp (unasked_of_eq hlayer hsame p)⟩
  | availability prompt =>
      refine ⟨fun op h => by (cases h), fun p hp => ?_⟩
      cases hp
      exact ⟨rfl, rfl, fun op htag => by cases htag⟩
  | scale prompt offered =>
      refine ⟨fun op h => by (cases h), fun p hp => ?_⟩
      cases hp
      exact ⟨rfl, rfl, fun op htag => by cases htag⟩
  | confirm action op hop =>
      refine ⟨fun op h => by (cases h), fun p hp => ?_⟩
      cases hp
      refine ⟨rfl, rfl, fun op' htag => ?_⟩
      cases htag
      exact Bindings.operation?_resource? hop

/-- An action on the view as a whole asks before it does something to many resources. -/
theorem runAction_whole {s : State} {action : Action} (h : Bindings.needsTarget action = false) :
    ∃ op, op.resource? = none ∧ s.runAction action {} none = (s.askFor op {}).noCmds := by
  cases action with
  | removeStopped => exact ⟨.removeStoppedContainers, rfl, rfl⟩
  | removeDangling => exact ⟨.removeDanglingImages, rfl, rfl⟩
  | prune => exact ⟨.prune, rfl, rfl⟩
  | _ => cases h

/-- A key that opens a prompt opens it on the selected row, or for what changes no single
resource. -/
theorem KeyEffect.opens {s : State} {r : Step} (h : KeyEffect s r) (hlayer : s.layer = none) :
    (∀ op, Cmd.act op ∉ r.2) ∧ ∀ p, r.1.layer = some (.prompt p) →
      r.1.view = s.view ∧ p.Fits ∧
        (p.Harmless ∨ ∃ row, s.selectedTarget? = some (p.target, row)) := by
  -- Most keys lead to no prompt.
  have hplain {r : Step} (hacts : ∀ op, Cmd.act op ∉ r.2) (hunasked : r.1.Unasked) :
      (∀ op, Cmd.act op ∉ r.2) ∧ ∀ p, r.1.layer = some (.prompt p) →
        r.1.view = s.view ∧ p.Fits ∧
          (p.Harmless ∨ ∃ row, s.selectedTarget? = some (p.target, row)) :=
    ⟨hacts, fun p hp => absurd hp (hunasked p)⟩
  cases h with
  | nothing => exact hplain (fun op h => by cases h) (unasked_of_eq hlayer rfl)
  | quit => exact hplain (fun op h => by cases h) (unasked_of_eq hlayer rfl)
  | help => exact hplain (fun op h => by cases h) (openPager_unasked _ _ _ _)
  | events => exact hplain (fun op h => by cases h) (openPager_unasked _ _ _ _)
  | info => exact hplain (fun op h => by simp at h) (unasked_of_eq hlayer rfl)
  | header =>
      exact hplain (fun op h => by cases h)
        (unasked_of_eq hlayer (by simp [resizeAll, noCmds, hlayer]))
  | switch target hlist =>
      obtain ⟨hsame, hacts⟩ := switchView_plain s target
      exact hplain hacts (unasked_of_eq hlayer hsame)
  | back =>
      unfold State.back
      split
      · obtain ⟨hsame, hacts⟩ := switchView_plain s s.previous
        exact hplain hacts (unasked_of_eq hlayer hsame)
      · exact hplain (fun op h => by cases h) (unasked_of_eq hlayer rfl)
  | move place => exact hplain (fun op h => by cases h) (unasked_of_eq hlayer rfl)
  | sort => exact hplain (fun op h => by cases h) (unasked_of_eq hlayer rfl)
  | filter =>
      refine ⟨fun op h => by (cases h), fun p hp => ?_⟩
      cases hp
      exact ⟨rfl, fun op htag => by (cases htag), Or.inl (Or.inl rfl)⟩
  | toggle hview =>
      exact hplain (requestLoad_acts _ _) (unasked_of_eq hlayer (requestLoad_layer _ _))
  | refresh =>
      exact hplain (requestLoad_acts _ _) (unasked_of_eq hlayer (requestLoad_layer _ _))
  | menu target row items hselected =>
      refine ⟨fun op h => by (cases h), fun p hp => ?_⟩
      cases hp
      exact ⟨rfl, fun op htag => by (cases htag), Or.inr ⟨row, hselected⟩⟩
  | onView action hwhole =>
      -- Nothing is selected, and nothing single is changed.
      obtain ⟨op, hop, hask⟩ := runAction_whole (s := s) hwhole
      rw [hask]
      refine ⟨fun op h => by (cases h), fun p hp => ?_⟩
      cases hp
      refine ⟨rfl, fun op' htag => ?_, Or.inl (Or.inr ⟨op, rfl, hop⟩)⟩
      cases htag
      exact Or.inl hop
  | onRow action target row hselected =>
      obtain ⟨hacts, hopens⟩ := (runAction_effect s action target (some row)).opens hlayer
      refine ⟨hacts, fun p hp => ?_⟩
      obtain ⟨hview, htarget, hfits⟩ := hopens p hp
      exact ⟨hview, hfits, Or.inr ⟨row, by rw [htarget]; exact hselected⟩⟩

/-- What an answered prompt leads to is an operation, or a prompt on the same target, or none. -/
theorem onOutcome_follows {s : State} (p : Prompt Followup Action) {key : Key}
    {outcome : Outcome Action} (hlayer : s.layer = none) (hpress : p.press key = .inl outcome) :
    (∀ op, Cmd.act op ∈ (s.onOutcome p.tag p.target outcome).2 →
      (s.onOutcome p.tag p.target outcome).2 = [.act op] ∧ p.Answers key op) ∧
    ∀ p', (s.onOutcome p.tag p.target outcome).1.layer = some (.prompt p') →
      (s.onOutcome p.tag p.target outcome).1.view = s.view ∧ p'.target = p.target ∧
        p.tag = .menu ∧ p'.Fits := by
  unfold onOutcome
  split
  · next action htag =>
    obtain ⟨hacts, hopens⟩ := (runAction_effect s action p.target none).opens hlayer
    refine ⟨fun op h => absurd h (hacts op), fun p' hp' => ?_⟩
    obtain ⟨hview, htarget, hfits⟩ := hopens p' hp'
    exact ⟨hview, htarget, htag, hfits⟩
  · next op htag =>
    refine ⟨fun op' h => ?_, fun p' hp' => absurd hp' (unasked_of_eq hlayer rfl p')⟩
    cases List.mem_singleton.mp h
    exact ⟨rfl, .confirmed op htag (Prompt.press_confirmed hpress)⟩
  · exact ⟨fun op h => by (cases h), fun p' hp' => absurd hp' (unasked_of_eq hlayer rfl p')⟩
  · next text htag =>
    obtain ⟨label, field, hquestion, htext, hkey⟩ := Prompt.press_value hpress
    unfold onScale
    split
    · next replicas hread =>
      refine ⟨fun op h => ?_, fun p' hp' => absurd hp' (unasked_of_eq hlayer rfl p')⟩
      cases List.mem_singleton.mp h
      exact ⟨rfl, .scaled label field replicas htag hquestion hkey (by rw [htext]; exact hread)⟩
    · refine ⟨fun op h => by (simp [fail, setStatus] at h), fun p' hp' => ?_⟩
      exact absurd hp' (unasked_of_eq hlayer rfl p')
  · next text htag =>
    obtain ⟨label, field, hquestion, htext, hkey⟩ := Prompt.press_value hpress
    unfold onAvailability
    split
    · next availability hread =>
      refine ⟨fun op h => ?_, fun p' hp' => absurd hp' (unasked_of_eq hlayer rfl p')⟩
      cases List.mem_singleton.mp h
      exact ⟨rfl, .available label field availability htag hquestion hkey
        (by rw [htext]; exact hread)⟩
    · refine ⟨fun op h => by (simp [fail, setStatus] at h), fun p' hp' => ?_⟩
      exact absurd hp' (unasked_of_eq hlayer rfl p')
  · exact ⟨fun op h => by (cases h), fun p' hp' => absurd hp' (unasked_of_eq hlayer rfl p')⟩

/-- What a key makes of a prompt: it stays, or it has its answer, or another one on the same target
takes the place of a menu. -/
theorem pressPrompt_follows (s : State) (p : Prompt Followup Action) (key : Key) :
    (∀ op, Cmd.act op ∈ (s.pressPrompt p key).2 →
      (s.pressPrompt p key).2 = [.act op] ∧ p.Answers key op) ∧
    ∀ p', (s.pressPrompt p key).1.layer = some (.prompt p') →
      (s.pressPrompt p key).1.view = s.view ∧ p'.target = p.target ∧
        (p'.tag = p.tag ∨ p.tag = .menu ∧ p'.Fits) := by
  unfold pressPrompt
  cases hpress : p.press key with
  | inl outcome =>
      obtain ⟨hacts, hprompts⟩ :=
        onOutcome_follows (s := { s with layer := none }) p rfl hpress
      refine ⟨hacts, fun p' hp' => ?_⟩
      obtain ⟨hview, htarget, hmenu, hfits⟩ := hprompts p' hp'
      exact ⟨hview, htarget, Or.inr ⟨hmenu, hfits⟩⟩
  | inr stays =>
      obtain ⟨htag, htarget⟩ := Prompt.press_stays hpress
      refine ⟨fun op h => by (cases h), fun p' hp' => ?_⟩
      cases hp'
      exact ⟨rfl, htarget, Or.inl htag⟩

theorem pressPager_unasked (s : State) (layer : PagerLayer) (key : Key) :
    (s.pressPager layer key).1.Unasked := by
  intro p hp
  simp only [pressPager, noCmds] at hp
  split at hp
  · next closes =>
    obtain ⟨cancelled, hclose⟩ := closeLayer_changes { s with
      layer := some (.pager { layer with pager := (layer.pager.press key).1 }) }
    rw [hclose] at hp
    cases hp
  · cases hp

/-! ## Runs -/

/-- The state after events. -/
def run (s : State) (events : List Event) : State :=
  events.foldl (fun s event => (s.react event).1) s

theorem run_append (s : State) (events more : List Event) :
    s.run (events ++ more) = (s.run events).run more :=
  List.foldl_append

theorem run_concat (s : State) (events : List Event) (event : Event) :
    s.run (events ++ [event]) = ((s.run events).react event).1 :=
  run_append s events [event]

/-- What comes of an event as far as prompts are concerned. -/
structure Follows (s : State) (event : Event) : Prop where
  acts : ∀ op, Cmd.act op ∈ (s.react event).2 → (s.react event).2 = [.act op] ∧
    ∃ key p, event.msg? = some (.key key) ∧ s.layer = some (.prompt p) ∧ p.Answers key op
  prompts : ∀ p', (s.react event).1.layer = some (.prompt p') →
    (s.react event).1.view = s.view ∧
    ((s.layer = none ∧ p'.Fits ∧
        (p'.Harmless ∨ ∃ row, s.selectedTarget? = some (p'.target, row))) ∨
      ∃ p, s.layer = some (.prompt p) ∧ p'.target = p.target ∧
        (p'.tag = p.tag ∨ p.tag = .menu ∧ p'.Fits))

theorem Untouched.follows {s : State} {event : Event} (h : Untouched s (s.react event)) :
    Follows s event := by
  refine ⟨fun op hop => absurd hop (h.acts op), fun p' hp' => ?_⟩
  exact ⟨h.view, Or.inr ⟨p', (h.prompt p').mp hp', rfl, Or.inl rfl⟩⟩

theorem begin_untouched (s : State) : Untouched s s.begin := by
  have hload := requestLoad_untouched s s.view
  refine hload.cmds fun op h => ?_
  rcases List.mem_append.mp h with h | h
  · simp at h
  · exact hload.acts op h

theorem press_follows {s : State} {event : Event} {key : Key} (hkey : event.msg? = some (.key key))
    (hreact : s.react event = s.press key) : Follows s event := by
  cases hlayer : s.layer with
  | none =>
      obtain ⟨hacts, hopens⟩ := (press_effect key hlayer).opens hlayer
      rw [← hreact] at hacts hopens
      refine ⟨fun op hop => absurd hop (hacts op), fun p' hp' => ?_⟩
      obtain ⟨hview, hfits, hrow⟩ := hopens p' hp'
      exact ⟨hview, Or.inl ⟨hlayer, hfits, hrow⟩⟩
  | some layer =>
      cases layer with
      | prompt p =>
          rw [press_prompt key hlayer] at hreact
          obtain ⟨hacts, hprompts⟩ := pressPrompt_follows s p key
          rw [← hreact] at hacts hprompts
          refine ⟨fun op hop => ?_, fun p' hp' => ?_⟩
          · obtain ⟨honly, hanswers⟩ := hacts op hop
            exact ⟨honly, key, p, hkey, hlayer, hanswers⟩
          · obtain ⟨hview, htarget, htag⟩ := hprompts p' hp'
            exact ⟨hview, Or.inr ⟨p, hlayer, htarget, htag⟩⟩
      | pager layer =>
          rw [press_pager key hlayer] at hreact
          refine ⟨fun op hop => ?_, fun p' hp' => ?_⟩
          · rw [hreact] at hop
            cases hop
          · rw [hreact] at hp'
            exact absurd hp' (pressPager_unasked s layer key p')

/-- **Events and prompts.** Every event does what `Follows` tells. -/
theorem react_follows (s : State) (event : Event) : Follows s event := by
  have hmsg (msg : Msg) (heq : event.msg? = some msg) (hreact : s.react event = s.step msg) :
      Follows s event := by
    cases msg with
    | key key => exact press_follows heq hreact
    | _ =>
        apply Untouched.follows
        rw [hreact]
        exact step_untouched s _ nofun
  cases event with
  | begin => exact (begin_untouched s).follows
  | input msg => exact hmsg msg rfl rfl
  | answer cmd number msg => exact hmsg msg rfl rfl

/-- The prompt `p`, or the menu before it, stands before a view. -/
def Stands (s : State) (view : View) (p : Prompt Followup Action) : Prop :=
  s.view = view ∧ ∃ q, s.layer = some (.prompt q) ∧ q.target = p.target ∧
    (q.tag = p.tag ∨ q.tag = .menu)

/-- After `events` a prompt stands before the view which was opened, or the menu before it was, on
the row that was selected then, and has stood there ever since. -/
def OpenedOn (s : State) (events : List Event) (p : Prompt Followup Action) : Prop :=
  ∃ earlier opening since row, events = earlier ++ opening :: since ∧
    (s.run earlier).layer = none ∧
    (s.run earlier).activeTable.selected? = some row ∧ row.id? = some p.target.id ∧
    ∀ mid, mid <+: since → (s.run (earlier ++ opening :: mid)).Stands (s.run earlier).view p

theorem selectedTarget?_id {s : State} {target : Target} {row : Row}
    (h : s.selectedTarget? = some (target, row)) :
    s.activeTable.selected? = some row ∧ row.id? = some target.id := by
  obtain ⟨row', hselected, hmap⟩ := Option.bind_eq_some_iff.mp h
  obtain ⟨id, hid, heq⟩ := Option.map_eq_some_iff.mp hmap
  cases heq
  exact ⟨hselected, hid⟩

theorem OpenedOn.opened {s : State} {events : List Event} {event : Event}
    {p : Prompt Followup Action} {row : Row} (hlayer : (s.run events).layer = none)
    (hselected : (s.run events).selectedTarget? = some (p.target, row))
    (hview : (s.run (events ++ [event])).view = (s.run events).view)
    (hprompt : (s.run (events ++ [event])).layer = some (.prompt p)) :
    OpenedOn s (events ++ [event]) p := by
  obtain ⟨hrow, hid⟩ := selectedTarget?_id hselected
  refine ⟨events, event, [], row, rfl, hlayer, hrow, hid, fun mid hmid => ?_⟩
  rw [List.prefix_nil.mp hmid]
  exact ⟨hview, p, hprompt, rfl, Or.inl rfl⟩

theorem OpenedOn.kept {s : State} {events : List Event} {event : Event}
    {p p' : Prompt Followup Action} (h : OpenedOn s events p)
    (hview : (s.run (events ++ [event])).view = (s.run events).view)
    (hprompt : (s.run (events ++ [event])).layer = some (.prompt p'))
    (htarget : p'.target = p.target) (htag : p'.tag = p.tag ∨ p.tag = .menu) :
    OpenedOn s (events ++ [event]) p' := by
  obtain ⟨earlier, opening, since, row, rfl, hlayer, hrow, hid, hstands⟩ := h
  rw [← htarget] at hid
  refine ⟨earlier, opening, since ++ [event], row, by simp, hlayer, hrow, hid, fun mid hmid => ?_⟩
  -- Up to the last event `p` or the menu before it stood there; after it `p'` stands there.
  rcases List.prefix_concat_iff.mp hmid with hlast | hbefore
  · have heq : earlier ++ opening :: mid = earlier ++ opening :: since ++ [event] := by
      rw [hlast]
      simp
    rw [heq]
    exact ⟨hview.trans (hstands since (List.prefix_refl _)).1, p', hprompt, rfl, Or.inl rfl⟩
  · obtain ⟨hsame, q, hq, hqtarget, hqtag⟩ := hstands mid hbefore
    refine ⟨hsame, q, hq, hqtarget.trans htarget.symm, ?_⟩
    -- What was a menu before is one still; what was `p` is `p'` unless `p` is a menu.
    rcases hqtag with hqtag | hqtag
    · rcases htag with htag | htag
      · exact Or.inl (hqtag.trans htag.symm)
      · exact Or.inr (hqtag.trans htag)
    · exact Or.inr hqtag

/-- Every prompt of a run fits its target, and is harmless or was opened on a selected row. -/
theorem run_prompts {s : State} (hbare : s.layer = none) (events : List Event) :
    ∀ p, (s.run events).layer = some (.prompt p) →
      p.Fits ∧ (p.Harmless ∨ OpenedOn s events p) := by
  induction events using List.reverseRecOn with
  | nil =>
      intro p hp
      rw [show s.run [] = s from rfl, hbare] at hp
      cases hp
  | append_singleton events event ih =>
      -- The prompt has been opened by the last event, or follows the one that stood there before.
      intro p' hp'
      have hlast := hp'
      rw [run_concat] at hlast
      obtain ⟨hview, hcases⟩ := (react_follows (s.run events) event).prompts p' hlast
      rw [← run_concat] at hview
      rcases hcases with ⟨hlayer, hfits, hrow⟩ | ⟨p, hp, htarget, htag⟩
      · refine ⟨hfits, hrow.imp_right fun ⟨row, hselected⟩ => ?_⟩
        exact .opened hlayer hselected hview hp'
      · obtain ⟨hfits, hopened⟩ := ih p hp
        rcases htag with htag | ⟨hmenu, hfits'⟩
        · refine ⟨fun op hop => ?_, ?_⟩
          · rw [htarget]
            exact hfits op (htag ▸ hop)
          · rcases hopened with hharmless | hopened
            · refine Or.inl ?_
              unfold Prompt.Harmless
              rw [htag]
              exact hharmless
            · exact Or.inr (hopened.kept hview hp' htarget (Or.inl htag))
        · refine ⟨hfits', Or.inr ?_⟩
          -- A menu is not harmless, so it was opened on a row.
          have hopened' : OpenedOn s events p := by
            refine hopened.resolve_left fun hharmless => ?_
            rcases hharmless with hfilter | ⟨op, hconfirm, -⟩
            · rw [hmenu] at hfilter
              cases hfilter
            · rw [hmenu] at hconfirm
              cases hconfirm
          exact hopened'.kept hview hp' htarget (Or.inr hmenu)

/-- **Operations.** Whatever has happened to a session, an operation is carried out only when a
key answers a prompt, and it is the only one then; a single resource it changes is the one that
was selected in the active view when the prompt, or the menu before it, was opened. -/
theorem act_answers_prompt (config : Config) (now : Int) (events : List Event) (event : Event)
    (op : Operation) (h : Cmd.act op ∈ (((State.new config now).run events).react event).2) :
    ∃ key p, event.msg? = some (.key key) ∧
      ((State.new config now).run events).layer = some (.prompt p) ∧
      (((State.new config now).run events).react event).2 = [.act op] ∧ p.Answers key op ∧
      ∀ id, op.resource? = some id →
        p.target.id = id ∧ OpenedOn (State.new config now) events p := by
  obtain ⟨honly, key, p, hkey, hlayer, hanswers⟩ :=
    (react_follows ((State.new config now).run events) event).acts op h
  refine ⟨key, p, hkey, hlayer, honly, hanswers, fun id hid => ?_⟩
  obtain ⟨hfits, hopened⟩ := run_prompts (s := .new config now) rfl events p hlayer
  exact ⟨hanswers.target_id hfits hid, hopened.resolve_left (hanswers.not_harmless hid)⟩

/-- The question whether to kill a container outlasts a reload in which the container is gone. -/
theorem kill_outlasts_reload : ∃ (events : List Event) (p : Prompt Followup Action),
    events =
      [.begin, .input (.loaded .containers none [.container { id := "f00", name := "web" }]),
        .input (.key { code := .char 'k', control := true }),
        .input (.loaded .containers none [.container { id := "bad", name := "db" }])] ∧
    ((State.new {} 0).run events).layer = some (.prompt p) ∧ p.target.id = "f00" ∧
    OpenedOn (State.new {} 0) events p := by
  have hact : Cmd.act (.killContainer "f00") ∈ (((State.new {} 0).run
      [.begin, .input (.loaded .containers none [.container { id := "f00", name := "web" }]),
        .input (.key { code := .char 'k', control := true }),
        .input (.loaded .containers none [.container { id := "bad", name := "db" }])]).react
      (.input (.key { code := .char 'y' }))).2 :=
    List.mem_singleton.mpr rfl
  obtain ⟨key, p, -, hlayer, -, -, hrow⟩ := act_answers_prompt {} 0 _ _ _ hact
  obtain ⟨htarget, hopened⟩ := hrow "f00" rfl
  exact ⟨_, p, rfl, hlayer, htarget, hopened⟩

end State

end Dockboard
