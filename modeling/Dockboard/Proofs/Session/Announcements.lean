import Dockboard.Proofs.Session.Changes
import Dockboard.Proofs.Session.Keys
import Dockboard.Proofs.Session.Run

set_option autoImplicit false

/-! # What timers announce

Apart from the ticks of the monitor, timers announce two things: that a status message has been
shown long enough, and that changes have been gathered for a while. What a session has to announce
is touched by few events. Every other one leaves it alone, by whatever way it goes about its work.

    s.notice            the status message, its number, and the changes that are gathered
    Mute s r            a step leaves the notice alone, and starts no timer of one
    Announces s msg? r  what an event that brings `msg?` does to the notice
-/

namespace Dockboard

open Dockboard.Stream

/-- Whether a command is a timer of a status message or of changes that are gathered. -/
def Cmd.announces : Cmd → Bool
  | .timer _ (.statusExpired _) | .timer _ .debounceElapsed => true
  | _ => false

/-- Whether a message reports a change, or brings what such a timer announces. -/
def Msg.isAnnouncement : Msg → Bool
  | .daemonEvent _ _ | .alarm (.statusExpired _) | .alarm .debounceElapsed => true
  | _ => false

/-- What a session has to announce, later on. -/
structure Notice where
  status : Option Status
  statusSeq : Nat
  debouncer : Debouncer

namespace State

/-- What a session has to announce, later on. -/
def notice (s : State) : Notice where
  status := s.status
  statusSeq := s.statusSeq
  debouncer := s.debouncer

/-! ## What leaves it alone -/

/-- A step leaves the notice alone, and starts no timer of one. -/
structure Mute (s : State) (r : Step) : Prop where
  notice : r.1.notice = s.notice
  cmds : ∀ cmd ∈ r.2, cmd.announces = false

namespace Mute

variable {s s' : State} {r : Step}

theorem noCmds (h : s'.notice = s.notice) : Mute s s'.noCmds := ⟨h, fun _ hcmd => by cases hcmd⟩

theorem issue {cmd : Cmd} (h : s'.notice = s.notice) (hcmd : cmd.announces = false) :
    Mute s (s', [cmd]) :=
  ⟨h, List.forall_mem_singleton.mpr hcmd⟩

theorem after (h : Mute s' r) (hsame : s'.notice = s.notice) : Mute s r :=
  ⟨h.notice.trans hsame, h.cmds⟩

theorem append {cmds : List Cmd} (h : Mute s r) (hcmds : ∀ cmd ∈ cmds, cmd.announces = false) :
    Mute s (r.1, r.2 ++ cmds) :=
  ⟨h.notice, List.forall_mem_append.mpr ⟨h.cmds, hcmds⟩⟩

theorem prepend {cmds : List Cmd} (h : Mute s r) (hcmds : ∀ cmd ∈ cmds, cmd.announces = false) :
    Mute s (r.1, cmds ++ r.2) :=
  ⟨h.notice, List.forall_mem_append.mpr ⟨hcmds, h.cmds⟩⟩

theorem status (h : Mute s r) : r.1.status = s.status := congrArg Notice.status h.notice

theorem statusSeq (h : Mute s r) : r.1.statusSeq = s.statusSeq := congrArg Notice.statusSeq h.notice

theorem debouncer (h : Mute s r) : r.1.debouncer = s.debouncer := congrArg Notice.debouncer h.notice

end Mute

theorem loadCmd_announces (s : State) (view : View) : (s.loadCmd view).announces = false := by
  rcases loadCmd_cases s view with ⟨-, hload⟩ | ⟨-, scope, hload⟩ <;> rw [hload] <;> rfl

theorem requestLoad_mute (s : State) (view : View) : Mute s (s.requestLoad view) := by
  obtain ⟨loading, stale, hload⟩ := requestLoad_changes s view
  constructor
  · rw [hload]
    rfl
  · intro cmd hcmd
    rw [mem_requestLoad hcmd]
    exact loadCmd_announces s view

theorem switchView_mute (s : State) (target : View) : Mute s (s.switchView target) := by
  obtain ⟨⟨monitorEpoch, loading, stale, hswitch⟩, hcmds⟩ := switchView_changes s target
  constructor
  · rw [hswitch]
    split
    · obtain ⟨tables, cancelled, hstop⟩ := stopMonitor_changes s
      rw [hstop]
      rfl
    · rfl
  · intro cmd hcmd
    rcases hcmds cmd hcmd with ⟨s', rfl⟩ | ⟨after, epoch, rfl⟩
    · exact loadCmd_announces s' target
    · rfl

theorem enterTaskView_mute (s : State) (scope : TaskScope) : Mute s (s.enterTaskView scope) := by
  obtain ⟨previous, tables, -, henter⟩ := enterTaskView_changes s scope
  rw [henter]
  exact (switchView_mute _ scope.view).after rfl

theorem openPager_notice (s : State) (kind : PagerKind) (pager : Pager) (token : Option Token) :
    (s.openPager kind pager token).notice = s.notice := by
  obtain ⟨cancelled, layer, -, hopen⟩ := openPager_changes s kind pager token
  rw [hopen]
  rfl

theorem closeLayer_notice (s : State) : s.closeLayer.notice = s.notice := by
  obtain ⟨cancelled, hclose⟩ := closeLayer_changes s
  rw [hclose]
  rfl

theorem ActionEffect.mute {s : State} {target : Target} {r : Step} (h : ActionEffect s target r) :
    Mute s r := by
  cases h with
  | nothing => exact .noCmds rfl
  | inspect kind title => exact .issue rfl rfl
  | logs => exact .issue (openPager_notice s.freshToken.2 _ _ _) rfl
  | stats => exact .issue (openPager_notice s.freshToken.2 _ _ _) rfl
  | tasks scope hscope => exact enterTaskView_mute s scope
  | availability prompt => exact .noCmds rfl
  | scale prompt offered => exact .noCmds rfl
  | confirm action op hop => exact .noCmds rfl

theorem KeyEffect.mute {s : State} {r : Step} (h : KeyEffect s r) : Mute s r := by
  cases h with
  | nothing => exact .noCmds rfl
  | quit => exact .noCmds rfl
  | help => exact .noCmds (openPager_notice s _ _ _)
  | events => exact .noCmds (openPager_notice s _ _ _)
  | info => exact .issue rfl rfl
  | header => exact .noCmds rfl
  | switch target hlist => exact switchView_mute s target
  | back =>
      unfold State.back
      split
      · exact switchView_mute s s.previous
      · exact .noCmds rfl
  | move place => exact .noCmds rfl
  | sort => exact .noCmds rfl
  | filter => exact .noCmds rfl
  | toggle hview => exact (requestLoad_mute _ s.view).after rfl
  | refresh => exact requestLoad_mute s s.view
  | menu target row items hselected => exact .noCmds rfl
  | onView action hwhole => exact (runAction_effect s action _ _).mute
  | onRow action target row hselected => exact (runAction_effect s action _ _).mute

theorem pressPager_mute (s : State) (layer : PagerLayer) (key : Key) :
    Mute s (s.pressPager layer key) := by
  simp only [pressPager]
  split
  · exact .noCmds (closeLayer_notice _)
  · exact .noCmds rfl

theorem onLoaded_mute (s : State) (view : View) (scope : Option TaskScope) (rows : List Row) :
    Mute s (s.onLoaded view scope rows) := by
  obtain ⟨⟨tables, loading, stale, hloaded⟩, hcmds⟩ := onLoaded_changes s view scope rows
  constructor
  · rw [hloaded]
    rfl
  · intro cmd hcmd
    rw [hcmds cmd hcmd]
    exact loadCmd_announces s view

theorem onMonitorListed_mute (s : State) (containers : List Container) :
    Mute s (s.onMonitorListed containers) := by
  obtain ⟨⟨tables, loading, stale, monitor, nextToken, cancelled, hlisted⟩, hcmds⟩ :=
    onMonitorListed_changes s containers
  constructor
  · rw [hlisted]
    rfl
  · intro cmd hcmd
    rcases hcmds cmd hcmd with rfl | ⟨id, token, rfl⟩ <;> rfl

theorem onMonitorTick_mute (s : State) (epoch : Nat) : Mute s (s.onMonitorTick epoch) := by
  unfold onMonitorTick
  split
  · exact (requestLoad_mute s .monitor).append (List.forall_mem_singleton.mpr rfl)
  · exact .noCmds rfl

theorem onText_mute (s : State) (title text : String) : Mute s (s.onText title text) := by
  unfold onText
  split
  · exact .noCmds rfl
  · exact .noCmds (openPager_notice s _ _ _)

theorem onPagerText_mute (s : State) (id : Nat) (text : List Char) {next : Token → Cmd}
    (hnext : ∀ token, (next token).announces = false) : Mute s (s.onPagerText id text next) := by
  obtain ⟨⟨layer, htext⟩, hcmds⟩ := onPagerText_changes s id text next
  constructor
  · rw [htext]
    rfl
  · intro cmd hcmd
    obtain ⟨token, rfl⟩ := hcmds cmd hcmd
    exact hnext token

theorem onPagerEnded_mute (s : State) (id : Nat) (error : Option String) :
    Mute s (s.onPagerEnded id error) := by
  obtain ⟨layer, hended⟩ := onPagerEnded_changes s id error
  rw [hended]
  exact .noCmds rfl

theorem onSample_mute (s : State) (sink : StatSink) (sample : Sample) (rest : Feed Sample) :
    Mute s (s.onSample sink sample rest) := by
  cases sink with
  | pager id => exact onPagerText_mute s id _ fun _ => rfl
  | monitor id =>
      obtain ⟨⟨tables, hsample⟩, hcmds⟩ := onSample_changes s id sample rest
      constructor
      · rw [hsample]
        rfl
      · intro cmd hcmd
        obtain ⟨token, rfl⟩ := hcmds cmd hcmd
        rfl

theorem onStatsEnded_mute (s : State) (sink : StatSink) (error : Option String) :
    Mute s (s.onStatsEnded sink error) := by
  cases sink with
  | pager id => exact onPagerEnded_mute s id error
  | monitor id =>
      obtain ⟨⟨tables, monitor, hended⟩, hcmds⟩ := onStatsEnded_changes s id error
      constructor
      · rw [hended]
        rfl
      · rw [hcmds]
        exact fun cmd hcmd => by cases hcmd

theorem begin_mute (s : State) : Mute s s.begin := by
  refine (requestLoad_mute s s.view).prepend fun cmd hcmd => ?_
  simp only [List.mem_cons, List.not_mem_nil, or_false] at hcmd
  rcases hcmd with rfl | rfl <;> rfl

/-! ## What is done about it -/

/-- A status message with a new number is shown, its timer is started, and nothing else is done
about the notice. -/
structure Tells (s : State) (r : Step) : Prop where
  shown : ∃ text isError, r.1.status = some { text, isError, seq := s.statusSeq + 1 }
  statusSeq : r.1.statusSeq = s.statusSeq + 1
  debouncer : r.1.debouncer = s.debouncer
  cmds : ∃ after rest, r.2 = .timer after (.statusExpired (s.statusSeq + 1)) :: rest ∧
    ∀ cmd ∈ rest, cmd.announces = false

theorem fail_tells (s : State) (text : String) : Tells s (s.fail text) :=
  ⟨⟨text, true, rfl⟩, rfl, rfl, _, [], rfl, fun _ hcmd => by cases hcmd⟩

theorem onDone_tells (s : State) (op : Operation) (detail : String) :
    Tells s (s.onDone op detail) := by
  have hload := requestLoad_mute (s.setStatus false (op.successMessage detail)).1 s.view
  exact ⟨⟨_, false, hload.status⟩, hload.statusSeq, hload.debouncer, _, _, rfl, hload.cmds⟩

/-- What an event does to the notice. A report of a change, and what a timer announces, have an
effect of their own. -/
inductive Announces (s : State) : Option Msg → Step → Prop where
  | mute {msg? : Option Msg} {r : Step} (hplain : msg?.all (!·.isAnnouncement) = true)
      (hmute : Mute s r) : Announces s msg? r
  | tells {msg? : Option Msg} {r : Step} (hplain : msg?.all (!·.isAnnouncement) = true)
      (htells : Tells s r) : Announces s msg? r
  /-- A key where only the view is shown removes the status message. -/
  | removes (key : Key) {r : Step} (hlayer : s.layer = none)
      (hmute : Mute { s with status := none } r) : Announces s (some (.key key)) r
  | reported (event : DaemonEvent) (rest : Feed DaemonEvent) :
      Announces s (some (.daemonEvent event rest)) (s.onEvent event rest)
  | flushed : Announces s (some (.alarm .debounceElapsed)) (s.onAlarm .debounceElapsed)
  | expired (seq : Nat) :
      Announces s (some (.alarm (.statusExpired seq))) (s.onAlarm (.statusExpired seq))

theorem onOutcome_announces (s : State) (tag : Followup) (target : Target)
    (outcome : Outcome Action) :
    Mute s (s.onOutcome tag target outcome) ∨ Tells s (s.onOutcome tag target outcome) := by
  unfold onOutcome
  split
  · exact Or.inl (runAction_effect s _ target none).mute
  · exact Or.inl (.issue rfl rfl)
  · exact Or.inl (.noCmds rfl)
  · unfold onScale
    split
    · exact Or.inl (.issue rfl rfl)
    · exact Or.inr (fail_tells s _)
  · unfold onAvailability
    split
    · exact Or.inl (.issue rfl rfl)
    · exact Or.inr (fail_tells s _)
  · exact Or.inl (.noCmds rfl)

theorem press_announces (s : State) (key : Key) :
    Announces s (some (.key key)) (s.press key) := by
  cases hlayer : s.layer with
  | none => exact .removes key hlayer (press_effect key hlayer).mute
  | some layer =>
      cases layer with
      | prompt p =>
          rw [press_prompt key hlayer]
          unfold pressPrompt
          split
          · -- The prompt is gone before its answer is acted upon.
            rcases onOutcome_announces { s with layer := none } p.tag p.target _ with h | h
            · exact .mute rfl (h.after rfl)
            · exact .tells rfl ⟨h.shown, h.statusSeq, h.debouncer, h.cmds⟩
          · exact .mute rfl (.noCmds rfl)
      | pager layer =>
          rw [press_pager key hlayer]
          exact .mute rfl (pressPager_mute s layer key)

theorem step_announces (s : State) (msg : Msg) : Announces s (some msg) (s.step msg) := by
  cases msg with
  | key key => exact press_announces s key
  | resize width height => exact .mute rfl (.noCmds rfl)
  | summary summary => exact .mute rfl (.noCmds rfl)
  | summaryFailed error => exact .mute rfl (.noCmds rfl)
  | loaded view scope rows => exact .mute rfl (onLoaded_mute s view scope rows)
  | loadFailed view error =>
      exact .tells rfl ⟨⟨_, true, rfl⟩, rfl, rfl, _, [], rfl, fun _ hcmd => by cases hcmd⟩
  | monitorListed containers => exact .mute rfl (onMonitorListed_mute s containers)
  | textLoaded title text => exact .mute rfl (onText_mute s title text)
  | textFailed title error => exact .tells rfl (fail_tells s _)
  | operationDone op detail => exact .tells rfl (onDone_tells s op detail)
  | operationFailed op error => exact .tells rfl (fail_tells s _)
  | logChunk pager text reader => exact .mute rfl (onPagerText_mute s pager text fun _ => rfl)
  | logEnded pager error => exact .mute rfl (onPagerEnded_mute s pager error)
  | statSample sink sample rest => exact .mute rfl (onSample_mute s sink sample rest)
  | statsEnded sink error => exact .mute rfl (onStatsEnded_mute s sink error)
  | daemonEvent event rest => exact .reported event rest
  | eventsEnded error => exact .tells rfl (fail_tells s _)
  | alarm alarm =>
      cases alarm with
      | debounceElapsed => exact .flushed
      | statusExpired seq => exact .expired seq
      | monitorTick epoch => exact .mute rfl (onMonitorTick_mute s epoch)

/-- **Events and announcements.** -/
theorem react_announces (s : State) (event : Event) : Announces s event.msg? (s.react event) := by
  cases event with
  | begin => exact .mute rfl (begin_mute s)
  | input msg => exact step_announces s msg
  | answer cmd number msg => exact step_announces s msg

end State

end Dockboard
