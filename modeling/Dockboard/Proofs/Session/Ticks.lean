import Dockboard.Proofs.Session.Reactions

set_option autoImplicit false

/-! # Ticks of the monitor

While the monitor is shown it is refreshed by a chain of timers, each of which is started when the
one before it has fired. Timers cannot be cancelled, so those of earlier sessions of the monitor
may fire at any later time. They carry the number of their session, which is another one whenever
the monitor has been entered or left.

    Cmd.isTick epoch      a command is a timer of one session of the monitor
    Turn s msg? r         the monitor stays as it is, is entered or left, or its chain goes on
    Ticking x             one timer of the session is outstanding, if the monitor is shown
-/

namespace Dockboard

open Dockboard.Stream

/-! ## Timers of the monitor -/

/-- Whether a command is a timer of a session of the monitor. -/
def Cmd.isTick (epoch : Nat) : Cmd → Bool
  | .timer _ (.monitorTick other) => other == epoch
  | _ => false

theorem Cmd.isTick_of_isIdle {cmd : Cmd} (h : cmd.isIdle = true) (epoch : Nat) :
    cmd.isTick epoch = false := by
  unfold isTick
  split
  · cases h
  · rfl

theorem Cmd.isTick_of_stream? {cmd : Cmd} {stream : Nat × Token} (h : cmd.stream? = some stream)
    (epoch : Nat) : cmd.isTick epoch = false := by
  unfold isTick
  split
  · cases h
  · rfl

theorem Cmd.Yields.isTick_iff {cmd : Cmd} {msg : Msg} (h : cmd.Yields msg) (epoch : Nat) :
    cmd.isTick epoch = true ↔ msg = .alarm (.monitorTick epoch) := by
  cases h
  case timer after alarm => cases alarm <;> simp [Cmd.isTick]
  all_goals simp [Cmd.isTick]

/-- None of the commands is a timer of the monitor. -/
def Tickless (cmds : List Cmd) : Prop := ∀ epoch, cmds.countP (Cmd.isTick epoch) = 0

theorem tickless {cmds : List Cmd} (h : ∀ cmd ∈ cmds, ∀ epoch, cmd.isTick epoch = false) :
    Tickless cmds := by
  intro epoch
  refine List.countP_eq_zero.mpr fun cmd hcmd => ?_
  rw [h cmd hcmd epoch]
  exact Bool.false_ne_true

theorem tickless_idle {cmds : List Cmd} (h : ∀ cmd ∈ cmds, cmd.isIdle = true) : Tickless cmds :=
  tickless fun cmd hcmd => Cmd.isTick_of_isIdle (h cmd hcmd)

theorem Tickless.append {cmds more : List Cmd} (h : Tickless cmds) (h' : Tickless more) :
    Tickless (cmds ++ more) := by
  intro epoch
  rw [List.countP_append, h epoch, h' epoch]

namespace State

theorem loadCmd_isTick (s : State) (view : View) (epoch : Nat) :
    (s.loadCmd view).isTick epoch = false := by
  rcases loadCmd_cases s view with ⟨-, hcmd⟩ | ⟨-, scope, hcmd⟩
  · rw [hcmd]
    rfl
  · rw [hcmd]
    rfl

theorem requestLoad_tickless (s : State) (view : View) : Tickless (s.requestLoad view).2 := by
  refine tickless fun cmd hcmd epoch => ?_
  rw [mem_requestLoad hcmd]
  exact loadCmd_isTick s view epoch

/-- After commands that are none of its timers, one timer of a session of the monitor. -/
theorem countP_monitorTimer {s : State} {cmds : List Cmd} (h : Tickless cmds) (epoch : Nat) :
    (cmds ++ [s.monitorTimer]).countP (Cmd.isTick epoch) =
      if epoch = s.monitorEpoch then 1 else 0 := by
  rw [List.countP_append, h epoch, Nat.zero_add]
  by_cases hepoch : epoch = s.monitorEpoch
  · simp [monitorTimer, Cmd.isTick, hepoch]
  · have hother : s.monitorEpoch ≠ epoch := fun heq => hepoch heq.symm
    simp [monitorTimer, Cmd.isTick, hepoch, hother]

/-! ## What a step does to the chain -/

/-- What a step does to the session of the monitor and its chain of timers. -/
inductive Turn (s : State) (msg? : Option Msg) (r : Step) : Prop where
  | stays (hview : r.1.view = .monitor ↔ s.view = .monitor)
      (hepoch : r.1.monitorEpoch = s.monitorEpoch) (hcmds : Tickless r.2)
      (hmsg : s.view = .monitor → msg? ≠ some (.alarm (.monitorTick s.monitorEpoch)))
  | enters (hview : r.1.view = .monitor) (hepoch : r.1.monitorEpoch = s.monitorEpoch + 1)
      (hcmds : ∀ epoch, r.2.countP (Cmd.isTick epoch) =
        if epoch = r.1.monitorEpoch then 1 else 0)
  | leaves (hview : r.1.view ≠ .monitor) (hepoch : r.1.monitorEpoch = s.monitorEpoch + 1)
      (hcmds : Tickless r.2)
  | ticks (hbefore : s.view = .monitor) (hview : r.1.view = .monitor)
      (hepoch : r.1.monitorEpoch = s.monitorEpoch)
      (hcmds : ∀ epoch, r.2.countP (Cmd.isTick epoch) =
        if epoch = s.monitorEpoch then 1 else 0)
      (hmsg : msg? = some (.alarm (.monitorTick s.monitorEpoch)))

theorem Turn.after {s s' : State} {msg? : Option Msg} {r : Step} (h : Turn s' msg? r)
    (haside : Aside s s') : Turn s msg? r := by
  have hsame := haside.view
  have hepochs := haside.monitorEpoch
  cases h with
  | stays hview hepoch hcmds hmsg =>
      rw [hsame] at hview hmsg
      rw [hepochs] at hepoch hmsg
      exact .stays hview hepoch hcmds hmsg
  | enters hview hepoch hcmds =>
      rw [hepochs] at hepoch
      exact .enters hview hepoch hcmds
  | leaves hview hepoch hcmds =>
      rw [hepochs] at hepoch
      exact .leaves hview hepoch hcmds
  | ticks hbefore hview hepoch hcmds hmsg =>
      rw [hsame] at hbefore
      rw [hepochs] at hepoch hcmds hmsg
      exact .ticks hbefore hview hepoch hcmds hmsg

/-- Most steps leave the session of the monitor as it is. -/
theorem Turn.keeps {s : State} {msg? : Option Msg} {r : Step} (hview : r.1.view = s.view)
    (hepoch : r.1.monitorEpoch = s.monitorEpoch) (hcmds : Tickless r.2)
    (hmsg : ∀ epoch, msg? ≠ some (.alarm (.monitorTick epoch))) : Turn s msg? r :=
  .stays (by rw [hview]) hepoch hcmds fun _ => hmsg _

section

variable {s : State} {msg? : Option Msg} (hmsg : ∀ epoch, msg? ≠ some (.alarm (.monitorTick epoch)))
include hmsg

theorem requestLoad_turn (view : View) : Turn s msg? (s.requestLoad view) := by
  obtain ⟨loading, stale, hload⟩ := requestLoad_changes s view
  exact .keeps (by rw [hload]) (by rw [hload]) (requestLoad_tickless s view) hmsg

theorem switchView_turn (target : View) : Turn s msg? (s.switchView target) := by
  unfold switchView
  by_cases hsame : target = s.view
  · rw [if_pos hsame]
    exact requestLoad_turn hmsg target
  · rw [if_neg hsame]
    by_cases hleave : s.view = .monitor
    · have hother : target ≠ .monitor := fun h => hsame (h.trans hleave.symm)
      obtain ⟨tables, cancelled, hstop⟩ := stopMonitor_changes s
      simp only [hleave, if_true, hother, if_false, hstop]
      obtain ⟨loading, stale, hload⟩ := requestLoad_changes
        { s with
          tables, cancelled, monitor := [], monitorEpoch := s.monitorEpoch + 1, view := target }
        target
      refine .leaves ?_ ?_ (requestLoad_tickless _ _)
      · rw [hload]
        exact hother
      · rw [hload]
    · simp only [hleave, if_false]
      by_cases hmonitor : target = .monitor
      · simp only [hmonitor, if_true]
        obtain ⟨loading, stale, hload⟩ := requestLoad_changes
          { s with view := .monitor, monitorEpoch := s.monitorEpoch + 1 } .monitor
        refine .enters ?_ ?_ (countP_monitorTimer (requestLoad_tickless _ _))
        · simp only [startMonitor, hload]
        · simp only [startMonitor, hload]
      · simp only [hmonitor, if_false]
        obtain ⟨loading, stale, hload⟩ := requestLoad_changes { s with view := target } target
        refine .stays ?_ ?_ (requestLoad_tickless _ _) fun _ => hmsg _
        · rw [hload]
          exact iff_of_false hmonitor hleave
        · rw [hload]

theorem enterTaskView_turn (scope : TaskScope) : Turn s msg? (s.enterTaskView scope) := by
  obtain ⟨previous, tables, -, henter⟩ := enterTaskView_changes s scope
  rw [henter]
  -- The session of the monitor is the same before the view is changed.
  cases switchView_turn hmsg scope.view with
  | stays hview hepoch hcmds hmsg => exact .stays hview hepoch hcmds hmsg
  | enters hview hepoch hcmds => exact .enters hview hepoch hcmds
  | leaves hview hepoch hcmds => exact .leaves hview hepoch hcmds
  | ticks hbefore hview hepoch hcmds hmsg => exact .ticks hbefore hview hepoch hcmds hmsg

theorem openPager_turn {s' : State} {kind : PagerKind} {pager : Pager} {token : Option Token}
    {cmds : List Cmd} (hview : s'.view = s.view) (hepoch : s'.monitorEpoch = s.monitorEpoch)
    (hcmds : Tickless cmds) : Turn s msg? (s'.openPager kind pager token, cmds) := by
  obtain ⟨cancelled, layer, -, hopen⟩ := openPager_changes s' kind pager token
  refine .keeps ?_ ?_ hcmds hmsg
  · rw [hopen]
    exact hview
  · rw [hopen]
    exact hepoch

theorem Move.turn {r : Step} (h : Move s r) : Turn s msg? r := by
  cases h with
  | nothing cmds hidle => exact .keeps rfl rfl (tickless_idle hidle) hmsg
  | load first hidle =>
      obtain ⟨loading, stale, hload⟩ := requestLoad_changes s s.view
      exact .keeps (by rw [hload]) (by rw [hload])
        ((tickless_idle hidle).append (requestLoad_tickless s _)) hmsg
  | toggle hview =>
      obtain ⟨loading, stale, hload⟩ := requestLoad_changes { s with showAll := !s.showAll } s.view
      exact .keeps (by rw [hload]) (by rw [hload]) (requestLoad_tickless _ _) hmsg
  | switch target => exact switchView_turn hmsg target
  | tasks scope => exact enterTaskView_turn hmsg scope
  | opened kind pager hkind => exact openPager_turn hmsg rfl rfl (tickless_idle idle_nil)
  | logs target => exact openPager_turn hmsg rfl rfl (tickless fun cmd hcmd epoch => by
      rw [List.mem_singleton.mp hcmd]
      rfl)
  | stats target => exact openPager_turn hmsg rfl rfl (tickless fun cmd hcmd epoch => by
      rw [List.mem_singleton.mp hcmd]
      rfl)
  | closed =>
      obtain ⟨cancelled, hclose⟩ := closeLayer_changes s
      refine .keeps ?_ ?_ (tickless_idle idle_nil) hmsg
      · show s.closeLayer.view = s.view
        rw [hclose]
      · show s.closeLayer.monitorEpoch = s.monitorEpoch
        rw [hclose]

end

theorem onMonitorTick_turn (s : State) (epoch : Nat) :
    Turn s (some (.alarm (.monitorTick epoch))) (s.onMonitorTick epoch) := by
  unfold onMonitorTick
  split
  · next hcurrent =>
    obtain ⟨loading, stale, hload⟩ := requestLoad_changes s .monitor
    have hcount := countP_monitorTimer (s := (s.requestLoad .monitor).1)
      (requestLoad_tickless s .monitor)
    simp only [hload] at hcount ⊢
    exact .ticks hcurrent.1 hcurrent.1 rfl hcount (by rw [hcurrent.2])
  · next hother =>
    refine .stays Iff.rfl rfl (tickless_idle idle_nil) fun hview hmsg => ?_
    cases hmsg
    exact hother ⟨hview, rfl⟩

/-- **Events and the chain.** -/
theorem Reaction.turn {s : State} {msg? : Option Msg} {r : Step} (h : Reaction s msg? r) :
    Turn s msg? r := by
  have hloads (s' : State) (view : View) (cmd : Cmd) (hcmd : cmd = s'.loadCmd view) (epoch : Nat) :
      cmd.isTick epoch = false := by
    rw [hcmd]
    exact loadCmd_isTick s' view epoch
  cases h with
  | calm hcalm haside hmove =>
      refine (hmove.turn fun epoch heq => ?_).after haside
      have hreport := hcalm _ heq
      cases hreport
  | loaded view scope rows =>
      obtain ⟨⟨tables, loading, stale, hloaded⟩, hcmds⟩ := onLoaded_changes s view scope rows
      exact .keeps (by rw [hloaded]) (by rw [hloaded])
        (tickless fun cmd hcmd => hloads s view cmd (hcmds cmd hcmd)) nofun
  | loadFailed view error => exact .keeps rfl rfl (tickless_idle (idle_singleton rfl)) nofun
  | listed containers =>
      obtain ⟨⟨tables, loading, stale, monitor, nextToken, cancelled, hlisted⟩, hcmds⟩ :=
        onMonitorListed_changes s containers
      refine .keeps (by rw [hlisted]) (by rw [hlisted]) (tickless fun cmd hcmd epoch => ?_) nofun
      rcases hcmds cmd hcmd with rfl | ⟨id, token, rfl⟩
      · rfl
      · rfl
  | @text msg id text next hmsg hnext =>
      obtain ⟨⟨layer, htext⟩, hcmds⟩ := onPagerText_changes s id text next
      refine .keeps (by rw [htext]) (by rw [htext]) (tickless fun cmd hcmd epoch => ?_)
        fun epoch heq => ?_
      · obtain ⟨token, rfl⟩ := hcmds cmd hcmd
        exact Cmd.isTick_of_stream? (hnext token) epoch
      · cases heq
        cases hmsg
  | @ended msg id error hmsg =>
      obtain ⟨layer, hended⟩ := onPagerEnded_changes s id error
      rw [hended]
      refine .keeps rfl rfl (tickless_idle idle_nil) fun epoch heq => ?_
      cases heq
      cases hmsg
  | sample id sample rest =>
      obtain ⟨⟨tables, hsample⟩, hcmds⟩ := onSample_changes s id sample rest
      refine .keeps (by rw [hsample]) (by rw [hsample]) (tickless fun cmd hcmd epoch => ?_) nofun
      obtain ⟨token, rfl⟩ := hcmds cmd hcmd
      rfl
  | sampleEnd id error =>
      obtain ⟨⟨tables, monitor, hended⟩, hcmds⟩ := onStatsEnded_changes s id error
      refine .keeps (by rw [hended]) (by rw [hended]) ?_ nofun
      rw [hcmds]
      exact tickless_idle idle_nil
  | tick epoch => exact onMonitorTick_turn s epoch

end State

/-! ## Runs -/

namespace System

/-- An event is the answer of a timer of a session if it brings its tick. -/
theorem answers_isTick {x : System} {event : Event} (allowed : x.Allows event) (epoch : Nat) :
    event.answers (Cmd.isTick epoch) = true ↔ event.msg? = some (.alarm (.monitorTick epoch)) :=
  answers_iff_msg allowed rfl fun hyields => hyields.isTick_iff epoch

/-- Of the current session of the monitor and those to come, one timer is outstanding: that of the
current one, if the monitor is shown. -/
def Ticking (x : System) : Prop :=
  ∀ epoch, x.state.monitorEpoch ≤ epoch → x.outstanding (Cmd.isTick epoch) =
    if x.state.view = .monitor ∧ epoch = x.state.monitorEpoch then 1 else 0

/-- **One event.** What it issues and what it answers leave one timer of the session. -/
theorem Ticking.after {x : System} (h : x.Ticking) (hnumbered : x.Numbered) {event : Event}
    (allowed : x.Allows event) : (x.after event).Ticking := by
  intro epoch hepoch'
  have hcount := outstanding_after hnumbered allowed (Cmd.isTick epoch)
  have hanswers := answers_le_outstanding hnumbered allowed (Cmd.isTick epoch)
  show (x.after event).outstanding (Cmd.isTick epoch) =
    if (x.state.react event).1.view = .monitor ∧ epoch = (x.state.react event).1.monitorEpoch
      then 1 else 0
  have hle : (x.state.react event).1.monitorEpoch ≤ epoch := hepoch'
  cases (State.react_reaction x.state event).turn with
  | stays hview hepoch hcmds hmsg =>
      rw [hepoch] at hle
      rw [hcmds, h epoch hle] at hcount
      rw [h epoch hle] at hanswers
      simp only [hview, hepoch]
      -- If a tick is answered, it is none of the current session.
      by_cases hcurrent : x.state.view = .monitor ∧ epoch = x.state.monitorEpoch
      · have hother : event.answers (Cmd.isTick epoch) ≠ true := by
          rw [ne_eq, answers_isTick allowed, hcurrent.2]
          exact hmsg hcurrent.1
        rw [if_neg hother] at hcount
        exact hcount
      · rw [if_neg hcurrent] at hcount hanswers ⊢
        omega
  | enters hview hepoch hcmds =>
      have hnew : ¬ (x.state.view = .monitor ∧ epoch = x.state.monitorEpoch) := by
        rintro ⟨-, heq⟩
        omega
      rw [h epoch (by omega), if_neg hnew] at hcount hanswers
      rw [hcmds epoch] at hcount
      simp only [hview, true_and]
      omega
  | leaves hview hepoch hcmds =>
      have hnew : ¬ (x.state.view = .monitor ∧ epoch = x.state.monitorEpoch) := by
        rintro ⟨-, heq⟩
        omega
      rw [h epoch (by omega), if_neg hnew] at hcount hanswers
      rw [hcmds epoch] at hcount
      rw [if_neg fun hafter => hview hafter.1]
      omega
  | ticks hbefore hview hepoch hcmds hmsg =>
      rw [hepoch] at hle
      rw [h epoch hle, hcmds epoch] at hcount
      simp only [hview, hepoch, hbefore, true_and] at hcount ⊢
      -- The tick of the session takes its timer away, and the next one takes its place.
      by_cases hcurrent : epoch = x.state.monitorEpoch
      · have hanswer : event.answers (Cmd.isTick epoch) = true := by
          rw [answers_isTick allowed, hcurrent]
          exact hmsg
        rw [if_pos hcurrent, if_pos hanswer] at hcount
        rw [if_pos hcurrent]
        omega
      · rw [if_neg hcurrent] at hcount ⊢
        omega

end System

namespace Run

variable {config : Config} {now : Int} {history : History} {x : System}

theorem ticking (h : Run config now history x) : x.Ticking := by
  induction h with
  | start =>
      intro epoch _
      simp [System.outstanding, System.new, State.new]
  | step event run allowed ih => exact ih.after run.numbered allowed

/-- **Ticks.** However often the monitor has been entered and left, one timer of its current session
is outstanding while it is shown, and none while another view is; there is none of a session to
come. The tick of another session changes nothing and issues nothing. -/
theorem one_timer_of_session (h : Run config now history x) :
    x.outstanding (Cmd.isTick x.state.monitorEpoch) =
      (if x.state.view = .monitor then 1 else 0) ∧
    (∀ epoch, x.state.monitorEpoch < epoch → x.outstanding (Cmd.isTick epoch) = 0) ∧
    ∀ epoch, epoch ≠ x.state.monitorEpoch →
      x.state.step (.alarm (.monitorTick epoch)) = (x.state, []) := by
  have hticking := h.ticking
  refine ⟨?_, fun epoch hlater => ?_, fun epoch hother => ?_⟩
  · rw [hticking _ (Nat.le_refl _)]
    simp only [and_true]
  · rw [hticking epoch (Nat.le_of_lt hlater), if_neg fun heq => by omega]
  · exact if_neg fun hcurrent => hother hcurrent.2

/-- The monitor is entered, left and entered again, while the timer of the first session is still
running. -/
theorem one_timer_after_reentry : ∃ history x, Run {} 0 history x ∧ x.state.view = .monitor ∧
    x.outstanding (Cmd.isTick 1) = 1 ∧
    x.outstanding (Cmd.isTick x.state.monitorEpoch) = 1 ∧
    x.state.step (.alarm (.monitorTick 1)) = (x.state, []) := by
  have hbegun := (Run.start : Run {} 0 [] _).step .begin trivial
  have hentered := hbegun.step (.input (.key { code := .char 'm' })) rfl
  have hleft := hentered.step (.input (.key { code := .char 'm' })) rfl
  have hreentered := hleft.step (.input (.key { code := .char 'm' })) rfl
  obtain ⟨hone, -, hold⟩ := one_timer_of_session hreentered
  exact ⟨_, _, hreentered, by rfl, by rfl, hone, hold 1 (by decide)⟩

end Run

end Dockboard
