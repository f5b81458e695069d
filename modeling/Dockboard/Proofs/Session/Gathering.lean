import Dockboard.Proofs.Session.Announcements
import Dockboard.Proofs.Session.Tasks

set_option autoImplicit false

/-! # Gathering changes

Reports of changes are gathered until a timer fires. One timer is outstanding as long as something
has been gathered, so every report is handed out when the next timer fires, and only then. Whatever
else happens leaves what has been gathered alone.

    GathersNone s r        a step gathers nothing and hands nothing out
    Gathers s msg? r       what a step does about gathering
    Gathered x             a timer is outstanding if something has been gathered, and none otherwise
    NotedSince history k   a change of kind `k` has been reported since changes were last handed out
-/

namespace Dockboard

open Dockboard.Stream

/-- Whether a command is a timer after which changes are handed out. -/
def Cmd.isFlush : Cmd → Bool
  | .timer _ .debounceElapsed => true
  | _ => false

/-- The kind of resource of which a message reports a change. -/
def Msg.noted? : Msg → Option ResourceKind
  | .daemonEvent event _ => ResourceKind.ofEventType? event.kind
  | _ => none

theorem Cmd.Yields.isFlush_iff {cmd : Cmd} {msg : Msg} (h : cmd.Yields msg) :
    cmd.isFlush = true ↔ msg = .alarm .debounceElapsed := by
  cases h with
  | timer after alarm => cases alarm <;> simp [Cmd.isFlush]
  | _ => simp [Cmd.isFlush]

theorem Cmd.isFlush_of_announces {cmd : Cmd} (h : cmd.announces = false) : cmd.isFlush = false := by
  unfold isFlush
  split
  · cases h
  · rfl

/-- What reports no change and comes from no timer has nothing to do with gathering. -/
theorem Msg.not_noted {msg? : Option Msg} (h : msg?.all (!·.isAnnouncement) = true) :
    msg?.bind Msg.noted? = none ∧ msg? ≠ some (.alarm .debounceElapsed) := by
  refine ⟨?_, fun hflush => by rw [hflush] at h; cases h⟩
  cases msg? with
  | none => rfl
  | some msg =>
      cases msg with
      | daemonEvent event rest => cases h
      | _ => rfl

/-! ## What is gathered -/

namespace Debouncer

theorem mem_insert {kind other : ResourceKind} {kinds : List ResourceKind} :
    other ∈ insert kind kinds ↔ other = kind ∨ other ∈ kinds := by
  have hall : other ∈ ResourceKind.all := by cases other <;> decide
  unfold insert
  rw [List.mem_filter]
  simp [hall]

/-- Kinds are handed out in ascending order, so none of them twice. -/
theorem insert_rising (kind : ResourceKind) (kinds : List ResourceKind) :
    (insert kind kinds).Pairwise fun k l => k.rank < l.rank := by
  have hall : ResourceKind.all.Pairwise fun k l => k.rank < l.rank := by decide
  exact hall.filter _

end Debouncer

namespace State

/-! ## What leaves it alone -/

/-- A step gathers nothing and hands nothing out. -/
structure GathersNone (s : State) (r : Step) : Prop where
  debouncer : r.1.debouncer = s.debouncer
  cmds : ∀ cmd ∈ r.2, cmd.isFlush = false

theorem GathersNone.countP {s : State} {r : Step} (h : GathersNone s r) :
    r.2.countP Cmd.isFlush = 0 := by
  rw [List.countP_eq_zero]
  intro cmd hcmd
  simp [h.cmds cmd hcmd]

/-- What leaves alone all that is to be announced gathers nothing. -/
theorem Mute.gathersNone {s : State} {r : Step} (h : Mute s r) : GathersNone s r :=
  ⟨h.debouncer, fun cmd hcmd => Cmd.isFlush_of_announces (h.cmds cmd hcmd)⟩

theorem Tells.gathersNone {s : State} {r : Step} (h : Tells s r) : GathersNone s r := by
  obtain ⟨after, rest, hcmds, hrest⟩ := h.cmds
  refine ⟨h.debouncer, ?_⟩
  rw [hcmds]
  exact List.forall_mem_cons.mpr ⟨rfl, fun cmd hcmd => Cmd.isFlush_of_announces (hrest cmd hcmd)⟩

theorem onExpired_gathersNone (s : State) (seq : Nat) :
    GathersNone s (s.onAlarm (.statusExpired seq)) := by
  simp only [onAlarm]
  split <;> exact ⟨rfl, fun cmd hcmd => by cases hcmd⟩

/-! ## What gathers and what hands out -/

/-- What a step does about gathering. -/
inductive Gathers (s : State) (msg? : Option Msg) (r : Step) : Prop where
  /-- It has to do with other things. -/
  | kept (hnone : msg?.bind Msg.noted? = none) (hmsg : msg? ≠ some (.alarm .debounceElapsed))
      (hidle : GathersNone s r)
  /-- A change is taken note of; if it is the first one, a timer is started. -/
  | noted (kind : ResourceKind) (hnoted : msg?.bind Msg.noted? = some kind)
      (hdebouncer : r.1.debouncer = (s.debouncer.notify kind).1)
      (hcmds : r.2.countP Cmd.isFlush = if s.debouncer.armed then 0 else 1)
  /-- Everything is handed out. -/
  | flushed (hmsg : msg? = some (.alarm .debounceElapsed))
      (hdebouncer : r.1.debouncer = s.debouncer.flush.1) (hcmds : r.2.countP Cmd.isFlush = 0)

theorem showEvent_debouncer (s : State) (event : DaemonEvent) :
    (s.showEvent event).debouncer = s.debouncer := by
  unfold showEvent
  split
  · split <;> rfl
  · rfl

theorem onEvent_gathers (s : State) (event : DaemonEvent) (rest : Feed DaemonEvent) :
    Gathers s (some (.daemonEvent event rest)) (s.onEvent event rest) := by
  have hkind : (some (Msg.daemonEvent event rest)).bind Msg.noted? =
      ResourceKind.ofEventType? event.kind := rfl
  have hshown : (s.onEvent event rest).1.debouncer = (s.noteChange event).1.debouncer :=
    showEvent_debouncer (s.noteChange event).1 event
  have hcmds : (s.onEvent event rest).2 = .readEvents rest :: (s.noteChange event).2 := rfl
  cases hof : ResourceKind.ofEventType? event.kind with
  | none =>
      have hnote : s.noteChange event = s.noCmds := by simp only [noteChange, hof]
      rw [hnote] at hshown hcmds
      refine .kept (hkind.trans hof) nofun ⟨hshown, ?_⟩
      rw [hcmds]
      exact List.forall_mem_singleton.mpr rfl
  | some kind =>
      have hnote : s.noteChange event = ({ s with debouncer := (s.debouncer.notify kind).1 },
          ((s.debouncer.notify kind).2.map fun after => .timer after .debounceElapsed).toList) := by
        simp only [noteChange, hof]
      rw [hnote] at hshown hcmds
      refine .noted kind (hkind.trans hof) hshown ?_
      rw [hcmds]
      unfold Debouncer.notify
      cases s.debouncer.armed <;> rfl

theorem onFlush_gathers (s : State) :
    Gathers s (some (.alarm .debounceElapsed)) (s.onAlarm .debounceElapsed) := by
  simp only [onAlarm]
  split
  · have hload := requestLoad_mute { s with debouncer := s.debouncer.flush.1 } s.view
    exact .flushed rfl hload.debouncer hload.gathersNone.countP
  · exact .flushed rfl rfl rfl

/-- When changes are handed out of which one outdates the active view, the view is loaded, unless it
is being loaded already. -/
theorem onFlush_cmds {s : State} (hscope : s.view.isTaskView = true → s.taskScope.isSome = true) :
    (s.onAlarm .debounceElapsed).2 =
      if s.debouncer.flush.2.any (·.affects s.view) && !s.loading.get s.view then
        [s.loadCmd s.view]
      else [] := by
  have hasked : (s.view.isTaskView && s.taskScope.isNone) = false := by
    cases htask : s.view.isTaskView with
    | false => rfl
    | true =>
        obtain ⟨scope, hsome⟩ := Option.isSome_iff_exists.mp (hscope htask)
        rw [hsome]
        rfl
  simp only [onAlarm]
  cases s.debouncer.flush.2.any (·.affects s.view) with
  | false => rfl
  | true =>
      simp only [if_true, Bool.true_and, requestLoad, hasked]
      cases s.loading.get s.view <;> rfl

theorem Announces.gathers {s : State} {msg? : Option Msg} {r : Step} (h : Announces s msg? r) :
    Gathers s msg? r := by
  cases h with
  | mute hplain hmute =>
      obtain ⟨hnone, hmsg⟩ := Msg.not_noted hplain
      exact .kept hnone hmsg hmute.gathersNone
  | tells hplain htells =>
      obtain ⟨hnone, hmsg⟩ := Msg.not_noted hplain
      exact .kept hnone hmsg htells.gathersNone
  | removes key hlayer hmute =>
      exact .kept rfl nofun ⟨hmute.debouncer, hmute.gathersNone.cmds⟩
  | reported event rest => exact onEvent_gathers s event rest
  | flushed => exact onFlush_gathers s
  | expired seq => exact .kept rfl nofun (onExpired_gathersNone s seq)

/-- **Events and gathering.** -/
theorem react_gathers (s : State) (event : Event) : Gathers s event.msg? (s.react event) :=
  (react_announces s event).gathers

end State

/-! ## Runs -/

/-- The kind of resource of which an event reports a change. -/
def Event.noted? (event : Event) : Option ResourceKind := event.msg?.bind Msg.noted?

/-- A change of a kind has been reported, and changes have not been handed out since. -/
def NotedSince (history : History) (kind : ResourceKind) : Prop :=
  ∃ earlier y event later, history = earlier ++ (y, event) :: later ∧ event.noted? = some kind ∧
    ∀ p ∈ later, p.2.msg? ≠ some (.alarm .debounceElapsed)

/-- What has been reported until an event has happened: the event reports it, or it has been
reported before and is not handed out by the event. -/
theorem notedSince_concat {history : History} {x : System} {event : Event} {kind : ResourceKind} :
    NotedSince (history ++ [(x, event)]) kind ↔ event.noted? = some kind ∨
      event.msg? ≠ some (.alarm .debounceElapsed) ∧ NotedSince history kind := by
  constructor
  · rintro ⟨earlier, y, noting, later, hsplit, hnoted, hlater⟩
    rcases last_of_append_cons hsplit.symm with ⟨rfl, rfl, hlast⟩ | ⟨between, rfl, rfl⟩
    · cases hlast
      exact Or.inl hnoted
    · obtain ⟨hbetween, hlast⟩ := List.forall_mem_append.mp hlater
      exact Or.inr ⟨hlast (x, event) List.mem_cons_self,
        earlier, y, noting, between, rfl, hnoted, hbetween⟩
  · rintro (hnoted | ⟨hevent, earlier, y, noting, later, rfl, hnoted, hlater⟩)
    · exact ⟨history, x, event, [], rfl, hnoted, List.forall_mem_nil _⟩
    · refine ⟨earlier, y, noting, later ++ [(x, event)], by simp, hnoted, ?_⟩
      exact List.forall_mem_append.mpr ⟨hlater, List.forall_mem_singleton.mpr hevent⟩

namespace System

/-- Changes are handed out by the answer of a timer. -/
theorem answers_isFlush {x : System} {event : Event} (allowed : x.Allows event) :
    event.answers Cmd.isFlush = true ↔ event.msg? = some (.alarm .debounceElapsed) :=
  answers_iff_msg allowed rfl fun hyields => hyields.isFlush_iff

/-- One timer is outstanding if something has been gathered, and none otherwise; and what has been
gathered is in ascending order. -/
structure Gathered (x : System) : Prop where
  timer : x.outstanding Cmd.isFlush = if x.state.debouncer.armed then 1 else 0
  armed : x.state.debouncer.armed = true ↔ x.state.debouncer.pending ≠ []
  rising : x.state.debouncer.pending.Pairwise fun k l => k.rank < l.rank

/-- **One event.** Something has been gathered as long as its timer is outstanding. -/
theorem Gathered.after {x : System} {event : Event} (h : x.Gathered) (hnumbered : x.Numbered)
    (allowed : x.Allows event) : (x.after event).Gathered := by
  have hcount := outstanding_after hnumbered allowed Cmd.isFlush
  have hanswers := answers_le_outstanding hnumbered allowed Cmd.isFlush
  -- Only the answer of the timer takes it away.
  have hother (hmsg : event.msg? ≠ some (.alarm .debounceElapsed)) :
      event.answers Cmd.isFlush = false := by
    rw [← Bool.not_eq_true, answers_isFlush allowed]
    exact hmsg
  cases State.react_gathers x.state event with
  | kept hnone hmsg hidle =>
      have hsame : (x.after event).state.debouncer = x.state.debouncer := hidle.debouncer
      rw [hother hmsg, hidle.countP] at hcount
      refine ⟨?_, by rw [hsame]; exact h.armed, by rw [hsame]; exact h.rising⟩
      rw [hsame, ← h.timer]
      simpa using hcount
  | noted kind hnoted hdebouncer hcmds =>
      have hmsg : event.msg? ≠ some (.alarm .debounceElapsed) := by
        intro hflush
        rw [hflush] at hnoted
        cases hnoted
      have hafter : (x.after event).state.debouncer = (x.state.debouncer.notify kind).1 :=
        hdebouncer
      have harmed : (x.after event).state.debouncer.armed = true := by rw [hafter]; rfl
      have hpending : (x.after event).state.debouncer.pending =
          Debouncer.insert kind x.state.debouncer.pending := by rw [hafter]; rfl
      rw [hother hmsg, hcmds, h.timer] at hcount
      refine ⟨?_, ⟨fun _ => ?_, fun _ => harmed⟩, ?_⟩
      · rw [harmed]
        cases hbefore : x.state.debouncer.armed <;> simp [hbefore] at hcount <;> simpa using hcount
      · rw [hpending]
        exact List.ne_nil_of_mem (Debouncer.mem_insert.mpr (Or.inl rfl))
      · rw [hpending]
        exact Debouncer.insert_rising kind _
  | flushed hmsg hdebouncer hcmds =>
      have hafter : (x.after event).state.debouncer = x.state.debouncer.flush.1 := hdebouncer
      have hone : x.outstanding Cmd.isFlush ≤ 1 := by
        rw [h.timer]
        split <;> omega
      rw [(answers_isFlush allowed).mpr hmsg, if_pos rfl] at hcount hanswers
      rw [hcmds] at hcount
      refine ⟨?_, ?_, ?_⟩
      · rw [hafter]
        show _ = 0
        omega
      · rw [hafter]
        simp [Debouncer.flush]
      · rw [hafter]
        exact List.Pairwise.nil

/-- **One event.** What has been gathered is what has been reported since changes were last handed
out. -/
theorem notedSince_after {x : System} {event : Event} {history : History}
    (h : ∀ kind, kind ∈ x.state.debouncer.pending ↔ NotedSince history kind)
    (kind : ResourceKind) :
    kind ∈ (x.after event).state.debouncer.pending ↔
      NotedSince (history ++ [(x, event)]) kind := by
  rw [notedSince_concat, ← h kind]
  cases State.react_gathers x.state event with
  | kept hnone hmsg hidle =>
      have hsame : (x.after event).state.debouncer = x.state.debouncer := hidle.debouncer
      have hnoted : event.noted? = none := hnone
      rw [hsame, hnoted]
      simp [hmsg]
  | noted noted hnoted hdebouncer hcmds =>
      have hafter : (x.after event).state.debouncer.pending =
          Debouncer.insert noted x.state.debouncer.pending := congrArg Debouncer.pending hdebouncer
      have hkind : event.noted? = some noted := hnoted
      have hmsg : event.msg? ≠ some (.alarm .debounceElapsed) := by
        intro hflush
        rw [hflush] at hnoted
        cases hnoted
      rw [hafter, Debouncer.mem_insert, hkind]
      simp [hmsg, eq_comm]
  | flushed hmsg hdebouncer hcmds =>
      have hafter : (x.after event).state.debouncer.pending = [] :=
        congrArg Debouncer.pending hdebouncer
      have hnoted : event.noted? = none := by
        unfold Event.noted?
        rw [hmsg]
        rfl
      rw [hafter, hnoted, hmsg]
      simp

end System

namespace Run

variable {config : Config} {now : Int} {history : History} {x : System}

theorem gathered (h : Run config now history x) : x.Gathered := by
  induction h with
  | start => exact ⟨rfl, by simp [System.new, State.new], List.Pairwise.nil⟩
  | step event run allowed ih => exact ih.after run.numbered allowed

theorem noted_since (h : Run config now history x) (kind : ResourceKind) :
    kind ∈ x.state.debouncer.pending ↔ NotedSince history kind := by
  induction h generalizing kind with
  | start =>
      constructor
      · intro hmem
        cases hmem
      · rintro ⟨earlier, y, event, later, hsplit, -⟩
        simp at hsplit
  | step event run allowed ih => exact System.notedSince_after ih kind

/-- **Gathering.** As long as changes are being gathered one timer is outstanding, and there are
some to hand out; otherwise there are none of either. When the timer fires, the kinds are handed out
of which changes have been reported since the last time, in ascending order and so none of them
twice. If one of them outdates the active view, and the view is not being loaded, one load of it is
issued, and nothing is issued otherwise; a task view has its scope whenever it is active. -/
theorem gathered_changes (h : Run config now history x) :
    x.outstanding Cmd.isFlush = (if x.state.debouncer.armed then 1 else 0) ∧
    (x.state.debouncer.armed = true ↔ x.state.debouncer.pending ≠ []) ∧
    (∀ kind, kind ∈ x.state.debouncer.flush.2 ↔ NotedSince history kind) ∧
    x.state.debouncer.flush.2.Pairwise (fun k l => k.rank < l.rank) ∧
    (x.state.view.isTaskView = true → x.state.taskScope.isSome = true) ∧
    let r := x.state.step (.alarm .debounceElapsed)
    let outdated := ∃ kind, NotedSince history kind ∧ kind.affects x.state.view = true
    r.1.debouncer = x.state.debouncer.flush.1 ∧
    (outdated ∧ x.state.loading.get x.state.view = false → r.2 = [x.state.loadCmd x.state.view]) ∧
    (¬ (outdated ∧ x.state.loading.get x.state.view = false) → r.2 = []) := by
  have hgathered := h.gathered
  have hscope (htask : x.state.view.isTaskView = true) : x.state.taskScope.isSome = true := by
    obtain ⟨scope, hscope, -⟩ := h.tasks_scoped.state.active htask
    rw [hscope]
    rfl
  have hflushed : (x.state.step (.alarm .debounceElapsed)).1.debouncer =
      x.state.debouncer.flush.1 := by
    cases State.onFlush_gathers x.state with
    | kept hnone hmsg => exact absurd rfl hmsg
    | noted kind hnoted => cases hnoted
    | flushed hmsg hdebouncer => exact hdebouncer
  have hcmds : (x.state.step (.alarm .debounceElapsed)).2 = _ := State.onFlush_cmds hscope
  have houtdated : x.state.debouncer.flush.2.any (·.affects x.state.view) = true ↔
      ∃ kind, NotedSince history kind ∧ kind.affects x.state.view = true := by
    simp only [List.any_eq_true, ← h.noted_since]
    rfl
  refine ⟨hgathered.timer, hgathered.armed, h.noted_since, hgathered.rising, hscope, hflushed,
    ?_, ?_⟩
  · rintro ⟨hany, hidle⟩
    rw [hcmds, houtdated.mpr hany, hidle]
    rfl
  · intro hnone
    rw [hcmds, if_neg]
    simpa [← houtdated] using hnone

/-- Changes of an image and of a container are reported while the containers are shown. -/
theorem gathered_of_two_changes : ∃ history x, Run {} 0 history x ∧
    x.outstanding Cmd.isFlush = 1 ∧ NotedSince history .image ∧ NotedSince history .container ∧
    x.state.debouncer.flush.2 = [.container, .image] ∧
    (x.state.step (.alarm .debounceElapsed)).2 = [.load .containers false none] := by
  have hloaded := ((Run.start : Run {} 0 [] _).step .begin trivial).step
    (.answer (.load .containers false none) 2 (.loaded .containers none []))
    ⟨List.mem_of_getElem? (i := 2) rfl, .loaded .containers false none []⟩
  have hfirst := hloaded.step
    (.answer .watchEvents 1 (.daemonEvent { kind := "image" } ⟨[], true⟩))
    ⟨List.mem_of_getElem? (i := 1) rfl, .eventsOpened _ _⟩
  have hsecond := hfirst.step
    (.answer (.readEvents ⟨[], true⟩) 3 (.daemonEvent { kind := "container" } ⟨[], true⟩))
    ⟨List.mem_of_getElem? (i := 1) rfl, .eventsRead _ _ _⟩
  obtain ⟨history, x, hrun, harmed, hkinds, hview, hidle, hload⟩ : ∃ history x,
      Run {} 0 history x ∧ x.state.debouncer.armed = true ∧
      x.state.debouncer.flush.2 = [.container, .image] ∧
      x.state.view = .containers ∧ x.state.loading.get .containers = false ∧
      x.state.loadCmd .containers = .load .containers false none :=
    ⟨_, _, hsecond, rfl, rfl, rfl, rfl, rfl⟩
  obtain ⟨htimer, -, hsince, -, -, -, hloads, -⟩ := gathered_changes hrun
  have hnoted (kind : ResourceKind) (hmem : kind ∈ [ResourceKind.container, .image]) :
      NotedSince history kind := by
    rw [← hkinds] at hmem
    exact (hsince kind).mp hmem
  rw [harmed] at htimer
  rw [hview, hload] at hloads
  exact ⟨history, x, hrun, htimer, hnoted .image (by decide), hnoted .container (by decide), hkinds,
    hloads ⟨⟨.container, hnoted .container (by decide), rfl⟩, hidle⟩⟩

end Run

end Dockboard
