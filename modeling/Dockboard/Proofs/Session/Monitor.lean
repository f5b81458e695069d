import Dockboard.Proofs.Session.Keys
import Dockboard.Proofs.Session.Subscriptions

set_option autoImplicit false

/-! # What a message does to the monitor

A message does one of few things to the reads of the monitor, apart from those of samples and lists
of containers:

    Alike s s'      nothing the monitor depends on is different
    Quiet s r       the monitor goes on as before; a pager may be opened or closed
    Stopped s r     the monitor is left, and every read of it cancelled

In every case the reads of the monitor are those of its subscriptions afterwards (`step_tended`),
given that the read which a sample comes from was the only one of its container.
-/

namespace Dockboard

open Dockboard.Stream

/-- The container of which a message brings samples, or their end, to the monitor. -/
def Msg.samples? : Msg → Option String
  | .statSample (.monitor id) _ _ => some id
  | .statsEnded (.monitor id) _ => some id
  | _ => none

/-- A list of containers names every running container once. -/
def Msg.NamesOnce (msg : Msg) : Prop :=
  ∀ containers, msg = .monitorListed containers →
    ((containers.filter Container.isRunning).map Container.id).Nodup

namespace State

/-! ## What goes on as before -/

/-- The monitor goes on as before. A pager may be closed, which cancels its token, and another one
opened under a token that has not been given out. -/
structure Quiet (s : State) (r : Step) : Prop where
  monitor : r.1.monitor = s.monitor
  shows : ∀ id, s.Shows id → r.1.Shows id
  nextToken : s.nextToken ≤ r.1.nextToken
  kept : ∀ token ∈ s.cancelled, token ∈ r.1.cancelled
  cancelled : ∀ token ∈ r.1.cancelled, token ∈ s.cancelled ∨ s.shownToken? = some token
  shown : ∀ token, r.1.shownToken? = some token →
    s.shownToken? = some token ∨ s.nextToken ≤ token ∧ token < r.1.nextToken
  cmds : ∀ cmd ∈ r.2, cmd.Plain

theorem Quiet.sound {s : State} {r : Step} (h : Quiet s r) (hs : s.Sound) : r.1.Sound := by
  refine ⟨?_, ?_, ?_, ?_, ?_, ?_⟩
  · rw [h.monitor]
    exact hs.ids
  · rw [h.monitor]
    exact hs.tokens
  · rw [h.monitor]
    exact fun token htoken => Nat.lt_of_lt_of_le (hs.given token htoken) h.nextToken
  · intro token htoken
    refine Nat.lt_of_lt_of_le ?_ h.nextToken
    rcases h.cancelled token htoken with hold | hshown
    · exact hs.cancelled_given token hold
    · exact (hs.apart token hshown).1
  · rw [h.monitor]
    intro token htoken hcancelled
    rcases h.cancelled token hcancelled with hold | hshown
    · exact hs.live token htoken hold
    · -- What was cancelled is the token of a pager, which is not that of a subscription.
      exact (hs.apart token hshown).2 htoken
  · rw [h.monitor]
    intro token htoken
    rcases h.shown token htoken with hold | ⟨hfresh, hgiven⟩
    · obtain ⟨hlt, hnot⟩ := hs.apart token hold
      exact ⟨Nat.lt_of_lt_of_le hlt h.nextToken, hnot⟩
    · -- A new pager has a new token.
      refine ⟨hgiven, fun hmem => ?_⟩
      exact Nat.not_lt_of_le hfresh (hs.given token hmem)

/-- The monitor is left, and all its reads are cancelled. -/
structure Stopped (s : State) (r : Step) : Prop where
  monitor : r.1.monitor = []
  nextToken : r.1.nextToken = s.nextToken
  kept : ∀ token ∈ s.cancelled, token ∈ r.1.cancelled
  all : ∀ token ∈ s.monitor.map Prod.snd, token ∈ r.1.cancelled
  cancelled : ∀ token ∈ r.1.cancelled, token ∈ s.cancelled ∨ token ∈ s.monitor.map Prod.snd
  shown : r.1.shownToken? = s.shownToken?
  cmds : ∀ cmd ∈ r.2, cmd.Plain

theorem Stopped.sound {s : State} {r : Step} (h : Stopped s r) (hs : s.Sound) : r.1.Sound := by
  refine ⟨?_, ?_, ?_, ?_, ?_, ?_⟩
  · rw [h.monitor]
    exact List.nodup_nil
  · rw [h.monitor]
    exact List.nodup_nil
  · rw [h.monitor]
    exact fun token htoken => absurd htoken List.not_mem_nil
  · rw [h.nextToken]
    intro token htoken
    rcases h.cancelled token htoken with hold | hread
    · exact hs.cancelled_given token hold
    · exact hs.given token hread
  · rw [h.monitor]
    exact fun token htoken => absurd htoken List.not_mem_nil
  · rw [h.monitor, h.nextToken, h.shown]
    exact fun token htoken => ⟨(hs.apart token htoken).1, List.not_mem_nil⟩

/-! ## What each message does -/

/-- Two states that differ in nothing the monitor depends on, except perhaps in the order of its
rows. -/
structure Alike (s s' : State) : Prop where
  monitor : s'.monitor = s.monitor
  shows : ∀ id, s.Shows id → s'.Shows id
  nextToken : s'.nextToken = s.nextToken
  cancelled : s'.cancelled = s.cancelled
  shown : s'.shownToken? = s.shownToken?

theorem Alike.quiet {s : State} {r : Step} (h : Alike s r.1) (hcmds : ∀ cmd ∈ r.2, cmd.Plain) :
    Quiet s r where
  monitor := h.monitor
  shows := h.shows
  nextToken := Nat.le_of_eq h.nextToken.symm
  kept := fun token htoken => by rw [h.cancelled]; exact htoken
  cancelled := fun token htoken => Or.inl (by rw [← h.cancelled]; exact htoken)
  shown := fun token htoken => Or.inl (by rw [← h.shown]; exact htoken)
  cmds := hcmds

theorem Alike.trans {s s' s'' : State} (h : Alike s s') (h' : Alike s' s'') : Alike s s'' where
  monitor := h'.monitor.trans h.monitor
  shows := fun id hid => h'.shows id (h.shows id hid)
  nextToken := h'.nextToken.trans h.nextToken
  cancelled := h'.cancelled.trans h.cancelled
  shown := h'.shown.trans h.shown

theorem Quiet.after {s s' : State} {r : Step} (h : Quiet s' r) (halike : Alike s s') :
    Quiet s r where
  monitor := h.monitor.trans halike.monitor
  shows := fun id hid => h.shows id (halike.shows id hid)
  nextToken := by rw [← halike.nextToken]; exact h.nextToken
  kept := by rw [← halike.cancelled]; exact h.kept
  cancelled := by rw [← halike.cancelled, ← halike.shown]; exact h.cancelled
  shown := by rw [← halike.shown, ← halike.nextToken]; exact h.shown
  cmds := h.cmds

theorem Quiet.issuing {s : State} {r : Step} (h : Quiet s r) {cmds : List Cmd}
    (hcmds : ∀ cmd ∈ cmds, cmd.Plain) : Quiet s (r.1, cmds) :=
  ⟨h.monitor, h.shows, h.nextToken, h.kept, h.cancelled, h.shown, hcmds⟩

theorem Stopped.after {s s' : State} {r : Step} (h : Stopped s' r) (halike : Alike s s') :
    Stopped s r where
  monitor := h.monitor
  nextToken := h.nextToken.trans halike.nextToken
  kept := by rw [← halike.cancelled]; exact h.kept
  all := by rw [← halike.monitor]; exact h.all
  cancelled := by rw [← halike.cancelled, ← halike.monitor]; exact h.cancelled
  shown := h.shown.trans halike.shown
  cmds := h.cmds

theorem Stopped.then {s : State} {r r' : Step} (h : Stopped s r) (halike : Alike r.1 r'.1)
    (hcmds : ∀ cmd ∈ r'.2, cmd.Plain) : Stopped s r' where
  monitor := halike.monitor.trans h.monitor
  nextToken := halike.nextToken.trans h.nextToken
  kept := by rw [halike.cancelled]; exact h.kept
  all := by rw [halike.cancelled]; exact h.all
  cancelled := by rw [halike.cancelled]; exact h.cancelled
  shown := halike.shown.trans h.shown
  cmds := hcmds

theorem plain_nil : ∀ cmd ∈ ([] : List Cmd), cmd.Plain := fun _ h => by cases h

theorem plain_singleton {cmd : Cmd} (h : cmd.Plain) : ∀ other ∈ [cmd], other.Plain := by
  intro other hother
  rw [List.mem_singleton.mp hother]
  exact h

theorem timer_plain (after : Nat) (alarm : Alarm) : (Cmd.timer after alarm).Plain :=
  ⟨fun _ => rfl, nofun⟩

theorem requestLoad_plain (s : State) (view : View) :
    ∀ cmd ∈ (s.requestLoad view).2, cmd.Plain := by
  intro cmd hcmd
  rw [mem_requestLoad hcmd]
  rcases loadCmd_cases s view with ⟨-, hload⟩ | ⟨hview, scope, hload⟩
  · rw [hload]
    exact ⟨fun _ => rfl, nofun⟩
  · rw [hload]
    refine ⟨fun _ => rfl, fun all scope heq => ?_⟩
    cases heq
    exact hview rfl

theorem requestLoad_alike (s : State) (view : View) : Alike s (s.requestLoad view).1 := by
  obtain ⟨loading, stale, hload⟩ := requestLoad_changes s view
  rw [hload]
  exact ⟨rfl, fun _ h => h, rfl, rfl, rfl⟩

theorem requestLoad_quiet (s : State) (view : View) : Quiet s (s.requestLoad view) :=
  (requestLoad_alike s view).quiet (requestLoad_plain s view)

theorem mem_cancelled_closeLayer {s : State} {token : Token} :
    token ∈ s.closeLayer.cancelled ↔ token ∈ s.cancelled ∨ s.shownToken? = some token := by
  cases hlayer : s.layer with
  | none => simp [closeLayer, shownToken?, hlayer]
  | some layer =>
      cases layer with
      | prompt p => simp [closeLayer, shownToken?, hlayer]
      | pager layer =>
          obtain ⟨number, kind, pager, held⟩ := layer
          cases held with
          | none => simp [closeLayer, shownToken?, hlayer]
          | some held =>
              have hclose : s.closeLayer = { s.cancel held with layer := none } := by
                simp [closeLayer, hlayer]
              have hshown : s.shownToken? = some held := by simp [shownToken?, hlayer]
              rw [hclose, hshown, Option.some.injEq, eq_comm (a := held), Or.comm]
              exact mem_cancelled_cancel

/-- A pager is opened in place of what stands before the view. -/
theorem openPager_quiet {s s' : State} {kind : PagerKind} {pager : Pager} {token : Option Token}
    {cmds : List Cmd} (hmonitor : s'.monitor = s.monitor) (htables : s'.tables = s.tables)
    (hnext : s.nextToken ≤ s'.nextToken) (hcancelled : s'.cancelled = s.cancelled)
    (hshown : s'.shownToken? = s.shownToken?)
    (htoken : ∀ t, token = some t → s.nextToken ≤ t ∧ t < s'.nextToken)
    (hcmds : ∀ cmd ∈ cmds, cmd.Plain) : Quiet s (s'.openPager kind pager token, cmds) := by
  have hclosed {t : Token} : t ∈ (s'.openPager kind pager token).cancelled ↔
      t ∈ s.cancelled ∨ s.shownToken? = some t := by
    rw [← hcancelled, ← hshown]
    exact mem_cancelled_closeLayer
  obtain ⟨cancelled, layer, hlayer, hopen⟩ := openPager_changes s' kind pager token
  refine ⟨?_, fun id hid => ?_, ?_, fun t ht => hclosed.mpr (Or.inl ht), fun t ht => hclosed.mp ht,
    fun t ht => Or.inr ?_, hcmds⟩
  · rw [hopen]
    exact hmonitor
  · rw [hopen]
    exact hid.of_rows fun row hrow => by rw [htables]; exact hrow
  · rw [hopen]
    exact hnext
  · rw [hopen] at ht ⊢
    exact htoken t (hlayer.symm.trans ht)

theorem closeLayer_quiet (s : State) : Quiet s s.closeLayer.noCmds := by
  have hclosed {t : Token} : t ∈ s.closeLayer.cancelled ↔
      t ∈ s.cancelled ∨ s.shownToken? = some t :=
    mem_cancelled_closeLayer
  obtain ⟨cancelled, hclose⟩ := closeLayer_changes s
  refine ⟨?_, fun id hid => ?_, ?_, fun t ht => hclosed.mpr (Or.inl ht), fun t ht => hclosed.mp ht,
    fun t ht => ?_, plain_nil⟩
  · show s.closeLayer.monitor = s.monitor
    rw [hclose]
  · show s.closeLayer.Shows id
    rw [hclose]
    exact hid
  · exact Nat.le_of_eq (congrArg State.nextToken hclose).symm
  · have hnone : s.closeLayer.shownToken? = none := by
      rw [hclose]
      rfl
    rw [show s.closeLayer.noCmds.1 = s.closeLayer from rfl, hnone] at ht
    cases ht

theorem mem_cancelled_cancels {entries : List (String × Token)} {s : State} {token : Token} :
    token ∈ (entries.foldl (fun s entry => s.cancel entry.2) s).cancelled ↔
      token ∈ s.cancelled ∨ token ∈ entries.map Prod.snd := by
  induction entries generalizing s with
  | nil => simp
  | cons entry entries ih =>
      rw [List.foldl_cons, ih, mem_cancelled_cancel, List.map_cons, List.mem_cons]
      constructor
      · rintro ((hnew | hold) | hlater)
        · exact Or.inr (Or.inl hnew)
        · exact Or.inl hold
        · exact Or.inr (Or.inr hlater)
      · rintro (hold | hnew | hlater)
        · exact Or.inl (Or.inr hold)
        · exact Or.inl (Or.inl hnew)
        · exact Or.inr hlater

theorem stopMonitor_stopped (s : State) : Stopped s s.stopMonitor.noCmds := by
  have hcancels {token : Token} : token ∈ s.stopMonitor.cancelled ↔
      token ∈ s.cancelled ∨ token ∈ s.monitor.map Prod.snd :=
    mem_cancelled_cancels
  obtain ⟨tables, cancelled, hstop⟩ := stopMonitor_changes s
  refine ⟨rfl, ?_, fun token htoken => hcancels.mpr (Or.inl htoken),
    fun token htoken => hcancels.mpr (Or.inr htoken), fun token htoken => hcancels.mp htoken, ?_,
    plain_nil⟩
  · show s.stopMonitor.nextToken = s.nextToken
    rw [hstop]
  · show s.stopMonitor.shownToken? = s.shownToken?
    rw [hstop]
    rfl

theorem plain_append {cmds more : List Cmd} (h : ∀ cmd ∈ cmds, cmd.Plain)
    (h' : ∀ cmd ∈ more, cmd.Plain) : ∀ cmd ∈ cmds ++ more, cmd.Plain := by
  intro cmd hcmd
  rcases List.mem_append.mp hcmd with hcmd | hcmd
  · exact h cmd hcmd
  · exact h' cmd hcmd

/-- Beginning a session of the monitor reads nothing yet. -/
theorem startMonitor_alike (s : State) : Alike s s.startMonitor.1 := by
  have hepoch : Alike s { s with monitorEpoch := s.monitorEpoch + 1 } :=
    ⟨rfl, fun _ h => h, rfl, rfl, rfl⟩
  exact hepoch.trans (requestLoad_alike _ _)

theorem startMonitor_plain (s : State) : ∀ cmd ∈ s.startMonitor.2, cmd.Plain :=
  plain_append (requestLoad_plain _ _) (plain_singleton ⟨fun _ => rfl, nofun⟩)

theorem switchView_effect (s : State) (target : View) :
    Quiet s (s.switchView target) ∨ Stopped s (s.switchView target) := by
  unfold switchView
  by_cases hsame : target = s.view
  · rw [if_pos hsame]
    exact Or.inl (requestLoad_quiet s target)
  · rw [if_neg hsame]
    -- What comes after the old view has been left is the same in either case.
    have hgo (s' : State) :
        let r := if target = .monitor then ({ s' with view := target } : State).startMonitor
          else ({ s' with view := target } : State).requestLoad target
        Alike s' r.1 ∧ ∀ cmd ∈ r.2, cmd.Plain := by
      have hview : Alike s' { s' with view := target } := ⟨rfl, fun _ h => h, rfl, rfl, rfl⟩
      by_cases hmonitor : target = .monitor
      · simp only [hmonitor, if_true]
        rw [hmonitor] at hview
        exact ⟨hview.trans (startMonitor_alike _), startMonitor_plain _⟩
      · simp only [hmonitor, if_false]
        exact ⟨hview.trans (requestLoad_alike _ _), requestLoad_plain _ _⟩
    by_cases hleave : s.view = .monitor
    · simp only [hleave, if_true]
      obtain ⟨halike, hplain⟩ := hgo s.stopMonitor
      exact Or.inr ((stopMonitor_stopped s).then halike hplain)
    · simp only [hleave, if_false]
      obtain ⟨halike, hplain⟩ := hgo s
      exact Or.inl (halike.quiet hplain)

theorem enterTaskView_effect (s : State) (scope : TaskScope) :
    Quiet s (s.enterTaskView scope) ∨ Stopped s (s.enterTaskView scope) := by
  obtain ⟨previous, tables, htables, henter⟩ := enterTaskView_changes s scope
  have hforgot : Alike s { s with
      previous
      tables
      taskScope := some scope
      loading := s.loading.set scope.view false } := by
    refine ⟨rfl, fun id hid => hid.of_rows fun row hrow => ?_, rfl, rfl, rfl⟩
    rw [htables]
    exact hrow
  rw [henter]
  exact (switchView_effect _ _).imp (fun h => h.after hforgot) fun h => h.after hforgot

theorem modifyTable_alike {s : State} {view : View} {f : Table Row → Table Row}
    (hf : ∀ t, ∀ row ∈ t.rows, row ∈ (f t).rows) : Alike s (s.modifyTable view f) :=
  ⟨rfl, fun _ h => h.modifyTable fun _ => hf, rfl, rfl, rfl⟩

theorem resizeAll_alike (s : State) : Alike s s.resizeAll := by
  refine ⟨rfl, fun id hid => hid.of_rows fun row hrow => ?_, rfl, rfl, ?_⟩
  · show row ∈ ((s.tables.map fun t => t.resize s.width s.bodyHeight).get .monitor).rows
    rw [ByView.get_map, Table.resize_rows]
    exact hrow
  · unfold shownToken? resizeAll
    cases s.layer with
    | none => rfl
    | some layer => cases layer <;> rfl

/-- A prompt has no token, and neither has the bare view. -/
theorem shownToken?_eq_none {s : State} (h : ∀ layer, s.layer ≠ some (.pager layer)) :
    s.shownToken? = none := by
  unfold shownToken?
  split
  · next layer hlayer => exact absurd hlayer (h layer)
  · rfl

theorem ActionEffect.monitor {s : State} {target : Target} {r : Step}
    (h : ActionEffect s target r) (hlayer : s.layer = none) : Quiet s r ∨ Stopped s r := by
  have hnone : s.shownToken? = none := shownToken?_eq_none (by rw [hlayer]; nofun)
  have hprompt (p : Prompt Followup Action) : Quiet s (s.openPrompt p).noCmds :=
    Alike.quiet ⟨rfl, fun _ h => h, rfl, rfl, hnone.symm⟩ plain_nil
  have hpager (kind : PagerKind) (pager : Pager) (cmd : Cmd) (hcmd : cmd.Plain) :
      Quiet s (s.freshToken.2.openPager kind pager (some s.freshToken.1), [cmd]) := by
    have hnext : s.nextToken ≤ s.freshToken.2.nextToken := Nat.le_succ _
    refine openPager_quiet rfl rfl hnext rfl rfl (fun t ht => ?_) (plain_singleton hcmd)
    cases ht
    exact ⟨Nat.le_refl _, Nat.lt_succ_self _⟩
  cases h with
  | nothing => exact Or.inl (Alike.quiet ⟨rfl, fun _ h => h, rfl, rfl, rfl⟩ plain_nil)
  | inspect kind title =>
      exact Or.inl (Alike.quiet ⟨rfl, fun _ h => h, rfl, rfl, rfl⟩
        (plain_singleton ⟨fun _ => rfl, nofun⟩))
  | logs => exact Or.inl (hpager _ _ _ ⟨fun _ => rfl, nofun⟩)
  | stats => exact Or.inl (hpager _ _ _ ⟨fun _ => rfl, nofun⟩)
  | tasks scope hscope => exact enterTaskView_effect s scope
  | availability prompt => exact Or.inl (hprompt _)
  | scale prompt offered => exact Or.inl (hprompt _)
  | confirm action op hop => exact Or.inl (hprompt _)

theorem KeyEffect.monitor {s : State} {r : Step} (h : KeyEffect s r) (hlayer : s.layer = none) :
    Quiet s r ∨ Stopped s r := by
  have hnone : s.shownToken? = none := shownToken?_eq_none (by rw [hlayer]; nofun)
  have hplain {s' : State} (halike : Alike s s') : Quiet s s'.noCmds ∨ Stopped s s'.noCmds :=
    Or.inl (halike.quiet plain_nil)
  have hpager (kind : PagerKind) (pager : Pager) : Quiet s (s.openPager kind pager none).noCmds :=
    openPager_quiet rfl rfl (Nat.le_refl _) rfl rfl nofun plain_nil
  cases h with
  | nothing => exact hplain ⟨rfl, fun _ h => h, rfl, rfl, rfl⟩
  | quit => exact hplain ⟨rfl, fun _ h => h, rfl, rfl, rfl⟩
  | help => exact Or.inl (hpager _ _)
  | events => exact Or.inl (hpager _ _)
  | info =>
      exact Or.inl (Alike.quiet ⟨rfl, fun _ h => h, rfl, rfl, rfl⟩
        (plain_singleton ⟨fun _ => rfl, nofun⟩))
  | header =>
      have hheader : Alike s { s with showHeader := !s.showHeader } :=
        ⟨rfl, fun _ h => h, rfl, rfl, rfl⟩
      exact hplain (hheader.trans (resizeAll_alike _))
  | switch target hlist => exact switchView_effect s target
  | back =>
      unfold State.back
      split
      · exact switchView_effect s _
      · exact hplain ⟨rfl, fun _ h => h, rfl, rfl, rfl⟩
  | move place =>
      exact hplain (modifyTable_alike fun t row hrow => by rw [Table.moveTo_rows]; exact hrow)
  | sort =>
      refine hplain ⟨rfl, fun _ h => h.modifyTable fun _ t row hrow => ?_, rfl, rfl, rfl⟩
      exact (Table.sortByField_rows_perm s.format t.nextSortField).mem_iff.mpr hrow
  | filter => exact hplain ⟨rfl, fun _ h => h, rfl, rfl, hnone.symm⟩
  | toggle hview =>
      have htoggled : Alike s { s with showAll := !s.showAll } :=
        ⟨rfl, fun _ h => h, rfl, rfl, rfl⟩
      exact Or.inl ((requestLoad_quiet _ _).after htoggled)
  | refresh => exact Or.inl (requestLoad_quiet s _)
  | menu target row items hselected => exact hplain ⟨rfl, fun _ h => h, rfl, rfl, hnone.symm⟩
  | onView action hwhole => exact (runAction_effect s action _ _).monitor hlayer
  | onRow action target row hselected => exact (runAction_effect s action _ _).monitor hlayer

theorem fail_quiet (s : State) (text : String) : Quiet s (s.fail text) :=
  Alike.quiet ⟨rfl, fun _ h => h, rfl, rfl, rfl⟩ (plain_singleton (timer_plain _ _))

theorem onOutcome_effect {s : State} (hlayer : s.layer = none) (tag : Followup) (target : Target)
    (outcome : Outcome Action) :
    Quiet s (s.onOutcome tag target outcome) ∨ Stopped s (s.onOutcome tag target outcome) := by
  have hsame {cmds : List Cmd} (hcmds : ∀ cmd ∈ cmds, cmd.Plain) : Quiet s (s, cmds) :=
    Alike.quiet ⟨rfl, fun _ h => h, rfl, rfl, rfl⟩ hcmds
  unfold onOutcome
  split
  · exact (runAction_effect s _ target none).monitor hlayer
  · exact Or.inl (hsame (plain_singleton ⟨fun _ => rfl, nofun⟩))
  · refine Or.inl (Alike.quiet (modifyTable_alike fun t row hrow => ?_) plain_nil)
    rw [Table.setFilter_rows]
    exact hrow
  · unfold onScale
    split
    · exact Or.inl (hsame (plain_singleton ⟨fun _ => rfl, nofun⟩))
    · exact Or.inl (fail_quiet s _)
  · unfold onAvailability
    split
    · exact Or.inl (hsame (plain_singleton ⟨fun _ => rfl, nofun⟩))
    · exact Or.inl (fail_quiet s _)
  · exact Or.inl (hsame plain_nil)

theorem press_monitor (s : State) (key : Key) :
    Quiet s (s.press key) ∨ Stopped s (s.press key) := by
  cases hlayer : s.layer with
  | none =>
      have hstatus : Alike s { s with status := none } := ⟨rfl, fun _ h => h, rfl, rfl, rfl⟩
      exact ((press_effect key hlayer).monitor hlayer).imp (fun h => h.after hstatus)
        fun h => h.after hstatus
  | some layer =>
      cases layer with
      | prompt p =>
          have hnone : s.shownToken? = none := shownToken?_eq_none (by rw [hlayer]; nofun)
          rw [press_prompt key hlayer]
          unfold pressPrompt
          split
          · have hanswered : Alike s { s with layer := none } :=
              ⟨rfl, fun _ h => h, rfl, rfl, hnone.symm⟩
            exact (onOutcome_effect rfl _ _ _).imp (fun h => h.after hanswered)
              fun h => h.after hanswered
          · exact Or.inl (Alike.quiet ⟨rfl, fun _ h => h, rfl, rfl, hnone.symm⟩ plain_nil)
      | pager layer =>
          have hpressed : Alike s { s with
              layer := some (.pager { layer with pager := (layer.pager.press key).1 }) } := by
            refine ⟨rfl, fun _ h => h, rfl, rfl, ?_⟩
            unfold shownToken?
            rw [hlayer]
          rw [press_pager key hlayer]
          simp only [pressPager]
          split
          · exact Or.inl ((closeLayer_quiet _).after hpressed)
          · exact Or.inl (hpressed.quiet plain_nil)

/-! ## Messages other than keys -/

theorem setRows_alike {s : State} {view : View} (h : view ≠ .monitor) (rows : List Row) :
    Alike s (s.setRows view rows) :=
  ⟨rfl, fun _ hid => hid.modifyTable fun hview => absurd hview h, rfl, rfl, rfl⟩

theorem setPager_alike {s : State} {layer : PagerLayer} (h : s.layer = some (.pager layer))
    (pager : Pager) : Alike s (s.setPager layer pager) := by
  refine ⟨rfl, fun _ hid => hid, rfl, rfl, ?_⟩
  unfold shownToken?
  rw [h]
  rfl

theorem onPagerText_quiet (s : State) (id : Nat) (text : List Char) {next : Token → Cmd}
    (hnext : ∀ token, (next token).Plain) : Quiet s (s.onPagerText id text next) := by
  unfold onPagerText
  split
  · exact Alike.quiet ⟨rfl, fun _ h => h, rfl, rfl, rfl⟩ plain_nil
  · next layer hfound =>
    have halike := setPager_alike (pagerLayer?_eq_some hfound) (layer.pager.append text)
    simp only
    split
    · split
      · exact halike.quiet plain_nil
      · exact halike.quiet (plain_singleton (hnext _))
    · exact halike.quiet plain_nil

theorem onPagerEnded_quiet (s : State) (id : Nat) (error : Option String) :
    Quiet s (s.onPagerEnded id error) := by
  unfold onPagerEnded
  split
  · exact Alike.quiet ⟨rfl, fun _ h => h, rfl, rfl, rfl⟩ plain_nil
  · next layer hfound =>
    exact (setPager_alike (pagerLayer?_eq_some hfound) (layer.pager.close error)).quiet plain_nil

theorem onLoaded_quiet {s : State} {view : View} (hview : view ≠ .monitor)
    (scope : Option TaskScope) (rows : List Row) : Quiet s (s.onLoaded view scope rows) := by
  unfold onLoaded
  split
  · exact Alike.quiet ⟨rfl, fun _ h => h, rfl, rfl, rfl⟩ plain_nil
  · have hended : Alike s { s with loading := s.loading.set view false } :=
      ⟨rfl, fun _ h => h, rfl, rfl, rfl⟩
    have hrows := hended.trans (setRows_alike hview rows)
    have hfresh : Alike s {
        ({ s with loading := s.loading.set view false } : State).setRows view rows with
        stale := s.stale.set view false } :=
      hrows.trans ⟨rfl, fun _ h => h, rfl, rfl, rfl⟩
    simp only
    split
    · exact (requestLoad_quiet _ view).after hfresh
    · exact hfresh.quiet plain_nil

theorem onText_quiet (s : State) (title text : String) : Quiet s (s.onText title text) := by
  unfold onText
  split
  · exact Alike.quiet ⟨rfl, fun _ h => h, rfl, rfl, rfl⟩ plain_nil
  · exact openPager_quiet rfl rfl (Nat.le_refl _) rfl rfl nofun plain_nil

theorem onEvent_quiet (s : State) (event : DaemonEvent) (rest : Feed DaemonEvent) :
    Quiet s (s.onEvent event rest) := by
  have hshow (s : State) : Alike s (s.showEvent event) := by
    unfold showEvent
    split
    · next layer hlayer =>
      split
      · exact setPager_alike hlayer _
      · exact ⟨rfl, fun _ h => h, rfl, rfl, rfl⟩
    · exact ⟨rfl, fun _ h => h, rfl, rfl, rfl⟩
  have hnoted : Alike s (s.noteChange event).1 := by
    obtain ⟨debouncer, hnote⟩ := noteChange_changes s event
    rw [hnote]
    exact ⟨rfl, fun _ h => h, rfl, rfl, rfl⟩
  have hkept : Alike s (s.onEvent event rest).1 :=
    (hnoted.trans (hshow _)).trans ⟨rfl, fun _ h => h, rfl, rfl, rfl⟩
  refine hkept.quiet fun cmd hcmd => ?_
  rcases List.mem_cons.mp hcmd with rfl | hcmd
  · exact ⟨fun _ => rfl, nofun⟩
  · obtain ⟨after, rfl⟩ := mem_noteChange hcmd
    exact timer_plain after _

theorem onAlarm_quiet (s : State) (alarm : Alarm) : Quiet s (s.onAlarm alarm) := by
  cases alarm with
  | debounceElapsed =>
      have hflushed : Alike s { s with debouncer := s.debouncer.flush.1 } :=
        ⟨rfl, fun _ h => h, rfl, rfl, rfl⟩
      simp only [onAlarm]
      split
      · exact (requestLoad_quiet _ _).after hflushed
      · exact hflushed.quiet plain_nil
  | statusExpired seq =>
      simp only [onAlarm]
      split <;> exact Alike.quiet ⟨rfl, fun _ h => h, rfl, rfl, rfl⟩ plain_nil
  | monitorTick epoch =>
      simp only [onAlarm, onMonitorTick]
      split
      · exact (requestLoad_quiet s .monitor).issuing
          (plain_append (requestLoad_plain s _) (plain_singleton (timer_plain _ _)))
      · exact Alike.quiet ⟨rfl, fun _ h => h, rfl, rfl, rfl⟩ plain_nil

theorem onDone_quiet (s : State) (op : Operation) (detail : String) :
    Quiet s (s.onDone op detail) := by
  have hstatus : Alike s (s.setStatus false (op.successMessage detail)).1 :=
    ⟨rfl, fun _ h => h, rfl, rfl, rfl⟩
  exact ((requestLoad_quiet _ _).after hstatus).issuing
    (plain_append (plain_singleton (timer_plain _ _)) (requestLoad_plain _ _))

/-! ## Every message -/

/-- The tokens of the reads in flight when a message has been taken: the read it comes from is not
among them any more. -/
def held (s : State) (msg : Msg) (id : String) : List Token :=
  if msg.samples? = some id then [] else (s.subscription? id).toList

/-- The monitor is in order after a step, if the reads in flight before it were those of `held`. -/
structure Tended (s : State) (held : String → List Token) (r : Step) : Prop where
  sound : r.1.Sound
  rowed : r.1.Rowed
  kept : ∀ token ∈ s.cancelled, token ∈ r.1.cancelled
  loads : ∀ cmd ∈ r.2, ∀ all scope, cmd ≠ .load .monitor all scope
  serves : Serves held r

theorem subscription?_of_monitor {s s' : State} (h : s'.monitor = s.monitor) (id : String) :
    s'.subscription? id = s.subscription? id := by
  unfold subscription?
  rw [h]

theorem filter_live {s : State} (hs : s.Sound) (id : String) :
    ((s.subscription? id).toList.filter fun token => !s.cancelled.contains token) =
      (s.subscription? id).toList := by
  rw [List.filter_eq_self]
  intro token htoken
  have hlive := hs.not_cancelled (Option.mem_toList.mp htoken)
  simpa using hlive

/-- The reads in flight are those of the subscriptions if no subscription was cancelled. -/
theorem serves_of_eq {held : String → List Token} {r : Step} (hs : r.1.Sound)
    (heq : ∀ id, held id ++ readsOf id r.2 = (r.1.subscription? id).toList) : Serves held r := by
  intro id
  rw [heq id]
  exact (filter_live hs id).symm

theorem Quiet.rowed {s : State} {r : Step} (h : Quiet s r) (hrowed : s.Rowed) : r.1.Rowed := by
  intro id token hsub
  rw [subscription?_of_monitor h.monitor] at hsub
  exact h.shows id (hrowed id token hsub)

theorem Quiet.tended {s : State} {r : Step} (h : Quiet s r) (hs : s.Sound) (hrowed : s.Rowed) :
    Tended s (fun id => (s.subscription? id).toList) r := by
  refine ⟨h.sound hs, h.rowed hrowed, h.kept, fun cmd hcmd => (h.cmds cmd hcmd).2,
    serves_of_eq (h.sound hs) fun id => ?_⟩
  rw [readsOf_plain h.cmds, List.append_nil, subscription?_of_monitor h.monitor]

theorem Stopped.tended {s : State} {r : Step} (h : Stopped s r) (hs : s.Sound) :
    Tended s (fun id => (s.subscription? id).toList) r := by
  have hnone (id : String) : r.1.subscription? id = none := by
    unfold subscription?
    rw [h.monitor]
    rfl
  refine ⟨h.sound hs, fun id token hsub => ?_, h.kept, fun cmd hcmd => (h.cmds cmd hcmd).2,
    fun id => ?_⟩
  · rw [hnone] at hsub
    cases hsub
  · -- The read of every subscription is in flight still, but it is cancelled.
    rw [hnone, readsOf_plain h.cmds, List.append_nil]
    refine (List.filter_eq_nil_iff.mpr fun token htoken => ?_).symm
    have hcancelled := h.all token (Sound.token_mem (Option.mem_toList.mp htoken))
    simpa using hcancelled

theorem updateMonitored_alike {s : State} {id : String} {change : Monitored → Monitored}
    (hchange : ∀ m, (change m).id = m.id) : Alike s (s.updateMonitored id change) := by
  have hshows (other : String) (h : s.Shows other) : (s.updateMonitored id change).Shows other :=
    h.updateMonitored hchange
  obtain ⟨tables, hupdate⟩ := updateMonitored_changes s id change
  rw [hupdate] at hshows ⊢
  exact ⟨rfl, hshows, rfl, rfl, rfl⟩

theorem held_of_ne {s : State} {msg : Msg} {id : String} (h : msg.samples? ≠ some id) :
    s.held msg id = (s.subscription? id).toList :=
  if_neg h

theorem held_of_eq {s : State} {msg : Msg} {id : String} (h : msg.samples? = some id) :
    s.held msg id = [] :=
  if_pos h

/-- Samples for a container that is not read are dropped. -/
theorem dropped_tended {s : State} (hs : s.Sound) (hrowed : s.Rowed) {msg : Msg} {id : String}
    (hmsg : msg.samples? = some id) (hsub : s.subscription? id = none) :
    Tended s (s.held msg) s.noCmds := by
  refine ⟨hs, hrowed, fun token htoken => htoken, fun cmd hcmd => (by cases hcmd),
    serves_of_eq hs fun other => ?_⟩
  show s.held msg other ++ [] = (s.subscription? other).toList
  rw [List.append_nil]
  by_cases hid : msg.samples? = some other
  · have heq : other = id := Option.some.inj (hid.symm.trans hmsg)
    rw [held_of_eq hid, heq, hsub]
    rfl
  · exact held_of_ne hid

theorem onSample_tended {s : State} (hs : s.Sound) (hrowed : s.Rowed) (id : String)
    (sample : Sample) (rest : Feed Sample) :
    Tended s (s.held (.statSample (.monitor id) sample rest))
      (s.onSample (.monitor id) sample rest) := by
  simp only [onSample]
  cases hsub : s.subscription? id with
  | none => exact dropped_tended hs hrowed rfl hsub
  | some token =>
      show Tended s _ (s.updateMonitored id fun m => { m with sample := some sample },
        [.readStats (.monitor id) rest token])
      have halike : Alike s (s.updateMonitored id fun m => { m with sample := some sample }) :=
        updateMonitored_alike fun _ => rfl
      have hquiet : Quiet s (s.updateMonitored id fun m =>
          { m with sample := some sample }).noCmds := halike.quiet plain_nil
      refine ⟨hquiet.sound hs, hquiet.rowed hrowed, hquiet.kept, fun cmd hcmd => ?_,
        serves_of_eq (hquiet.sound hs) fun other => ?_⟩
      · intro all scope hload
        rw [List.mem_singleton.mp hcmd] at hload
        cases hload
      · -- The read of the container has been answered, and the next one is issued.
        rw [subscription?_of_monitor halike.monitor]
        by_cases hid : id = other
        · subst hid
          rw [held_of_eq rfl, hsub]
          simp [readsOf, Cmd.monitorRead?]
        · have hne : (Msg.statSample (.monitor id) sample rest).samples? ≠ some other :=
            fun h => hid (Option.some.inj h)
          rw [held_of_ne hne]
          simp [readsOf, Cmd.monitorRead?, hid]

theorem onStatsEnded_tended {s : State} (hs : s.Sound) (hrowed : s.Rowed) (id : String)
    (error : Option String) :
    Tended s (s.held (.statsEnded (.monitor id) error)) (s.onStatsEnded (.monitor id) error) := by
  simp only [onStatsEnded]
  cases hsub : s.subscription? id with
  | none => exact dropped_tended hs hrowed rfl hsub
  | some token =>
      have halike : Alike (s.unsubscribe id) ((s.unsubscribe id).updateMonitored id fun m =>
          { m with ended := some (error.getD "ended") }) :=
        updateMonitored_alike fun _ => rfl
      have hquiet : Quiet (s.unsubscribe id) ((s.unsubscribe id).updateMonitored id fun m =>
          { m with ended := some (error.getD "ended") }).noCmds := halike.quiet plain_nil
      have hsound := hquiet.sound (unsubscribe_sound hs id)
      have hunsubscribed : (s.unsubscribe id).Rowed := by
        intro other token hother
        rw [subscription?_unsubscribe] at hother
        split at hother
        · cases hother
        · exact hrowed other token hother
      refine ⟨hsound, hquiet.rowed hunsubscribed, hquiet.kept, fun cmd hcmd => (by cases hcmd),
        serves_of_eq hsound fun other => ?_⟩
      show s.held (.statsEnded (.monitor id) error) other ++ [] =
        (State.subscription? _ other).toList
      rw [List.append_nil, subscription?_of_monitor hquiet.monitor, subscription?_unsubscribe]
      by_cases hid : id = other
      · subst hid
        rw [if_pos rfl, held_of_eq rfl]
        rfl
      · have hne : (Msg.statsEnded (.monitor id) error).samples? ≠ some other :=
          fun h => hid (Option.some.inj h)
        rw [if_neg hid, held_of_ne hne]

theorem Serves.of_eq {held : String → List Token} {r r' : Step} (h : Serves held r)
    (hmonitor : r'.1.monitor = r.1.monitor) (hcancelled : r'.1.cancelled = r.1.cancelled)
    (hcmds : ∀ id, readsOf id r'.2 = readsOf id r.2) : Serves held r' := by
  intro id
  rw [subscription?_of_monitor hmonitor, hcancelled, hcmds]
  exact h id

theorem onMonitorListed_tended {s : State} (hs : s.Sound) (hrowed : s.Rowed)
    {containers : List Container} (honce : (Msg.monitorListed containers).NamesOnce) :
    Tended s (fun id => (s.subscription? id).toList) (s.onMonitorListed containers) := by
  let s' : State := { s with loading := s.loading.set .monitor false }
  have hended : Alike s s' := ⟨rfl, fun _ h => h, rfl, rfl, rfl⟩
  have hquiet : Quiet s s'.noCmds := hended.quiet plain_nil
  by_cases hview : s.view = .monitor
  · have hs' : s'.Sound := hquiet.sound hs
    have hrowed' : s'.Rowed := hquiet.rowed hrowed
    have hlisted : Tended s (fun id => (s.subscription? id).toList) (s'.relisted containers) := by
      refine ⟨relisted_sound hs' containers, relisted_rowed hrowed' containers,
        fun token htoken => relisted_kept htoken, fun cmd hcmd => ?_,
        relisted_serves hs' hrowed' (honce containers rfl)⟩
      obtain ⟨id, token, rfl⟩ := relist_opens hcmd
      nofun
    rcases onMonitorListed_cases containers hview with heq | ⟨stale, heq⟩
    · rw [heq]
      exact hlisted
    · have hstale : Alike (s'.relisted containers).1 { (s'.relisted containers).1 with stale } :=
        ⟨rfl, fun _ h => h, rfl, rfl, rfl⟩
      have hload := (requestLoad_quiet _ .monitor).after hstale
      have halike := hstale.trans (requestLoad_alike _ .monitor)
      rw [heq]
      refine ⟨hload.sound hlisted.sound, hload.rowed hlisted.rowed,
        fun token htoken => hload.kept token (hlisted.kept token htoken), fun cmd hcmd => ?_,
        hlisted.serves.of_eq halike.monitor halike.cancelled fun id => ?_⟩
      · rcases List.mem_append.mp hcmd with hcmd | hcmd
        · exact hlisted.loads cmd hcmd
        · exact (hload.cmds cmd hcmd).2
      · rw [readsOf_append, readsOf_plain hload.cmds, List.append_nil]
  · rw [onMonitorListed_left containers hview]
    exact hquiet.tended hs hrowed

/-- **Messages and reads.** Whatever a message does, the reads in flight afterwards are those of
the subscriptions. -/
theorem step_tended {s : State} (hs : s.Sound) (hrowed : s.Rowed) {msg : Msg}
    (hload : ∀ scope rows, msg ≠ .loaded .monitor scope rows) (honce : msg.NamesOnce) :
    Tended s (s.held msg) (s.step msg) := by
  have hquiet {r : Step} (h : Quiet s r) : Tended s (fun id => (s.subscription? id).toList) r :=
    h.tended hs hrowed
  cases msg with
  | key key =>
      rcases press_monitor s key with h | h
      · exact hquiet h
      · exact h.tended hs
  | resize width height =>
      have hsize : Alike s { s with width, height } := ⟨rfl, fun _ h => h, rfl, rfl, rfl⟩
      exact hquiet ((hsize.trans (resizeAll_alike _)).quiet plain_nil)
  | summary summary => exact hquiet (Alike.quiet ⟨rfl, fun _ h => h, rfl, rfl, rfl⟩ plain_nil)
  | summaryFailed error => exact hquiet (Alike.quiet ⟨rfl, fun _ h => h, rfl, rfl, rfl⟩ plain_nil)
  | loaded view scope rows =>
      have hview : view ≠ .monitor := by
        rintro rfl
        exact hload scope rows rfl
      exact hquiet (onLoaded_quiet hview scope rows)
  | loadFailed view error =>
      have hended : Alike s { s with
          loading := s.loading.set view false
          stale := s.stale.set view false } := ⟨rfl, fun _ h => h, rfl, rfl, rfl⟩
      exact hquiet ((fail_quiet _ _).after hended)
  | monitorListed containers => exact onMonitorListed_tended hs hrowed honce
  | textLoaded title text => exact hquiet (onText_quiet s title text)
  | textFailed title error => exact hquiet (fail_quiet s _)
  | operationDone op detail => exact hquiet (onDone_quiet s op detail)
  | operationFailed op error => exact hquiet (fail_quiet s _)
  | logChunk pager text reader =>
      exact hquiet (onPagerText_quiet s pager text fun _ => ⟨fun _ => rfl, nofun⟩)
  | logEnded pager error => exact hquiet (onPagerEnded_quiet s pager error)
  | statSample sink sample rest =>
      cases sink with
      | monitor id => exact onSample_tended hs hrowed id sample rest
      | pager id => exact hquiet (onPagerText_quiet s id _ fun _ => ⟨fun _ => rfl, nofun⟩)
  | statsEnded sink error =>
      cases sink with
      | monitor id => exact onStatsEnded_tended hs hrowed id error
      | pager id => exact hquiet (onPagerEnded_quiet s id error)
  | daemonEvent event rest => exact hquiet (onEvent_quiet s event rest)
  | eventsEnded error => exact hquiet (fail_quiet s _)
  | alarm alarm => exact hquiet (onAlarm_quiet s alarm)

theorem begin_quiet (s : State) : Quiet s s.begin :=
  (requestLoad_quiet s s.view).issuing (plain_append (fun cmd hcmd => by
    rcases List.mem_cons.mp hcmd with rfl | hcmd
    · exact ⟨fun _ => rfl, nofun⟩
    · rw [List.mem_singleton.mp hcmd]
      exact ⟨fun _ => rfl, nofun⟩) (requestLoad_plain s s.view))

theorem Tended.congr {s : State} {held held' : String → List Token} {r : Step}
    (h : Tended s held r) (heq : ∀ id, held' id = held id) : Tended s held' r := by
  refine ⟨h.sound, h.rowed, h.kept, h.loads, fun id => ?_⟩
  rw [heq]
  exact h.serves id

end State

end Dockboard
