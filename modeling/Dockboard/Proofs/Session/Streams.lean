import Dockboard.Proofs.Session.Tokens

set_option autoImplicit false

/-! # Streams of pagers

A pager that shows a log or samples has its stream read by one command after the other: the first
is issued when the pager is opened, and each of the others when the one before it has been answered.
The pager may be closed or replaced at any time, which cancels its token; the command that is
outstanding then is still answered, and its answer finds no pager of its number.

    Cmd.readsFor id       a command reads for a pager
    Rests s r             pagers are left alone
    Flow s to? r          what a step does to the pager, when a message for `to?` has come
    Served x              one command reads for the pager on the screen, if its stream is live
    Spent id x            nothing reads for a pager any more
-/

namespace Dockboard

open Dockboard.Stream

/-! ## Reads for pagers -/

/-- Whether a pager shows a stream that is read for it. -/
def PagerKind.isStream : PagerKind → Bool
  | .logs | .stats => true
  | .text | .events => false

/-- Whether a command reads for a pager. -/
def Cmd.readsFor (id : Nat) (cmd : Cmd) : Bool := cmd.stream?.any fun p => p.1 == id

theorem Cmd.readsFor_iff {id : Nat} {cmd : Cmd} :
    cmd.readsFor id = true ↔ ∃ token, cmd.stream? = some (id, token) := by
  unfold readsFor
  cases cmd.stream? with
  | none => simp
  | some stream => simp [Prod.ext_iff]

theorem Cmd.readsFor_eq_false {cmd : Cmd} (h : cmd.stream? = none) (id : Nat) :
    cmd.readsFor id = false := by
  unfold readsFor
  rw [h]
  rfl

theorem Cmd.stream?_of_isIdle {cmd : Cmd} (h : cmd.isIdle = true) : cmd.stream? = none := by
  unfold stream?
  split <;> first | cases h | rfl

/-- A message is addressed to the pager for which the command has read that it answers. -/
theorem Cmd.Yields.pager?_eq {cmd : Cmd} {msg : Msg} (h : cmd.Yields msg) :
    msg.pager? = cmd.stream?.map Prod.fst := by
  cases h
  case timer after alarm => cases alarm <;> rfl
  case statsOpened sink id token sample rest => cases sink <;> rfl
  case statsNotOpened sink id token error => cases sink <;> rfl
  case statsRead sink feed token sample rest => cases sink <;> rfl
  case statsEnded sink feed token error => cases sink <;> rfl
  all_goals rfl

theorem Calm.pager? {msg? : Option Msg} (h : Calm msg?) : msg?.bind Msg.pager? = none := by
  cases msg? with
  | none => rfl
  | some msg =>
      have hcalm := h msg rfl
      unfold Msg.isReport at hcalm
      show msg.pager? = none
      unfold Msg.pager?
      split <;> first | cases hcalm | rfl

/-- None of the commands reads for a pager. -/
def Unread (cmds : List Cmd) : Prop := ∀ cmd ∈ cmds, cmd.stream? = none

theorem unread_nil : Unread [] := fun _ h => by cases h

theorem unread_idle {cmds : List Cmd} (h : ∀ cmd ∈ cmds, cmd.isIdle = true) : Unread cmds :=
  fun cmd hcmd => Cmd.stream?_of_isIdle (h cmd hcmd)

theorem Unread.countP {cmds : List Cmd} (h : Unread cmds) (id : Nat) :
    cmds.countP (Cmd.readsFor id) = 0 := by
  refine List.countP_eq_zero.mpr fun cmd hcmd => ?_
  rw [Cmd.readsFor_eq_false (h cmd hcmd)]
  exact Bool.false_ne_true

theorem countP_readsFor_singleton {cmd : Cmd} {id : Nat} {token : Token}
    (h : cmd.stream? = some (id, token)) (other : Nat) :
    [cmd].countP (Cmd.readsFor other) = if other = id then 1 else 0 := by
  have hreads : cmd.readsFor other = (id == other) := by
    unfold Cmd.readsFor
    rw [h]
    rfl
  rw [List.countP_singleton, hreads]
  by_cases heq : other = id
  · simp [heq]
  · have hne : id ≠ other := fun h => heq h.symm
    simp [heq, hne]

namespace State

theorem loadCmd_stream? (s : State) (view : View) : (s.loadCmd view).stream? = none := by
  rcases loadCmd_cases s view with ⟨-, hcmd⟩ | ⟨-, scope, hcmd⟩
  · rw [hcmd]
    rfl
  · rw [hcmd]
    rfl

theorem requestLoad_unread (s : State) (view : View) : Unread (s.requestLoad view).2 := by
  intro cmd hcmd
  rw [mem_requestLoad hcmd]
  exact loadCmd_stream? s view

/-! ## What a step does to the pager -/

/-- A step leaves pagers alone. Tokens it cancels are those of the monitor. -/
structure Rests (s : State) (r : Step) : Prop where
  source : r.1.source? = s.source?
  last : r.1.lastPager = s.lastPager
  cancelled : ∀ token ∈ r.1.cancelled, token ∈ s.cancelled ∨ token ∈ s.monitor.map Prod.snd
  cmds : Unread r.2

theorem Rests.of_eq {s : State} {r : Step} (hsource : r.1.source? = s.source?)
    (hlast : r.1.lastPager = s.lastPager) (hcancelled : r.1.cancelled = s.cancelled)
    (hcmds : Unread r.2) : Rests s r := by
  refine ⟨hsource, hlast, fun token htoken => Or.inl ?_, hcmds⟩
  rw [← hcancelled]
  exact htoken

theorem requestLoad_rests (s : State) (view : View) : Rests s (s.requestLoad view) := by
  obtain ⟨loading, stale, hload⟩ := requestLoad_changes s view
  exact .of_eq (by rw [hload]; rfl) (by rw [hload]) (by rw [hload]) (requestLoad_unread s view)

theorem switchView_rests (s : State) (target : View) : Rests s (s.switchView target) := by
  have hstop := stopMonitor_stopped s
  obtain ⟨tables, cancelled, hleave⟩ := stopMonitor_changes s
  obtain ⟨⟨monitorEpoch, loading, stale, hswitch⟩, hcmds⟩ := switchView_changes s target
  refine ⟨?_, ?_, ?_, fun cmd hcmd => ?_⟩
  · rw [hswitch, hleave]
    split <;> rfl
  · rw [hswitch, hleave]
    split <;> rfl
  · rw [hswitch]
    intro token htoken
    split at htoken
    · exact hstop.cancelled token htoken
    · exact Or.inl htoken
  · rcases hcmds cmd hcmd with ⟨s', rfl⟩ | ⟨after, epoch, rfl⟩
    · exact loadCmd_stream? s' target
    · rfl

theorem enterTaskView_rests (s : State) (scope : TaskScope) : Rests s (s.enterTaskView scope) := by
  obtain ⟨previous, tables, -, henter⟩ := enterTaskView_changes s scope
  have hswitch := switchView_rests { s with
    previous
    tables
    taskScope := some scope
    loading := s.loading.set scope.view false } scope.view
  rw [henter]
  exact ⟨hswitch.source, hswitch.last, hswitch.cancelled, hswitch.cmds⟩

theorem onMonitorListed_rests (s : State) (containers : List Container) :
    Rests s (s.onMonitorListed containers) := by
  let s' : State := { s with loading := s.loading.set .monitor false }
  by_cases hview : s.view = .monitor
  · obtain ⟨tables, monitor, nextToken, cancelled, hrelisted⟩ := relisted_changes s' containers
    have hlisted : Rests s (s'.relisted containers) := by
      refine ⟨by rw [hrelisted]; rfl, by rw [hrelisted], fun token htoken => ?_, fun cmd hcmd => ?_⟩
      · rcases mem_cancelled_relisted.mp htoken with hold | ⟨m, -, hsub, -⟩
        · exact Or.inl hold
        · exact Or.inr (Sound.token_mem hsub)
      · obtain ⟨id, token, rfl⟩ := relist_opens hcmd
        rfl
    rcases onMonitorListed_cases containers hview with heq | ⟨stale, heq⟩
    · rw [heq]
      exact hlisted
    · have hload := requestLoad_rests { (s'.relisted containers).1 with stale } .monitor
      obtain ⟨loading, stale', hchanges⟩ :=
        requestLoad_changes { (s'.relisted containers).1 with stale } .monitor
      rw [heq]
      refine ⟨hload.source.trans hlisted.source, hload.last.trans hlisted.last, ?_, ?_⟩
      · rw [hchanges]
        exact hlisted.cancelled
      · exact List.forall_mem_append.mpr ⟨hlisted.cmds, hload.cmds⟩
  · rw [onMonitorListed_left containers hview]
    exact .of_eq rfl rfl rfl unread_nil

/-- What a step does to the pager on the screen, where a message for the pager `to?` has come. -/
inductive Flow (s : State) (to? : Option Nat) (r : Step) : Prop where
  | rests (hrests : Rests s r) (hto : ∀ source, s.source? = some source → to? ≠ some source.id)
  | closes (hto : to? = none) (hsource : r.1.source? = none) (hlast : r.1.lastPager = s.lastPager)
      (hclosed : ∀ token, s.shownToken? = some token → token ∈ r.1.cancelled)
      (hcmds : Unread r.2)
  /-- A new pager takes the place of the one before. If it is given a token, its stream is read. -/
  | opens (hto : to? = none) (source : PagerSource) (hsource : r.1.source? = some source)
      (hid : source.id = s.lastPager + 1) (hlast : r.1.lastPager = s.lastPager + 1)
      (hclosed : ∀ token, s.shownToken? = some token → token ∈ r.1.cancelled)
      (hkind : source.token.isSome = source.kind.isStream)
      (hlive : ∀ token, source.token = some token →
        token ∉ r.1.cancelled ∧ source.stream = .live)
      (hcmds : ∀ id, r.2.countP (Cmd.readsFor id) =
        if id = source.id ∧ source.token.isSome then 1 else 0)
  /-- The stream goes on. -/
  | reads (source : PagerSource) (hbefore : s.source? = some source) (hto : to? = some source.id)
      (hsource : r.1.source? = some source) (hlast : r.1.lastPager = s.lastPager)
      (hcancelled : r.1.cancelled = s.cancelled)
      (hcmds : ∀ id, r.2.countP (Cmd.readsFor id) =
        if id = source.id ∧ ∃ token, source.token = some token ∧ token ∉ s.cancelled then 1 else 0)
  /-- The stream has come to an end. -/
  | ends (source : PagerSource) (hbefore : s.source? = some source) (hto : to? = some source.id)
      (stream : StreamState) (hstream : stream ≠ .live)
      (hsource : r.1.source? = some { source with stream }) (hlast : r.1.lastPager = s.lastPager)
      (hcancelled : r.1.cancelled = s.cancelled) (hcmds : r.2 = [])

theorem Flow.after {s s' : State} {to? : Option Nat} {r : Step} (h : Flow s' to? r)
    (haside : Aside s s') : Flow s to? r := by
  have hsource : s'.source? = s.source? := congrArg Core.source? haside.core
  have hlast : s'.lastPager = s.lastPager := congrArg Core.lastPager haside.core
  have hcancelled : s'.cancelled = s.cancelled := congrArg Core.cancelled haside.core
  have hmonitor : s'.monitor = s.monitor := congrArg Core.monitor haside.core
  have hshown : s'.shownToken? = s.shownToken? := by rw [shownToken?_eq, shownToken?_eq, hsource]
  cases h with
  | rests hrests hto =>
      obtain ⟨hsource', hlast', hcancelled', hcmds⟩ := hrests
      rw [hsource] at hsource' hto
      rw [hlast] at hlast'
      rw [hcancelled, hmonitor] at hcancelled'
      exact .rests ⟨hsource', hlast', hcancelled', hcmds⟩ hto
  | closes hto hsource' hlast' hclosed hcmds =>
      rw [hlast] at hlast'
      rw [hshown] at hclosed
      exact .closes hto hsource' hlast' hclosed hcmds
  | opens hto source hsource' hid hlast' hclosed hkind hlive hcmds =>
      rw [hlast] at hid hlast'
      rw [hshown] at hclosed
      exact .opens hto source hsource' hid hlast' hclosed hkind hlive hcmds
  | reads source hbefore hto hsource' hlast' hcancelled' hcmds =>
      rw [hsource] at hbefore
      rw [hlast] at hlast'
      rw [hcancelled] at hcancelled' hcmds
      exact .reads source hbefore hto hsource' hlast' hcancelled' hcmds
  | ends source hbefore hto stream hstream hsource' hlast' hcancelled' hcmds =>
      rw [hsource] at hbefore
      rw [hlast] at hlast'
      rw [hcancelled] at hcancelled'
      exact .ends source hbefore hto stream hstream hsource' hlast' hcancelled' hcmds

/-- A pager is opened under the next number, and the token of the one before is cancelled. -/
theorem openPager_opens (s : State) (kind : PagerKind) (pager : Pager) (token : Option Token) :
    (∃ source, (s.openPager kind pager token).source? = some source ∧
      source.id = s.lastPager + 1 ∧ source.kind = kind ∧ source.token = token ∧
      source.stream = pager.stream) ∧
    (s.openPager kind pager token).lastPager = s.lastPager + 1 ∧
    ∀ other, other ∈ (s.openPager kind pager token).cancelled ↔
      other ∈ s.cancelled ∨ s.shownToken? = some other := by
  have hlast : s.closeLayer.lastPager = s.lastPager := by
    obtain ⟨cancelled, hclose⟩ := closeLayer_changes s
    rw [hclose]
  refine ⟨⟨_, rfl, congrArg (· + 1) hlast, rfl, rfl, Pager.resize_stream _ _ _⟩,
    congrArg (· + 1) hlast, fun other => mem_cancelled_closeLayer⟩

/-- A pager without a token is opened. -/
theorem openPager_flow (s : State) {kind : PagerKind} (pager : Pager)
    (hkind : kind.isStream = false) : Flow s none (s.openPager kind pager none).noCmds := by
  obtain ⟨⟨source, hsource, hid, hsame, hnone, -⟩, hlast, hcancelled⟩ :=
    openPager_opens s kind pager none
  refine .opens rfl source hsource hid hlast (fun token h => (hcancelled token).mpr (Or.inr h))
    ?_ ?_ fun id => ?_
  · rw [hnone, hsame, hkind]
    rfl
  · rw [hnone]
    nofun
  · rw [hnone]
    exact (unread_nil.countP id).trans (if_neg fun h => by cases h.2).symm

/-- A pager is opened under a new token, and its stream is read. -/
theorem freshPager_flow {s : State} (hs : s.Sound) {kind : PagerKind} {pager : Pager} {cmd : Cmd}
    (hkind : kind.isStream = true) (hstream : pager.stream = .live)
    (hcmd : cmd.stream? = some (s.lastPager + 1, s.nextToken)) :
    Flow s none (s.freshToken.2.openPager kind pager (some s.freshToken.1), [cmd]) := by
  obtain ⟨⟨source, hsource, hid, hsame, hsome, hlive⟩, hlast, hcancelled⟩ :=
    openPager_opens s.freshToken.2 kind pager (some s.freshToken.1)
  refine .opens rfl source hsource hid hlast (fun token h => (hcancelled token).mpr (Or.inr h))
    ?_ (fun token htoken => ⟨fun hmem => ?_, hlive.trans hstream⟩) fun id => ?_
  · rw [hsome, hsame, hkind]
    rfl
  · -- The new token has not been given out before.
    rw [hsome] at htoken
    cases htoken
    rcases (hcancelled s.nextToken).mp hmem with hold | hshown
    · exact Nat.lt_irrefl _ (hs.cancelled_given _ hold)
    · exact Nat.lt_irrefl _ (hs.apart _ hshown).1
  · rw [countP_readsFor_singleton hcmd, hsome]
    simp only [hid, Option.isSome_some, and_true]
    rfl

theorem Move.flow {s : State} {r : Step} (h : Move s r) (hs : s.Sound) : Flow s none r := by
  have hrests {r : Step} (h : Rests s r) : Flow s none r := .rests h nofun
  cases h with
  | nothing cmds hidle => exact hrests (.of_eq rfl rfl rfl (unread_idle hidle))
  | load first hidle =>
      have hload := requestLoad_rests s s.view
      exact hrests ⟨hload.source, hload.last, hload.cancelled,
        List.forall_mem_append.mpr ⟨unread_idle hidle, hload.cmds⟩⟩
  | toggle hview =>
      have hload := requestLoad_rests { s with showAll := !s.showAll } s.view
      exact hrests ⟨hload.source, hload.last, hload.cancelled, hload.cmds⟩
  | switch target => exact hrests (switchView_rests s target)
  | tasks scope => exact hrests (enterTaskView_rests s scope)
  | opened kind pager hkind =>
      refine openPager_flow s pager ?_
      rcases hkind with rfl | rfl <;> rfl
  | logs target => exact freshPager_flow hs rfl rfl rfl
  | stats target => exact freshPager_flow hs rfl rfl rfl
  | closed =>
      have hclosed (token : Token) (h : s.shownToken? = some token) :
          token ∈ s.closeLayer.cancelled :=
        mem_cancelled_closeLayer.mpr (Or.inr h)
      obtain ⟨cancelled, hclose⟩ := closeLayer_changes s
      refine .closes rfl ?_ ?_ hclosed unread_nil
      · show s.closeLayer.source? = none
        rw [hclose]
        rfl
      · show s.closeLayer.lastPager = s.lastPager
        rw [hclose]

theorem pagerLayer?_cases (s : State) (id : Nat) :
    (∃ layer, s.pagerLayer? id = some layer ∧ s.layer = some (.pager layer) ∧ layer.id = id) ∨
      s.pagerLayer? id = none ∧ ∀ source, s.source? = some source → source.id ≠ id := by
  unfold pagerLayer? source?
  cases s.layer with
  | none => exact Or.inr ⟨rfl, nofun⟩
  | some layer =>
      cases layer with
      | prompt p => exact Or.inr ⟨rfl, nofun⟩
      | pager layer =>
          by_cases hid : layer.id = id
          · exact Or.inl ⟨layer, if_pos hid, rfl, hid⟩
          · refine Or.inr ⟨if_neg hid, fun source hsource => ?_⟩
            cases hsource
            exact hid

theorem setPager_source? (s : State) (layer : PagerLayer) (pager : Pager) :
    (s.setPager layer pager).source? = some { layer.source with stream := pager.stream } :=
  rfl

theorem onPagerText_flow (s : State) (id : Nat) (text : List Char) {next : Token → Cmd}
    (hnext : ∀ token, (next token).stream? = some (id, token)) :
    Flow s (some id) (s.onPagerText id text next) := by
  rcases pagerLayer?_cases s id with ⟨layer, hfound, hlayer, rfl⟩ | ⟨hfound, hother⟩
  · have hbefore : s.source? = some layer.source := source?_eq_some hlayer
    have hsource : (s.setPager layer (layer.pager.append text)).source? = some layer.source := by
      rw [setPager_source?, Pager.append_stream]
      rfl
    simp only [onPagerText, hfound]
    cases htoken : layer.token with
    | none =>
        refine .reads layer.source hbefore rfl hsource rfl rfl fun id => ?_
        refine (unread_nil.countP id).trans (if_neg ?_).symm
        rintro ⟨-, token, hsome, -⟩
        cases htoken.symm.trans hsome
    | some token =>
        by_cases hcancelled : token ∈ s.cancelled
        · have hstop :
              (s.setPager layer (layer.pager.append text)).cancelled.contains token = true :=
            List.contains_iff_mem.mpr hcancelled
          simp only [hstop, if_true]
          refine .reads layer.source hbefore rfl hsource rfl rfl fun id => ?_
          refine (unread_nil.countP id).trans (if_neg ?_).symm
          rintro ⟨-, other, hsome, hnot⟩
          cases htoken.symm.trans hsome
          exact hnot hcancelled
        · have hgo :
              ¬ (s.setPager layer (layer.pager.append text)).cancelled.contains token = true :=
            fun h => hcancelled (List.contains_iff_mem.mp h)
          simp only [hgo, Bool.false_eq_true, if_false]
          refine .reads layer.source hbefore rfl hsource rfl rfl fun id => ?_
          have hread : ∃ token, layer.source.token = some token ∧ token ∉ s.cancelled :=
            ⟨token, htoken, hcancelled⟩
          rw [countP_readsFor_singleton (hnext token)]
          simp only [hread, and_true]
          rfl
  · simp only [onPagerText, hfound]
    refine .rests (.of_eq rfl rfl rfl unread_nil) fun source hsource heq => ?_
    exact hother source hsource (Option.some.inj heq).symm

theorem onPagerEnded_flow (s : State) (id : Nat) (error : Option String) :
    Flow s (some id) (s.onPagerEnded id error) := by
  rcases pagerLayer?_cases s id with ⟨layer, hfound, hlayer, rfl⟩ | ⟨hfound, hother⟩
  · simp only [onPagerEnded, hfound]
    exact .ends layer.source (source?_eq_some hlayer) rfl _
      (layer.pager.close_stream_ne_live error) (setPager_source? s layer _) rfl rfl rfl
  · simp only [onPagerEnded, hfound]
    refine .rests (.of_eq rfl rfl rfl unread_nil) fun source hsource heq => ?_
    exact hother source hsource (Option.some.inj heq).symm

/-- **Events and pagers.** -/
theorem Reaction.flow {s : State} {msg? : Option Msg} {r : Step} (h : Reaction s msg? r)
    (hs : s.Sound) : Flow s (msg?.bind Msg.pager?) r := by
  cases h with
  | calm hcalm haside hmove =>
      rw [hcalm.pager?]
      exact (hmove.flow (hs.aside haside)).after haside
  | loaded view scope rows =>
      obtain ⟨⟨tables, loading, stale, hloaded⟩, hcmds⟩ := onLoaded_changes s view scope rows
      refine .rests (.of_eq (by rw [hloaded]; rfl) (by rw [hloaded]) (by rw [hloaded])
        fun cmd hcmd => ?_) nofun
      rw [hcmds cmd hcmd]
      exact loadCmd_stream? s view
  | loadFailed view error =>
      exact .rests (.of_eq rfl rfl rfl (unread_idle (idle_singleton rfl))) nofun
  | listed containers => exact .rests (onMonitorListed_rests s containers) nofun
  | text id text next hmsg hnext =>
      rw [Option.bind_some, hmsg]
      exact onPagerText_flow s id text hnext
  | ended id error hmsg =>
      rw [Option.bind_some, hmsg]
      exact onPagerEnded_flow s id error
  | sample id sample rest =>
      obtain ⟨⟨tables, hsample⟩, hcmds⟩ := onSample_changes s id sample rest
      refine .rests (.of_eq (by rw [hsample]; rfl) (by rw [hsample]) (by rw [hsample])
        fun cmd hcmd => ?_) nofun
      obtain ⟨token, rfl⟩ := hcmds cmd hcmd
      rfl
  | sampleEnd id error =>
      obtain ⟨⟨tables, monitor, hended⟩, hcmds⟩ := onStatsEnded_changes s id error
      refine .rests (.of_eq (by rw [hended]; rfl) (by rw [hended]) (by rw [hended]) ?_) nofun
      rw [hcmds]
      exact unread_nil
  | tick epoch =>
      obtain ⟨loading, stale, htick⟩ := onMonitorTick_changes s epoch
      refine .rests (.of_eq (by rw [htick]; rfl) (by rw [htick]) (by rw [htick])
        fun cmd hcmd => ?_) nofun
      unfold onMonitorTick at hcmd
      split at hcmd
      · rcases List.mem_append.mp hcmd with hcmd | hcmd
        · exact requestLoad_unread s .monitor cmd hcmd
        · rw [List.mem_singleton.mp hcmd]
          rfl
      · cases hcmd

/-- A message for another pager than the one on the screen does nothing. -/
theorem step_other_pager {s : State} {msg : Msg} {id : Nat} (hmsg : msg.pager? = some id)
    (hother : ∀ layer, s.layer = some (.pager layer) → layer.id ≠ id) :
    s.step msg = (s, []) := by
  have hfound : s.pagerLayer? id = none := by
    rcases pagerLayer?_cases s id with ⟨layer, -, hlayer, hid⟩ | ⟨hnone, -⟩
    · exact absurd hid (hother layer hlayer)
    · exact hnone
  unfold Msg.pager? at hmsg
  split at hmsg <;> cases hmsg <;>
    simp only [step, onSample, onStatsEnded, onPagerText, onPagerEnded, hfound, noCmds]

end State

/-! ## Runs -/

namespace System

/-- An event answers a read for a pager if it brings a message for it. -/
theorem answers_readsFor {x : System} {event : Event} (allowed : x.Allows event) (id : Nat) :
    event.answers (Cmd.readsFor id) = true ↔ event.msg?.bind Msg.pager? = some id := by
  cases event with
  | begin => simp [Event.answers, Event.msg?]
  | input msg =>
      -- What the user does is addressed to no pager.
      have hnone : msg.pager? = none := by cases msg <;> first | rfl | cases allowed
      simp [Event.answers, Event.msg?, hnone]
  | answer cmd number msg =>
      show cmd.readsFor id = true ↔ msg.pager? = some id
      rw [Cmd.readsFor_iff, allowed.2.pager?_eq]
      cases cmd.stream? with
      | none => simp
      | some stream => simp [Prod.ext_iff]

/-- One command reads for the pager on the screen if it has a token and its stream is live, and at
most one for any other. -/
structure Served (x : System) : Prop where
  once : ∀ id, x.outstanding (Cmd.readsFor id) ≤ 1
  /-- There are no pagers of later numbers yet. -/
  later : ∀ id, x.state.lastPager < id → x.outstanding (Cmd.readsFor id) = 0
  given : ∀ source, x.state.source? = some source → source.id ≤ x.state.lastPager
  kind : ∀ source, x.state.source? = some source → source.token.isSome = source.kind.isStream
  live : ∀ source, x.state.source? = some source → ∀ token, source.token = some token →
    token ∉ x.state.cancelled
  shown : ∀ source, x.state.source? = some source → x.outstanding (Cmd.readsFor source.id) =
    if source.token.isSome ∧ source.stream = .live then 1 else 0

section After

variable {x : System} {event : Event} (hnumbered : x.Numbered) (allowed : x.Allows event)
include hnumbered allowed

/-- An event answers the read for the pager that its message is addressed to. -/
theorem outstanding_readsFor (id : Nat) : (x.after event).outstanding (Cmd.readsFor id) +
      (if event.msg?.bind Msg.pager? = some id then 1 else 0) =
    x.outstanding (Cmd.readsFor id) + (x.state.react event).2.countP (Cmd.readsFor id) := by
  have hcount := outstanding_after hnumbered allowed (Cmd.readsFor id)
  simp only [answers_readsFor allowed] at hcount
  exact hcount

/-- A message for a pager answers a read for it. -/
theorem outstanding_of_addressed {id : Nat} (hto : event.msg?.bind Msg.pager? = some id) :
    1 ≤ x.outstanding (Cmd.readsFor id) := by
  have hanswers := answers_le_outstanding hnumbered allowed (Cmd.readsFor id)
  rwa [if_pos ((answers_readsFor allowed id).mpr hto)] at hanswers

/-- Where nothing is read for any pager, no more reads are outstanding than before. -/
theorem outstanding_of_unread (hcmds : Unread (x.state.react event).2) (id : Nat) :
    (x.after event).outstanding (Cmd.readsFor id) ≤ x.outstanding (Cmd.readsFor id) := by
  have hcount := outstanding_readsFor hnumbered allowed id
  rw [hcmds.countP] at hcount
  omega

theorem Served.of_rests (h : x.Served) (hs : x.state.Sound)
    (hrests : State.Rests x.state (x.state.react event))
    (hto : ∀ source, x.state.source? = some source →
      event.msg?.bind Msg.pager? ≠ some source.id) : (x.after event).Served := by
  have hsource : (x.after event).state.source? = x.state.source? := hrests.source
  have hlast : (x.after event).state.lastPager = x.state.lastPager := hrests.last
  have hless := outstanding_of_unread hnumbered allowed hrests.cmds
  refine ⟨fun id => Nat.le_trans (hless id) (h.once id), fun id hid => ?_, ?_, ?_, ?_, ?_⟩
  · rw [hlast] at hid
    exact Nat.le_zero.mp (Nat.le_trans (hless id) (Nat.le_of_eq (h.later id hid)))
  · rw [hsource, hlast]
    exact h.given
  · rw [hsource]
    exact h.kind
  · -- The token of a pager is none of the monitor, so it has not been cancelled.
    rw [hsource]
    intro source hshown token htoken hcancelled
    rcases hrests.cancelled token hcancelled with hold | hread
    · exact h.live source hshown token htoken hold
    · refine (hs.apart token ?_).2 hread
      rw [State.shownToken?_eq, hshown]
      exact htoken
  · rw [hsource]
    intro source hshown
    have hcount := outstanding_readsFor hnumbered allowed source.id
    rw [if_neg (hto source hshown), hrests.cmds.countP, h.shown source hshown] at hcount
    exact hcount

theorem Served.of_closes (h : x.Served) (hsource : (x.after event).state.source? = none)
    (hlast : (x.after event).state.lastPager = x.state.lastPager)
    (hcmds : Unread (x.state.react event).2) : (x.after event).Served := by
  have hless := outstanding_of_unread hnumbered allowed hcmds
  refine ⟨fun id => Nat.le_trans (hless id) (h.once id), fun id hid => ?_, ?_, ?_, ?_, ?_⟩
  · rw [hlast] at hid
    exact Nat.le_zero.mp (Nat.le_trans (hless id) (Nat.le_of_eq (h.later id hid)))
  all_goals
    rw [hsource]
    nofun

theorem Served.of_opens (h : x.Served) (hto : event.msg?.bind Msg.pager? = none)
    {source : PagerSource} (hsource : (x.after event).state.source? = some source)
    (hid : source.id = x.state.lastPager + 1)
    (hlast : (x.after event).state.lastPager = x.state.lastPager + 1)
    (hkind : source.token.isSome = source.kind.isStream)
    (hlive : ∀ token, source.token = some token →
      token ∉ (x.after event).state.cancelled ∧ source.stream = .live)
    (hcmds : ∀ id, (x.state.react event).2.countP (Cmd.readsFor id) =
      if id = source.id ∧ source.token.isSome then 1 else 0) : (x.after event).Served := by
  have hcount (id : Nat) : (x.after event).outstanding (Cmd.readsFor id) =
      x.outstanding (Cmd.readsFor id) + if id = source.id ∧ source.token.isSome then 1 else 0 := by
    have hafter := outstanding_readsFor hnumbered allowed id
    rw [hto, hcmds] at hafter
    exact hafter
  -- Nothing has been read for the new pager before.
  have hnew := h.later source.id (by omega)
  refine ⟨fun id => ?_, fun id hid' => ?_, ?_, ?_, ?_, ?_⟩
  · rw [hcount id]
    by_cases heq : id = source.id
    · rw [heq, hnew]
      split <;> omega
    · rw [if_neg fun h => heq h.1]
      exact h.once id
  · rw [hlast] at hid'
    rw [hcount id, if_neg fun h => by omega]
    exact h.later id (by omega)
  · rw [hsource, hlast]
    rintro _ ⟨⟩
    omega
  · rw [hsource]
    rintro _ ⟨⟩
    exact hkind
  · rw [hsource]
    rintro _ ⟨⟩ token htoken
    exact (hlive token htoken).1
  · rw [hsource]
    rintro _ ⟨⟩
    rw [hcount source.id, hnew, Nat.zero_add]
    cases htoken : source.token with
    | none => simp
    | some token => simp [(hlive token htoken).2]

/-- The read that is answered was the only one, and another one follows it. -/
theorem outstanding_of_reads (h : x.Served) {source : PagerSource}
    (hbefore : x.state.source? = some source)
    (hto : event.msg?.bind Msg.pager? = some source.id)
    (hcmds : ∀ id, (x.state.react event).2.countP (Cmd.readsFor id) =
      if id = source.id ∧ ∃ token, source.token = some token ∧ token ∉ x.state.cancelled then 1
      else 0) (id : Nat) :
    (x.after event).outstanding (Cmd.readsFor id) = x.outstanding (Cmd.readsFor id) := by
  have hshown := h.shown source hbefore
  have hone : x.outstanding (Cmd.readsFor source.id) = 1 :=
    Nat.le_antisymm (h.once source.id) (outstanding_of_addressed hnumbered allowed hto)
  have hread : ∃ token, source.token = some token ∧ token ∉ x.state.cancelled := by
    rw [hone] at hshown
    split at hshown
    · next hlive =>
      obtain ⟨token, htoken⟩ := Option.isSome_iff_exists.mp hlive.1
      exact ⟨token, htoken, h.live source hbefore token htoken⟩
    · omega
  have hcount := outstanding_readsFor hnumbered allowed id
  rw [hto, hcmds] at hcount
  by_cases heq : id = source.id
  · rw [if_pos (congrArg some heq.symm), if_pos ⟨heq, hread⟩] at hcount
    omega
  · rw [if_neg fun h => heq (Option.some.inj h).symm, if_neg fun h => heq h.1] at hcount
    exact hcount

theorem Served.of_reads (h : x.Served) {source : PagerSource}
    (hbefore : x.state.source? = some source)
    (hto : event.msg?.bind Msg.pager? = some source.id)
    (hsource : (x.after event).state.source? = some source)
    (hlast : (x.after event).state.lastPager = x.state.lastPager)
    (hcancelled : (x.after event).state.cancelled = x.state.cancelled)
    (hcmds : ∀ id, (x.state.react event).2.countP (Cmd.readsFor id) =
      if id = source.id ∧ ∃ token, source.token = some token ∧ token ∉ x.state.cancelled then 1
      else 0) : (x.after event).Served := by
  have hsame : (x.after event).state.source? = x.state.source? := hsource.trans hbefore.symm
  have hsteady := outstanding_of_reads hnumbered allowed h hbefore hto hcmds
  refine ⟨?_, ?_, ?_, ?_, ?_, ?_⟩
  · simp only [hsteady]
    exact h.once
  · simp only [hsteady, hlast]
    exact h.later
  · rw [hsame, hlast]
    exact h.given
  · rw [hsame]
    exact h.kind
  · rw [hsame, hcancelled]
    exact h.live
  · simp only [hsteady, hsame]
    exact h.shown

theorem Served.of_ends (h : x.Served) {source : PagerSource}
    (hbefore : x.state.source? = some source)
    (hto : event.msg?.bind Msg.pager? = some source.id) {stream : StreamState}
    (hstream : stream ≠ .live)
    (hsource : (x.after event).state.source? = some { source with stream })
    (hlast : (x.after event).state.lastPager = x.state.lastPager)
    (hcancelled : (x.after event).state.cancelled = x.state.cancelled)
    (hcmds : (x.state.react event).2 = []) : (x.after event).Served := by
  have hunread : Unread (x.state.react event).2 := hcmds ▸ unread_nil
  have hless := outstanding_of_unread hnumbered allowed hunread
  refine ⟨fun id => Nat.le_trans (hless id) (h.once id), fun id hid => ?_, ?_, ?_, ?_, ?_⟩
  · rw [hlast] at hid
    exact Nat.le_zero.mp (Nat.le_trans (hless id) (Nat.le_of_eq (h.later id hid)))
  · rw [hsource, hlast]
    rintro _ ⟨⟩
    exact h.given source hbefore
  · rw [hsource]
    rintro _ ⟨⟩
    exact h.kind source hbefore
  · rw [hsource, hcancelled]
    rintro _ ⟨⟩
    exact h.live source hbefore
  · -- The read that is answered was the only one.
    rw [hsource]
    rintro _ ⟨⟩
    have honce := h.once source.id
    have hcount := outstanding_readsFor hnumbered allowed source.id
    rw [if_pos hto, hunread.countP] at hcount
    rw [if_neg fun h => hstream h.2]
    show (x.after event).outstanding (Cmd.readsFor source.id) = 0
    omega

/-- **One event.** Whatever is answered and issued, one command reads for the pager on the
screen. -/
theorem Served.after (h : x.Served) (hs : x.state.Sound) : (x.after event).Served := by
  cases (State.react_reaction x.state event).flow hs with
  | rests hrests hto => exact h.of_rests hnumbered allowed hs hrests hto
  | closes hto hsource hlast hclosed hcmds =>
      exact h.of_closes hnumbered allowed hsource hlast hcmds
  | opens hto source hsource hid hlast hclosed hkind hlive hcmds =>
      exact h.of_opens hnumbered allowed hto hsource hid hlast hkind hlive hcmds
  | reads source hbefore hto hsource hlast hcancelled hcmds =>
      exact h.of_reads hnumbered allowed hbefore hto hsource hlast hcancelled hcmds
  | ends source hbefore hto stream hstream hsource hlast hcancelled hcmds =>
      exact h.of_ends hnumbered allowed hbefore hto hstream hsource hlast hcancelled hcmds

end After

/-- Nothing reads for a pager that has been opened before. -/
structure Spent (id : Nat) (x : System) : Prop where
  given : id ≤ x.state.lastPager
  none : x.outstanding (Cmd.readsFor id) = 0

/-- **One event.** When nothing reads for a pager any more, nothing is read for it. -/
theorem Spent.after {x : System} {id : Nat} (h : Spent id x) (hs : x.state.Sound)
    (hnumbered : x.Numbered) {event : Event} (allowed : x.Allows event) :
    Spent id (x.after event) ∧ ∀ cmd ∈ (x.state.react event).2, cmd.readsFor id = false := by
  obtain ⟨hgiven, hnone⟩ := h
  have hcount := outstanding_after hnumbered allowed (Cmd.readsFor id)
  have hanswers := answers_le_outstanding hnumbered allowed (Cmd.readsFor id)
  rw [hnone] at hcount hanswers
  have hflow : (x.state.react event).2.countP (Cmd.readsFor id) = 0 ∧
      x.state.lastPager ≤ (x.state.react event).1.lastPager := by
    cases (State.react_reaction x.state event).flow hs with
    | rests hrests hto => exact ⟨hrests.cmds.countP id, Nat.le_of_eq hrests.last.symm⟩
    | closes hto hsource hlast hclosed hcmds => exact ⟨hcmds.countP id, Nat.le_of_eq hlast.symm⟩
    | opens hto source hsource hid hlast hclosed hkind hlive hcmds =>
        refine ⟨?_, by omega⟩
        rw [hcmds, if_neg fun h => by omega]
    | reads source hbefore hto hsource hlast hcancelled hcmds =>
        refine ⟨?_, Nat.le_of_eq hlast.symm⟩
        -- A message for the pager would be the answer of a read for it.
        have hother : id ≠ source.id := by
          rintro rfl
          rw [if_pos ((answers_readsFor allowed source.id).mpr hto)] at hanswers
          omega
        rw [hcmds, if_neg fun h => hother h.1]
    | ends source hbefore hto stream hstream hsource hlast hcancelled hcmds =>
        rw [hcmds]
        exact ⟨rfl, Nat.le_of_eq hlast.symm⟩
  refine ⟨⟨Nat.le_trans hgiven hflow.2, ?_⟩, fun cmd hcmd => ?_⟩
  · omega
  · have hnot := List.countP_eq_zero.mp hflow.1 cmd hcmd
    simpa using hnot

end System

namespace Run

variable {config : Config} {now : Int} {history : History} {x : System}

theorem served (h : Run config now history x) : x.Served := by
  induction h with
  | start =>
      refine ⟨fun id => ?_, fun id _ => ?_, nofun, nofun, nofun, nofun⟩
      · simp [System.outstanding, System.new]
      · simp [System.outstanding, System.new]
  | step event run allowed ih => exact ih.after run.numbered allowed run.sound

/-- A pager with a stream is still there under its token, or its token is cancelled. -/
theorem closed_cancelled (h : Run config now history x) {y : System} {event : Event}
    (hy : (y, event) ∈ history) {source : PagerSource} (hsource : y.state.source? = some source)
    {token : Token} (htoken : source.token = some token) :
    token ∈ x.state.cancelled ∨ ∃ shown, x.state.source? = some shown ∧
      shown.id = source.id ∧ shown.token = some token := by
  induction h with
  | start => cases hy
  | @step history x event' run allowed ih =>
      have hkept := (State.react_reaction x.state event').guarded.kept
      have hbefore : token ∈ x.state.cancelled ∨ ∃ shown, x.state.source? = some shown ∧
          shown.id = source.id ∧ shown.token = some token := by
        rcases List.mem_append.mp hy with hold | hlast
        · exact ih hold
        · cases List.mem_singleton.mp hlast
          exact Or.inr ⟨source, hsource, rfl, htoken⟩
      rcases hbefore with hcancelled | ⟨shown, hshown, hid, hsame⟩
      · exact Or.inl (hkept token hcancelled)
      · have hcurrent : x.state.shownToken? = some token := by
          rw [State.shownToken?_eq, hshown]
          exact hsame
        cases (State.react_reaction x.state event').flow run.sound with
        | rests hrests hto => exact Or.inr ⟨shown, hrests.source.trans hshown, hid, hsame⟩
        | closes hto hafter hlast hclosed hcmds => exact Or.inl (hclosed token hcurrent)
        | opens hto new hafter hnew hlast hclosed hkind hlive hcmds =>
            exact Or.inl (hclosed token hcurrent)
        | reads current hbefore hto hafter hlast hcancelled hcmds =>
            exact Or.inr ⟨shown, (hafter.trans hbefore.symm).trans hshown, hid, hsame⟩
        | ends current hbefore hto stream hstream hafter hlast hcancelled hcmds =>
            cases hbefore.symm.trans hshown
            exact Or.inr ⟨_, hafter, hid, hsame⟩

/-- When a stream has ended, nothing is read for its pager ever after. -/
theorem unread_after_end {earlier later : History} {y : System} {event : Event}
    (h : Run config now (earlier ++ (y, event) :: later) x) {source : PagerSource}
    (hsource : y.state.source? = some source) (hended : source.stream ≠ .live) :
    ∀ p ∈ (y, event) :: later, ∀ cmd ∈ (p.1.state.react p.2).2, cmd.readsFor source.id = false := by
  obtain ⟨hrun, hallowed⟩ := h.split
  have hserved := hrun.served
  have hspent : System.Spent source.id y := by
    refine ⟨hserved.given source hsource, ?_⟩
    rw [hserved.shown source hsource, if_neg fun h => hended h.2]
  obtain ⟨hspent', hfirst⟩ := hspent.after hrun.sound hrun.numbered hallowed
  have hsince : System.Spent source.id x ∧
      ∀ p ∈ later, ∀ cmd ∈ (p.1.state.react p.2).2, cmd.readsFor source.id = false := by
    refine since (motive := fun later x => System.Spent source.id x ∧
      ∀ p ∈ later, ∀ cmd ∈ (p.1.state.react p.2).2, cmd.readsFor source.id = false)
      ⟨hspent', fun p hp => absurd hp List.not_mem_nil⟩ (fun later z next run allowed ih => ?_) h
    obtain ⟨hz, hnext⟩ := ih.1.after run.sound run.numbered allowed
    exact ⟨hz, List.forall_mem_append.mpr ⟨ih.2, List.forall_mem_singleton.mpr hnext⟩⟩
  exact List.forall_mem_cons.mpr ⟨hfirst, hsince.2⟩

/-- **Streams of pagers.** At most one command that reads for a pager is outstanding: for the pager
of a log or of samples on the screen one while its stream is live, and none when it has ended, after
which none is ever issued. The token of such a pager that is on the screen no more is cancelled, and
a message for any pager that is not on the screen changes nothing and issues nothing. -/
theorem one_read_of_stream (h : Run config now history x) :
    (∀ id, x.outstanding (Cmd.readsFor id) ≤ 1) ∧
    (∀ layer, x.state.layer = some (.pager layer) → layer.kind.isStream = true →
      x.outstanding (Cmd.readsFor layer.id) = if layer.pager.stream = .live then 1 else 0) ∧
    (∀ earlier y event later layer, history = earlier ++ (y, event) :: later →
      y.state.layer = some (.pager layer) → layer.kind.isStream = true →
      layer.pager.stream ≠ .live → ∀ p ∈ (y, event) :: later,
        ∀ cmd ∈ (p.1.state.react p.2).2, cmd.readsFor layer.id = false) ∧
    (∀ p ∈ history, ∀ layer, p.1.state.layer = some (.pager layer) → layer.kind.isStream = true →
      (∀ shown, x.state.layer = some (.pager shown) → shown.id ≠ layer.id) →
      ∃ token ∈ x.state.cancelled, layer.token = some token) ∧
    ∀ msg id, msg.pager? = some id →
      (∀ shown, x.state.layer = some (.pager shown) → shown.id ≠ id) →
      x.state.step msg = (x.state, []) := by
  have hserved := h.served
  refine ⟨hserved.once, fun layer hlayer hkind => ?_, ?_, ?_,
    fun msg id hmsg hother => State.step_other_pager hmsg hother⟩
  · have hsource := State.source?_eq_some hlayer
    have htoken : layer.token.isSome = true := (hserved.kind _ hsource).trans hkind
    have hshown := hserved.shown _ hsource
    simp only [PagerLayer.source, htoken, true_and] at hshown
    exact hshown
  · rintro earlier y event later layer rfl hlayer - hended
    exact unread_after_end h (State.source?_eq_some hlayer) hended
  · intro p hp layer hlayer hkind hgone
    obtain ⟨earlier, later, rfl⟩ := List.append_of_mem hp
    have hsource := State.source?_eq_some hlayer
    have hsome : layer.token.isSome = true := (h.split.1.served.kind _ hsource).trans hkind
    obtain ⟨token, htoken⟩ := Option.isSome_iff_exists.mp hsome
    refine ⟨token, (h.closed_cancelled hp hsource htoken).resolve_right ?_, htoken⟩
    rintro ⟨shown, hshown, hid, -⟩
    unfold State.source? at hshown
    split at hshown
    · next current hcurrent =>
      cases hshown
      exact hgone current hcurrent hid
    · cases hshown

/-- The log of a container comes to an end and its pager is closed, and then its samples are
shown. -/
theorem one_read_after_log : ∃ history x, Run {} 0 history x ∧
    x.outstanding (Cmd.readsFor 2) = 1 ∧ x.outstanding (Cmd.readsFor 1) ≤ 1 ∧
    (∃ p ∈ history, ∃ layer, p.1.state.layer = some (.pager layer) ∧ layer.id = 1 ∧
      layer.pager.stream = .closed none ∧
      ∀ cmd ∈ (p.1.state.react p.2).2, cmd.readsFor 1 = false) ∧
    0 ∈ x.state.cancelled ∧ x.state.step (.logEnded 1 none) = (x.state, []) := by
  let request : LogRequest := { source := .container "f00", tail := ({} : Config).logTail }
  have hbegun := (Run.start : Run {} 0 [] _).step .begin trivial
  have hloaded := hbegun.step
    (.answer (.load .containers false none) 2
      (.loaded .containers none [.container { id := "f00", name := "web" }]))
    ⟨List.mem_of_getElem? (i := 2) rfl, .loaded .containers false none _⟩
  have hlog := hloaded.step (.input (.key { code := .char 'l' })) rfl
  have hended := hlog.step (.answer (.openLogs 1 request 0) 3 (.logEnded 1 none))
    ⟨List.mem_of_getElem? (i := 2) rfl, .logNotOpened 1 request 0 none⟩
  have hclosed := hended.step (.input (.key { code := .char 'q' })) rfl
  have hstats := hclosed.step (.input (.key { code := .char 's' })) rfl
  obtain ⟨honce, hshown, hunread, hcancelled, hother⟩ := one_read_of_stream hstats
  have hlive := hshown _ rfl rfl
  have hsilent := hunread _ _ _ _ _ (List.append_assoc _ _ _) rfl rfl nofun _ List.mem_cons_self
  obtain ⟨token, hgone, htoken⟩ := hcancelled _
    (List.mem_append_left _ (List.mem_append_right _ List.mem_cons_self)) _ rfl rfl
    (fun shown hlayer => by cases hlayer; nofun)
  cases htoken
  exact ⟨_, _, hstats, hlive, honce 1,
    ⟨_, List.mem_append_left _ (List.mem_append_right _ List.mem_cons_self), _, rfl, rfl, rfl,
      hsilent⟩,
    hgone, hother _ 1 rfl fun shown hlayer => by cases hlayer; nofun⟩

end Run

end Dockboard
