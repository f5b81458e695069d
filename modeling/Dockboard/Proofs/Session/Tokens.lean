import Dockboard.Proofs.Session.Monitor
import Dockboard.Proofs.Session.Reactions

set_option autoImplicit false

/-! # Tokens

Whatever happens, the reads of the monitor and the pager on the screen have tokens of their own,
which are not cancelled before the read is given up; and a token that has been cancelled stays so.

    Guarded s r           `r` keeps the tokens of `s` in order, and leaves cancelled what is
-/

namespace Dockboard

open Dockboard.Stream

/-- A command that reads for a pager reads nothing for the monitor. -/
theorem Cmd.plain_of_stream? {cmd : Cmd} {stream : Nat × Token} (h : cmd.stream? = some stream) :
    cmd.Plain := by
  unfold stream? at h
  split at h <;> first | exact ⟨fun _ => rfl, nofun⟩ | cases h

namespace State

/-- A step keeps tokens in order. -/
structure Guarded (s : State) (r : Step) : Prop where
  sound : s.Sound → r.1.Sound
  kept : ∀ token ∈ s.cancelled, token ∈ r.1.cancelled

theorem shownToken?_eq (s : State) : s.shownToken? = s.source?.bind PagerSource.token := by
  unfold shownToken? source?
  cases s.layer with
  | none => rfl
  | some layer => cases layer <;> rfl

theorem Sound.of_eq {s s' : State} (h : s.Sound) (hmonitor : s'.monitor = s.monitor)
    (hnext : s'.nextToken = s.nextToken) (hcancelled : s'.cancelled = s.cancelled)
    (hsource : s'.source? = s.source?) : s'.Sound := by
  have hshown : s'.shownToken? = s.shownToken? := by
    rw [shownToken?_eq, shownToken?_eq, hsource]
  obtain ⟨hids, htokens, hgiven, hcancelledGiven, hlive, hapart⟩ := h
  rw [← hmonitor] at hids htokens hgiven hlive hapart
  rw [← hnext] at hgiven hcancelledGiven hapart
  rw [← hcancelled] at hcancelledGiven hlive
  rw [← hshown] at hapart
  exact ⟨hids, htokens, hgiven, hcancelledGiven, hlive, hapart⟩

theorem Sound.aside {s s' : State} (h : s.Sound) (haside : Aside s s') : s'.Sound :=
  h.of_eq (congrArg Core.monitor haside.core) (congrArg Core.nextToken haside.core)
    (congrArg Core.cancelled haside.core) (congrArg Core.source? haside.core)

namespace Guarded

/-- Tokens are left alone. -/
theorem of_eq {s : State} {r : Step} (hmonitor : r.1.monitor = s.monitor)
    (hnext : r.1.nextToken = s.nextToken) (hcancelled : r.1.cancelled = s.cancelled)
    (hsource : r.1.source? = s.source?) : Guarded s r :=
  ⟨fun h => h.of_eq hmonitor hnext hcancelled hsource, fun token htoken => by
    rw [hcancelled]
    exact htoken⟩

theorem of_effect {s : State} {r : Step} (h : Quiet s r ∨ Stopped s r) : Guarded s r := by
  rcases h with h | h
  · exact ⟨h.sound, h.kept⟩
  · exact ⟨h.sound, h.kept⟩

theorem after {s s' : State} {r : Step} (h : Guarded s' r) (haside : Aside s s') :
    Guarded s r := by
  have hcancelled : s'.cancelled = s.cancelled := congrArg Core.cancelled haside.core
  refine ⟨fun hs => h.sound (hs.aside haside), fun token htoken => h.kept token ?_⟩
  rw [hcancelled]
  exact htoken

end Guarded

theorem requestLoad_guarded (s : State) (view : View) : Guarded s (s.requestLoad view) := by
  obtain ⟨loading, stale, hload⟩ := requestLoad_changes s view
  exact .of_eq (by rw [hload]) (by rw [hload]) (by rw [hload]) (by rw [hload]; rfl)

/-- A pager is opened under a new token. -/
theorem freshPager_guarded (s : State) (kind : PagerKind) (pager : Pager) {cmd : Cmd}
    (hcmd : cmd.Plain) :
    Guarded s (s.freshToken.2.openPager kind pager (some s.freshToken.1), [cmd]) := by
  have hnext : s.nextToken ≤ s.freshToken.2.nextToken := Nat.le_succ _
  refine .of_effect (Or.inl (openPager_quiet rfl rfl hnext rfl rfl (fun token htoken => ?_)
    (plain_singleton hcmd)))
  cases htoken
  exact ⟨Nat.le_refl _, Nat.lt_succ_self _⟩

theorem Move.guarded {s : State} {r : Step} (h : Move s r) : Guarded s r := by
  cases h with
  | nothing cmds hidle => exact .of_eq rfl rfl rfl rfl
  | load first hidle =>
      have hload := requestLoad_guarded s s.view
      exact ⟨hload.sound, hload.kept⟩
  | toggle hview =>
      have htoggled : Alike s { s with showAll := !s.showAll } :=
        ⟨rfl, fun _ h => h, rfl, rfl, rfl⟩
      exact .of_effect (Or.inl ((requestLoad_quiet _ _).after htoggled))
  | switch target => exact .of_effect (switchView_effect s target)
  | tasks scope => exact .of_effect (enterTaskView_effect s scope)
  | opened kind pager hkind =>
      exact .of_effect (Or.inl (openPager_quiet rfl rfl (Nat.le_refl _) rfl rfl nofun plain_nil))
  | logs target => exact freshPager_guarded s _ _ ⟨fun _ => rfl, nofun⟩
  | stats target => exact freshPager_guarded s _ _ ⟨fun _ => rfl, nofun⟩
  | closed => exact .of_effect (Or.inl (closeLayer_quiet s))

theorem onMonitorListed_guarded (s : State) (containers : List Container) :
    Guarded s (s.onMonitorListed containers) := by
  by_cases hview : s.view = .monitor
  · let s' : State := { s with loading := s.loading.set .monitor false }
    have hended : Guarded s s'.noCmds := .of_eq rfl rfl rfl rfl
    have hlisted : Guarded s (s'.relisted containers) :=
      ⟨fun hs => relisted_sound (hended.sound hs) containers, fun token htoken =>
        relisted_kept (hended.kept token htoken)⟩
    rcases onMonitorListed_cases containers hview with heq | ⟨stale, heq⟩
    · rw [heq]
      exact hlisted
    · rw [heq]
      have hload := requestLoad_guarded { (s'.relisted containers).1 with stale } .monitor
      exact ⟨fun hs => hload.sound ((hlisted.sound hs).of_eq rfl rfl rfl rfl),
        fun token htoken => hload.kept token (hlisted.kept token htoken)⟩
  · rw [onMonitorListed_left containers hview]
    exact .of_eq rfl rfl rfl rfl

/-- **Events and tokens.** Every event keeps tokens in order. -/
theorem Reaction.guarded {s : State} {msg? : Option Msg} {r : Step} (h : Reaction s msg? r) :
    Guarded s r := by
  cases h with
  | calm hcalm haside hmove => exact hmove.guarded.after haside
  | loaded view scope rows =>
      obtain ⟨⟨tables, loading, stale, hloaded⟩, -⟩ := onLoaded_changes s view scope rows
      exact .of_eq (by rw [hloaded]) (by rw [hloaded]) (by rw [hloaded]) (by rw [hloaded]; rfl)
  | loadFailed view error => exact .of_eq rfl rfl rfl rfl
  | listed containers => exact onMonitorListed_guarded s containers
  | text id text next hmsg hnext =>
      exact .of_effect (Or.inl (onPagerText_quiet s id text fun token =>
        Cmd.plain_of_stream? (hnext token)))
  | ended id error hmsg => exact .of_effect (Or.inl (onPagerEnded_quiet s id error))
  | sample id sample rest =>
      obtain ⟨⟨tables, hsample⟩, -⟩ := onSample_changes s id sample rest
      exact .of_eq (by rw [hsample]) (by rw [hsample]) (by rw [hsample]) (by rw [hsample]; rfl)
  | sampleEnd id error =>
      simp only [onStatsEnded]
      split
      · exact .of_eq rfl rfl rfl rfl
      · obtain ⟨tables, hupdate⟩ := updateMonitored_changes (s.unsubscribe id) id fun m =>
          { m with ended := some (error.getD "ended") }
        rw [hupdate]
        exact ⟨fun hs => (unsubscribe_sound hs id).of_eq rfl rfl rfl rfl, fun _ htoken => htoken⟩
  | tick epoch =>
      obtain ⟨loading, stale, htick⟩ := onMonitorTick_changes s epoch
      exact .of_eq (by rw [htick]) (by rw [htick]) (by rw [htick]) (by rw [htick]; rfl)

theorem new_sound (config : Config) (now : Int) : (State.new config now).Sound := by
  refine ⟨List.nodup_nil, List.nodup_nil, ?_, ?_, ?_, nofun⟩
  · exact fun token htoken => absurd htoken List.not_mem_nil
  · exact fun token htoken => absurd htoken List.not_mem_nil
  · exact fun token htoken => absurd htoken List.not_mem_nil

end State

/-- In every state tokens are in order. -/
theorem Run.sound {config : Config} {now : Int} {history : History} {x : System}
    (h : Run config now history x) : x.state.Sound :=
  h.induct (State.new_sound config now) fun x event _ hs =>
    (State.react_reaction x.state event).guarded.sound hs

end Dockboard
