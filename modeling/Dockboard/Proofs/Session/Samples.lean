import Dockboard.Proofs.Session.Monitor
import Dockboard.Proofs.Session.Run

set_option autoImplicit false

/-! # Reads of samples in flight

A read of the monitor that was cancelled still has its message to come. The message carries the
identifier of the container and nothing else, so it does nothing if the container is not read when
it comes, and is taken for a message of the new read if there is one. As long as that has not
happened, one read of each subscription is in flight and no other that is not cancelled.

    liveReads x id     the tokens of the uncancelled reads of a container that are in flight
    Late x id event    the event is the answer of a cancelled read of a container
    Inert s r          `r` changes no row and no subscription and issues no command
-/

namespace Dockboard

open Dockboard.Stream

/-! ## Answers of reads -/

theorem Cmd.Yields.samples_of_read {cmd : Cmd} {msg : Msg} (h : cmd.Yields msg) {id : String}
    {token : Token} (hread : cmd.monitorRead? id = some token) :
    (∃ sample rest, msg = .statSample (.monitor id) sample rest) ∨
      ∃ error, msg = .statsEnded (.monitor id) error := by
  rcases Cmd.of_monitorRead? hread with ⟨other, rfl⟩ | ⟨feed, rfl⟩
  · cases h with
    | statsOpened _ _ _ sample rest => exact Or.inl ⟨sample, rest, rfl⟩
    | statsNotOpened _ _ _ error => exact Or.inr ⟨error, rfl⟩
  · cases h with
    | statsRead _ _ _ sample rest => exact Or.inl ⟨sample, rest, rfl⟩
    | statsEnded _ _ _ error => exact Or.inr ⟨error, rfl⟩

/-- A message brings samples of a container if and only if it comes from a read of it. -/
theorem Cmd.Yields.samples?_iff {cmd : Cmd} {msg : Msg} (h : cmd.Yields msg) {id : String} :
    msg.samples? = some id ↔ ∃ token, cmd.monitorRead? id = some token := by
  constructor
  · intro hsamples
    unfold Msg.samples? at hsamples
    split at hsamples
    · cases hsamples
      cases h with
      | statsOpened _ _ token _ _ => exact ⟨token, if_pos rfl⟩
      | statsRead _ _ token _ _ => exact ⟨token, if_pos rfl⟩
    · cases hsamples
      cases h with
      | statsNotOpened _ _ token _ => exact ⟨token, if_pos rfl⟩
      | statsEnded _ _ token _ => exact ⟨token, if_pos rfl⟩
    · cases hsamples
  · rintro ⟨token, hread⟩
    rcases h.samples_of_read hread with ⟨sample, rest, rfl⟩ | ⟨error, rfl⟩
    · rfl
    · rfl

/-! ## What is in flight -/

/-- The tokens of the reads of a container among numbered commands that are not cancelled. -/
def liveReadsOf (id : String) (cancelled : List Token) (cmds : List (Cmd × Nat)) : List Token :=
  (readsOf id (cmds.map Prod.fst)).filter fun token => !cancelled.contains token

theorem liveReadsOf_append (id : String) (cancelled : List Token) (cmds more : List (Cmd × Nat)) :
    liveReadsOf id cancelled (cmds ++ more) =
      liveReadsOf id cancelled cmds ++ liveReadsOf id cancelled more := by
  unfold liveReadsOf
  rw [List.map_append, readsOf_append, List.filter_append]

theorem liveReadsOf_zipIdx (id : String) (cancelled : List Token) (cmds : List Cmd) (n : Nat) :
    liveReadsOf id cancelled (cmds.zipIdx n) =
      (readsOf id cmds).filter fun token => !cancelled.contains token := by
  unfold liveReadsOf
  rw [List.zipIdx_map_fst]

/-- Nothing comes back to life. -/
theorem liveReadsOf_of_kept {cancelled later : List Token} (h : ∀ token ∈ cancelled, token ∈ later)
    (id : String) (cmds : List (Cmd × Nat)) :
    liveReadsOf id later cmds =
      (liveReadsOf id cancelled cmds).filter fun token => !later.contains token := by
  unfold liveReadsOf
  rw [List.filter_filter]
  congr 1
  funext token
  by_cases hlater : token ∈ later
  · simp [hlater]
  · have hnot : token ∉ cancelled := fun hc => hlater (h token hc)
    simp [hlater, hnot]

namespace System

/-- The tokens of the reads of a container in flight that are not cancelled. -/
def liveReads (x : System) (id : String) : List Token :=
  liveReadsOf id x.state.cancelled x.pending

/-- The event is the answer of a read of a container whose token was cancelled. -/
def Late (x : System) (id : String) : Event → Prop
  | .answer cmd _ _ => ∃ token ∈ x.state.cancelled, cmd.monitorRead? id = some token
  | _ => False

/-- No late answer finds its container read again, and a list names every container once. -/
def Undisturbed (x : System) (event : Event) : Prop :=
  (∀ id, x.Late id event → x.state.subscription? id = none) ∧
    ∀ msg, event.msg? = some msg → msg.NamesOnce

/-- The monitor is in order, and one read of each subscription is in flight. -/
structure InOrder (x : System) : Prop where
  sound : x.state.Sound
  rowed : x.state.Rowed
  loads : ∀ p ∈ x.pending, ∀ all scope, p.1 ≠ .load .monitor all scope
  reads : ∀ id, x.liveReads id = (x.state.subscription? id).toList

theorem liveReads_split {x : System} {earlier later : List (Cmd × Nat)} {p : Cmd × Nat}
    (hpending : x.pending = earlier ++ p :: later) (id : String) :
    x.liveReads id = liveReadsOf id x.state.cancelled earlier ++
      (liveReadsOf id x.state.cancelled [p] ++ liveReadsOf id x.state.cancelled later) := by
  unfold System.liveReads
  rw [hpending, ← List.singleton_append, liveReadsOf_append, liveReadsOf_append]

/-- Taking away the answer of something else than an uncancelled read of the container. -/
theorem liveReads_left_dead {x : System} (hnumbered : x.Numbered) {cmd : Cmd} {number : Nat}
    (hmem : (cmd, number) ∈ x.pending) (msg : Msg) {id : String}
    (hdead : ∀ token, cmd.monitorRead? id = some token → token ∈ x.state.cancelled) :
    liveReadsOf id x.state.cancelled (x.left (.answer cmd number msg)) = x.liveReads id := by
  obtain ⟨earlier, later, hpending, hleft⟩ := hnumbered.left_answer hmem msg
  have hnone : liveReadsOf id x.state.cancelled [(cmd, number)] = [] := by
    cases hread : cmd.monitorRead? id with
    | none => simp [liveReadsOf, readsOf, hread]
    | some token => simp [liveReadsOf, readsOf, hread, hdead token hread]
  rw [hleft, liveReadsOf_append, liveReads_split hpending, hnone, List.nil_append]

/-- Taking away the answer of an uncancelled read leaves none if there was one only. -/
theorem liveReads_left_live {x : System} (hnumbered : x.Numbered) {cmd : Cmd} {number : Nat}
    (hmem : (cmd, number) ∈ x.pending) (msg : Msg) {id : String} {token : Token}
    (hread : cmd.monitorRead? id = some token) (hlive : token ∉ x.state.cancelled)
    (hlength : (x.liveReads id).length ≤ 1) :
    liveReadsOf id x.state.cancelled (x.left (.answer cmd number msg)) = [] := by
  obtain ⟨earlier, later, hpending, hleft⟩ := hnumbered.left_answer hmem msg
  have hone : liveReadsOf id x.state.cancelled [(cmd, number)] = [token] := by
    simp [liveReadsOf, readsOf, hread, hlive]
  rw [liveReads_split hpending, hone, List.length_append, List.length_append,
    List.length_singleton] at hlength
  have hearlier : (liveReadsOf id x.state.cancelled earlier).length = 0 := by omega
  have hlater : (liveReadsOf id x.state.cancelled later).length = 0 := by omega
  rw [hleft, liveReadsOf_append, List.eq_nil_of_length_eq_zero hearlier,
    List.eq_nil_of_length_eq_zero hlater]
  rfl

theorem InOrder.length_liveReads {x : System} (h : x.InOrder) (id : String) :
    (x.liveReads id).length ≤ 1 := by
  rw [h.reads]
  cases x.state.subscription? id <;> simp

/-- What is in flight besides an answer that disturbs nothing. -/
theorem InOrder.left {x : System} (h : x.InOrder) (hnumbered : x.Numbered) {cmd : Cmd}
    {number : Nat} {msg : Msg} (allowed : x.Allows (.answer cmd number msg))
    (hcalm : x.Undisturbed (.answer cmd number msg)) (id : String) :
    liveReadsOf id x.state.cancelled (x.left (.answer cmd number msg)) = x.state.held msg id := by
  obtain ⟨hmem, hyields⟩ := allowed
  cases hread : cmd.monitorRead? id with
  | none =>
      -- The answer of something else leaves the read of the container where it is.
      have hsamples : msg.samples? ≠ some id := by
        intro hsome
        obtain ⟨token, htoken⟩ := hyields.samples?_iff.mp hsome
        rw [hread] at htoken
        cases htoken
      rw [liveReads_left_dead hnumbered hmem msg (by simp [hread]), h.reads,
        State.held_of_ne hsamples]
  | some token =>
      have hsamples : msg.samples? = some id := hyields.samples?_iff.mpr ⟨token, hread⟩
      rw [State.held_of_eq hsamples]
      by_cases hcancelled : token ∈ x.state.cancelled
      · -- The container is not read any more, so there was no uncancelled read to begin with.
        have hdead : ∀ other, cmd.monitorRead? id = some other → other ∈ x.state.cancelled := by
          intro other hother
          rw [hread] at hother
          cases hother
          exact hcancelled
        rw [liveReads_left_dead hnumbered hmem msg hdead, h.reads,
          hcalm.1 id ⟨token, hcancelled, hread⟩]
        rfl
      · exact liveReads_left_live hnumbered hmem msg hread hcancelled (h.length_liveReads id)

/-- What the session makes of an event that disturbs nothing. -/
theorem InOrder.tended {x : System} (h : x.InOrder) (hnumbered : x.Numbered) {event : Event}
    (allowed : x.Allows event) (hcalm : x.Undisturbed event) :
    State.Tended x.state (fun id => liveReadsOf id x.state.cancelled (x.left event))
      (x.state.react event) := by
  cases event with
  | begin => exact ((State.begin_quiet x.state).tended h.sound h.rowed).congr h.reads
  | input msg =>
      -- The user brings neither samples nor rows.
      have hsamples (id : String) : msg.samples? ≠ some id := by
        intro hsome
        cases msg <;> first | cases hsome | cases allowed
      refine (State.step_tended h.sound h.rowed ?_ (hcalm.2 msg rfl)).congr fun id => ?_
      · rintro scope rows rfl
        cases allowed
      · exact (h.reads id).trans (State.held_of_ne (hsamples id)).symm
  | answer cmd number msg =>
      refine (State.step_tended h.sound h.rowed ?_ (hcalm.2 msg rfl)).congr
        (h.left hnumbered allowed hcalm)
      -- Rows come from loads, and the monitor is not loaded but listed.
      rintro scope rows rfl
      obtain ⟨hmem, hyields⟩ := allowed
      cases hyields with
      | loaded _ all _ _ => exact h.loads _ hmem all scope rfl

/-- **One event.** What disturbs nothing leaves the monitor in order. -/
theorem InOrder.after {x : System} (h : x.InOrder) (hnumbered : x.Numbered) {event : Event}
    (allowed : x.Allows event) (hcalm : x.Undisturbed event) : (x.after event).InOrder := by
  have htended := h.tended hnumbered allowed hcalm
  refine ⟨htended.sound, htended.rowed, fun p hp => ?_, fun id => ?_⟩
  · rcases List.mem_append.mp hp with hold | hnew
    · exact h.loads p ((x.left_sublist event).subset hold)
    · exact htended.loads p.1 (List.fst_mem_of_mem_zipIdx hnew)
  · -- What is in flight now was there before, or is issued; either may be cancelled by now.
    let now : List Token := (x.state.react event).1.cancelled
    calc (x.after event).liveReads id
        = liveReadsOf id now (x.left event) ++
            liveReadsOf id now ((x.state.react event).2.zipIdx x.issued) :=
          liveReadsOf_append _ _ _ _
      _ = ((liveReadsOf id x.state.cancelled (x.left event)).filter fun token =>
            !now.contains token) ++
            (readsOf id (x.state.react event).2).filter fun token => !now.contains token := by
          rw [liveReadsOf_of_kept htended.kept, liveReadsOf_zipIdx]
      _ = (liveReadsOf id x.state.cancelled (x.left event) ++
            readsOf id (x.state.react event).2).filter fun token => !now.contains token :=
          (List.filter_append _ _).symm
      _ = ((x.state.react event).1.subscription? id).toList := (htended.serves id).symm

/-! ## Late answers -/

end System

/-- A step changes no row and no subscription, and issues no command. -/
structure State.Inert (s : State) (r : Step) : Prop where
  rows : ∀ view, (r.1.tables.get view).rows = (s.tables.get view).rows
  monitor : r.1.monitor = s.monitor
  cmds : r.2 = []

theorem State.onSample_inert_iff (s : State) (id : String) (sample : Sample) (rest : Feed Sample) :
    s.Inert (s.onSample (.monitor id) sample rest) ↔ s.subscription? id = none := by
  simp only [State.onSample]
  cases hsub : s.subscription? id with
  | none => exact ⟨fun _ => rfl, fun _ => ⟨fun _ => rfl, rfl, rfl⟩⟩
  | some token => exact ⟨fun h => (by cases h.cmds), fun h => (by cases h)⟩

theorem State.onStatsEnded_inert_iff (s : State) (id : String) (error : Option String) :
    s.Inert (s.onStatsEnded (.monitor id) error) ↔ s.subscription? id = none := by
  simp only [State.onStatsEnded]
  cases hsub : s.subscription? id with
  | none => exact ⟨fun _ => rfl, fun _ => ⟨fun _ => rfl, rfl, rfl⟩⟩
  | some token =>
      refine ⟨fun h => ?_, fun h => (by cases h)⟩
      -- The subscription that the message ends would have to be there still.
      have hended := State.subscription?_of_monitor h.monitor id
      obtain ⟨tables, hupdate⟩ := State.updateMonitored_changes (s.unsubscribe id) id fun m =>
        { m with ended := some (error.getD "ended") }
      simp only [State.noCmds, hupdate] at hended
      have hgone : (s.unsubscribe id).subscription? id = some token := hended.trans hsub
      rw [State.subscription?_unsubscribe, if_pos rfl] at hgone
      cases hgone

namespace System

/-- What is in flight after an event that cancels nothing. -/
theorem liveReads_after {x : System} {event : Event} {id : String}
    (h : (x.state.react event).1.cancelled = x.state.cancelled) :
    (x.after event).liveReads id =
      liveReadsOf id x.state.cancelled (x.left event) ++
        (readsOf id (x.state.react event).2).filter fun token =>
          !x.state.cancelled.contains token := by
  show liveReadsOf id (x.state.react event).1.cancelled
    (x.left event ++ (x.state.react event).2.zipIdx x.issued) = _
  rw [h, liveReadsOf_append, liveReadsOf_zipIdx]

/-- A late answer takes no uncancelled read away. -/
theorem Late.left {x : System} (hnumbered : x.Numbered) {cmd : Cmd} {number : Nat} {msg : Msg}
    {id : String} (allowed : x.Allows (.answer cmd number msg))
    (hlate : x.Late id (.answer cmd number msg)) :
    liveReadsOf id x.state.cancelled (x.left (.answer cmd number msg)) = x.liveReads id := by
  obtain ⟨token, hcancelled, hread⟩ := hlate
  refine liveReads_left_dead hnumbered allowed.1 msg fun other hother => ?_
  rw [hread] at hother
  cases hother
  exact hcancelled

/-- A late sample of a container that is read again makes two reads of one. -/
theorem InOrder.liveReads_late_sample {x : System} (h : x.InOrder) (hnumbered : x.Numbered)
    {cmd : Cmd} {number : Nat} {id : String} {sample : Sample} {rest : Feed Sample} {token : Token}
    (allowed : x.Allows (.answer cmd number (.statSample (.monitor id) sample rest)))
    (hlate : x.Late id (.answer cmd number (.statSample (.monitor id) sample rest)))
    (hsub : x.state.subscription? id = some token) :
    (x.after (.answer cmd number (.statSample (.monitor id) sample rest))).liveReads id =
      [token, token] := by
  have hreact : x.state.react (.answer cmd number (.statSample (.monitor id) sample rest)) =
      (x.state.updateMonitored id fun m => { m with sample := some sample },
        [.readStats (.monitor id) rest token]) := by
    simp only [State.react, State.step, State.onSample, hsub]
  have halike : State.Alike x.state
      (x.state.updateMonitored id fun m => { m with sample := some sample }) :=
    State.updateMonitored_alike fun _ => rfl
  have hlive : token ∉ x.state.cancelled := h.sound.not_cancelled hsub
  rw [liveReads_after (by rw [hreact]; exact halike.cancelled), hlate.left hnumbered allowed,
    h.reads, hsub, hreact]
  simp [readsOf, Cmd.monitorRead?, hlive]

/-- A late end of a container that is read again ends its subscription, but not its read. -/
theorem InOrder.liveReads_late_end {x : System} (h : x.InOrder) (hnumbered : x.Numbered)
    {cmd : Cmd} {number : Nat} {id : String} {error : Option String} {token : Token}
    (allowed : x.Allows (.answer cmd number (.statsEnded (.monitor id) error)))
    (hlate : x.Late id (.answer cmd number (.statsEnded (.monitor id) error)))
    (hsub : x.state.subscription? id = some token) :
    (x.after (.answer cmd number (.statsEnded (.monitor id) error))).liveReads id = [token] ∧
      (x.after (.answer cmd number (.statsEnded (.monitor id) error))).state.subscription? id =
        none := by
  have hreact : x.state.react (.answer cmd number (.statsEnded (.monitor id) error)) =
      ((x.state.unsubscribe id).updateMonitored id fun m =>
        { m with ended := some (error.getD "ended") }).noCmds := by
    simp only [State.react, State.step, State.onStatsEnded, hsub]
  have halike : State.Alike (x.state.unsubscribe id)
      ((x.state.unsubscribe id).updateMonitored id fun m =>
        { m with ended := some (error.getD "ended") }) :=
    State.updateMonitored_alike fun _ => rfl
  constructor
  · rw [liveReads_after (by rw [hreact]; exact halike.cancelled), hlate.left hnumbered allowed,
      h.reads, hsub, hreact]
    rfl
  · show (x.state.react _).1.subscription? id = none
    rw [hreact]
    refine (State.subscription?_of_monitor halike.monitor id).trans ?_
    rw [State.subscription?_unsubscribe, if_pos rfl]

end System

namespace Run

variable {config : Config} {now : Int} {history : History} {x : System}

theorem inOrder (h : Run config now history x) (hcalm : ∀ p ∈ history, p.1.Undisturbed p.2) :
    x.InOrder := by
  induction h with
  | start =>
      refine ⟨⟨List.nodup_nil, List.nodup_nil, ?_, ?_, ?_, nofun⟩, ?_, ?_, fun id => rfl⟩
      · exact fun token htoken => absurd htoken List.not_mem_nil
      · exact fun token htoken => absurd htoken List.not_mem_nil
      · exact fun token htoken => absurd htoken List.not_mem_nil
      · exact fun id token hsub => by cases hsub
      · exact fun p hp => by cases hp
  | @step history x event run allowed ih =>
      have hbefore := ih fun p hp => hcalm p (List.mem_append_left _ hp)
      have hlast := hcalm (x, event) (List.mem_append_right _ List.mem_cons_self)
      exact hbefore.after run.numbered allowed hlast

/-- **Late answers of reads.** The answer of a cancelled read of the monitor does nothing if and
only if its container is not read when it comes. As long as that has been so, and lists have named
every container once, one uncancelled read of each subscription is in flight and no other; the first
late sample of a container that is read again makes two of them, and a late end takes the
subscription away while its read goes on. -/
theorem late_answers (h : Run config now history x) :
    (∀ id event, x.Allows event → x.Late id event →
      (x.state.Inert (x.state.react event) ↔ x.state.subscription? id = none)) ∧
    ((∀ p ∈ history, p.1.Undisturbed p.2) → ∀ id,
      x.liveReads id = (x.state.subscription? id).toList ∧
      ∀ cmd number token, x.state.subscription? id = some token →
        (∀ sample rest event, event = .answer cmd number (.statSample (.monitor id) sample rest) →
          x.Allows event → x.Late id event → (x.after event).liveReads id = [token, token]) ∧
        ∀ error event, event = .answer cmd number (.statsEnded (.monitor id) error) →
          x.Allows event → x.Late id event → (x.after event).liveReads id = [token] ∧
            (x.after event).state.subscription? id = none) := by
  constructor
  · intro id event allowed hlate
    cases event with
    | begin => cases hlate
    | input msg => cases hlate
    | answer cmd number msg =>
        obtain ⟨token, -, hread⟩ := hlate
        rcases allowed.2.samples_of_read hread with ⟨sample, rest, rfl⟩ | ⟨error, rfl⟩
        · exact State.onSample_inert_iff x.state id sample rest
        · exact State.onStatsEnded_inert_iff x.state id error
  · intro hcalm id
    have hx := h.inOrder hcalm
    refine ⟨hx.reads id, fun cmd number token hsub => ⟨?_, ?_⟩⟩
    · rintro sample rest event rfl allowed hlate
      exact hx.liveReads_late_sample h.numbered allowed hlate hsub
    · rintro error event rfl allowed hlate
      exact hx.liveReads_late_end h.numbered allowed hlate hsub

/-- The monitor is left and entered again, and the container is listed in both sessions, before
the end of the first read comes. -/
theorem late_end_of_reopened_monitor : ∃ history x event,
    Run {} 0 history x ∧ (∀ p ∈ history, p.1.Undisturbed p.2) ∧ x.Allows event ∧
    x.Late "f00" event ∧ x.liveReads "f00" = [1] ∧ ¬ x.state.Inert (x.state.react event) ∧
    (x.after event).liveReads "f00" = [1] ∧
    (x.after event).state.subscription? "f00" = none := by
  have hstep {history : History} {x : System} (event : Event)
      (h : Run {} 0 history x ∧ ∀ p ∈ history, p.1.Undisturbed p.2) (allowed : x.Allows event)
      (hcalm : x.Undisturbed event) :
      Run {} 0 (history ++ [(x, event)]) (x.after event) ∧
        ∀ p ∈ history ++ [(x, event)], p.1.Undisturbed p.2 :=
    ⟨h.1.step event allowed, List.forall_mem_append.mpr ⟨h.2, List.forall_mem_singleton.mpr hcalm⟩⟩
  -- Keys disturb nothing, and neither do lists of one container.
  have hkey (x : System) : x.Undisturbed (.input (.key { code := .char 'm' })) :=
    ⟨fun id hlate => hlate.elim, fun msg hmsg containers heq => by
      rw [heq] at hmsg
      cases hmsg⟩
  have hlist (x : System) (number : Nat) : x.Undisturbed
      (.answer .listMonitor number (.monitorListed [{ id := "f00", state := "running" }])) := by
    refine ⟨fun id hlate => ?_, fun msg hmsg containers heq => ?_⟩
    · obtain ⟨token, -, hread⟩ := hlate
      cases hread
    · cases hmsg
      cases heq
      decide
  have hstart : Run {} 0 [] (.new {} 0) ∧ ∀ p ∈ ([] : History), p.1.Undisturbed p.2 :=
    ⟨.start, fun p hp => absurd hp List.not_mem_nil⟩
  have hbegun := hstep .begin hstart trivial
    ⟨fun id hlate => hlate.elim, fun msg hmsg => by cases hmsg⟩
  have hentered := hstep (.input (.key { code := .char 'm' })) hbegun rfl (hkey _)
  have hlisted := hstep
    (.answer .listMonitor 3 (.monitorListed [{ id := "f00", state := "running" }])) hentered
    ⟨List.mem_of_getElem? (i := 3) rfl, .monitorListed _⟩ (hlist _ 3)
  have hleft := hstep (.input (.key { code := .char 'm' })) hlisted rfl (hkey _)
  have hreopened := hstep (.input (.key { code := .char 'm' })) hleft rfl (hkey _)
  obtain ⟨hrun, hcalm⟩ := hstep
    (.answer .listMonitor 6 (.monitorListed [{ id := "f00", state := "running" }])) hreopened
    ⟨List.mem_of_getElem? (i := 5) rfl, .monitorListed _⟩ (hlist _ 6)
  have hanswer {y : System}
      (h : y.pending[4]? = some (.openStats (.monitor "f00") "f00" 0, 5)) :
      y.Allows
        (.answer (.openStats (.monitor "f00") "f00" 0) 5 (.statsEnded (.monitor "f00") none)) :=
    ⟨List.mem_of_getElem? h, .statsNotOpened _ _ _ _⟩
  have hcancelled {y : System} (h : y.state.cancelled[0]? = some 0) :
      y.Late "f00"
        (.answer (.openStats (.monitor "f00") "f00" 0) 5 (.statsEnded (.monitor "f00") none)) :=
    ⟨0, List.mem_of_getElem? h, rfl⟩
  obtain ⟨hinert, hreads⟩ := late_answers hrun
  obtain ⟨hlive, hlate⟩ := hreads hcalm "f00"
  obtain ⟨-, hend⟩ := hlate (.openStats (.monitor "f00") "f00" 0) 5 1 rfl
  obtain ⟨hafter, hnone⟩ := hend none _ rfl (hanswer rfl) (hcancelled rfl)
  refine ⟨_, _, _, hrun, hcalm, hanswer rfl, hcancelled rfl, ?_, fun h => ?_, hafter, hnone⟩
  · rw [hlive]
    rfl
  · cases (hinert "f00" _ (hanswer rfl) (hcancelled rfl)).mp h

end Run

end Dockboard
