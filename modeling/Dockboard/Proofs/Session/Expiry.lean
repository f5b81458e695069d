import Dockboard.Proofs.Session.Announcements

set_option autoImplicit false

/-! # How status messages go

Every status message has a number of its own, and a timer that carries it is started when the
message is put up. Timers cannot be cancelled, so those of messages that are gone fire as well, in
any order. None of them takes away a message that is not its own.

    Cmd.expiry? cmd              the number of the message that a timer takes away
    Fate s msg? r                what becomes of the message that is shown
    Timed x                      the timer of the message that is shown is outstanding
    Starts y event st n          an event puts up the message `st`, whose timer is command `n`
    StartedFor history st n      this has happened
    Traced history x             timers and messages belong together, one to one

How a timer and its message belong together is said by when they came up, and not by the number
that they have in common: that it tells messages apart is what has to be shown.
-/

namespace Dockboard

/-- The number of the status message that a timer takes away. -/
def Cmd.expiry? : Cmd → Option Nat
  | .timer _ (.statusExpired seq) => some seq
  | _ => none

/-- Whether a command is a timer of the status message with a number. -/
def Cmd.isExpiry (seq : Nat) (cmd : Cmd) : Bool := cmd.expiry? == some seq

theorem Cmd.expiry?_of_announces {cmd : Cmd} (h : cmd.announces = false) : cmd.expiry? = none := by
  unfold expiry?
  split
  · cases h
  · rfl

theorem Cmd.Yields.expiry?_iff {cmd : Cmd} {msg : Msg} (h : cmd.Yields msg) (seq : Nat) :
    cmd.expiry? = some seq ↔ msg = .alarm (.statusExpired seq) := by
  cases h
  case timer after alarm => cases alarm <;> simp [Cmd.expiry?]
  all_goals simp [Cmd.expiry?]

theorem Cmd.Yields.isExpiry_iff {cmd : Cmd} {msg : Msg} (h : cmd.Yields msg) (seq : Nat) :
    cmd.isExpiry seq = true ↔ msg = .alarm (.statusExpired seq) := by
  rw [Cmd.isExpiry, beq_iff_eq, h.expiry?_iff]

theorem Cmd.Yields.of_isExpiry {cmd : Cmd} {seq : Nat} (h : cmd.isExpiry seq = true) :
    cmd.Yields (.alarm (.statusExpired seq)) := by
  unfold isExpiry expiry? at h
  split at h
  · rw [Option.some.inj (beq_iff_eq.mp h)]
    exact .timer _ _
  · cases h

/-- None of the commands is the timer of a status message. -/
def Lasting (cmds : List Cmd) : Prop := ∀ cmd ∈ cmds, cmd.expiry? = none

theorem lasting_of_mute {cmds : List Cmd} (h : ∀ cmd ∈ cmds, cmd.announces = false) :
    Lasting cmds :=
  fun cmd hcmd => Cmd.expiry?_of_announces (h cmd hcmd)

theorem Lasting.countP {cmds : List Cmd} (h : Lasting cmds) (seq : Nat) :
    cmds.countP (Cmd.isExpiry seq) = 0 := by
  refine List.countP_eq_zero.mpr fun cmd hcmd => ?_
  simp [Cmd.isExpiry, h cmd hcmd]

namespace State

/-! ## What becomes of the message -/

/-- What becomes of the status message that is shown. -/
inductive Fate (s : State) (msg? : Option Msg) (r : Step) : Prop where
  /-- It stays, if there is one. -/
  | stays (hstatus : r.1.status = s.status) (hseq : r.1.statusSeq = s.statusSeq)
      (hcmds : Lasting r.2)
      (hmsg : ∀ st, s.status = some st → msg? ≠ some (.alarm (.statusExpired st.seq)))
  /-- A new one takes its place, and the timer of that one is started. -/
  | replaced (st : Status) (hstatus : r.1.status = some st) (hnumber : st.seq = s.statusSeq + 1)
      (hseq : r.1.statusSeq = s.statusSeq + 1) (after : Nat) (rest : List Cmd)
      (hcmds : r.2 = .timer after (.statusExpired st.seq) :: rest) (hrest : Lasting rest)
  /-- A key takes it away. -/
  | dismissed (key : Key) (hmsg : msg? = some (.key key)) (hlayer : s.layer = none)
      (hstatus : r.1.status = none) (hseq : r.1.statusSeq = s.statusSeq) (hcmds : Lasting r.2)
  /-- Its timer takes it away. -/
  | expired (st : Status) (hshown : s.status = some st)
      (hmsg : msg? = some (.alarm (.statusExpired st.seq)))
      (hr : r = ({ s with status := none }, []))

theorem Mute.stays {s : State} {msg? : Option Msg} {r : Step} (h : Mute s r)
    (hmsg : ∀ seq, msg? ≠ some (.alarm (.statusExpired seq))) : Fate s msg? r :=
  .stays h.status h.statusSeq (lasting_of_mute h.cmds) fun _ _ => hmsg _

theorem onEvent_stays (s : State) (event : DaemonEvent) (rest : Stream.Feed DaemonEvent) :
    Fate s (some (.daemonEvent event rest)) (s.onEvent event rest) := by
  have hshow (s : State) : (s.showEvent event).status = s.status ∧
      (s.showEvent event).statusSeq = s.statusSeq := by
    unfold showEvent
    split
    · split <;> exact ⟨rfl, rfl⟩
    · exact ⟨rfl, rfl⟩
  have hnoted : (s.noteChange event).1.status = s.status ∧
      (s.noteChange event).1.statusSeq = s.statusSeq := by
    obtain ⟨debouncer, hnote⟩ := noteChange_changes s event
    rw [hnote]
    exact ⟨rfl, rfl⟩
  obtain ⟨hstatus, hseq⟩ := hshow (s.noteChange event).1
  refine .stays (hstatus.trans hnoted.1) (hseq.trans hnoted.2) (fun cmd hcmd => ?_) nofun
  rcases List.mem_cons.mp hcmd with rfl | hcmd
  · rfl
  · obtain ⟨after, rfl⟩ := mem_noteChange hcmd
    rfl

theorem onFlush_stays (s : State) :
    Fate s (some (.alarm .debounceElapsed)) (s.onAlarm .debounceElapsed) := by
  simp only [onAlarm]
  split
  · have hload := requestLoad_mute { s with debouncer := s.debouncer.flush.1 } s.view
    exact .stays hload.status hload.statusSeq (lasting_of_mute hload.cmds) nofun
  · exact .stays rfl rfl (lasting_of_mute nofun) nofun

/-- The timer of a message takes away that message, and no other one. -/
theorem onExpired_eq (s : State) (seq : Nat) :
    s.onAlarm (.statusExpired seq) =
      if ∃ st, s.status = some st ∧ st.seq = seq then ({ s with status := none }, [])
      else (s, []) := by
  simp only [onAlarm]
  cases s.status with
  | none => simp [State.noCmds]
  | some st => simp [State.noCmds]

theorem onExpired_fate (s : State) (seq : Nat) :
    Fate s (some (.alarm (.statusExpired seq))) (s.onAlarm (.statusExpired seq)) := by
  rw [onExpired_eq]
  split
  · next hshown =>
    obtain ⟨st, hstatus, rfl⟩ := hshown
    exact .expired st hstatus rfl rfl
  · next hother =>
    refine .stays rfl rfl (lasting_of_mute nofun) fun st hstatus hmsg => hother ⟨st, hstatus, ?_⟩
    cases hmsg
    rfl

theorem Announces.fate {s : State} {msg? : Option Msg} {r : Step} (h : Announces s msg? r) :
    Fate s msg? r := by
  cases h with
  | mute hplain hmute =>
      refine hmute.stays fun seq hmsg => ?_
      rw [hmsg] at hplain
      cases hplain
  | tells hplain htells =>
      obtain ⟨⟨text, isError, hshown⟩, hseq, -, after, rest, hcmds, hrest⟩ := htells
      exact .replaced _ hshown rfl hseq after rest hcmds (lasting_of_mute hrest)
  | removes key hlayer hmute =>
      exact .dismissed key rfl hlayer hmute.status hmute.statusSeq (lasting_of_mute hmute.cmds)
  | reported event rest => exact onEvent_stays s event rest
  | flushed => exact onFlush_stays s
  | expired seq => exact onExpired_fate s seq

/-- **Events and the status message.** -/
theorem react_fate (s : State) (event : Event) : Fate s event.msg? (s.react event) :=
  (react_announces s event).fate

theorem react_statusSeq (s : State) (event : Event) :
    s.statusSeq ≤ (s.react event).1.statusSeq := by
  cases react_fate s event with
  | stays _ hseq => exact Nat.le_of_eq hseq.symm
  | replaced _ _ _ hseq => exact Nat.le_trans (Nat.le_succ _) (Nat.le_of_eq hseq.symm)
  | dismissed _ _ _ _ hseq => exact Nat.le_of_eq hseq.symm
  | expired _ _ _ hr => exact Nat.le_of_eq (congrArg (·.1.statusSeq) hr).symm

end State

/-! ## Timers that are outstanding -/

namespace System

/-- No command is answered by a key. -/
theorem eq_input {x : System} {event : Event} (allowed : x.Allows event) {key : Key}
    (hmsg : event.msg? = some (.key key)) : event = .input (.key key) := by
  cases event with
  | begin => cases hmsg
  | input msg => rw [Option.some.inj hmsg]
  | answer cmd n msg =>
      cases hmsg
      cases allowed.2

/-- Nothing is announced but by the answer of a timer. -/
theorem exists_answer {x : System} {event : Event} (allowed : x.Allows event) {alarm : Alarm}
    (hmsg : event.msg? = some (.alarm alarm)) : ∃ cmd n, event = .answer cmd n (.alarm alarm) := by
  cases event with
  | begin => cases hmsg
  | input msg =>
      cases hmsg
      cases allowed
  | answer cmd n msg => exact ⟨cmd, n, by rw [Option.some.inj hmsg]⟩

theorem answers_isExpiry {x : System} {event : Event} (allowed : x.Allows event) (seq : Nat) :
    event.answers (Cmd.isExpiry seq) = true ↔ event.msg? = some (.alarm (.statusExpired seq)) :=
  answers_iff_msg allowed rfl fun hyields => hyields.isExpiry_iff seq

/-- Of no message is more than one timer outstanding, and of none that is still to come. The message
that is shown has the latest number, and its timer is outstanding. -/
structure Timed (x : System) : Prop where
  once : ∀ seq, x.outstanding (Cmd.isExpiry seq) ≤ 1
  later : ∀ seq, x.state.statusSeq < seq → x.outstanding (Cmd.isExpiry seq) = 0
  shown : ∀ st, x.state.status = some st →
    st.seq = x.state.statusSeq ∧ x.outstanding (Cmd.isExpiry st.seq) = 1

section After

variable {x : System} {event : Event} (h : x.Timed) (hnumbered : x.Numbered)
  (allowed : x.Allows event)
include h hnumbered allowed

/-- A message that is still shown has its timer, where no timer is started. -/
theorem Timed.of_lasting (hcmds : Lasting (x.state.react event).2)
    (hseq : (x.after event).state.statusSeq = x.state.statusSeq)
    (hkept : ∀ st, (x.after event).state.status = some st →
      x.state.status = some st ∧ event.msg? ≠ some (.alarm (.statusExpired st.seq))) :
    (x.after event).Timed := by
  have hcount (seq : Nat) : (x.after event).outstanding (Cmd.isExpiry seq) +
      (if event.answers (Cmd.isExpiry seq) then 1 else 0) = x.outstanding (Cmd.isExpiry seq) := by
    rw [outstanding_after hnumbered allowed, hcmds.countP, Nat.add_zero]
  refine ⟨fun seq => ?_, fun seq hlater => ?_, fun st hst => ?_⟩
  · have honce := h.once seq
    have hfewer := hcount seq
    omega
  · rw [hseq] at hlater
    have hnone := h.later seq hlater
    have hfewer := hcount seq
    omega
  · obtain ⟨hbefore, hmsg⟩ := hkept st hst
    obtain ⟨hlatest, hone⟩ := h.shown st hbefore
    have hsame := hcount st.seq
    rw [hone, if_neg (by rwa [answers_isExpiry allowed])] at hsame
    exact ⟨by rw [hseq, hlatest], hsame⟩

/-- A message that comes up brings its timer with it. -/
theorem Timed.of_replaced {new : Status} {after : Nat} {rest : List Cmd}
    (hstatus : (x.after event).state.status = some new) (hnumber : new.seq = x.state.statusSeq + 1)
    (hseq : (x.after event).state.statusSeq = new.seq)
    (hcmds : (x.state.react event).2 = .timer after (.statusExpired new.seq) :: rest)
    (hrest : Lasting rest) : (x.after event).Timed := by
  have hcount (seq : Nat) : (x.after event).outstanding (Cmd.isExpiry seq) +
      (if event.answers (Cmd.isExpiry seq) then 1 else 0) =
        x.outstanding (Cmd.isExpiry seq) + if seq = new.seq then 1 else 0 := by
    have hhead : (Cmd.timer after (.statusExpired new.seq)).isExpiry seq = true ↔
        seq = new.seq := by
      rw [Cmd.isExpiry, beq_iff_eq, Cmd.expiry?, Option.some.injEq, eq_comm]
    rw [outstanding_after hnumbered allowed, hcmds, List.countP_cons, hrest.countP, Nat.zero_add]
    simp only [hhead]
  have hnone := h.later new.seq (by omega)
  have hanswers := answers_le_outstanding hnumbered allowed (Cmd.isExpiry new.seq)
  refine ⟨fun seq => ?_, fun seq hlater => ?_, fun st hst => ?_⟩
  · have honce := h.once seq
    have hafter := hcount seq
    by_cases hnew : seq = new.seq
    · rw [hnew, hnone, if_pos rfl] at hafter
      rw [hnew]
      omega
    · rw [if_neg hnew] at hafter
      omega
  · rw [hseq] at hlater
    have hbefore := h.later seq (by omega)
    have hother : seq ≠ new.seq := by omega
    have hafter := hcount seq
    rw [hbefore, if_neg hother] at hafter
    omega
  · rw [hstatus] at hst
    cases hst
    have hafter := hcount new.seq
    rw [hnone, if_pos rfl] at hafter
    rw [hnone] at hanswers
    exact ⟨hseq.symm, by omega⟩

/-- **One event.** The timer of the message that is shown is outstanding. -/
theorem Timed.after : (x.after event).Timed := by
  have hgone {st : Status} {P : Prop} (hstatus : (x.state.react event).1.status = none)
      (hst : (x.after event).state.status = some st) : P := by
    cases hstatus.symm.trans hst
  cases State.react_fate x.state event with
  | stays hstatus hseq hcmds hmsg =>
      refine h.of_lasting hnumbered allowed hcmds hseq fun st hst => ?_
      have hbefore : x.state.status = some st := hstatus.symm.trans hst
      exact ⟨hbefore, hmsg st hbefore⟩
  | replaced new hstatus hnumber hseq after rest hcmds hrest =>
      exact h.of_replaced hnumbered allowed hstatus hnumber (hseq.trans hnumber.symm) hcmds hrest
  | dismissed key hmsg hlayer hstatus hseq hcmds =>
      exact h.of_lasting hnumbered allowed hcmds hseq fun st hst => hgone hstatus hst
  | expired st hshown hmsg hr =>
      refine h.of_lasting hnumbered allowed ?_ (congrArg (·.1.statusSeq) hr) fun st hst => ?_
      · rw [hr]
        exact lasting_of_mute nofun
      · exact hgone (congrArg (·.1.status) hr) hst

end After

end System

/-! ## Timers and their messages -/

/-- With an event, a message is put up, and a timer of status messages is started as the command
with a number. -/
def Starts (y : System) (event : Event) (st : Status) (number : Nat) : Prop :=
  (y.after event).state.status = some st ∧ ∃ after seq,
    (Cmd.timer after (.statusExpired seq), number) ∈ (y.state.react event).2.zipIdx y.issued

/-- A message has been put up, and the command with a number is the timer that was started then. -/
def StartedFor (history : History) (st : Status) (number : Nat) : Prop :=
  ∃ p ∈ history, Starts p.1 p.2 st number

theorem startedFor_concat {history : History} {x : System} {event : Event} {st : Status}
    {number : Nat} : StartedFor (history ++ [(x, event)]) st number ↔
      StartedFor history st number ∨ Starts x event st number := by
  simp [StartedFor, or_and_right, exists_or]

section Starts

variable {x : System} {event : Event} {st : Status} {number : Nat} {cmd : Cmd}

/-- Where a timer of a status message is started, it is the first command, and carries the number of
the message that is put up. -/
theorem starts_of_expiry {seq : Nat}
    (hmem : (cmd, number) ∈ (x.state.react event).2.zipIdx x.issued)
    (hexpiry : cmd.expiry? = some seq) :
    ∃ new after rest, (x.after event).state.status = some new ∧
      new.seq = x.state.statusSeq + 1 ∧ (x.after event).state.statusSeq = new.seq ∧
      (x.state.react event).2 = .timer after (.statusExpired new.seq) :: rest ∧
      number = x.issued ∧ new.seq = seq := by
  have hnone {cmds : List Cmd} {n : Nat} (hcmds : Lasting cmds)
      (hmem : (cmd, number) ∈ cmds.zipIdx n) : False := by
    rw [hcmds cmd (List.fst_mem_of_mem_zipIdx hmem)] at hexpiry
    cases hexpiry
  cases State.react_fate x.state event with
  | stays _ _ hcmds => exact (hnone hcmds hmem).elim
  | replaced new hstatus hnumber hseq after rest hcmds hrest =>
      rw [hcmds, List.zipIdx_cons] at hmem
      rcases List.mem_cons.mp hmem with heq | hlater
      · cases heq
        exact ⟨new, after, rest, hstatus, hnumber, hseq.trans hnumber.symm, hcmds, rfl,
          Option.some.inj hexpiry⟩
      · exact (hnone hrest hlater).elim
  | dismissed _ _ _ _ _ hcmds => exact (hnone hcmds hmem).elim
  | expired _ _ _ hr =>
      rw [hr] at hmem
      cases hmem

theorem exists_starts {seq : Nat}
    (hmem : (cmd, number) ∈ (x.state.react event).2.zipIdx x.issued)
    (hexpiry : cmd.expiry? = some seq) : ∃ st, Starts x event st number ∧ st.seq = seq := by
  obtain ⟨new, after, rest, hstatus, -, -, hcmds, rfl, hseq⟩ := starts_of_expiry hmem hexpiry
  refine ⟨new, ⟨hstatus, after, new.seq, ?_⟩, hseq⟩
  rw [hcmds, List.zipIdx_cons]
  exact List.mem_cons_self

/-- A message that is put up has the next number, and its timer is the next command. -/
theorem Starts.spec (h : Starts x event st number) :
    st.seq = x.state.statusSeq + 1 ∧ (x.after event).state.statusSeq = st.seq ∧
      number = x.issued ∧
      ∃ after rest, (x.state.react event).2 = .timer after (.statusExpired st.seq) :: rest := by
  obtain ⟨hstatus, after, seq, hmem⟩ := h
  obtain ⟨new, after', rest, hnew, hnumber, hseq, hcmds, hn, -⟩ := starts_of_expiry hmem rfl
  cases Option.some.inj (hnew.symm.trans hstatus)
  exact ⟨hnumber, hseq, hn, after', rest, hcmds⟩

theorem Starts.expiry?_eq (h : Starts x event st number)
    (hmem : (cmd, number) ∈ (x.state.react event).2.zipIdx x.issued) :
    cmd.expiry? = some st.seq := by
  obtain ⟨-, -, rfl, after, rest, hcmds⟩ := h.spec
  rw [hcmds, List.zipIdx_cons] at hmem
  rcases List.mem_cons.mp hmem with heq | hlater
  · cases heq
    rfl
  · have hle := List.le_snd_of_mem_zipIdx hlater
    exact absurd hle (Nat.not_succ_le_self _)

end Starts

/-- A command has been issued: it is outstanding, or it has been answered. -/
def Issued (history : History) (x : System) (cmd : Cmd) (number : Nat) : Prop :=
  (cmd, number) ∈ x.pending ∨ ∃ y msg, (y, .answer cmd number msg) ∈ history

/-- What has been issued when an event has happened was issued before, or by the event. -/
theorem Issued.of_after {history : History} {x : System} {event : Event} {cmd : Cmd}
    {number : Nat} (allowed : x.Allows event)
    (h : Issued (history ++ [(x, event)]) (x.after event) cmd number) :
    Issued history x cmd number ∨ (cmd, number) ∈ (x.state.react event).2.zipIdx x.issued := by
  rcases h with hpending | ⟨y, msg, hanswered⟩
  · rcases List.mem_append.mp hpending with hleft | hnew
    · exact Or.inl (Or.inl ((x.left_sublist event).subset hleft))
    · exact Or.inr hnew
  · rcases List.mem_append.mp hanswered with hold | hlast
    · exact Or.inl (Or.inr ⟨y, msg, hold⟩)
    · cases List.mem_singleton.mp hlast
      exact Or.inl (Or.inl allowed.1)

/-- Timers and messages belong together, one to one: each message had its timer started, and of the
commands that have been issued exactly such timers take a message away, and that by its number. -/
structure Traced (history : History) (x : System) : Prop where
  past : ∀ {st n}, StartedFor history st n → st.seq ≤ x.state.statusSeq ∧ n < x.issued
  same : ∀ {st n st' n'}, StartedFor history st n → StartedFor history st' n' →
    (st.seq = st'.seq ∨ n = n') → st = st' ∧ n = n'
  shown : ∀ {st}, x.state.status = some st → ∃ n, StartedFor history st n
  issued : ∀ {cmd n}, Issued history x cmd n → n < x.issued
  timers : ∀ {cmd n}, Issued history x cmd n → ∀ seq,
    cmd.expiry? = some seq ↔ ∃ st, StartedFor history st n ∧ st.seq = seq

/-- What is put up has a number that no message has had, and a timer that has not been issued. -/
theorem Traced.fresh {history : History} {x : System} {event : Event} {st st' : Status}
    {n n' : Nat} (h : Traced history x) (hold : StartedFor history st n)
    (hnew : Starts x event st' n') : st.seq < st'.seq ∧ n < n' := by
  obtain ⟨hseq, hn⟩ := h.past hold
  obtain ⟨hseq', -, hn', -⟩ := hnew.spec
  omega

/-- **One event.** A message and its timer come up together, under numbers that are new. -/
theorem Traced.after {history : History} {x : System} {event : Event} (h : Traced history x)
    (allowed : x.Allows event) : Traced (history ++ [(x, event)]) (x.after event) := by
  have hissued : (x.after event).issued = x.issued + (x.state.react event).2.length := rfl
  constructor
  · intro st n hstarted
    rcases startedFor_concat.mp hstarted with hold | hnew
    · obtain ⟨hle, hlt⟩ := h.past hold
      have hseq : x.state.statusSeq ≤ (x.after event).state.statusSeq :=
        State.react_statusSeq x.state event
      exact ⟨Nat.le_trans hle hseq, by omega⟩
    · obtain ⟨-, hlatest, rfl, after, rest, hcmds⟩ := hnew.spec
      rw [hissued, hcmds, List.length_cons]
      exact ⟨Nat.le_of_eq hlatest.symm, by omega⟩
  · intro st n st' n' hstarted hstarted' hsame
    rcases startedFor_concat.mp hstarted with hold | hnew <;>
      rcases startedFor_concat.mp hstarted' with hold' | hnew'
    · exact h.same hold hold' hsame
    · have hlt := h.fresh hold hnew'
      omega
    · have hlt := h.fresh hold' hnew
      omega
    · exact ⟨Option.some.inj (hnew.1.symm.trans hnew'.1),
        hnew.spec.2.2.1.trans hnew'.spec.2.2.1.symm⟩
  · intro st hst
    cases State.react_fate x.state event with
    | stays hstatus =>
        obtain ⟨n, hn⟩ := h.shown (hstatus.symm.trans hst)
        exact ⟨n, startedFor_concat.mpr (Or.inl hn)⟩
    | replaced new _ _ _ after rest hcmds =>
        refine ⟨x.issued, startedFor_concat.mpr (Or.inr ⟨hst, after, new.seq, ?_⟩)⟩
        rw [hcmds, List.zipIdx_cons]
        exact List.mem_cons_self
    | dismissed _ _ _ hstatus => cases hstatus.symm.trans hst
    | expired _ _ _ hr =>
        have hstatus : (x.after event).state.status = none := congrArg (·.1.status) hr
        cases hstatus.symm.trans hst
  · intro cmd n hcmd
    rcases hcmd.of_after allowed with hold | hnew
    · have hlt := h.issued hold
      omega
    · exact List.snd_lt_add_of_mem_zipIdx hnew
  · intro cmd n hcmd seq
    rcases hcmd.of_after allowed with hold | hnew
    · -- What was issued before is no timer that is started now.
      have hlt := h.issued hold
      have hbefore (st : Status) :
          StartedFor (history ++ [(x, event)]) st n ↔ StartedFor history st n := by
        rw [startedFor_concat]
        exact or_iff_left fun hstarts => Nat.ne_of_lt hlt hstarts.spec.2.2.1
      simp only [hbefore]
      exact h.timers hold seq
    · have hle : x.issued ≤ n := List.le_snd_of_mem_zipIdx hnew
      have hnow (st : Status) :
          StartedFor (history ++ [(x, event)]) st n ↔ Starts x event st n := by
        rw [startedFor_concat]
        exact or_iff_right fun hstarted => Nat.not_lt.mpr hle (h.past hstarted).2
      simp only [hnow]
      constructor
      · exact exists_starts hnew
      · rintro ⟨st, hstarts, rfl⟩
        exact hstarts.expiry?_eq hnew

namespace Run

variable {config : Config} {now : Int} {history : History} {x : System}

theorem timed (h : Run config now history x) : x.Timed := by
  induction h with
  | start => exact ⟨fun _ => Nat.zero_le 1, fun _ _ => rfl, nofun⟩
  | step event run allowed ih => exact ih.after run.numbered allowed

theorem traced (h : Run config now history x) : Traced history x := by
  induction h with
  | start =>
      have hnone {st : Status} {n : Nat} : ¬ StartedFor [] st n := by
        rintro ⟨p, hp, -⟩
        cases hp
      have hissued {cmd : Cmd} {n : Nat} : ¬ Issued [] (System.new config now) cmd n := by
        rintro (hpending | ⟨y, msg, hanswered⟩)
        · cases hpending
        · cases hanswered
      exact ⟨fun h => (hnone h).elim, fun h => (hnone h).elim, nofun, fun h => (hissued h).elim,
        fun h => (hissued h).elim⟩
  | step event run allowed ih => exact ih.after allowed

/-- The timer of the message that is shown is outstanding. -/
theorem timer_of_shown (h : Run config now history x) {st : Status} {n : Nat}
    (hst : x.state.status = some st) (hstarted : StartedFor history st n) :
    ∃ cmd, (cmd, n) ∈ x.pending ∧ cmd.isExpiry st.seq = true := by
  have hone := (h.timed.shown st hst).2
  have hpos : 0 < x.outstanding (Cmd.isExpiry st.seq) := by omega
  obtain ⟨⟨cmd, m⟩, hmem, hexpiry⟩ := List.countP_pos_iff.mp hpos
  obtain ⟨st', hstarted', hseq⟩ := (h.traced.timers (Or.inl hmem) st.seq).mp (beq_iff_eq.mp hexpiry)
  obtain ⟨rfl, rfl⟩ := h.traced.same hstarted' hstarted (Or.inl hseq)
  exact ⟨cmd, hmem, hexpiry⟩

/-- A timer that has fired is not outstanding any more. -/
theorem not_pending_of_fired (h : Run config now history x) {y : System} {cmd cmd' : Cmd}
    {n seq : Nat} {msg : Msg} (hfired : (y, .answer cmd n msg) ∈ history)
    (hexpiry : cmd.isExpiry seq = true) (hexpiry' : cmd'.isExpiry seq = true) :
    (cmd', n) ∉ x.pending := by
  intro hpending
  have hall : ∀ p ∈ history, p.1.outstanding (Cmd.isExpiry seq) ≤ 1 := fun p hp => by
    obtain ⟨earlier, later, rfl⟩ := List.append_of_mem hp
    exact h.split.1.timed.once seq
  have hturn := h.inTurn hall
  have hanswered : n ∈ answersOf (Cmd.isExpiry seq) history :=
    List.mem_filterMap.mpr ⟨_, hfired, by simp [Event.answered?, hexpiry]⟩
  have hleft : n ∈ numbersOf (Cmd.isExpiry seq) x.pending :=
    List.mem_map.mpr ⟨_, List.mem_filter.mpr ⟨hpending, hexpiry'⟩, rfl⟩
  exact Nat.lt_irrefl n ((List.pairwise_append.mp hturn.rising).2.2 n hanswered n hleft)

/-- **How status messages go.** While a message is shown, one timer that carries its number is
outstanding, which is the one that was started for it; it may fire at any time, and when it has, the
message is not shown any more. Whatever timer of a message fires, it was started for one message,
which it takes away if it is shown, and nothing else happens. There are two other ways for a message
to go: a newer one takes its place, or a key is pressed where only the view is shown. -/
theorem status_taken_away (h : Run config now history x) :
    (∀ st, x.state.status = some st →
      x.outstanding (Cmd.isExpiry st.seq) = 1 ∧
        ∃ cmd n, StartedFor history st n ∧
          x.Allows (.answer cmd n (.alarm (.statusExpired st.seq)))) ∧
    (∀ st n, StartedFor history st n →
      (∃ y cmd msg, (y, .answer cmd n msg) ∈ history) → x.state.status ≠ some st) ∧
    (∀ cmd n seq, x.Allows (.answer cmd n (.alarm (.statusExpired seq))) →
      ∃ st, StartedFor history st n ∧ (∀ st', StartedFor history st' n → st' = st) ∧
        x.state.step (.alarm (.statusExpired seq)) =
          if x.state.status = some st then ({ x.state with status := none }, [])
          else (x.state, [])) ∧
    ∀ event st, x.Allows event → x.state.status = some st →
      (x.after event).state.status ≠ some st →
        (∃ cmd n, event = .answer cmd n (.alarm (.statusExpired st.seq)) ∧
          StartedFor history st n) ∨
        (∃ newer, (x.after event).state.status = some newer ∧ st.seq < newer.seq) ∨
        ∃ key, event = .input (.key key) ∧ x.state.layer = none := by
  refine ⟨fun st hst => ?_, ?_, ?_, ?_⟩
  · obtain ⟨n, hstarted⟩ := h.traced.shown hst
    obtain ⟨cmd, hpending, hexpiry⟩ := h.timer_of_shown hst hstarted
    exact ⟨(h.timed.shown st hst).2, cmd, n, hstarted, hpending, .of_isExpiry hexpiry⟩
  · rintro st n hstarted ⟨y, cmd, msg, hfired⟩ hst
    have hexpiry : cmd.expiry? = some st.seq :=
      (h.traced.timers (Or.inr ⟨y, msg, hfired⟩) st.seq).mpr ⟨st, hstarted, rfl⟩
    obtain ⟨timer, hpending, htimer⟩ := h.timer_of_shown hst hstarted
    exact h.not_pending_of_fired hfired (beq_iff_eq.mpr hexpiry) htimer hpending
  · intro cmd n seq allowed
    obtain ⟨hpending, hyields⟩ := allowed
    obtain ⟨st, hstarted, hseq⟩ :=
      (h.traced.timers (Or.inl hpending) seq).mp ((hyields.expiry?_iff seq).mpr rfl)
    have hsole : ∀ st', StartedFor history st' n → st' = st := fun st' hstarted' =>
      (h.traced.same hstarted' hstarted (Or.inr rfl)).1
    refine ⟨st, hstarted, hsole, ?_⟩
    have hown : (∃ st', x.state.status = some st' ∧ st'.seq = seq) ↔ x.state.status = some st := by
      constructor
      · rintro ⟨st', hst', hseq'⟩
        obtain ⟨n', hstarted'⟩ := h.traced.shown hst'
        rw [hst', (h.traced.same hstarted' hstarted (Or.inl (hseq'.trans hseq.symm))).1]
      · exact fun hst => ⟨st, hst, hseq⟩
    show x.state.onAlarm (.statusExpired seq) = _
    rw [State.onExpired_eq]
    simp only [hown]
  · intro event st allowed hst hgone
    cases State.react_fate x.state event with
    | stays hstatus => exact absurd (hstatus.trans hst) hgone
    | replaced newer hstatus hnumber =>
        have hlatest := (h.timed.shown st hst).1
        exact Or.inr (Or.inl ⟨newer, hstatus, by omega⟩)
    | dismissed key hmsg hlayer => exact Or.inr (Or.inr ⟨key, System.eq_input allowed hmsg, hlayer⟩)
    | expired shown hshown hmsg =>
        cases Option.some.inj (hshown.symm.trans hst)
        obtain ⟨cmd, n, rfl⟩ := System.exists_answer allowed hmsg
        obtain ⟨hpending, hyields⟩ := allowed
        obtain ⟨own, hstarted, hseq⟩ :=
          (h.traced.timers (Or.inl hpending) _).mp ((hyields.expiry?_iff _).mpr rfl)
        obtain ⟨m, hstarted'⟩ := h.traced.shown hst
        obtain ⟨rfl, rfl⟩ := h.traced.same hstarted hstarted' (Or.inl hseq)
        exact Or.inl ⟨cmd, n, rfl, hstarted⟩

/-- A load fails, and then the events come to an end while the message of the failure is still
shown. Its timer fires without effect, and the one that was started last takes the second message
away. -/
theorem status_taken_away_of_two : ∃ history x first second, Run {} 0 history x ∧
    StartedFor history first 3 ∧ StartedFor history second 4 ∧ x.state.status = some second ∧
    x.outstanding (Cmd.isExpiry second.seq) = 1 ∧
    x.state.step (.alarm (.statusExpired first.seq)) = (x.state, []) ∧
    (x.state.step (.alarm (.statusExpired second.seq))).1.status = none := by
  have hfailed := ((Run.start : Run {} 0 [] _).step .begin trivial).step
    (.answer (.load .containers false none) 2 (.loadFailed .containers "refused"))
    ⟨List.mem_of_getElem? (i := 2) rfl, .loadFailed .containers false none _⟩
  have hended := hfailed.step (.answer .watchEvents 1 (.eventsEnded none))
    ⟨List.mem_of_getElem? (i := 1) rfl, .eventsNotOpened none⟩
  obtain ⟨history, x, first, second, hrun, hfirst, hsecond, hshown, hother, hearly, hlate⟩ :
      ∃ history x first second, Run {} 0 history x ∧ StartedFor history first 3 ∧
        StartedFor history second 4 ∧ x.state.status = some second ∧ second ≠ first ∧
        x.Allows (.answer (.timer 5000 (.statusExpired first.seq)) 3
          (.alarm (.statusExpired first.seq))) ∧
        x.Allows (.answer (.timer 5000 (.statusExpired second.seq)) 4
          (.alarm (.statusExpired second.seq))) := by
    refine ⟨_, _, { text := "Loading Containers failed: refused", isError := true, seq := 1 },
      { text := "Event stream closed; automatic refresh is off", isError := true, seq := 2 },
      hended, ?_, ?_, rfl, by decide, ?_, ?_⟩
    · exact ⟨_, List.mem_of_getElem? (i := 1) rfl, rfl, 5000, 1, List.mem_of_getElem? (i := 0) rfl⟩
    · exact ⟨_, List.mem_of_getElem? (i := 2) rfl, rfl, 5000, 2, List.mem_of_getElem? (i := 0) rfl⟩
    · exact ⟨List.mem_of_getElem? (i := 1) rfl, .timer _ _⟩
    · exact ⟨List.mem_of_getElem? (i := 2) rfl, .timer _ _⟩
  obtain ⟨hone, -, hfires, -⟩ := status_taken_away hrun
  obtain ⟨st, -, hown, hstep⟩ := hfires _ _ _ hearly
  rw [← hown first hfirst, hshown, if_neg fun h => hother (Option.some.inj h)] at hstep
  obtain ⟨st', -, hown', hstep'⟩ := hfires _ _ _ hlate
  rw [← hown' second hsecond, if_pos hshown] at hstep'
  exact ⟨history, x, first, second, hrun, hfirst, hsecond, hshown, (hone second hshown).1, hstep,
    by rw [hstep']⟩

end Run

end Dockboard
