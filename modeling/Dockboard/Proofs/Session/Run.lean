import Dockboard.Session.Executor

set_option autoImplicit false

/-! # Runs of a session

A session runs together with the commands it has issued. Every command is answered once, by a
message of its kind, at any later time and in any order; in between the user presses keys and
changes the size of the screen. The system of a session and its commands that have not been
answered makes one step for each of these events.

    Cmd.Yields cmd msg    `msg` can be the answer to `cmd`
    System                a session and the commands that have not been answered
    Run history x         from a new session the events of `history` lead to `x`
    x.outstanding kind    how many commands of a kind have not been answered
    InTurn kind ended x   commands of a kind have been answered in the order of their numbers

A read of a stream may still be answered by what it has read after its token was cancelled. So
these are more runs than the executor has, which gives up a read as soon as that happens; every
run of the executor is one of them (`Executor.exists_run_of_executes`).
-/

namespace Dockboard

open Dockboard.Stream

/-! ## Answers -/

/-- The messages that can be the answer to a command. -/
inductive Cmd.Yields : Cmd → Msg → Prop where
  | summary (summary : DaemonSummary) : Yields .summary (.summary summary)
  | summaryFailed (error : String) : Yields .summary (.summaryFailed error)
  | loaded (view : View) (all : Bool) (scope : Option TaskScope) (rows : List Row) :
      Yields (.load view all scope) (.loaded view scope rows)
  | loadFailed (view : View) (all : Bool) (scope : Option TaskScope) (error : String) :
      Yields (.load view all scope) (.loadFailed view error)
  | monitorListed (containers : List Container) : Yields .listMonitor (.monitorListed containers)
  | monitorFailed (error : String) : Yields .listMonitor (.loadFailed .monitor error)
  | inspected (kind : InspectKind) (id title text : String) :
      Yields (.inspect kind id title) (.textLoaded title text)
  | inspectFailed (kind : InspectKind) (id title error : String) :
      Yields (.inspect kind id title) (.textFailed title error)
  | info (text : String) : Yields .info (.textLoaded Cmd.infoTitle text)
  | infoFailed (error : String) : Yields .info (.textFailed Cmd.infoTitle error)
  | done (op : Operation) (detail : String) : Yields (.act op) (.operationDone op detail)
  | failed (op : Operation) (error : String) : Yields (.act op) (.operationFailed op error)
  | logOpened (pager : Nat) (request : LogRequest) (token : Token) (text : List Char)
      (reader : LogReader) : Yields (.openLogs pager request token) (.logChunk pager text reader)
  | logNotOpened (pager : Nat) (request : LogRequest) (token : Token) (error : Option String) :
      Yields (.openLogs pager request token) (.logEnded pager error)
  | logRead (pager : Nat) (before : LogReader) (token : Token) (text : List Char)
      (reader : LogReader) : Yields (.readLogs pager before token) (.logChunk pager text reader)
  | logEnded (pager : Nat) (before : LogReader) (token : Token) (error : Option String) :
      Yields (.readLogs pager before token) (.logEnded pager error)
  | statsOpened (sink : StatSink) (id : String) (token : Token) (sample : Sample)
      (rest : Feed Sample) : Yields (.openStats sink id token) (.statSample sink sample rest)
  | statsNotOpened (sink : StatSink) (id : String) (token : Token) (error : Option String) :
      Yields (.openStats sink id token) (.statsEnded sink error)
  | statsRead (sink : StatSink) (feed : Feed Sample) (token : Token) (sample : Sample)
      (rest : Feed Sample) : Yields (.readStats sink feed token) (.statSample sink sample rest)
  | statsEnded (sink : StatSink) (feed : Feed Sample) (token : Token) (error : Option String) :
      Yields (.readStats sink feed token) (.statsEnded sink error)
  | eventsOpened (event : DaemonEvent) (rest : Feed DaemonEvent) :
      Yields .watchEvents (.daemonEvent event rest)
  | eventsNotOpened (error : Option String) : Yields .watchEvents (.eventsEnded error)
  | eventsRead (feed : Feed DaemonEvent) (event : DaemonEvent) (rest : Feed DaemonEvent) :
      Yields (.readEvents feed) (.daemonEvent event rest)
  | eventsEnded (feed : Feed DaemonEvent) (error : Option String) :
      Yields (.readEvents feed) (.eventsEnded error)
  | timer (after : Nat) (alarm : Alarm) : Yields (.timer after alarm) (.alarm alarm)

namespace Cmd

theorem answered_cases {α : Type} {ok : α → Msg} {failed : String → Msg}
    {answer : Except Failure α} {msg : Msg} (h : answered ok failed answer = msg) :
    (∃ value, msg = ok value) ∨ ∃ error, msg = failed error := by
  subst h
  cases answer with
  | error failure => exact Or.inr ⟨failure.message, rfl⟩
  | ok value => exact Or.inl ⟨value, rfl⟩

theorem readLog_cases {pager : Nat} {reader : LogReader} {msg : Msg}
    (h : readLog pager reader = some msg) :
    (∃ text rest, msg = .logChunk pager text rest) ∨ ∃ error, msg = .logEnded pager error := by
  unfold readLog at h
  split at h
  · exact Or.inl ⟨_, _, (Option.some.inj h).symm⟩
  · exact Or.inr ⟨_, (Option.some.inj h).symm⟩
  · exact Or.inr ⟨_, (Option.some.inj h).symm⟩
  · cases h

theorem readSample_cases {sink : StatSink} {feed : Feed Sample} {msg : Msg}
    (h : readSample sink feed = some msg) :
    (∃ sample rest, msg = .statSample sink sample rest) ∨
      ∃ error, msg = .statsEnded sink error := by
  unfold readSample at h
  split at h
  · exact Or.inl ⟨_, _, (Option.some.inj h).symm⟩
  · exact Or.inr ⟨_, (Option.some.inj h).symm⟩
  · exact Or.inr ⟨_, (Option.some.inj h).symm⟩
  · cases h

theorem readEvent_cases {feed : Feed DaemonEvent} {msg : Msg} (h : readEvent feed = some msg) :
    (∃ event rest, msg = .daemonEvent event rest) ∨ ∃ error, msg = .eventsEnded error := by
  unfold readEvent at h
  split at h
  · exact Or.inl ⟨_, _, (Option.some.inj h).symm⟩
  · exact Or.inr ⟨_, (Option.some.inj h).symm⟩
  · exact Or.inr ⟨_, (Option.some.inj h).symm⟩
  · cases h

/-- Whatever a daemon answers, carrying out a command leads to one of its messages. -/
theorem perform_yields (daemon : Daemon Id) {cmd : Cmd} {msg : Msg}
    (h : (cmd.perform daemon).run = some msg) : cmd.Yields msg := by
  cases cmd with
  | summary =>
      rcases answered_cases (Option.some.inj h) with ⟨summary, rfl⟩ | ⟨error, rfl⟩
      · exact .summary summary
      · exact .summaryFailed error
  | load view all scope =>
      rcases answered_cases (Option.some.inj h) with ⟨rows, rfl⟩ | ⟨error, rfl⟩
      · exact .loaded view all scope rows
      · exact .loadFailed view all scope error
  | listMonitor =>
      rcases answered_cases (Option.some.inj h) with ⟨containers, rfl⟩ | ⟨error, rfl⟩
      · exact .monitorListed containers
      · exact .monitorFailed error
  | inspect kind id title =>
      rcases answered_cases (Option.some.inj h) with ⟨text, rfl⟩ | ⟨error, rfl⟩
      · exact .inspected kind id title text
      · exact .inspectFailed kind id title error
  | info =>
      rcases answered_cases (Option.some.inj h) with ⟨text, rfl⟩ | ⟨error, rfl⟩
      · exact .info text
      · exact .infoFailed error
  | act op =>
      rcases answered_cases (Option.some.inj h) with ⟨detail, rfl⟩ | ⟨error, rfl⟩
      · exact .done op detail
      · exact .failed op error
  | openLogs pager request token =>
      rcases readLog_cases h with ⟨text, rest, rfl⟩ | ⟨error, rfl⟩
      · exact .logOpened pager request token text rest
      · exact .logNotOpened pager request token error
  | readLogs pager reader token =>
      rcases readLog_cases h with ⟨text, rest, rfl⟩ | ⟨error, rfl⟩
      · exact .logRead pager reader token text rest
      · exact .logEnded pager reader token error
  | openStats sink id token =>
      rcases readSample_cases h with ⟨sample, rest, rfl⟩ | ⟨error, rfl⟩
      · exact .statsOpened sink id token sample rest
      · exact .statsNotOpened sink id token error
  | readStats sink feed token =>
      rcases readSample_cases h with ⟨sample, rest, rfl⟩ | ⟨error, rfl⟩
      · exact .statsRead sink feed token sample rest
      · exact .statsEnded sink feed token error
  | watchEvents =>
      rcases readEvent_cases h with ⟨event, rest, rfl⟩ | ⟨error, rfl⟩
      · exact .eventsOpened event rest
      · exact .eventsNotOpened error
  | readEvents feed =>
      rcases readEvent_cases h with ⟨event, rest, rfl⟩ | ⟨error, rfl⟩
      · exact .eventsRead feed event rest
      · exact .eventsEnded feed error
  | timer after alarm =>
      cases h
      exact .timer after alarm

/-- A read that is given up leads to one of its messages, too. -/
theorem abandoned?_yields {cmd : Cmd} {msg : Msg} (h : cmd.abandoned? = some msg) :
    cmd.Yields msg := by
  cases cmd <;> first | cases h; constructor | cases h

theorem exists_abandoned {cmd : Cmd} {token : Token} (h : cmd.token? = some token) :
    ∃ msg, cmd.abandoned? = some msg := by
  cases cmd <;> first | exact ⟨_, rfl⟩ | cases h

end Cmd

/-! ## Systems and runs -/

/-- What can happen to a session. -/
inductive Event where
  /-- It begins its work. -/
  | begin
  /-- It is told what the user does. -/
  | input (msg : Msg)
  /-- The command with a number is answered. -/
  | answer (cmd : Cmd) (number : Nat) (msg : Msg)

/-- Whether a message comes from the user, and not from a command. -/
def Msg.isInput : Msg → Bool
  | .key _ | .resize _ _ => true
  | _ => false

/-- The message that an event brings. -/
def Event.msg? : Event → Option Msg
  | .begin => none
  | .input msg => some msg
  | .answer _ _ msg => some msg

/-- What an event leads to. -/
def State.react (s : State) : Event → Step
  | .begin => s.begin
  | .input msg => s.step msg
  | .answer _ _ msg => s.step msg

/-- A session and its commands. -/
structure System where
  state : State
  /-- How many commands have been issued. They are numbered in order. -/
  issued : Nat := 0
  /-- The commands that have not been answered, each with its number. -/
  pending : List (Cmd × Nat) := []

namespace System

/-- A new session. -/
def new (config : Config) (now : Int) : System where
  state := .new config now

/-- The commands that have not been answered when an event has happened, those aside that it
issues. -/
def left (x : System) : Event → List (Cmd × Nat)
  | .answer _ number _ => x.pending.filter fun p => p.2 != number
  | _ => x.pending

/-- What the system is after an event. -/
def after (x : System) (event : Event) : System where
  state := (x.state.react event).1
  issued := x.issued + (x.state.react event).2.length
  pending := x.left event ++ (x.state.react event).2.zipIdx x.issued

/-- Whether an event can happen: only what is pending is answered, and by a message of its kind. -/
def Allows (x : System) : Event → Prop
  | .begin => True
  | .input msg => msg.isInput = true
  | .answer cmd number msg => (cmd, number) ∈ x.pending ∧ cmd.Yields msg

end System

/-- What has happened, the earliest first: each event with the system before it. -/
abbrev History := List (System × Event)

/-- **Runs.** A new session comes to `x` by what `history` tells. -/
inductive Run (config : Config) (now : Int) : History → System → Prop where
  | start : Run config now [] (.new config now)
  | step {history : History} {x : System} (event : Event) (run : Run config now history x)
      (allowed : x.Allows event) : Run config now (history ++ [(x, event)]) (x.after event)

namespace Run

variable {config : Config} {now : Int}

/-- What holds of a new session and is kept by every event holds after every run. -/
theorem induct {P : System → Prop} (start : P (.new config now))
    (step : ∀ x event, x.Allows event → P x → P (x.after event)) {history : History} {x : System}
    (h : Run config now history x) : P x := by
  induction h with
  | start => exact start
  | step event _ allowed ih => exact step _ event allowed ih

end Run

namespace System

/-- The numbers of pending commands rise, and are below those that will be given out. -/
def Numbered (x : System) : Prop :=
  x.pending.Pairwise (fun p q => p.2 < q.2) ∧ ∀ p ∈ x.pending, p.2 < x.issued

theorem left_sublist (x : System) (event : Event) : (x.left event).Sublist x.pending := by
  cases event with
  | begin => exact List.Sublist.refl _
  | input msg => exact List.Sublist.refl _
  | answer cmd number msg => exact List.filter_sublist

theorem pairwise_zipIdx (cmds : List Cmd) (n : Nat) :
    (cmds.zipIdx n).Pairwise fun p q => p.2 < q.2 := by
  induction cmds generalizing n with
  | nil => exact List.Pairwise.nil
  | cons cmd cmds ih =>
      rw [List.zipIdx_cons]
      refine List.Pairwise.cons ?_ (ih (n + 1))
      intro p hp
      exact List.le_snd_of_mem_zipIdx hp

/-- An answer takes one command away, and leaves the others in their places. -/
theorem Numbered.left_answer {x : System} (h : x.Numbered) {cmd : Cmd} {number : Nat}
    (hmem : (cmd, number) ∈ x.pending) (msg : Msg) :
    ∃ earlier later, x.pending = earlier ++ (cmd, number) :: later ∧
      x.left (.answer cmd number msg) = earlier ++ later := by
  obtain ⟨earlier, later, hsplit⟩ := List.append_of_mem hmem
  refine ⟨earlier, later, hsplit, ?_⟩
  have hrise := h.1
  rw [hsplit, List.pairwise_append, List.pairwise_cons] at hrise
  obtain ⟨-, ⟨hlater, -⟩, hearlier⟩ := hrise
  -- Numbers rise, so no other command has this one.
  have hkeep {p : Cmd × Nat} (hp : p ∈ earlier ++ later) : (p.2 != number) = true := by
    rcases List.mem_append.mp hp with hp | hp
    · have hlt := hearlier p hp (cmd, number) List.mem_cons_self
      simpa using Nat.ne_of_lt hlt
    · have hlt := hlater p hp
      simpa using Nat.ne_of_gt hlt
  show x.pending.filter _ = earlier ++ later
  rw [hsplit, List.filter_append, List.filter_cons_of_neg (by simp), ← List.filter_append,
    List.filter_eq_self]
  exact fun p hp => hkeep hp

/-- A command stays pending until it is answered. -/
theorem Numbered.left_or_answer {x : System} (h : x.Numbered) {event : Event}
    (allowed : x.Allows event) {p : Cmd × Nat} (hp : p ∈ x.pending) :
    p ∈ x.left event ∨ ∃ msg, event = .answer p.1 p.2 msg := by
  cases event with
  | begin => exact Or.inl hp
  | input msg => exact Or.inl hp
  | answer cmd number msg =>
      obtain ⟨earlier, later, hpending, hleft⟩ := h.left_answer allowed.1 msg
      rw [hleft, List.mem_append]
      rw [hpending, List.mem_append, List.mem_cons] at hp
      rcases hp with hp | rfl | hp
      · exact Or.inl (Or.inl hp)
      · exact Or.inr ⟨msg, rfl⟩
      · exact Or.inl (Or.inr hp)

theorem numbered_after {x : System} (event : Event) (h : x.Numbered) :
    (x.after event).Numbered := by
  obtain ⟨hrise, hbelow⟩ := h
  have hleft {p : Cmd × Nat} (hp : p ∈ x.left event) : p.2 < x.issued :=
    hbelow p ((x.left_sublist event).subset hp)
  have hfresh {p : Cmd × Nat} (hp : p ∈ (x.state.react event).2.zipIdx x.issued) :
      x.issued ≤ p.2 ∧ p.2 < x.issued + (x.state.react event).2.length :=
    ⟨List.le_snd_of_mem_zipIdx hp, List.snd_lt_add_of_mem_zipIdx hp⟩
  constructor
  · refine List.pairwise_append.mpr ⟨hrise.sublist (x.left_sublist event), pairwise_zipIdx _ _, ?_⟩
    -- What was left is numbered below what is issued now.
    intro p hp q hq
    calc p.2 < x.issued := hleft hp
      _ ≤ q.2 := (hfresh hq).1
  · intro p hp
    show p.2 < x.issued + (x.state.react event).2.length
    rcases List.mem_append.mp hp with hold | hnew
    · have hlt := hleft hold
      omega
    · exact (hfresh hnew).2

end System

/-! ## Commands that have not been answered -/

/-- Whether an event is the answer of a command of a kind. -/
def Event.answers (kind : Cmd → Bool) : Event → Bool
  | .answer cmd _ _ => kind cmd
  | _ => false

namespace System

/-- How many commands of a kind have not been answered. -/
def outstanding (x : System) (kind : Cmd → Bool) : Nat := x.pending.countP fun p => kind p.1

theorem countP_zipIdx (kind : Cmd → Bool) (cmds : List Cmd) (n : Nat) :
    (cmds.zipIdx n).countP (fun p => kind p.1) = cmds.countP kind := by
  have hmap : ((cmds.zipIdx n).map Prod.fst).countP kind =
      (cmds.zipIdx n).countP (fun p => kind p.1) := List.countP_map
  rw [← hmap, List.zipIdx_map_fst]

theorem countP_left {x : System} (hnumbered : x.Numbered) {event : Event}
    (allowed : x.Allows event) (kind : Cmd → Bool) :
    (x.left event).countP (fun p => kind p.1) + (if event.answers kind then 1 else 0) =
      x.outstanding kind := by
  cases event with
  | begin => rfl
  | input msg => rfl
  | answer cmd number msg =>
      obtain ⟨earlier, later, hpending, hleft⟩ := hnumbered.left_answer allowed.1 msg
      unfold outstanding
      rw [hleft, hpending, List.countP_append, List.countP_append, List.countP_cons, Nat.add_assoc]
      rfl

/-- Only what has not been answered is answered. -/
theorem answers_le_outstanding {x : System} (hnumbered : x.Numbered) {event : Event}
    (allowed : x.Allows event) (kind : Cmd → Bool) :
    (if event.answers kind then 1 else 0) ≤ x.outstanding kind := by
  rw [← countP_left hnumbered allowed kind]
  exact Nat.le_add_left _ _

/-- If commands of a kind are those whose answer is a certain message, an event answers one of them
if and only if it brings this message. -/
theorem answers_iff_msg {x : System} {event : Event} (allowed : x.Allows event)
    {kind : Cmd → Bool} {msg : Msg} (hinput : msg.isInput = false)
    (hkind : ∀ {cmd : Cmd} {other : Msg}, cmd.Yields other → (kind cmd = true ↔ other = msg)) :
    event.answers kind = true ↔ event.msg? = some msg := by
  cases event with
  | begin => simp [Event.answers, Event.msg?]
  | input other =>
      -- What the user does is not the answer of a command.
      have hne : other ≠ msg := by
        rintro rfl
        exact Bool.noConfusion (hinput.symm.trans allowed)
      simp [Event.answers, Event.msg?, hne]
  | answer cmd number other =>
      rw [Event.msg?, Option.some.injEq]
      exact hkind allowed.2

/-- An event takes away what it answers and adds what it issues. -/
theorem outstanding_after {x : System} (hnumbered : x.Numbered) {event : Event}
    (allowed : x.Allows event) (kind : Cmd → Bool) :
    (x.after event).outstanding kind + (if event.answers kind then 1 else 0) =
      x.outstanding kind + (x.state.react event).2.countP kind := by
  have hleft := countP_left hnumbered allowed kind
  have hafter : (x.after event).outstanding kind =
      (x.left event).countP (fun p => kind p.1) + (x.state.react event).2.countP kind := by
    show (x.left event ++ (x.state.react event).2.zipIdx x.issued).countP _ = _
    rw [List.countP_append, countP_zipIdx]
  omega

end System

/-! ## Answers in turn -/

/-- The number of the command of a kind that an event answers. -/
def Event.answered? (kind : Cmd → Bool) : Event → Option Nat
  | .answer cmd number _ => if kind cmd then some number else none
  | _ => none

/-- The numbers of the commands of a kind among numbered commands. -/
def numbersOf (kind : Cmd → Bool) (cmds : List (Cmd × Nat)) : List Nat :=
  (cmds.filter fun p => kind p.1).map Prod.snd

/-- The numbers of the commands of a kind that have been answered, in the order of their answers. -/
def answersOf (kind : Cmd → Bool) (history : History) : List Nat :=
  history.filterMap fun p => p.2.answered? kind

theorem numbersOf_append (kind : Cmd → Bool) (cmds more : List (Cmd × Nat)) :
    numbersOf kind (cmds ++ more) = numbersOf kind cmds ++ numbersOf kind more := by
  unfold numbersOf
  rw [List.filter_append, List.map_append]

theorem length_numbersOf (kind : Cmd → Bool) (cmds : List (Cmd × Nat)) :
    (numbersOf kind cmds).length = cmds.countP fun p => kind p.1 := by
  unfold numbersOf
  rw [List.length_map, List.countP_eq_length_filter]

theorem answersOf_concat (kind : Cmd → Bool) (history : History) (x : System) (event : Event) :
    answersOf kind (history ++ [(x, event)]) =
      answersOf kind history ++ (event.answered? kind).toList := by
  unfold answersOf
  rw [List.filterMap_append, List.filterMap_cons, List.filterMap_nil]
  cases event.answered? kind <;> rfl

namespace System

/-- Commands of a kind have been answered in the order of their numbers, and those that have not
been answered come after them. -/
structure InTurn (kind : Cmd → Bool) (answered : List Nat) (x : System) : Prop where
  rising : (answered ++ numbersOf kind x.pending).Pairwise (· < ·)
  below : ∀ n ∈ answered ++ numbersOf kind x.pending, n < x.issued

/-- An answer takes the only command of its kind away. -/
theorem numbersOf_left {x : System} (hnumbered : x.Numbered) {event : Event}
    (allowed : x.Allows event) {kind : Cmd → Bool} (hone : x.outstanding kind ≤ 1) :
    (event.answered? kind).toList ++ numbersOf kind (x.left event) = numbersOf kind x.pending := by
  cases event with
  | begin => rfl
  | input msg => rfl
  | answer cmd number msg =>
      obtain ⟨earlier, later, hpending, hleft⟩ := hnumbered.left_answer allowed.1 msg
      have hsplit : numbersOf kind x.pending =
          numbersOf kind earlier ++ (numbersOf kind [(cmd, number)] ++ numbersOf kind later) := by
        rw [hpending, ← List.singleton_append, numbersOf_append, numbersOf_append]
      rw [hsplit, hleft, numbersOf_append]
      cases hkind : kind cmd with
      | false => simp [Event.answered?, numbersOf, hkind]
      | true =>
          have hnumber : numbersOf kind [(cmd, number)] = [number] := by simp [numbersOf, hkind]
          have hlength : (numbersOf kind x.pending).length ≤ 1 := by
            rw [length_numbersOf]
            exact hone
          rw [hsplit, hnumber, List.length_append, List.length_append,
            List.length_singleton] at hlength
          -- There is room for one, which is the one that is answered.
          have hearlier : numbersOf kind earlier = [] := List.eq_nil_of_length_eq_zero (by omega)
          rw [hearlier, hnumber]
          simp [Event.answered?, hkind]

/-- **One event.** As long as no more than one is outstanding, commands are answered in turn. -/
theorem InTurn.after {x : System} {event : Event} {kind : Cmd → Bool} {answered : List Nat}
    (h : InTurn kind answered x) (hnumbered : x.Numbered) (allowed : x.Allows event)
    (hone : x.outstanding kind ≤ 1) :
    InTurn kind (answered ++ (event.answered? kind).toList) (x.after event) := by
  have hnew : ∀ n ∈ numbersOf kind ((x.state.react event).2.zipIdx x.issued),
      x.issued ≤ n ∧ n < x.issued + (x.state.react event).2.length := by
    intro n hn
    obtain ⟨p, hp, rfl⟩ := List.mem_map.mp hn
    have hzip := (List.mem_filter.mp hp).1
    exact ⟨List.le_snd_of_mem_zipIdx hzip, List.snd_lt_add_of_mem_zipIdx hzip⟩
  have hall : answered ++ (event.answered? kind).toList ++ numbersOf kind (x.after event).pending =
      answered ++ numbersOf kind x.pending ++
        numbersOf kind ((x.state.react event).2.zipIdx x.issued) := by
    have hpending : numbersOf kind (x.after event).pending = numbersOf kind (x.left event) ++
        numbersOf kind ((x.state.react event).2.zipIdx x.issued) := numbersOf_append kind _ _
    rw [hpending, ← numbersOf_left hnumbered allowed hone]
    simp only [List.append_assoc]
  constructor
  · rw [hall]
    refine List.pairwise_append.mpr ⟨h.rising, ?_, fun m hm n hn => ?_⟩
    · exact List.pairwise_map.mpr ((pairwise_zipIdx _ _).filter _)
    · -- New numbers are above all that have been given out.
      calc m < x.issued := h.below m hm
        _ ≤ n := (hnew n hn).1
  · rw [hall]
    intro n hn
    show n < x.issued + (x.state.react event).2.length
    rcases List.mem_append.mp hn with hold | hlate
    · have hlt := h.below n hold
      omega
    · exact (hnew n hlate).2

end System

/-- The last of several events is the first of them, or comes later. -/
theorem last_of_append_cons {α : Type} {all earlier later : List α} {last first : α}
    (h : earlier ++ first :: later = all ++ [last]) :
    (later = [] ∧ all = earlier ∧ last = first) ∨
      ∃ between, later = between ++ [last] ∧ all = earlier ++ first :: between := by
  rcases List.eq_nil_or_concat later with rfl | ⟨between, final, rfl⟩
  · obtain ⟨hall, hlast⟩ := List.append_inj' h rfl
    cases hlast
    exact Or.inl ⟨rfl, hall.symm, rfl⟩
  · rw [List.concat_eq_append] at h ⊢
    rw [← List.cons_append, ← List.append_assoc] at h
    obtain ⟨hall, hlast⟩ := List.append_inj' h rfl
    cases hlast
    exact Or.inr ⟨between, rfl, hall.symm⟩

namespace Run

variable {config : Config} {now : Int} {earlier later : History} {y x : System} {event : Event}

/-- A run has come by everything its history tells. -/
theorem split (h : Run config now (earlier ++ (y, event) :: later) x) :
    Run config now earlier y ∧ y.Allows event := by
  generalize hall : earlier ++ (y, event) :: later = all at h
  induction h generalizing later with
  | start => simp at hall
  | step next run allowed ih =>
      rcases last_of_append_cons hall with ⟨-, rfl, heq⟩ | ⟨between, -, hbetween⟩
      · cases heq
        exact ⟨run, allowed⟩
      · exact ih hbetween.symm

/-- What holds after an event and is kept by every later one holds at the end of the run. -/
theorem since {motive : History → System → Prop} (start : motive [] (y.after event))
    (step : ∀ later z next, Run config now (earlier ++ (y, event) :: later) z → z.Allows next →
      motive later z → motive (later ++ [(z, next)]) (z.after next))
    (h : Run config now (earlier ++ (y, event) :: later) x) : motive later x := by
  generalize hall : earlier ++ (y, event) :: later = all at h
  induction h generalizing later with
  | start => simp at hall
  | step next run allowed ih =>
      rcases last_of_append_cons hall with ⟨rfl, -, heq⟩ | ⟨between, rfl, rfl⟩
      · cases heq
        exact start
      · exact step between _ next run allowed (ih rfl)

end Run

/-- Pending commands are numbered in the order in which they were issued. -/
theorem Run.numbered {config : Config} {now : Int} {history : History} {x : System}
    (h : Run config now history x) : x.Numbered :=
  h.induct ⟨List.Pairwise.nil, fun _ hp => by cases hp⟩ fun _ event _ => System.numbered_after event

/-- Commands of a kind of which never more than one is outstanding are answered in turn. -/
theorem Run.inTurn {config : Config} {now : Int} {history : History} {x : System}
    (h : Run config now history x) {kind : Cmd → Bool}
    (hone : ∀ p ∈ history, p.1.outstanding kind ≤ 1) :
    System.InTurn kind (answersOf kind history) x := by
  induction h with
  | start => exact ⟨List.Pairwise.nil, fun n hn => by cases hn⟩
  | @step history x event run allowed ih =>
      obtain ⟨hbefore, hlast⟩ := List.forall_mem_append.mp hone
      rw [answersOf_concat]
      exact (ih hbefore).after run.numbered allowed (hlast (x, event) List.mem_cons_self)

end Dockboard
