import Dockboard.Proofs.Session.Run
import Mathlib.Tactic.Set

set_option autoImplicit false

/-! # Runs of the executor

The executor begins commands one by one, whatever the daemon then answers, and hands over the
messages in the order in which the answers came. Its commands are those of a system: what is
pending there either has not been begun, or reads a silent stream, or has its answer in the inbox.
So every run of the executor is a run of a system.
-/

namespace Dockboard

namespace Executor

/-- A new session with nothing issued. -/
def new (config : Config) (now : Int) : Executor where
  state := .new config now

/-- What an executor comes to. A daemon may answer each command as it likes. -/
inductive Executes (config : Config) (now : Int) : Executor → Prop where
  | new : Executes config now (.new config now)
  | begin {x : Executor} (run : Executes config now x) : Executes config now x.begin.1
  | input {x : Executor} (msg : Msg) (run : Executes config now x) (hinput : msg.isInput = true) :
      Executes config now (x.deliver msg).1
  | start {x y : Executor} (daemon : Daemon Id) (n : Nat) (run : Executes config now x)
      (hstart : (x.start daemon n).run = some y) : Executes config now y
  | receive {x y : Executor} {msg : Msg} {effects : Effects} (run : Executes config now x)
      (hreceive : x.receive = some (msg, y, effects)) : Executes config now y

/-- The executor `x` does what the system `y` does; `waiting` holds the messages of its inbox,
each with the number of its command. -/
structure Mirrors (x : Executor) (y : System) (waiting : List (Nat × Msg)) : Prop where
  state : y.state = x.state
  issued : y.issued = x.cmds.length
  inbox : waiting.map Prod.snd = x.inbox
  answers : ∀ p ∈ waiting, ∃ cmd, x.cmds[p.1]? = some cmd ∧ cmd.Yields p.2
  nodup : (waiting.map Prod.fst ++ x.silent).Nodup
  open_begun : ∀ n ∈ waiting.map Prod.fst ++ x.silent, n ∈ x.begun
  begun_lt : ∀ n ∈ x.begun, n < x.cmds.length
  pending : ∀ cmd n, (cmd, n) ∈ y.pending ↔
    x.cmds[n]? = some cmd ∧ (n ∉ x.begun ∨ n ∈ waiting.map Prod.fst ++ x.silent)

/-- A command whose token was cancelled has one. -/
theorem exists_token_of_mem_newlyCancelled {before after : State} {cmds : List Cmd} {n : Nat}
    (h : n ∈ newlyCancelled before after cmds) :
    ∃ cmd token, cmds[n]? = some cmd ∧ cmd.token? = some token := by
  obtain ⟨⟨cmd, m⟩, hmem, rfl⟩ := List.mem_map.mp h
  obtain ⟨hzip, htoken⟩ := List.mem_filter.mp hmem
  obtain ⟨token, hsome, -⟩ := (Option.any_eq_true _ _).mp htoken
  exact ⟨cmd, token, List.mem_zipIdx_iff_getElem?.mp hzip, hsome⟩

/-- Numbers that all have an answer, paired with it. -/
theorem exists_answers {numbers : List Nat} {f : Nat → Option Msg}
    (h : ∀ n ∈ numbers, ∃ msg, f n = some msg) :
    ∃ pairs : List (Nat × Msg), pairs.map Prod.fst = numbers ∧
      pairs.map Prod.snd = numbers.filterMap f ∧ ∀ p ∈ pairs, f p.1 = some p.2 := by
  induction numbers with
  | nil => exact ⟨[], rfl, rfl, fun p hp => by cases hp⟩
  | cons n numbers ih =>
      obtain ⟨msg, hmsg⟩ := h n List.mem_cons_self
      obtain ⟨pairs, hfst, hsnd, hall⟩ := ih fun m hm => h m (List.mem_cons_of_mem n hm)
      refine ⟨(n, msg) :: pairs, by rw [List.map_cons, hfst], ?_, ?_⟩
      · rw [List.map_cons, hsnd, List.filterMap_cons_some hmsg]
      · intro p hp
        rcases List.mem_cons.mp hp with rfl | hp
        · exact hmsg
        · exact hall p hp

/-- Taking over a step issues the same commands on both sides. Reads that are given up by it have
their message from then on. -/
theorem Mirrors.absorb {x : Executor} {y : System} {waiting : List (Nat × Msg)}
    (h : Mirrors x y waiting) (step : Step) :
    ∃ waiting', Mirrors (x.absorb step).1
      ⟨step.1, y.issued + step.2.length, y.pending ++ step.2.zipIdx y.issued⟩ waiting' := by
  set cmds := x.cmds ++ step.2 with hcmds
  set cancelled := newlyCancelled x.state step.1 cmds with hcancelled
  set givenUp := x.silent.filter cancelled.contains with hgivenUp
  have hgiven : ∀ n ∈ givenUp, ∃ msg, (cmds[n]?.bind Cmd.abandoned?) = some msg := by
    intro n hn
    have hmem : n ∈ cancelled := by simpa using (List.mem_filter.mp hn).2
    obtain ⟨cmd, token, hcmd, htoken⟩ := exists_token_of_mem_newlyCancelled hmem
    obtain ⟨msg, hmsg⟩ := Cmd.exists_abandoned htoken
    exact ⟨msg, by rw [hcmd]; exact hmsg⟩
  obtain ⟨pairs, hfst, hsnd, hpairs⟩ := exists_answers hgiven
  -- What is read silently is given up or not, and nothing else changes its place.
  have hopen : ((waiting ++ pairs).map Prod.fst ++
      x.silent.filter fun n => !cancelled.contains n).Perm
      (waiting.map Prod.fst ++ x.silent) := by
    rw [List.map_append, hfst, List.append_assoc]
    exact (List.filter_append_perm cancelled.contains x.silent).append_left _
  have hget {cmd : Cmd} {n : Nat} (hn : x.cmds[n]? = some cmd) : cmds[n]? = some cmd := by
    rw [hcmds, List.getElem?_append_left (List.getElem?_eq_some_iff.mp hn).1]
    exact hn
  refine ⟨waiting ++ pairs, ⟨rfl, ?_, ?_, ?_, hopen.nodup_iff.mpr h.nodup, ?_, ?_, ?_⟩⟩
  · show y.issued + step.2.length = (x.cmds ++ step.2).length
    rw [h.issued, List.length_append]
  · rw [List.map_append, h.inbox, hsnd]
    rfl
  · intro p hp
    rcases List.mem_append.mp hp with hold | hnew
    · obtain ⟨cmd, hcmd, hyields⟩ := h.answers p hold
      exact ⟨cmd, hget hcmd, hyields⟩
    · obtain ⟨cmd, hcmd, habandoned⟩ := Option.bind_eq_some_iff.mp (hpairs p hnew)
      exact ⟨cmd, hcmd, Cmd.abandoned?_yields habandoned⟩
  · intro n hn
    exact h.open_begun n (hopen.mem_iff.mp hn)
  · intro n hn
    exact Nat.lt_of_lt_of_le (h.begun_lt n hn) (by simp [Executor.absorb])
  · intro cmd n
    show (cmd, n) ∈ y.pending ++ step.2.zipIdx y.issued ↔ cmds[n]? = some cmd ∧
      (n ∉ x.begun ∨ n ∈ (waiting ++ pairs).map Prod.fst ++
        x.silent.filter fun n => !cancelled.contains n)
    rw [List.mem_append, h.pending, hopen.mem_iff, h.issued,
      List.mk_mem_zipIdx_iff_le_and_getElem?_sub, hcmds]
    -- A number belongs to what was issued before or to what is issued now.
    by_cases hn : n < x.cmds.length
    · rw [List.getElem?_append_left hn]
      exact ⟨fun hp => hp.resolve_right fun hr => by omega, Or.inl⟩
    · have hfresh : n ∉ x.begun := fun hbegun => hn (h.begun_lt n hbegun)
      have hnone : x.cmds[n]? = none := List.getElem?_eq_none (Nat.le_of_not_lt hn)
      rw [List.getElem?_append_right (Nat.le_of_not_lt hn), hnone]
      constructor
      · intro hp
        rcases hp with ⟨hp, -⟩ | ⟨-, hp⟩
        · cases hp
        · exact ⟨hp, Or.inl hfresh⟩
      · intro hp
        exact Or.inr ⟨Nat.le_of_not_lt hn, hp.1⟩

theorem settle_yields {x : Executor} {daemon : Daemon Id} {cmd : Cmd} {msg : Msg}
    (h : x.settle cmd (cmd.perform daemon).run = some msg) : cmd.Yields msg := by
  unfold settle at h
  split at h
  · exact Cmd.abandoned?_yields h
  · exact Cmd.perform_yields daemon h

/-- Beginning a command settles only where its answer will be. -/
theorem Mirrors.start {x z : Executor} {y : System} {waiting : List (Nat × Msg)}
    (h : Mirrors x y waiting) (daemon : Daemon Id) (n : Nat)
    (hstart : (x.start daemon n).run = some z) : ∃ waiting', Mirrors z y waiting' := by
  -- Of either kind, the answer stands where no other one does.
  have hmirrors (cmd : Cmd) (hcmd : x.cmds[n]? = some cmd) (hfresh : n ∉ x.begun)
      (waiting' : List (Nat × Msg)) (silent' : List Nat) (inbox' : List Msg)
      (hinbox : waiting'.map Prod.snd = inbox')
      (hanswers : ∀ p ∈ waiting', ∃ cmd, x.cmds[p.1]? = some cmd ∧ cmd.Yields p.2)
      (hopen : (waiting'.map Prod.fst ++ silent').Perm (n :: (waiting.map Prod.fst ++ x.silent))) :
      Mirrors { x with begun := n :: x.begun, silent := silent', inbox := inbox' } y waiting' := by
    refine ⟨h.state, h.issued, hinbox, hanswers, hopen.nodup_iff.mpr ?_, ?_, ?_, ?_⟩
    · exact List.nodup_cons.mpr ⟨fun hn => hfresh (h.open_begun n hn), h.nodup⟩
    · intro m hm
      rcases List.mem_cons.mp (hopen.mem_iff.mp hm) with rfl | hm
      · exact List.mem_cons_self
      · exact List.mem_cons_of_mem n (h.open_begun m hm)
    · intro m hm
      rcases List.mem_cons.mp hm with rfl | hm
      · exact (List.getElem?_eq_some_iff.mp hcmd).1
      · exact h.begun_lt m hm
    · intro cmd' m
      rw [h.pending, hopen.mem_iff, List.mem_cons, List.mem_cons]
      by_cases hm : m = n
      · subst hm
        simp [hfresh]
      · simp [hm]
  cases hcmd : x.cmds[n]? with
  | none =>
      simp only [Executor.start, hcmd] at hstart
      cases hstart
  | some cmd =>
      simp only [Executor.start, hcmd] at hstart
      by_cases hbegun : x.begun.contains n
      · rw [if_pos hbegun] at hstart
        cases hstart
      · rw [if_neg hbegun] at hstart
        have hfresh : n ∉ x.begun := by simpa using hbegun
        rw [Id.run_bind] at hstart
        split at hstart
        · next msg hsettle =>
          cases hstart
          refine ⟨waiting ++ [(n, msg)], hmirrors cmd hcmd hfresh _ _ _ ?_ ?_ ?_⟩
          · rw [List.map_append, h.inbox]
            rfl
          · intro p hp
            rcases List.mem_append.mp hp with hold | hnew
            · exact h.answers p hold
            · obtain rfl : p = (n, msg) := by simpa using hnew
              exact ⟨cmd, hcmd, settle_yields hsettle⟩
          · rw [List.map_append, List.append_assoc]
            exact List.perm_middle
        · cases hstart
          refine ⟨waiting, hmirrors cmd hcmd hfresh waiting _ _ h.inbox h.answers ?_⟩
          rw [← List.append_assoc]
          exact List.perm_append_singleton n _

/-- Receiving a message is an event that the system allows. -/
theorem Mirrors.receive {x z : Executor} {y : System} {waiting : List (Nat × Msg)} {msg : Msg}
    {effects : Effects} (h : Mirrors x y waiting)
    (hreceive : x.receive = some (msg, z, effects)) :
    ∃ cmd n waiting', y.Allows (.answer cmd n msg) ∧
      Mirrors z (y.after (.answer cmd n msg)) waiting' := by
  unfold Executor.receive at hreceive
  split at hreceive
  · cases hreceive
  · next first rest hinbox =>
    cases hreceive
    have hsnd := h.inbox
    rw [hinbox] at hsnd
    -- The first message that waits is the answer to the command with its number.
    obtain ⟨⟨n, msg'⟩, waiting, rfl, rfl, hrest⟩ := List.map_eq_cons_iff.mp hsnd
    obtain ⟨cmd, hcmd, hyields⟩ := h.answers (n, msg') List.mem_cons_self
    have hn : n ∉ waiting.map Prod.fst ++ x.silent := (List.nodup_cons.mp h.nodup).1
    have hbegun : n ∈ x.begun := h.open_begun n List.mem_cons_self
    have htaken : Mirrors { x with inbox := rest }
        { y with pending := y.left (.answer cmd n msg') } waiting := by
      refine ⟨h.state, h.issued, hrest, fun p hp => h.answers p (List.mem_cons_of_mem _ hp),
        (List.nodup_cons.mp h.nodup).2, fun m hm => h.open_begun m (List.mem_cons_of_mem n hm),
        h.begun_lt, ?_⟩
      intro cmd' m
      show (cmd', m) ∈ y.pending.filter _ ↔ _
      rw [List.mem_filter, h.pending, List.map_cons, List.cons_append, List.mem_cons]
      by_cases hm : m = n
      · subst hm
        simp only [bne_self_eq_false, Bool.false_eq_true, and_false, false_iff]
        rintro ⟨-, hm | hm⟩
        · exact hm hbegun
        · exact hn hm
      · simp [hm]
    obtain ⟨waiting', hmirrors⟩ := htaken.absorb (x.state.step msg')
    have hmem : (cmd, n) ∈ y.pending := (h.pending cmd n).mpr ⟨hcmd, Or.inr List.mem_cons_self⟩
    refine ⟨cmd, n, waiting', ⟨hmem, hyields⟩, ?_⟩
    simp only [System.after, State.react]
    rw [h.state]
    exact hmirrors

/-- **Runs of the executor.** Whatever the daemon answers and in whatever order the executor
goes on, a run of a system leads to the same session. -/
theorem exists_run_of_executes {config : Config} {now : Int} {x : Executor}
    (h : Executes config now x) :
    ∃ history y waiting, Run config now history y ∧ Mirrors x y waiting := by
  -- Each thing the executor does is an event, but for the beginning of a command, which is none.
  induction h with
  | new =>
      refine ⟨[], .new config now, [], .start, rfl, rfl, rfl, ?_, List.nodup_nil, ?_, ?_, ?_⟩
      · intro p hp
        cases hp
      · intro n hn
        cases hn
      · intro n hn
        cases hn
      · intro cmd n
        simp [System.new, Executor.new]
  | @begin x run ih =>
      obtain ⟨history, y, waiting, hrun, h⟩ := ih
      obtain ⟨waiting', h'⟩ := h.absorb x.state.begin
      refine ⟨_, _, waiting', hrun.step .begin trivial, ?_⟩
      simp only [System.after, State.react, System.left]
      rw [h.state]
      exact h'
  | @input x msg run hinput ih =>
      obtain ⟨history, y, waiting, hrun, h⟩ := ih
      obtain ⟨waiting', h'⟩ := h.absorb (x.state.step msg)
      refine ⟨_, _, waiting', hrun.step (.input msg) hinput, ?_⟩
      simp only [System.after, State.react, System.left]
      rw [h.state]
      exact h'
  | start daemon n run hstart ih =>
      obtain ⟨history, y, waiting, hrun, h⟩ := ih
      obtain ⟨waiting', h'⟩ := h.start daemon n hstart
      exact ⟨history, y, waiting', hrun, h'⟩
  | receive run hreceive ih =>
      obtain ⟨history, y, waiting, hrun, h⟩ := ih
      obtain ⟨cmd, n, waiting', allowed, h'⟩ := h.receive hreceive
      exact ⟨_, _, waiting', hrun.step _ allowed, h'⟩

end Executor

end Dockboard
