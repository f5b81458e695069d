import Dockboard.Proofs.Engine.Course
import Dockboard.Swarm.Commands

set_option autoImplicit false

/-! # Removing a stack

A stack is removed by removing its services, for which they are listed once more, and their stacks
inspected. The same list in groups is what is shown of stacks. The removal is decided by two
commands, either of which may fail, and done by a third one:

    unlisted    the services cannot be listed, and nothing is removed
    missing     no service has the stack's name, and nothing is removed
    removed     the services of that name are removed, all of them by one command

An inspection that fails leaves all services without a stack, hence nothing to be removed
(`readLines_stackless`).
-/

namespace Dockboard.Swarm

open Dockboard.Engine Dockboard.Stream Dockboard.Text Exchange Dialogue

/-! ## Commands -/

/-- The arguments can be passed to a command. -/
def Passable (args : List String) : Prop :=
  ∀ arg ∈ args, '\x00' ∉ arg.toList ∧ arg.utf8ByteSize ≤ maxArgument

theorem Passable.append {args more : List String} (h : Passable args) (hmore : Passable more) :
    Passable (args ++ more) := by
  intro arg harg
  cases List.mem_append.mp harg with
  | inl hargs => exact h arg hargs
  | inr hargs => exact hmore arg hargs

/-- Other arguments can be passed to the same host. -/
theorem Passable.readdress {host : Option String} {args args' : List String}
    (h : Passable (addressed host args)) (hargs : Passable args') :
    Passable (addressed host args') := by
  cases host with
  | none => exact hargs
  | some host =>
      intro arg harg
      obtain rfl | rfl | harg : arg = "--host" ∨ arg = host ∨ arg ∈ args' := by
        simpa only [addressed, List.mem_cons] using harg
      · exact h _ List.mem_cons_self
      · exact h _ (List.mem_cons_of_mem _ List.mem_cons_self)
      · exact hargs arg harg

theorem launch_passable {host : Option String} {args : List String}
    (h : Passable (addressed host args)) :
    launch host args = Exchange.run (addressed host args) := by
  have hnul : (addressed host args).any (fun arg => arg.toList.contains '\x00') = false :=
    List.any_eq_false.mpr fun arg harg hcontained =>
      (h arg harg).1 (List.contains_iff_mem.mp hcontained)
  have hlength : (addressed host args).any (fun arg => maxArgument < arg.utf8ByteSize) = false :=
    List.any_eq_false.mpr fun arg harg hlong =>
      absurd (of_decide_eq_true hlong) (Nat.not_lt.mpr (h arg harg).2)
  simp only [launch, hnul, hlength, Bool.false_eq_true, if_false]

theorem launch_blocked {host : Option String} {args : List String}
    (h : ¬ Passable (addressed host args)) :
    ∃ reason, launch host args = .done (.error reason) := by
  by_cases hnul : (addressed host args).any (fun arg => arg.toList.contains '\x00')
  · exact ⟨nulReason, by simp only [launch, hnul, if_true]; rfl⟩
  · by_cases hlength : (addressed host args).any (fun arg => maxArgument < arg.utf8ByteSize)
    · exact ⟨lengthReason, by simp only [launch, hnul, hlength, if_true]; rfl⟩
    · refine absurd (fun arg harg => ⟨fun hmem => ?_, ?_⟩) h
      · exact hnul (List.any_eq_true.mpr ⟨arg, harg, List.contains_iff_mem.mpr hmem⟩)
      · exact Nat.not_lt.mp fun hlong =>
          hlength (List.any_eq_true.mpr ⟨arg, harg, decide_eq_true hlong⟩)

/-- What a command that is run for what it writes makes of its output. -/
def outcome (args : List String) : Except String Output → Except Failure (List Char)
  | .error reason => .error (.io reason)
  | .ok output =>
      if output.code = 0 then .ok (Utf8.lossy output.stdout)
      else .error (.command (commandName args) (String.ofList (trim (Utf8.lossy output.stderr))))

/-- A command is run once, or not at all if its arguments cannot be passed. -/
theorem course_run_command {host : Option String} {args : List String} {turns : List Turn}
    {answer : Except Failure (List Char)} (h : Dialogue.Course (run host args) turns answer) :
    (Passable (addressed host args) ∧ ∃ output,
        turns = [.command (addressed host args) output] ∧ answer = outcome args output) ∨
      (¬ Passable (addressed host args) ∧ turns = [] ∧ ∃ failure, answer = .error failure) := by
  obtain ⟨_, hlaunch, -⟩ | ⟨output, first, later, rfl, hlaunch, houtcome⟩ := course_bind.mp h
  · obtain ⟨_, -, hnone⟩ := course_lift.mp hlaunch
    cases hnone
  · obtain ⟨_, hlaunch, houtput⟩ := course_lift.mp hlaunch
    cases houtput
    have hanswer : later = [] ∧ answer = outcome args output := by
      cases output with
      | error reason => exact course_throw.mp houtcome
      | ok output =>
          simp only [outcome] at houtcome ⊢
          split at houtcome
          next hcode => exact hcode.symm ▸ course_pure.mp houtcome
          next hcode => simpa only [hcode, if_false] using course_throw.mp houtcome
    obtain ⟨rfl, rfl⟩ := hanswer
    by_cases hpassable : Passable (addressed host args)
    · rw [launch_passable hpassable] at hlaunch
      obtain rfl := course_run.mp hlaunch
      exact Or.inl ⟨hpassable, output, rfl, rfl⟩
    · obtain ⟨reason, hblocked⟩ := launch_blocked hpassable
      rw [hblocked] at hlaunch
      obtain ⟨rfl, rfl⟩ := course_done.mp hlaunch
      exact Or.inr ⟨hpassable, rfl, .io reason, rfl⟩

/-! ## Removals -/

/-- A command that removes services. -/
def IsRemoval (host : Option String) (args : List String) : Prop :=
  ∃ ids, args = addressed host (["service", "rm"] ++ ids)

/-- Nothing is removed by the commands that are run. -/
def Spares (host : Option String) (turns : List Turn) : Prop :=
  ∀ args ∈ commandsOf turns, ¬ IsRemoval host args

theorem Spares.append {host : Option String} {turns more : List Turn} (h : Spares host turns)
    (hmore : Spares host more) : Spares host (turns ++ more) := by
  intro args hargs
  rw [commandsOf_append] at hargs
  cases List.mem_append.mp hargs with
  | inl hturns => exact h args hturns
  | inr hturns => exact hmore args hturns

theorem addressed_inj {host : Option String} {args args' : List String} :
    addressed host args = addressed host args' ↔ args = args' := by
  cases host <;> simp [addressed]

theorem spares_run {host : Option String} {args : List String} {turns : List Turn}
    {answer : Except Failure (List Char)} (h : Dialogue.Course (run host args) turns answer)
    (hother : ¬ ["service", "rm"] <+: args) : Spares host turns := by
  obtain ⟨-, output, rfl, -⟩ | ⟨-, rfl, -⟩ := course_run_command h
  · intro args' hargs ⟨ids, hids⟩
    obtain rfl := List.mem_singleton.mp hargs
    exact hother ⟨ids, (addressed_inj.mp hids).symm⟩
  · intro args' hargs
    exact absurd hargs List.not_mem_nil

/-! ## Listing the services -/

/-- The arguments that ask for the services. -/
def servicesArgs : List String := ["service", "ls", "--format", asDocument]

/-- The arguments that ask for the stacks of services. -/
def stacksArgs (services : List Service) : List String :=
  ["service", "inspect", "--format", asLabel] ++ services.map Service.id

/-- What is listed is read from what the command writes. -/
theorem course_list {α : Type} {host : Option String} {read : List Char → Except JsonFault α}
    {args : List String} {turns : List Turn} {answer : Except Failure (List α)}
    (h : Dialogue.Course (list host read args) turns answer) :
    ∃ outcome, Dialogue.Course (run host args) turns outcome ∧
      ∀ things, answer = .ok things → ∃ listing, readLines read listing = .ok things := by
  obtain ⟨failure, hrun, rfl⟩ | ⟨listing, first, later, rfl, hrun, hread⟩ := course_bind.mp h
  · exact ⟨_, hrun, fun _ hnone => by cases hnone⟩
  · obtain ⟨rfl, rfl⟩ := course_ofExcept.mp hread
    exact ⟨_, (List.append_nil first).symm ▸ hrun, fun _ hthings => ⟨listing, hthings⟩⟩

/-- The services that are listed, and the stacks that are inspected unless there are none. -/
inductive Listing (host : Option String) : List Turn → Except Failure (List Service) → Prop where
  | failed {turns : List Turn} {failure : Failure}
      (listed : Dialogue.Course (list host Service.read servicesArgs) turns (.error failure)) :
      Listing host turns (.error failure)
  | empty {turns : List Turn}
      (listed : Dialogue.Course (list host Service.read servicesArgs) turns (.ok [])) :
      Listing host turns (.ok [])
  | plain {turns later : List Turn} {services : List Service} {failure : Failure}
      (listed : Dialogue.Course (list host Service.read servicesArgs) turns (.ok services))
      (inspected : Dialogue.Course (run host (stacksArgs services)) later (.error failure)) :
      Listing host (turns ++ later) (.ok services)
  | labelled {turns later : List Turn} {services : List Service} {listing : List Char}
      (listed : Dialogue.Course (list host Service.read servicesArgs) turns (.ok services))
      (inspected : Dialogue.Course (run host (stacksArgs services)) later (.ok listing)) :
      Listing host (turns ++ later) (.ok (withStacks services listing))

/-- To return early from what is tried is to try what is returned. -/
theorem labelling_eq (services : List Service) (inspection : Dialogue (List Char)) :
    (do
      try
        return withStacks services (← inspection)
      catch _ => return services) =
      tryCatch (inspection >>= fun listing => pure (withStacks services listing))
        fun _ => pure services := by
  show ((Exchange.andThen inspection.run _).andThen _).andThen _ =
    (Exchange.andThen inspection.run _).andThen _
  rw [andThen_assoc, andThen_assoc, andThen_assoc]
  congr 1
  funext outcome
  cases outcome <;> rfl

theorem listing_of_course {host : Option String} {turns : List Turn}
    {answer : Except Failure (List Service)}
    (h : Dialogue.Course (listServices host) turns answer) : Listing host turns answer := by
  obtain ⟨failure, hlist, rfl⟩ | ⟨services, first, later, rfl, hlist, hlater⟩ := course_bind.mp h
  · exact .failed hlist
  · cases services with
    | nil =>
        obtain ⟨rfl, rfl⟩ := course_pure.mp hlater
        exact (List.append_nil first).symm ▸ .empty hlist
    | cons service services =>
        have hlater := (labelling_eq (service :: services) (run host _)) ▸ hlater
        obtain ⟨_, hinspect, rfl⟩ | ⟨_, asked, none, rfl, hinspect, hnone⟩ :=
          course_catch.mp hlater
        · obtain ⟨_, -, hfailed⟩ | ⟨listing, asked, none, rfl, hrun, hnone⟩ :=
            course_bind.mp hinspect
          · cases hfailed
          · obtain ⟨rfl, hlabelled⟩ := course_pure.mp hnone
            rw [hlabelled, List.append_nil]
            exact .labelled hlist hrun
        · obtain ⟨rfl, rfl⟩ := course_pure.mp hnone
          obtain ⟨failure, hrun, -⟩ | ⟨_, _, _, -, -, hpure⟩ := course_bind.mp hinspect
          · rw [List.append_nil]
            exact .plain hlist hrun
          · cases (course_pure.mp hpure).2

theorem Service.read_stackless {line : List Char} {service : Service}
    (h : Service.read line = .ok service) : service.stack = "" := by
  unfold Service.read at h
  cases hdocument : (Document.Reader.record Service.fields).runText line with
  | error fault => rw [hdocument] at h; cases h
  | ok document => rw [hdocument] at h; cases h; rfl

/-- As it is listed, no service has a stack. -/
theorem readLines_stackless {listing : List Char} {services : List Service}
    (h : readLines Service.read listing = .ok services) :
    ∀ service ∈ services, service.stack = "" := by
  have hmap : ∀ (lines : List (List Char)) (services : List Service),
      lines.mapM Service.read = .ok services → ∀ service ∈ services, service.stack = "" := by
    intro lines
    induction lines with
    | nil => rintro _ ⟨⟩ service hservice; cases hservice
    | cons line lines ih =>
        intro services hservices
        rw [List.mapM_cons] at hservices
        cases hline : Service.read line with
        | error fault => rw [hline] at hservices; cases hservices
        | ok service =>
            cases hlines : lines.mapM Service.read with
            | error fault => rw [hline, hlines] at hservices; cases hservices
            | ok more =>
                rw [hline, hlines] at hservices
                cases hservices
                exact List.forall_mem_cons.mpr ⟨Service.read_stackless hline, ih more hlines⟩
  unfold readLines at h
  cases hlines : (filledLines listing).mapM Service.read with
  | error fault => rw [hlines] at h; cases h
  | ok more =>
      rw [hlines] at h
      cases h
      exact hmap _ _ hlines

/-- Nothing is removed for a listing. -/
theorem Listing.spares {host : Option String} {turns : List Turn}
    {answer : Except Failure (List Service)} (h : Listing host turns answer) :
    Spares host turns := by
  have hlisted : ∀ {turns : List Turn} {answer : Except Failure (List Service)},
      Dialogue.Course (list host Service.read servicesArgs) turns answer → Spares host turns := by
    intro turns answer h
    obtain ⟨_, hrun, -⟩ := course_list h
    exact spares_run hrun (by simp [servicesArgs])
  have hinspected : ∀ {services : List Service} {turns : List Turn}
      {answer : Except Failure (List Char)},
      Dialogue.Course (run host (stacksArgs services)) turns answer → Spares host turns :=
    fun h => spares_run h (by simp [stacksArgs])
  cases h with
  | failed listed => exact hlisted listed
  | empty listed => exact hlisted listed
  | plain listed inspected => exact (hlisted listed).append (hinspected inspected)
  | labelled listed inspected => exact (hlisted listed).append (hinspected inspected)

theorem withStacks_ids (services : List Service) (listing : List Char) :
    (withStacks services listing).map Service.id = services.map Service.id := by
  unfold withStacks
  rw [List.map_map]
  refine List.map_congr_left fun service _ => ?_
  rw [Function.comp_apply]
  cases labelOf? services listing service.id <;> rfl

/-! ## Members of a stack -/

/-- The services of a stack, in the order in which they are listed. -/
def members (services : List Service) (name : String) : List String :=
  (services.filter fun service => service.stack == name).map Service.id

theorem members_subset (services : List Service) (name : String) :
    members services name ⊆ services.map Service.id :=
  List.map_subset _ fun _ hservice => (List.mem_filter.mp hservice).1

theorem members_stackless {services : List Service} {name : String} (hname : name ≠ "")
    (h : ∀ service ∈ services, service.stack = "") : members services name = [] := by
  unfold members
  rw [List.map_eq_nil_iff, List.filter_eq_nil_iff]
  intro service hservice
  rw [h service hservice]
  exact fun heq => hname (beq_iff_eq.mp heq).symm

/-- A service whose stack can be shown belongs to the group of that name. -/
theorem nameOf_eq_iff {service : Service} {name : String} (hname : name ≠ Stack.noStack)
    (hempty : name ≠ "") : Stack.nameOf service = name ↔ service.stack = name := by
  unfold Stack.nameOf
  split
  next hstack =>
    have hstack : service.stack = "" := String.isEmpty_iff.mp hstack
    exact ⟨fun h => absurd h.symm hname, fun h => absurd (h.symm.trans hstack) hempty⟩
  next => rfl

/-- Every row that is shown is the group of a service. -/
theorem mem_ofServices {services : List Service} {row : Stack}
    (h : row ∈ Stack.ofServices services) :
    ∃ service ∈ services, row = Stack.gather services (Stack.nameOf service) := by
  obtain ⟨_, hname, rfl⟩ := List.mem_map.mp h
  obtain ⟨service, hservice, rfl⟩ :=
    List.mem_map.mp (List.mem_eraseDups.mp (List.mem_mergeSort.mp hname))
  exact ⟨service, hservice, rfl⟩

theorem nameOf_ne_empty (service : Service) : Stack.nameOf service ≠ "" := by
  unfold Stack.nameOf
  split
  next => decide
  next hstack => exact fun hempty => hstack (String.isEmpty_iff.mpr hempty)

/-- **What is shown of a stack is what it has.** The services of a row are the members of the
stack, unless it is the row of the services without one. -/
theorem services_of_row {services : List Service} {row : Stack}
    (h : row ∈ Stack.ofServices services) (hname : row.name ≠ Stack.noStack) :
    row.services = members services row.name := by
  obtain ⟨shown, -, rfl⟩ := mem_ofServices h
  show List.map Service.id _ = List.map Service.id _
  congr 1
  refine List.filter_congr fun service _ => Bool.eq_iff_iff.mpr ?_
  rw [beq_iff_eq, beq_iff_eq]
  exact nameOf_eq_iff hname (nameOf_ne_empty shown)

/-- No row is shown for nothing. -/
theorem services_ne_nil {services : List Service} {row : Stack}
    (h : row ∈ Stack.ofServices services) : row.services ≠ [] := by
  obtain ⟨service, hservice, rfl⟩ := mem_ofServices h
  refine List.ne_nil_of_mem (List.mem_map_of_mem (List.mem_filter.mpr ⟨hservice, ?_⟩))
  exact beq_self_eq_true _

/-! ## Removing -/

/-- How a stack is removed, or not. -/
inductive Removal (host : Option String) (name : String) :
    List Turn → Except Failure Nat → Prop where
  | unlisted {asked : List Turn} {failure : Failure}
      (listed : Dialogue.Course (listServices host) asked (.error failure))
      (spared : Spares host asked) : Removal host name asked (.error failure)
  | missing {asked : List Turn} {services : List Service}
      (listed : Dialogue.Course (listServices host) asked (.ok services))
      (spared : Spares host asked) (absent : members services name = [])
      (unshown : ∀ row ∈ Stack.ofServices services, row.name ≠ Stack.noStack → row.name ≠ name) :
      Removal host name asked (.error (.notFound s!"stack {name}"))
  | removed {asked : List Turn} {services : List Service} {output : Except String Output}
      (listed : Dialogue.Course (listServices host) asked (.ok services))
      (spared : Spares host asked) (present : members services name ≠ [])
      (inspected : ∃ labels, labels.code = 0 ∧
        asked.getLast? = some (.command (addressed host (stacksArgs services)) (.ok labels)))
      (shown : ∀ row ∈ Stack.ofServices services, row.name ≠ Stack.noStack → row.name = name →
        row.services = members services name) :
      Removal host name
        (asked ++
          [.command (addressed host (["service", "rm"] ++ members services name)) output])
        ((outcome (["service", "rm"] ++ members services name) output).map
          fun _ => (members services name).length)

/-- The removal of members of a stack can be passed, as their inspection could. -/
theorem passable_removal {host : Option String} {services : List Service} {name : String}
    (h : Passable (addressed host (stacksArgs services))) :
    Passable (addressed host (["service", "rm"] ++ members services name)) := by
  have hfixed : Passable ["service", "rm"] :=
    List.forall_mem_cons.mpr ⟨⟨by decide, by decide⟩,
      List.forall_mem_singleton.mpr ⟨by decide, by decide⟩⟩
  have hids : Passable (members services name) := by
    intro arg harg
    refine h arg ?_
    have hmem : arg ∈ stacksArgs services :=
      List.mem_append_right _ (members_subset services name harg)
    cases host with
    | none => exact hmem
    | some host => exact List.mem_cons_of_mem _ (List.mem_cons_of_mem _ hmem)
  exact h.readdress (hfixed.append hids)

/-- A listing by which a stack has members ends with an inspection. -/
theorem Listing.inspected {host : Option String} {name : String} (hname : name ≠ "")
    {asked : List Turn} {services : List Service} (h : Listing host asked (.ok services))
    (hpresent : members services name ≠ []) :
    Passable (addressed host (stacksArgs services)) ∧ ∃ labels, labels.code = 0 ∧
      asked.getLast? = some (.command (addressed host (stacksArgs services)) (.ok labels)) := by
  have hstackless : ∀ {turns : List Turn} {services : List Service},
      Dialogue.Course (list host Service.read servicesArgs) turns (.ok services) →
        members services name = [] := by
    intro turns services listed
    obtain ⟨_, -, hread⟩ := course_list listed
    obtain ⟨listing, hlisting⟩ := hread _ rfl
    exact members_stackless hname (readLines_stackless hlisting)
  cases h with
  | empty listed => exact absurd rfl hpresent
  | plain listed _ => exact absurd (hstackless listed) hpresent
  | @labelled _ _ services listing listed inspected =>
      have hargs : stacksArgs (withStacks services listing) = stacksArgs services :=
        congrArg (_ ++ ·) (withStacks_ids services listing)
      obtain ⟨hpassable, output, rfl, houtcome⟩ | ⟨-, -, _, hfailed⟩ :=
          course_run_command inspected
      · rw [hargs, List.getLast?_concat]
        cases output with
        | error reason => cases houtcome
        | ok labels =>
            simp only [outcome] at houtcome
            split at houtcome
            next hcode => exact ⟨hpassable, labels, hcode, rfl⟩
            next => cases houtcome
      · cases hfailed

theorem course_removeServices {host : Option String} {ids : List String} (hids : ids ≠ [])
    (hpassable : Passable (addressed host (["service", "rm"] ++ ids))) {turns : List Turn}
    {answer : Except Failure Unit}
    (h : Dialogue.Course (removeServices host ids) turns answer) :
    ∃ output, turns = [.command (addressed host (["service", "rm"] ++ ids)) output] ∧
      answer = (outcome (["service", "rm"] ++ ids) output).map fun _ => () := by
  rw [removeServices, if_neg (mt List.isEmpty_iff.mp hids)] at h
  obtain ⟨_, hrun, rfl⟩ := course_discard.mp h
  obtain ⟨-, output, rfl, rfl⟩ | ⟨hblocked, -⟩ := course_run_command hrun
  · exact ⟨output, rfl, rfl⟩
  · exact absurd hpassable hblocked

/-- Services are removed and counted by one command. -/
theorem course_removeCounted {host : Option String} {ids : List String} (hids : ids ≠ [])
    (hpassable : Passable (addressed host (["service", "rm"] ++ ids))) {turns : List Turn}
    {answer : Except Failure Nat}
    (h : Dialogue.Course (removeServices host ids >>= fun _ => pure ids.length) turns answer) :
    ∃ output, turns = [.command (addressed host (["service", "rm"] ++ ids)) output] ∧
      answer = (outcome (["service", "rm"] ++ ids) output).map fun _ => ids.length := by
  obtain ⟨failure, hremoved, rfl⟩ | ⟨_, first, none, rfl, hremoved, hcounted⟩ :=
    course_bind.mp h
  · obtain ⟨output, rfl, hfailed⟩ := course_removeServices hids hpassable hremoved
    refine ⟨output, rfl, ?_⟩
    cases houtcome : outcome (["service", "rm"] ++ ids) output with
    | error failure => rw [houtcome] at hfailed; cases hfailed; rfl
    | ok written => rw [houtcome] at hfailed; cases hfailed
  · obtain ⟨output, rfl, hdone⟩ := course_removeServices hids hpassable hremoved
    obtain ⟨rfl, rfl⟩ := course_pure.mp hcounted
    refine ⟨output, rfl, ?_⟩
    cases houtcome : outcome (["service", "rm"] ++ ids) output with
    | error failure => rw [houtcome] at hdone; cases hdone
    | ok written => rfl

/-- A stack is removed in one of three ways, whatever the commands answer. -/
theorem removal_of_course {host : Option String} {name : String} (hname : name ≠ "")
    {turns : List Turn} {answer : Except Failure Nat}
    (h : Dialogue.Course (removeStack host name) turns answer) :
    Removal host name turns answer := by
  obtain ⟨failure, hlisted, rfl⟩ | ⟨services, asked, later, rfl, hlisted, hlater⟩ :=
    course_bind.mp h
  · exact .unlisted hlisted (listing_of_course hlisted).spares
  · have hspared := (listing_of_course hlisted).spares
    change Dialogue.Course (if (members services name).isEmpty = true then _ else _) later answer
      at hlater
    by_cases habsent : members services name = []
    · rw [habsent] at hlater
      obtain ⟨failure, hthrown, rfl⟩ | ⟨_, _, _, -, hthrown, -⟩ := course_bind.mp hlater
      · obtain ⟨rfl, hfailure⟩ := course_throw.mp hthrown
        cases hfailure
        rw [List.append_nil]
        refine .missing hlisted hspared habsent fun row hrow hshown hrowName => ?_
        exact services_ne_nil hrow ((services_of_row hrow hshown).trans (hrowName ▸ habsent))
      · cases (course_throw.mp hthrown).2
    · obtain ⟨hpassable, hinspected⟩ := (listing_of_course hlisted).inspected hname habsent
      rw [if_neg (mt List.isEmpty_iff.mp habsent)] at hlater
      obtain ⟨output, rfl, rfl⟩ :=
        course_removeCounted habsent (passable_removal hpassable) hlater
      exact .removed hlisted hspared habsent hinspected
        fun row hrow hshown hrowName => hrowName ▸ services_of_row hrow hshown

/-- **What is shown of a stack is what its removal removes.** Whatever the commands answer, either
the services of that name in the list just made are removed, each once and in their order, and
counted if the command succeeds, or nothing is removed, and there is a failure. -/
theorem removes_what_is_shown (host : Option String) (name : String) (hname : name ≠ "")
    (script : Script) :
    ∃ turns, script.Gives turns ∧
      ((removeStack host name).run.play script).2.commands = commandsOf turns ∧
      Removal host name turns ((removeStack host name).run.play script).1 := by
  obtain ⟨turns, hcourse, hgiven, hcommands⟩ := course_play (removeStack host name).run script
  exact ⟨turns, hgiven, hcommands, removal_of_course hname hcourse⟩

/-- What is listed of three services. -/
def webServices : String :=
  "\x7b\"ID\":\"a234567890\",\"Name\":\"n\"\x7d\n" ++
    "\x7b\"ID\":\"b234567890\",\"Name\":\"m\"\x7d\n" ++
    "\x7b\"ID\":\"c234567890\",\"Name\":\"k\"\x7d"

/-- The answers of commands by which two of the services are in the stack `web`. -/
def webScript : Script :=
  { replies := []
    outputs :=
      [.ok { stdout := Utf8.encode webServices.toList },
        .ok { stdout := Utf8.encode "c234567890xy web\na234567890xy web".toList }]
    lastReply := .error ""
    lastOutput := .ok {} }

theorem removes_what_is_shown_of_web :
    "web" ≠ "" ∧ ((removeStack none "web").run.play webScript).1.toOption = some 2 ∧
      ∃ turns, webScript.Gives turns ∧
        ((removeStack none "web").run.play webScript).2.commands = commandsOf turns ∧
        Removal none "web" turns ((removeStack none "web").run.play webScript).1 :=
  ⟨by decide, by decide +kernel, removes_what_is_shown none "web" (by decide) webScript⟩

end Dockboard.Swarm
