import Dockboard.Proofs.Grouping
import Dockboard.Proofs.Table.Sorting
import Dockboard.Resource.Row

set_option autoImplicit false

/-! # Tasks in groups

Tasks are shown below a heading for each service.

    tasks    web.1   api.1   \_ web.1   db
    rows     ── api ──   api.1   ── db ──   db   ── web ──   web.1   \_ web.1

The groups are found by sorting the tasks by service, so that those of one service stand together in
the order in which they have come, and by one pass over them, in which a heading is put wherever
another service begins (`withGroups_eq`). Whatever is done to a table with these rows, unless the
rows are replaced, moves a task within its group at most (`sortRuns_ofGroups`).
-/

namespace Dockboard

namespace Row

/-! ## Groups -/

/-- Groups, each with its heading. -/
def ofGroups (groups : List (String × List Task)) : List Row :=
  groups.flatMap fun (name, own) => .group name :: own.map .task

@[simp] theorem ofGroups_nil : ofGroups [] = [] := rfl

@[simp] theorem ofGroups_cons (name : String) (own : List Task)
    (groups : List (String × List Task)) :
    ofGroups ((name, own) :: groups) = .group name :: (own.map .task ++ ofGroups groups) := rfl

/-- There is one group for each service, in the order of names, with the tasks of that service: in
the order in which they have come, or in any order, as `Same` says. -/
structure Grouped (Same : List Task → List Task → Prop) (tasks : List Task)
    (groups : List (String × List Task)) : Prop where
  ascending : groups.Pairwise fun a b => a.1 < b.1
  mem_iff : ∀ name, (∃ group ∈ groups, group.1 = name) ↔ ∃ task ∈ tasks, task.service = name
  own : ∀ group ∈ groups, Same group.2 (tasks.filter fun task => task.service == group.1)

/-- The tasks among rows. -/
def task? : Row → Option Task
  | .task t => some t
  | _ => none

/-! ## One pass over sorted tasks -/

/-- Services are in the order of names. -/
def serviceLe (a b : Task) : Bool := (compare a.service b.service).isLE

theorem serviceLe_iff {a b : Task} : serviceLe a b = true ↔ a.service ≤ b.service :=
  Std.LawfulBCmp.isLE_iff_le

/-- After the tasks of a service, the first of the others begins a group. -/
theorem withGroups_some {name : String} {tasks : List Task}
    (hsorted : tasks.Pairwise fun a b => serviceLe a b = true)
    (hname : ∀ task ∈ tasks, name ≤ task.service) :
    withGroups (some name) tasks =
      (tasks.filter fun task => task.service == name).map .task ++
        withGroups none (tasks.filter fun task => task.service != name) := by
  induction tasks with
  | nil => rfl
  | cons t rest ih =>
      obtain ⟨hfirst, hrest⟩ := List.pairwise_cons.mp hsorted
      obtain ⟨ht, hmore⟩ := List.forall_mem_cons.mp hname
      by_cases hsame : t.service = name
      · simp [withGroups, hsame, ih hrest hmore]
      · -- All that follow belong to later services.
        have hothers : ∀ task ∈ t :: rest, task.service ≠ name := by
          intro task htask heq
          apply hsame
          apply le_antisymm _ ht
          rcases List.mem_cons.mp htask with rfl | htask
          · exact heq.le
          · exact (serviceLe_iff.mp (hfirst task htask)).trans heq.le
        have hnone : ((t :: rest).filter fun task => task.service == name) = [] := by
          simpa [List.filter_eq_nil_iff] using hothers
        have hall : ((t :: rest).filter fun task => task.service != name) = t :: rest := by
          simpa [List.filter_eq_self] using hothers
        rw [hnone, hall, List.map_nil, List.nil_append, withGroups, withGroups,
          if_neg fun h => hsame (Option.some.inj h).symm, if_neg (by simp)]

/-- The tasks of the first service are a group before those of the others. -/
theorem Grouped.cons {t : Task} {rest : List Task} {groups : List (String × List Task)}
    (hle : ∀ task ∈ rest, t.service ≤ task.service)
    (h : Grouped Eq (rest.filter fun task => task.service != t.service) groups) :
    Grouped Eq (t :: rest)
      ((t.service, (t :: rest).filter fun task => task.service == t.service) :: groups) := by
  have hlater : ∀ group ∈ groups, t.service < group.1 := by
    intro group hgroup
    obtain ⟨task, htask, hservice⟩ := (h.mem_iff group.1).mp ⟨group, hgroup, rfl⟩
    obtain ⟨htask, hne⟩ := List.mem_filter.mp htask
    rw [← hservice]
    exact lt_of_le_of_ne (hle task htask) (Ne.symm (bne_iff_ne.mp hne))
  constructor
  · exact List.pairwise_cons.mpr ⟨hlater, h.ascending⟩
  · intro name
    rw [List.exists_mem_cons_iff, h.mem_iff, List.exists_mem_cons_iff]
    by_cases hname : t.service = name
    · simp [hname]
    · simp only [hname, false_or]
      constructor
      · rintro ⟨task, htask, hservice⟩
        exact ⟨task, (List.mem_filter.mp htask).1, hservice⟩
      · rintro ⟨task, htask, rfl⟩
        exact ⟨task, List.mem_filter.mpr ⟨htask, bne_iff_ne.mpr (Ne.symm hname)⟩, rfl⟩
  · refine List.forall_mem_cons.mpr ⟨rfl, ?_⟩
    intro group hgroup
    have hne := (hlater group hgroup).ne
    rw [h.own group hgroup, filter_key_of_ne hne.symm,
      List.filter_cons_of_neg (by simpa using hne)]

/-- **One pass** over tasks in the order of services puts each service into one group. -/
theorem withGroups_eq {tasks : List Task}
    (hsorted : tasks.Pairwise fun a b => serviceLe a b = true) :
    ∃ groups, withGroups none tasks = ofGroups groups ∧ Grouped Eq tasks groups := by
  -- The induction is on the number of tasks: those of the first service are left out.
  induction hlength : tasks.length using Nat.strong_induction_on generalizing tasks with
  | h length ih =>
  cases tasks with
  | nil => exact ⟨[], rfl, .nil, by simp, by simp⟩
  | cons t rest =>
      obtain ⟨hfirst, hrest⟩ := List.pairwise_cons.mp hsorted
      have hle : ∀ task ∈ rest, t.service ≤ task.service := by
        intro task htask
        exact serviceLe_iff.mp (hfirst task htask)
      have hshorter : (rest.filter fun task => task.service != t.service).length < length := by
        rw [← hlength]
        exact Nat.lt_succ_of_le (List.length_filter_le _ rest)
      obtain ⟨groups, hothers, hgrouped⟩ :=
        ih _ hshorter (hrest.sublist List.filter_sublist) rfl
      refine ⟨_, ?_, hgrouped.cons hle⟩
      rw [withGroups, if_neg (by simp), withGroups_some hrest hle, hothers]
      simp

/-- **Tasks in groups**, each in the order in which they have come. -/
theorem ofTasks_eq (tasks : List Task) :
    ∃ groups, ofTasks tasks = ofGroups groups ∧ Grouped Eq tasks groups := by
  have htrans (a b c : Task) (hab : serviceLe a b = true) (hbc : serviceLe b c = true) :
      serviceLe a c = true :=
    serviceLe_iff.mpr ((serviceLe_iff.mp hab).trans (serviceLe_iff.mp hbc))
  have htotal (a b : Task) : (serviceLe a b || serviceLe b a) = true := by
    rw [Bool.or_eq_true, serviceLe_iff, serviceLe_iff]
    exact le_total _ _
  obtain ⟨groups, hgroups, hgrouped⟩ :=
    withGroups_eq (List.pairwise_mergeSort htrans htotal tasks)
  refine ⟨groups, hgroups, hgrouped.ascending, ?_, ?_⟩
  · intro name
    simp only [hgrouped.mem_iff, List.mem_mergeSort]
  · intro group hgroup
    rw [hgrouped.own group hgroup]
    apply Table.filter_mergeSort htrans htotal
    intro a b ha hb
    rw [serviceLe_iff, beq_iff_eq.mp ha, beq_iff_eq.mp hb]

/-! ## Below a heading -/

theorem headings_tasks (tasks : List Task) : (tasks.map Row.task).filter isHeading = [] := by
  simp [List.filter_eq_nil_iff, isHeading]

/-- Wherever a group is cut, the last heading before is its own. -/
theorem getLast?_headings {groups : List (String × List Task)} {before behind : List Row}
    {task : Task} (hrows : ofGroups groups = before ++ .task task :: behind) :
    ∃ group ∈ groups, task ∈ group.2 ∧
      (before.filter isHeading).getLast? = some (.group group.1) := by
  induction groups generalizing before with
  | nil => simp at hrows
  | cons group groups ih =>
      obtain ⟨name, own⟩ := group
      rw [ofGroups_cons] at hrows
      -- The rows before begin with the heading, as a task is no heading.
      cases before with
      | nil => cases hrows
      | cons heading before =>
          obtain ⟨rfl, hbelow⟩ := List.cons.inj hrows
          obtain ⟨more, rfl, hmore⟩ | ⟨more, hown, hmore⟩ := List.append_eq_append_iff.mp hbelow
          · -- The task belongs to a later group.
            obtain ⟨group, hgroup, hmem, hlast⟩ := ih hmore
            refine ⟨group, List.mem_cons_of_mem _ hgroup, hmem, ?_⟩
            rw [List.filter_cons_of_pos rfl, List.filter_append, headings_tasks, List.nil_append,
              List.getLast?_cons, hlast]
            rfl
          · cases more with
            | nil =>
                obtain ⟨group, -, -, hlast⟩ := ih (show _ = [] ++ _ from hmore.symm)
                cases hlast
            | cons row more =>
                -- The task belongs to this group, and only tasks stand between it and the heading.
                obtain ⟨rfl, rfl⟩ := List.cons.inj hmore
                refine ⟨_, List.mem_cons_self, ?_, ?_⟩
                · have hrow : Row.task task ∈ own.map Row.task := by simp [hown]
                  obtain ⟨_, hmem, heq⟩ := List.mem_map.mp hrow
                  cases heq
                  exact hmem
                · have hnone := headings_tasks own
                  rw [hown, List.filter_append, List.append_eq_nil_iff] at hnone
                  rw [List.filter_cons_of_pos rfl, hnone.1]
                  rfl

theorem Grouped.perm {tasks : List Task} {groups : List (String × List Task)}
    (h : Grouped Eq tasks groups) : Grouped List.Perm tasks groups :=
  ⟨h.ascending, h.mem_iff, fun group hgroup => h.own group hgroup ▸ List.Perm.refl _⟩

theorem ofGroups_tasks (groups : List (String × List Task)) :
    (ofGroups groups).filterMap task? = groups.flatMap Prod.snd := by
  induction groups with
  | nil => rfl
  | cons group groups ih =>
      rw [ofGroups_cons, List.filterMap_cons_none rfl, List.filterMap_append, ih,
        List.flatMap_cons, List.filterMap_map]
      exact congrArg (· ++ _) (List.filterMap_some ..)

/-- All tasks are shown, each once. -/
theorem Grouped.tasks {tasks : List Task} {groups : List (String × List Task)}
    (h : Grouped List.Perm tasks groups) : ((ofGroups groups).filterMap task?).Perm tasks := by
  have hnames : (groups.map Prod.fst).Nodup :=
    List.pairwise_map.mpr (h.ascending.imp fun hlt => ne_of_lt hlt)
  have hall : ∀ task ∈ tasks, task.service ∈ groups.map Prod.fst := by
    intro task htask
    obtain ⟨group, hgroup, hname⟩ := (h.mem_iff task.service).mpr ⟨task, htask, rfl⟩
    exact List.mem_map.mpr ⟨group, hgroup, hname⟩
  calc (ofGroups groups).filterMap task?
      = groups.flatMap Prod.snd := ofGroups_tasks groups
    List.Perm _ (groups.flatMap fun group => tasks.filter fun task => task.service == group.1) :=
      List.Perm.flatMap_left groups h.own
    _ = ((groups.map Prod.fst).flatMap fun name =>
          tasks.filter fun task => task.service == name) := by rw [List.flatMap_map]
    List.Perm _ tasks := flatMap_filter_perm hnames hall

/-- Each group may be sorted by itself. -/
theorem Grouped.sorted {tasks : List Task} {groups : List (String × List Task)}
    (h : Grouped List.Perm tasks groups) (le : Task → Task → Bool) :
    Grouped List.Perm tasks (groups.map fun group => (group.1, group.2.mergeSort le)) := by
  constructor
  · exact List.pairwise_map.mpr h.ascending
  · intro name
    rw [← h.mem_iff]
    simp
  · intro sorted hsorted
    obtain ⟨group, hgroup, rfl⟩ := List.mem_map.mp hsorted
    exact (List.mergeSort_perm _ _).trans (h.own group hgroup)

/-- A task stands below the heading of its service: no other heading comes between. -/
theorem Grouped.below {tasks : List Task} {groups : List (String × List Task)}
    (h : Grouped List.Perm tasks groups) {before behind : List Row} {task : Task}
    (hrows : ofGroups groups = before ++ .task task :: behind) :
    (before.filter isHeading).getLast? = some (.group task.service) := by
  obtain ⟨group, hgroup, hmem, hlast⟩ := getLast?_headings hrows
  have hservice := (List.mem_filter.mp ((h.own group hgroup).mem_iff.mp hmem)).2
  rw [hlast, beq_iff_eq.mp hservice]

end Row

namespace Table

/-! ## Sorting groups -/

/-- Sorting the rows between headings sorts each group by itself. -/
theorem sortRuns_ofGroups (le : Row → Row → Bool) (run : List Row)
    (groups : List (String × List Task)) :
    sortRuns Row.isHeading le run (Row.ofGroups groups) =
      run.reverse.mergeSort le ++ Row.ofGroups (groups.map fun group =>
        (group.1, group.2.mergeSort fun a b => le (.task a) (.task b))) := by
  induction groups generalizing run with
  | nil => simp [sortRuns]
  | cons group groups ih =>
      obtain ⟨name, own⟩ := group
      have hplain : ∀ row ∈ own.map Row.task, row.isHeading = false := by
        intro row hrow
        obtain ⟨_, -, rfl⟩ := List.mem_map.mp hrow
        rfl
      have hown : (own.mergeSort fun a b => le (.task a) (.task b)).map Row.task =
          (own.map Row.task).mergeSort le :=
        List.map_mergeSort fun _ _ _ _ => rfl
      rw [Row.ofGroups_cons, sortRuns, Row.isHeading, if_pos rfl, sortRuns_append_plain hplain, ih,
        List.map_cons, Row.ofGroups_cons, hown, List.append_nil, List.reverse_reverse]

/-- The rows are tasks in groups, each in some order. -/
def HoldsGroups (tasks : List Task) (t : Table Row) : Prop :=
  ∃ groups, t.rows = Row.ofGroups groups ∧ Row.Grouped List.Perm tasks groups

variable {format : RowFormat Row} {tasks : List Task} {t : Table Row}

theorem HoldsGroups.of_rows {t' : Table Row} (h : t.HoldsGroups tasks) (hrows : t'.rows = t.rows) :
    t'.HoldsGroups tasks := by
  obtain ⟨groups, hgroups, hgrouped⟩ := h
  exact ⟨groups, hrows.trans hgroups, hgrouped⟩

theorem HoldsGroups.sortByField (hformat : format.isHeading = Row.isHeading)
    (h : t.HoldsGroups tasks) : (t.sortByField format).HoldsGroups tasks := by
  obtain ⟨groups, hrows, hgrouped⟩ := h
  refine ⟨_, ?_, hgrouped.sorted fun a b => columnLe format t.sortField (.task a) (.task b)⟩
  rw [sortByField_rows, hformat, hrows, sortRuns_ofGroups]
  simp

/-- What is done to a table, unless its rows are replaced, moves tasks within their groups. -/
theorem HoldsGroups.change (hformat : format.isHeading = Row.isHeading)
    (h : t.HoldsGroups tasks) {c : Change Row} (hkept : ∀ rows, c ≠ .replaceRows rows) :
    (change format t c).HoldsGroups tasks := by
  cases c with
  | replaceRows rows => exact absurd rfl (hkept rows)
  | sortByField => exact h.sortByField hformat
  | nextSortField => exact h.of_rows rfl
  | setFilter filter => exact h.of_rows (setFilter_rows format t filter)
  | resize width height => exact h.of_rows (resize_rows t width height)
  | cursorUp _ | cursorDown _ | pageUp | pageDown | home | toEnd =>
      exact h.of_rows (moveTo_rows t _)

theorem HoldsGroups.foldl (hformat : format.isHeading = Row.isHeading)
    (h : t.HoldsGroups tasks) {changes : List (Change Row)}
    (hkept : ∀ rows, .replaceRows rows ∉ changes) :
    (changes.foldl (Table.change format) t).HoldsGroups tasks := by
  induction changes generalizing t with
  | nil => exact h
  | cons c changes ih =>
      apply ih (h.change hformat fun rows heq => hkept rows (heq ▸ List.mem_cons_self))
      intro rows hrows
      exact hkept rows (List.mem_cons_of_mem _ hrows)

/-- **Tasks stay in their groups.** A table with the rows of some tasks has one group for each
service, in the order of names, in which its tasks stand in the order in which they have come.
After any changes that do not replace the rows, sorting by one column after the other among them,
the groups are the same up to the order of tasks in each; all tasks are there; and the last heading
before a task is that of its service. -/
theorem tasks_stay_grouped (hformat : format.isHeading = Row.isHeading)
    (hrows : t.rows = Row.ofTasks tasks) {changes : List (Change Row)}
    (hkept : ∀ rows, .replaceRows rows ∉ changes) :
    let later := changes.foldl (change format) t
    (∃ groups, t.rows = Row.ofGroups groups ∧ Row.Grouped Eq tasks groups) ∧
    (∃ groups, later.rows = Row.ofGroups groups ∧ Row.Grouped List.Perm tasks groups) ∧
    (later.rows.filterMap Row.task?).Perm tasks ∧
    ∀ before task behind, later.rows = before ++ .task task :: behind →
      (before.filter Row.isHeading).getLast? = some (.group task.service) := by
  intro later
  obtain ⟨groups, hgroups, hgrouped⟩ := Row.ofTasks_eq tasks
  have hstart : t.rows = Row.ofGroups groups := hrows.trans hgroups
  have hlater : later.HoldsGroups tasks :=
    HoldsGroups.foldl hformat ⟨groups, hstart, hgrouped.perm⟩ hkept
  obtain ⟨groups', hrows', hgrouped'⟩ := hlater
  refine ⟨⟨groups, hstart, hgrouped⟩, ⟨groups', hrows', hgrouped'⟩, ?_, ?_⟩
  · rw [hrows']
    exact hgrouped'.tasks
  · intro before task behind hcut
    exact hgrouped'.below (hrows'.symm.trans hcut)

/-- Four tasks of three services, one of them a task that was replaced. -/
def fourTasks : List Task :=
  [{ id := "1", name := "web.1" }, { id := "2", name := "api.1" },
    { id := "3", name := "\\_ web.1" }, { id := "4", name := "db" }]

/-- Rows as a view shows them. -/
def rowFormat : RowFormat Row where
  columns := Row.columns 0
  id? := Row.id?
  isHeading := Row.isHeading
  sortKey := Row.sortKey

/-- A table with these tasks. -/
def fourTable : Table Row :=
  { new [⟨"ID", none⟩, ⟨"NAME", none⟩] with rows := Row.ofTasks fourTasks }

/-- Sort by names, then by identifiers. -/
def twoSorts : List (Change Row) := [.nextSortField, .sortByField, .nextSortField, .sortByField]

theorem tasks_stay_grouped_of_four :
    (∀ rows, .replaceRows rows ∉ twoSorts) ∧
      fourTasks.map Task.service = ["web", "api", "web", "db"] ∧
      ∃ groups, (twoSorts.foldl (change rowFormat) fourTable).rows = Row.ofGroups groups ∧
        Row.Grouped List.Perm fourTasks groups := by
  have hkept : ∀ rows, .replaceRows rows ∉ twoSorts := by simp [twoSorts]
  have hformat : rowFormat.isHeading = Row.isHeading := rfl
  have hrows : fourTable.rows = Row.ofTasks fourTasks := rfl
  exact ⟨hkept, by decide +kernel, (tasks_stay_grouped hformat hrows hkept).2.1⟩

end Table

end Dockboard
