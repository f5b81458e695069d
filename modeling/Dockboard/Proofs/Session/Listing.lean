import Dockboard.Proofs.Session.Tokens
import Mathlib.Data.List.Perm.Basic

set_option autoImplicit false

/-! # Lists of containers and the rows of the monitor

The rows of the monitor are those of the containers that were listed last. A row whose samples have
come to an end says so for as long as its container is listed; the containers of all other rows are
being read.

    renew rows c          the row of a listed container, that of before under the name of now
    arrivals rows cs      the listed containers without a row
    Tidy s                the containers that are read are those of the rows that have not ended
    TakesOver s cs r      `r` takes the running containers `cs` over, and no others
-/

namespace Dockboard

open Dockboard.Stream

/-- The container that a row shows in the monitor. -/
def Row.monitored? : Row → Option Monitored
  | .monitored m => some m
  | _ => none

/-- The row of a listed container: that of before under the name of now, or a new one. -/
def renew (rows : List Monitored) (c : Container) : Monitored :=
  match rows.find? fun m => m.id == c.id with
  | some m => { m with name := c.name }
  | none => { id := c.id, name := c.name }

/-- The listed containers that have no row yet. -/
def arrivals (rows : List Monitored) (containers : List Container) : List Container :=
  containers.filter fun c => !rows.any fun m => m.id == c.id

/-- The first read of a container. -/
def openRead (entry : String × Token) : Cmd := .openStats (.monitor entry.1) entry.1 entry.2

section

variable {rows : List Monitored} {containers : List Container} {c : Container}

theorem mem_arrivals :
    c ∈ arrivals rows containers ↔ c ∈ containers ∧ ∀ m ∈ rows, m.id ≠ c.id := by
  unfold arrivals
  rw [List.mem_filter]
  simp

theorem find?_id_eq_some {m : Monitored} {id : String} (hids : (rows.map Monitored.id).Nodup) :
    (rows.find? fun m => m.id == id) = some m ↔ m ∈ rows ∧ m.id = id := by
  constructor
  · intro h
    exact ⟨List.mem_of_find?_eq_some h, by simpa using List.find?_some h⟩
  · rintro ⟨hm, rfl⟩
    cases hfind : rows.find? fun other => other.id == m.id with
    | none =>
        have hne := List.find?_eq_none.mp hfind m hm
        simp at hne
    | some found =>
        have hid : found.id = m.id := by simpa using List.find?_some hfind
        rw [List.inj_on_of_nodup_map hids (List.mem_of_find?_eq_some hfind) hm hid]

theorem renew_of_mem {m : Monitored} (hids : (rows.map Monitored.id).Nodup) (hm : m ∈ rows)
    (hid : m.id = c.id) : renew rows c = { m with name := c.name } := by
  unfold renew
  rw [(find?_id_eq_some hids).mpr ⟨hm, hid⟩]

theorem renew_of_new (h : ∀ m ∈ rows, m.id ≠ c.id) :
    renew rows c = { id := c.id, name := c.name } := by
  have hnone : (rows.find? fun m => m.id == c.id) = none :=
    List.find?_eq_none.mpr fun m hm => by simpa using h m hm
  unfold renew
  rw [hnone]

theorem renew_id (rows : List Monitored) (c : Container) : (renew rows c).id = c.id := by
  unfold renew
  split
  · next m hfind => simpa using List.find?_some hfind
  · rfl

/-- The row of one container does not matter for the others. -/
theorem renew_filter {other : String} (h : other ≠ c.id) :
    renew (rows.filter fun m => m.id != other) c = renew rows c := by
  have hfind : ((rows.filter fun m => m.id != other).find? fun m => m.id == c.id) =
      rows.find? fun m => m.id == c.id := by
    rw [List.find?_filter]
    congr 1
    funext m
    by_cases hm : m.id = c.id
    · have hne : c.id ≠ other := fun heq => h heq.symm
      simp [hm, hne]
    · simp [hm]
  unfold renew
  rw [hfind]

theorem arrivals_filter {other : String} (h : other ∉ containers.map Container.id) :
    arrivals (rows.filter fun m => m.id != other) containers = arrivals rows containers := by
  unfold arrivals
  refine List.filter_congr fun c hc => ?_
  have hne : c.id ≠ other := by
    rintro rfl
    exact h (List.mem_map_of_mem hc)
  rw [List.any_filter]
  congr 2
  funext m
  by_cases hm : m.id = c.id
  · simp [hm, hne]
  · simp [hm]

end

namespace State

/-! ## The diff -/

theorem mem_monitor_keys {s : State} {id : String} :
    id ∈ s.monitor.map Prod.fst ↔ ∃ token, s.subscription? id = some token := by
  constructor
  · intro h
    obtain ⟨entry, hentry, rfl⟩ := List.mem_map.mp h
    cases hsub : s.subscription? entry.1 with
    | some token => exact ⟨token, rfl⟩
    | none =>
        rw [subscription?, Option.map_eq_none_iff] at hsub
        have hne := List.find?_eq_none.mp hsub entry hentry
        simp at hne
  · rintro ⟨token, h⟩
    exact List.mem_map_of_mem (mem_of_subscription? h)

/-- The state in which containers are read under new tokens. -/
def subscribeAll (s : State) (ids : List String) : State :=
  { s with monitor := s.monitor ++ ids.zipIdx s.nextToken, nextToken := s.nextToken + ids.length }

theorem subscribeAll_nil (s : State) : s.subscribeAll [] = s := by
  unfold subscribeAll
  rw [List.zipIdx_nil, List.append_nil]
  rfl

/-- Reads begin one after the other. -/
theorem subscribe_subscribeAll {s : State} {id : String} (h : id ∉ s.monitor.map Prod.fst)
    (ids : List String) :
    (s.freshToken.2.subscribe id s.nextToken).subscribeAll ids = s.subscribeAll (id :: ids) := by
  have hothers : (s.monitor.filter fun entry => entry.1 != id) = s.monitor := by
    refine List.filter_eq_self.mpr fun entry hentry => ?_
    have hne : entry.1 ≠ id := by
      rintro rfl
      exact h (List.mem_map_of_mem hentry)
    simpa using hne
  have hnext : s.nextToken + 1 + ids.length = s.nextToken + (id :: ids).length := by
    rw [List.length_cons, Nat.add_assoc, Nat.add_comm 1]
  unfold subscribeAll
  show ({ s with
    monitor := (s.monitor.filter fun entry => entry.1 != id) ++ [(id, s.nextToken)] ++
      ids.zipIdx (s.nextToken + 1)
    nextToken := s.nextToken + 1 + ids.length } : State) = _
  rw [hothers, hnext, List.append_assoc, List.zipIdx_cons]
  rfl

theorem find?_reverse_id {rows : List Monitored} (hids : (rows.map Monitored.id).Nodup)
    (id : String) :
    (rows.reverse.find? fun m => m.id == id) = rows.find? fun m => m.id == id := by
  have hreverse : (rows.reverse.map Monitored.id).Nodup := by
    rw [List.map_reverse]
    exact List.nodup_reverse.mpr hids
  refine Option.ext fun m => ?_
  rw [find?_id_eq_some hids, find?_id_eq_some hreverse, List.mem_reverse]

/-- A container with a row that has ended or is read keeps it. -/
theorem relist_cons_kept {s : State} {previous : List Monitored} {c : Container} {m : Monitored}
    (hids : (previous.map Monitored.id).Nodup) (hm : m ∈ previous) (hid : m.id = c.id)
    (hlive : m.ended = none → c.id ∈ s.monitor.map Prod.fst) (rest : List Container) :
    let later := s.relist (previous.filter fun m => m.id != c.id) rest
    s.relist previous (c :: rest) =
      (later.1, later.2.1, .monitored { m with name := c.name } :: later.2.2.1, later.2.2.2) := by
  have hold : (previous.reverse.find? fun m => m.id == c.id) = some m := by
    rw [find?_reverse_id hids]
    exact (find?_id_eq_some hids).mpr ⟨hm, hid⟩
  have hkept : (m.ended.isSome || (s.subscription? c.id).isSome) = true := by
    cases hended : m.ended with
    | some reason => rfl
    | none =>
        obtain ⟨token, hsub⟩ := mem_monitor_keys.mp (hlive hended)
        rw [hsub]
        rfl
  simp only [relist, hold, Option.filter_some, hkept, if_true]

/-- A container without a row is read under a new token. -/
theorem relist_cons_new {s : State} {previous : List Monitored} {c : Container}
    {rest : List Container} (hnew : ∀ m ∈ previous, m.id ≠ c.id) :
    let later := (s.freshToken.2.subscribe c.id s.nextToken).relist
      (previous.filter fun m => m.id != c.id) rest
    s.relist previous (c :: rest) =
      (later.1, later.2.1, .monitored { id := c.id, name := c.name } :: later.2.2.1,
        openRead (c.id, s.nextToken) :: later.2.2.2) := by
  have hnone : (previous.reverse.find? fun m => m.id == c.id) = none :=
    List.find?_eq_none.mpr fun m hm => by simpa using hnew m (List.mem_reverse.mp hm)
  simp only [relist, hnone, Option.filter_none]
  rfl

/-- When every container is listed once, has one row at most, and is being read unless its row has
ended, then rows are renewed, and the containers without a row are read under new tokens. -/
theorem relist_eq {s : State} {previous : List Monitored} {containers : List Container}
    (hlisted : (containers.map Container.id).Nodup) (hids : (previous.map Monitored.id).Nodup)
    (hlive : ∀ m ∈ previous, m.ended = none → m.id ∈ s.monitor.map Prod.fst)
    (hnew : ∀ c ∈ arrivals previous containers, c.id ∉ s.monitor.map Prod.fst) :
    let ids := (arrivals previous containers).map Container.id
    s.relist previous containers =
      (s.subscribeAll ids, previous.filter (fun m => m.id ∉ containers.map Container.id),
        containers.map (fun c => .monitored (renew previous c)),
        (ids.zipIdx s.nextToken).map openRead) := by
  induction containers generalizing s previous with
  | nil => simp [relist, arrivals, subscribeAll_nil]
  | cons c rest ih =>
      obtain ⟨hc, hrest⟩ := List.nodup_cons.mp hlisted
      -- The row of the first container does not matter for the others.
      let left : List Monitored := previous.filter fun m => m.id != c.id
      have hleftIds : (left.map Monitored.id).Nodup := hids.sublist (List.filter_sublist.map _)
      have hgone : (left.filter fun m => m.id ∉ rest.map Container.id) =
          previous.filter fun m => m.id ∉ (c :: rest).map Container.id := by
        rw [List.filter_filter]
        refine List.filter_congr fun m _ => ?_
        by_cases hm : m.id = c.id <;> simp [hm]
      have hrows : (rest.map fun c => Row.monitored (renew left c)) =
          rest.map fun c => Row.monitored (renew previous c) := by
        refine List.map_congr_left fun other hother => ?_
        have hne : c.id ≠ other.id := by
          intro heq
          rw [heq] at hc
          exact hc (List.mem_map_of_mem hother)
        rw [renew_filter hne]
      have harrivals : arrivals left rest = arrivals previous rest := arrivals_filter hc
      by_cases hfirst : ∃ m ∈ previous, m.id = c.id
      · obtain ⟨m, hm, hid⟩ := hfirst
        have hhere : arrivals previous (c :: rest) = arrivals previous rest := by
          refine List.filter_cons_of_neg ?_
          simpa using ⟨m, hm, hid⟩
        rw [hhere] at hnew ⊢
        have hlater := ih (s := s) hrest hleftIds
          (fun m hm => hlive m (List.mem_filter.mp hm).1) (by rwa [harrivals])
        have hread (hended : m.ended = none) : c.id ∈ s.monitor.map Prod.fst := by
          rw [← hid]
          exact hlive m hm hended
        refine (relist_cons_kept hids hm hid hread rest).trans ?_
        rw [hlater, harrivals, hgone, hrows, ← renew_of_mem hids hm hid]
        rfl
      · have hnone : ∀ m ∈ previous, m.id ≠ c.id := fun m hm hid => hfirst ⟨m, hm, hid⟩
        have hhere : arrivals previous (c :: rest) = c :: arrivals previous rest := by
          refine List.filter_cons_of_pos ?_
          simpa using hnone
        rw [hhere] at hnew ⊢
        have hfresh : c.id ∉ s.monitor.map Prod.fst := hnew c List.mem_cons_self
        have hone : (s.freshToken.2.subscribe c.id s.nextToken) = s.subscribeAll [c.id] := by
          rw [← subscribe_subscribeAll hfresh, subscribeAll_nil]
        have hlater := ih (s := s.subscribeAll [c.id]) hrest hleftIds
          (fun m hm hended => by
            show m.id ∈ (s.monitor ++ _).map Prod.fst
            rw [List.map_append]
            exact List.mem_append_left _ (hlive m (List.mem_filter.mp hm).1 hended))
          (fun other hother => by
            rw [harrivals] at hother
            have hne : other.id ≠ c.id := by
              intro heq
              rw [← heq] at hc
              exact hc (List.mem_map_of_mem (mem_arrivals.mp hother).1)
            show other.id ∉ (s.monitor ++ [(c.id, s.nextToken)]).map Prod.fst
            rw [List.map_append, List.mem_append, not_or]
            exact ⟨hnew other (List.mem_cons_of_mem _ hother), by simpa using hne⟩)
        refine (relist_cons_new hnone).trans ?_
        rw [hone, hlater, harrivals, hgone, hrows, ← hone, subscribe_subscribeAll hfresh,
          ← renew_of_new hnone]
        rfl

theorem drop_monitor (s : State) (m : Monitored) :
    (s.drop m).monitor = s.monitor.filter fun entry => entry.1 != m.id := by
  unfold drop
  split
  · next token _ =>
    obtain ⟨cancelled, hcancel⟩ := cancel_changes (s.unsubscribe m.id) token
    rw [hcancel]
    rfl
  · next hnone =>
    -- There is no entry to be taken away.
    refine (List.filter_eq_self.mpr fun entry hentry => ?_).symm
    rw [subscription?, Option.map_eq_none_iff] at hnone
    have hne := List.find?_eq_none.mp hnone entry hentry
    simpa using hne

theorem drops_monitor (s : State) (gone : List Monitored) :
    (gone.foldl drop s).monitor =
      s.monitor.filter fun entry => entry.1 ∉ gone.map Monitored.id := by
  induction gone generalizing s with
  | nil => simp
  | cons m gone ih =>
      rw [List.foldl_cons, ih, drop_monitor, List.filter_filter]
      refine List.filter_congr fun entry _ => ?_
      by_cases hid : entry.1 = m.id <;> simp [hid]

/-! ## Rows in order -/

/-- The rows of the monitor are those of different containers, of which those are read that have
not ended. There are none while another view is shown. -/
structure Tidy (s : State) : Prop where
  rows : ∀ row ∈ s.rows .monitor, ∃ m, row = Row.monitored m
  ids : (s.monitoredRows.map Monitored.id).Nodup
  read : ∀ id, id ∈ s.monitor.map Prod.fst ↔ ∃ m ∈ s.monitoredRows, m.id = id ∧ m.ended = none
  left : s.view ≠ .monitor → s.monitoredRows = []

theorem monitoredRows_eq (s : State) :
    s.monitoredRows = (s.rows .monitor).filterMap Row.monitored? :=
  rfl

theorem rows_eq_map {s : State} (h : ∀ row ∈ s.rows .monitor, ∃ m, row = Row.monitored m) :
    s.rows .monitor = s.monitoredRows.map Row.monitored := by
  rw [monitoredRows_eq]
  generalize s.rows .monitor = rows at h
  induction rows with
  | nil => rfl
  | cons row rows ih =>
      obtain ⟨⟨m, rfl⟩, hrows⟩ := List.forall_mem_cons.mp h
      rw [List.filterMap_cons_some (f := Row.monitored?) rfl, List.map_cons, ← ih hrows]

theorem monitoredRows_perm {s : State} {ms : List Monitored}
    (h : (s.rows .monitor).Perm (ms.map Row.monitored)) : s.monitoredRows.Perm ms := by
  have hrows : ∀ row ∈ s.rows .monitor, ∃ m, row = Row.monitored m := by
    intro row hrow
    obtain ⟨m, -, rfl⟩ := List.mem_map.mp (h.mem_iff.mp hrow)
    exact ⟨m, rfl⟩
  rw [rows_eq_map hrows] at h
  exact (List.map_perm_map_iff fun _ _ heq => Row.monitored.inj heq).mp h

/-- Rows are in order if they are those of containers in order, perhaps sorted. -/
theorem Tidy.of_rows {s : State} {ms : List Monitored}
    (hrows : (s.rows .monitor).Perm (ms.map Row.monitored)) (hids : (ms.map Monitored.id).Nodup)
    (hread : ∀ id, id ∈ s.monitor.map Prod.fst ↔ ∃ m ∈ ms, m.id = id ∧ m.ended = none)
    (hleft : s.view ≠ .monitor → ms = []) : s.Tidy := by
  have hperm := monitoredRows_perm hrows
  refine ⟨fun row hrow => ?_, ?_, fun id => ?_, fun hview => ?_⟩
  · obtain ⟨m, -, rfl⟩ := List.mem_map.mp (hrows.mem_iff.mp hrow)
    exact ⟨m, rfl⟩
  · exact (hperm.map _).nodup_iff.mpr hids
  · rw [hread id]
    simp only [hperm.mem_iff]
  · rw [hleft hview] at hperm
    exact hperm.eq_nil

/-- Rows that are kept, perhaps in another order, are in order still. -/
theorem Tidy.of_perm {s s' : State} (h : s.Tidy) (hrows : (s'.rows .monitor).Perm (s.rows .monitor))
    (hmonitor : s'.monitor = s.monitor) (hview : s'.view ≠ .monitor → s.view ≠ .monitor) :
    s'.Tidy := by
  rw [rows_eq_map h.rows] at hrows
  refine .of_rows hrows h.ids (fun id => ?_) fun hleft => h.left (hview hleft)
  rw [hmonitor]
  exact h.read id

theorem Tidy.of_keeps {s s' : State} (h : s.Tidy) (hkeeps : Keeps s s' .monitor)
    (hmonitor : s'.monitor = s.monitor) (hview : s'.view = s.view) : s'.Tidy :=
  h.of_perm hkeeps.arranged.perm hmonitor fun hleft => by rwa [← hview]

/-- The monitor is empty. -/
theorem Tidy.of_empty {s : State} (hrows : s.rows .monitor = []) (hmonitor : s.monitor = []) :
    s.Tidy := by
  have hperm : (s.rows .monitor).Perm (([] : List Monitored).map Row.monitored) := by
    rw [hrows]
    rfl
  refine .of_rows hperm List.nodup_nil (fun id => ?_) fun _ => rfl
  rw [hmonitor]
  simp

/-- While another view is shown nothing is read, and there are no rows. -/
theorem Tidy.empty {s : State} (h : s.Tidy) (hview : s.view ≠ .monitor) :
    s.monitor = [] ∧ s.rows .monitor = [] := by
  have hnone := h.left hview
  constructor
  · have hkeys : s.monitor.map Prod.fst = [] := by
      refine List.eq_nil_iff_forall_not_mem.mpr fun id hid => ?_
      obtain ⟨m, hm, -⟩ := (h.read id).mp hid
      rw [hnone] at hm
      cases hm
    exact List.map_eq_nil_iff.mp hkeys
  · rw [rows_eq_map h.rows, hnone]
    rfl

/-! ## One row -/

theorem changeRow_map {ms : List Monitored} (hids : (ms.map Monitored.id).Nodup) (id : String)
    (change : Monitored → Monitored) :
    changeRow id change (ms.map Row.monitored) =
      if id ∈ ms.map Monitored.id then
        some ((ms.map fun m => if m.id = id then change m else m).map Row.monitored)
      else none := by
  induction ms with
  | nil => rfl
  | cons m ms ih =>
      obtain ⟨hm, hrest⟩ := List.nodup_cons.mp hids
      rw [List.map_cons, changeRow]
      by_cases hid : m.id = id
      · -- The other rows are those of other containers.
        have hothers : (ms.map fun m => if m.id = id then change m else m) = ms := by
          refine (List.map_congr_left fun other hother => ?_).trans (List.map_id ms)
          refine if_neg fun heq => ?_
          rw [hid, ← heq] at hm
          exact hm (List.mem_map_of_mem hother)
        simp [Row.id?, hid, hothers]
      · have hne : id ≠ m.id := fun heq => hid heq.symm
        rw [if_neg (by simpa [Row.id?] using hid), ih hrest]
        by_cases hmem : id ∈ ms.map Monitored.id
        · simp [hid, hmem]
        · rw [if_neg hmem, if_neg (by simpa [hne] using hmem)]
          rfl

theorem map_id_change {change : Monitored → Monitored} (hchange : ∀ m, (change m).id = m.id)
    (ms : List Monitored) (id : String) :
    ((ms.map fun m => if m.id = id then change m else m).map Monitored.id) =
      ms.map Monitored.id := by
  rw [List.map_map]
  refine List.map_congr_left fun m _ => ?_
  simp only [Function.comp_apply]
  split
  · exact hchange m
  · rfl

/-- The row of a container is changed, and no other one. -/
theorem updateMonitored_rows {s : State} (hrows : ∀ row ∈ s.rows .monitor, ∃ m, row = .monitored m)
    (hids : (s.monitoredRows.map Monitored.id).Nodup) (id : String)
    (change : Monitored → Monitored) :
    ((s.updateMonitored id change).rows .monitor).Perm
      ((s.monitoredRows.map fun m => if m.id = id then change m else m).map Row.monitored) := by
  have hbefore : (s.tables.get .monitor).rows = s.monitoredRows.map Row.monitored :=
    rows_eq_map hrows
  unfold updateMonitored
  rw [hbefore, changeRow_map hids]
  by_cases hmem : id ∈ s.monitoredRows.map Monitored.id
  · rw [if_pos hmem]
    exact (setRows_arranges s .monitor _).perm
  · rw [if_neg hmem]
    have hsame : (s.monitoredRows.map fun m => if m.id = id then change m else m) =
        s.monitoredRows := by
      refine (List.map_congr_left fun m hm => if_neg fun heq => ?_).trans (List.map_id _)
      rw [← heq] at hmem
      exact hmem (List.mem_map_of_mem hm)
    rw [hsame, ← rows_eq_map hrows]

theorem onSample_tidy {s : State} (h : s.Tidy) (id : String) (sample : Sample)
    (rest : Feed Sample) : (s.onSample (.monitor id) sample rest).1.Tidy := by
  simp only [onSample]
  split
  · exact h
  · let change (m : Monitored) : Monitored := { m with sample := some sample }
    obtain ⟨tables, hupdate⟩ := updateMonitored_changes s id change
    have hrows := updateMonitored_rows h.rows h.ids id change
    have hids : ((s.monitoredRows.map fun m => if m.id = id then change m else m).map
        Monitored.id).Nodup := by
      rw [map_id_change (show ∀ m, (change m).id = m.id from fun _ => rfl)]
      exact h.ids
    show (s.updateMonitored id change).Tidy
    refine .of_rows hrows hids (fun other => ?_) fun hview => ?_
    · rw [hupdate]
      refine (h.read other).trans ?_
      simp only [List.mem_map]
      constructor
      · rintro ⟨m, hm, hid, hended⟩
        refine ⟨_, ⟨m, hm, rfl⟩, ?_⟩
        split
        · exact ⟨hid, hended⟩
        · exact ⟨hid, hended⟩
      · rintro ⟨_, ⟨m, hm, rfl⟩, hsame⟩
        refine ⟨m, hm, ?_⟩
        split at hsame
        · exact hsame
        · exact hsame
    · rw [hupdate] at hview
      rw [h.left hview]
      rfl

theorem onStatsEnded_tidy {s : State} (h : s.Tidy) (id : String) (error : Option String) :
    (s.onStatsEnded (.monitor id) error).1.Tidy := by
  simp only [onStatsEnded]
  split
  · exact h
  · let change (m : Monitored) : Monitored := { m with ended := some (error.getD "ended") }
    let s' : State := s.unsubscribe id
    obtain ⟨tables, hupdate⟩ := updateMonitored_changes s' id change
    have hrows := updateMonitored_rows (s := s') h.rows h.ids id change
    have hids : ((s.monitoredRows.map fun m => if m.id = id then change m else m).map
        Monitored.id).Nodup := by
      rw [map_id_change (show ∀ m, (change m).id = m.id from fun _ => rfl)]
      exact h.ids
    have hkeys (other : String) :
        other ∈ s'.monitor.map Prod.fst ↔ other ≠ id ∧ other ∈ s.monitor.map Prod.fst := by
      rw [mem_monitor_keys, mem_monitor_keys, subscription?_unsubscribe]
      by_cases heq : id = other
      · simp [heq]
      · have hne : other ≠ id := fun h => heq h.symm
        simp [heq, hne]
    show (s'.updateMonitored id change).Tidy
    refine .of_rows hrows hids (fun other => ?_) fun hview => ?_
    · rw [hupdate]
      refine (hkeys other).trans ?_
      rw [h.read other]
      show _ ↔ ∃ m ∈ s.monitoredRows.map _, _
      simp only [List.mem_map]
      constructor
      · rintro ⟨hne, m, hm, hid, hended⟩
        refine ⟨m, ⟨m, hm, if_neg ?_⟩, hid, hended⟩
        rw [hid]
        exact hne
      · rintro ⟨_, ⟨m, hm, rfl⟩, hid, hended⟩
        by_cases heq : m.id = id
        · rw [if_pos heq] at hended
          cases hended
        · rw [if_neg heq] at hid hended
          rw [hid] at heq
          exact ⟨heq, m, hm, hid, hended⟩
    · rw [hupdate] at hview
      show s.monitoredRows.map _ = []
      rw [h.left hview]
      rfl

/-! ## Taking a list over -/

/-- The reads that begin when the running containers are listed: one of each container that has no
row, under the next tokens. -/
def opened (s : State) (running : List Container) : List (String × Token) :=
  ((arrivals s.monitoredRows running).map Container.id).zipIdx s.nextToken

/-- A step takes the running containers over. -/
structure TakesOver (s : State) (running : List Container) (r : Step) : Prop where
  /-- Every container has one row, and a row of before keeps its sample and its end. -/
  rows : Arranges (s.sorted.get .monitor) (r.1.rows .monitor)
    (running.map fun c => .monitored (renew s.monitoredRows c))
  /-- Reads begin for the containers that had no row. -/
  begun : ∃ more, r.2 = (s.opened running).map openRead ++ more ∧ ∀ cmd ∈ more, cmd = .listMonitor
  fresh : ∀ entry ∈ s.opened running, s.nextToken ≤ entry.2 ∧ entry.2 < r.1.nextToken
  /-- Reads of containers that run no more are given up, and all others go on. -/
  reads : r.1.monitor = (s.monitor.filter fun entry => entry.1 ∈ running.map Container.id) ++
    s.opened running
  cancelled : ∀ token, token ∈ r.1.cancelled ↔
    token ∈ s.cancelled ∨ ∃ id, (id, token) ∈ s.monitor ∧ id ∉ running.map Container.id

theorem relisted_takesOver {s : State} (h : s.Tidy) (hs : s.Sound) {containers : List Container}
    (hnodup : ((containers.filter Container.isRunning).map Container.id).Nodup) :
    TakesOver s (containers.filter Container.isRunning) (s.relisted containers) := by
  let running : List Container := containers.filter Container.isRunning
  let ids : List String := (arrivals s.monitoredRows running).map Container.id
  let gone : List Monitored := s.monitoredRows.filter fun m => m.id ∉ running.map Container.id
  have hlisted := relist_eq (s := s) hnodup h.ids
    (fun m hm hended => (h.read m.id).mpr ⟨m, hm, rfl, hended⟩) (fun c hc hkey => by
      obtain ⟨m, hm, hid, -⟩ := (h.read c.id).mp hkey
      exact (mem_arrivals.mp hc).2 m hm hid)
  have hrelisted : s.relisted containers =
      ((gone.foldl drop (s.subscribeAll ids)).setRows .monitor
        (running.map fun c => .monitored (renew s.monitoredRows c)),
        (s.opened running).map openRead) := by
    unfold relisted
    rw [hlisted]
    rfl
  obtain ⟨monitor, cancelled, hdrops⟩ := drops_changes gone (s.subscribeAll ids)
  refine ⟨?_, ⟨[], ?_, fun cmd hcmd => by cases hcmd⟩, fun entry hentry => ?_, ?_, fun token => ?_⟩
  · rw [hrelisted, hdrops]
    exact setRows_arranges _ .monitor _
  · rw [hrelisted, List.append_nil]
  · have hnext : (s.relisted containers).1.nextToken = s.nextToken + ids.length := by
      rw [hrelisted, hdrops]
      rfl
    rw [hnext]
    exact ⟨List.le_snd_of_mem_zipIdx hentry, List.snd_lt_add_of_mem_zipIdx hentry⟩
  · have hmonitor : (s.relisted containers).1.monitor =
        (s.monitor ++ s.opened running).filter fun entry => entry.1 ∉ gone.map Monitored.id := by
      rw [hrelisted]
      exact drops_monitor (s.subscribeAll ids) gone
    rw [hmonitor, List.filter_append]
    congr 1
    · -- What is read has a row, so it is gone if it is not listed.
      refine List.filter_congr fun entry hentry => ?_
      obtain ⟨m, hm, hid, -⟩ := (h.read entry.1).mp (List.mem_map_of_mem hentry)
      refine decide_eq_decide.mpr ⟨fun hnot => ?_, fun hrunning hmem => ?_⟩
      · by_contra hgone
        refine hnot (List.mem_map.mpr ⟨m, List.mem_filter.mpr ⟨hm, ?_⟩, hid⟩)
        rw [hid]
        exact decide_eq_true hgone
      · obtain ⟨other, hother, heq⟩ := List.mem_map.mp hmem
        have hgone := (List.mem_filter.mp hother).2
        rw [heq] at hgone
        exact (of_decide_eq_true hgone) hrunning
    · -- What begins to be read is listed.
      refine List.filter_eq_self.mpr fun entry hentry => decide_eq_true fun hmem => ?_
      obtain ⟨other, hother, heq⟩ := List.mem_map.mp hmem
      have hgone := (List.mem_filter.mp hother).2
      have hid : entry.1 ∈ ids := List.fst_mem_of_mem_zipIdx hentry
      obtain ⟨c, hc, hcid⟩ := List.mem_map.mp hid
      rw [heq, ← hcid] at hgone
      exact (of_decide_eq_true hgone) (List.mem_map_of_mem (mem_arrivals.mp hc).1)
  · rw [mem_cancelled_relisted]
    refine or_congr Iff.rfl ⟨?_, ?_⟩
    · rintro ⟨m, -, hsub, hgone⟩
      exact ⟨m.id, mem_of_subscription? hsub, hgone⟩
    · rintro ⟨id, hmem, hgone⟩
      obtain ⟨m, hm, rfl, -⟩ := (h.read id).mp (List.mem_map_of_mem hmem)
      exact ⟨m, hm, subscription?_of_mem hs.ids hmem, hgone⟩

/-- What follows a list changes nothing about rows and reads. -/
theorem TakesOver.then {s s' : State} {running : List Container} {r : Step} {more : List Cmd}
    (h : TakesOver s running r) (htables : s'.tables = r.1.tables)
    (hmonitor : s'.monitor = r.1.monitor) (hnext : s'.nextToken = r.1.nextToken)
    (hcancelled : s'.cancelled = r.1.cancelled) (hmore : ∀ cmd ∈ more, cmd = .listMonitor) :
    TakesOver s running (s', r.2 ++ more) := by
  have hrows : s'.rows .monitor = r.1.rows .monitor := by
    unfold State.rows
    rw [htables]
  obtain ⟨first, hbegun, hfirst⟩ := h.begun
  refine ⟨?_, ⟨first ++ more, ?_, List.forall_mem_append.mpr ⟨hfirst, hmore⟩⟩, ?_, ?_, ?_⟩
  · rw [hrows]
    exact h.rows
  · rw [hbegun, List.append_assoc]
  · rw [hnext]
    exact h.fresh
  · rw [hmonitor]
    exact h.reads
  · rw [hcancelled]
    exact h.cancelled

/-- **Lists.** While the monitor is shown, a list is taken over. -/
theorem onMonitorListed_takesOver {s : State} (h : s.Tidy) (hs : s.Sound)
    (hview : s.view = .monitor) {containers : List Container}
    (honce : (Msg.monitorListed containers).NamesOnce) :
    TakesOver s (containers.filter Container.isRunning) (s.onMonitorListed containers) := by
  let s' : State := { s with loading := s.loading.set .monitor false }
  have htidy : s'.Tidy := ⟨h.rows, h.ids, h.read, h.left⟩
  have hlisted := relisted_takesOver htidy (hs.of_eq rfl rfl rfl rfl) (honce containers rfl)
  have hbefore : TakesOver s (containers.filter Container.isRunning) (s'.relisted containers) :=
    ⟨hlisted.rows, hlisted.begun, hlisted.fresh, hlisted.reads, hlisted.cancelled⟩
  rcases onMonitorListed_cases containers hview with heq | ⟨stale, heq⟩
  · rw [heq]
    exact hbefore
  · obtain ⟨loading', stale', hload⟩ :=
      requestLoad_changes { (s'.relisted containers).1 with stale } .monitor
    rw [heq]
    exact hbefore.then (by rw [hload]) (by rw [hload]) (by rw [hload]) (by rw [hload])
      fun cmd hcmd => mem_requestLoad hcmd

/-- After a list has been taken over, rows are in order. -/
theorem TakesOver.tidy {s : State} {running : List Container} {r : Step}
    (hr : TakesOver s running r) (h : s.Tidy) (hnodup : (running.map Container.id).Nodup)
    (hview : r.1.view = .monitor) : r.1.Tidy := by
  have hrows : (r.1.rows .monitor).Perm
      ((running.map (renew s.monitoredRows)).map Row.monitored) := by
    rw [List.map_map]
    exact hr.rows.perm
  have hids : ((running.map (renew s.monitoredRows)).map Monitored.id) =
      running.map Container.id := by
    rw [List.map_map]
    exact List.map_congr_left fun c _ => renew_id s.monitoredRows c
  refine .of_rows hrows (by rw [hids]; exact hnodup) (fun id => ?_) fun hleft => absurd hview hleft
  have hkeys : id ∈ r.1.monitor.map Prod.fst ↔
      (id ∈ s.monitor.map Prod.fst ∧ id ∈ running.map Container.id) ∨
        id ∈ (arrivals s.monitoredRows running).map Container.id := by
    rw [hr.reads, List.map_append, List.mem_append, opened, List.zipIdx_map_fst]
    refine or_congr ⟨fun hmem => ?_, fun ⟨hmem, hrunning⟩ => ?_⟩ Iff.rfl
    · obtain ⟨entry, hentry, rfl⟩ := List.mem_map.mp hmem
      obtain ⟨hold, hrunning⟩ := List.mem_filter.mp hentry
      exact ⟨List.mem_map_of_mem hold, of_decide_eq_true hrunning⟩
    · obtain ⟨entry, hentry, rfl⟩ := List.mem_map.mp hmem
      exact List.mem_map_of_mem (List.mem_filter.mpr ⟨hentry, decide_eq_true hrunning⟩)
  rw [hkeys]
  constructor
  · rintro (⟨hkey, hrunning⟩ | hnew)
    · obtain ⟨m, hm, hid, hended⟩ := (h.read id).mp hkey
      obtain ⟨c, hc, rfl⟩ := List.mem_map.mp hrunning
      refine ⟨_, List.mem_map_of_mem hc, renew_id _ c, ?_⟩
      rw [renew_of_mem h.ids hm hid]
      exact hended
    · obtain ⟨c, hc, rfl⟩ := List.mem_map.mp hnew
      obtain ⟨hrunning, hnone⟩ := mem_arrivals.mp hc
      refine ⟨_, List.mem_map_of_mem hrunning, renew_id _ c, ?_⟩
      rw [renew_of_new hnone]
  · rintro ⟨m', hm', hid, hended⟩
    obtain ⟨c, hc, rfl⟩ := List.mem_map.mp hm'
    rw [renew_id] at hid
    subst hid
    by_cases hold : ∃ m ∈ s.monitoredRows, m.id = c.id
    · obtain ⟨m, hm, hid⟩ := hold
      rw [renew_of_mem h.ids hm hid] at hended
      exact Or.inl ⟨(h.read c.id).mpr ⟨m, hm, hid, hended⟩, List.mem_map_of_mem hc⟩
    · refine Or.inr (List.mem_map_of_mem (mem_arrivals.mpr ⟨hc, fun m hm hid => ?_⟩))
      exact hold ⟨m, hm, hid⟩

end State

end Dockboard
