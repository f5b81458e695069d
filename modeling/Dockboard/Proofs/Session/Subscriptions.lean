import Dockboard.Proofs.Session.Changes
import Dockboard.Proofs.Table
import Mathlib.Data.List.Nodup

set_option autoImplicit false

/-! # Subscriptions of the monitor

The monitor reads the samples of every running container under a token of its own. When the
containers are listed, reads of new ones begin, and reads of those that are gone are cancelled.

    Sound s            the tokens of the monitor are given out, uncancelled and all different
    Rowed s            every container that is read has a row
    Serves held r      one read of each container is in flight after `r`, if those of `held` were
-/

namespace Dockboard

open Dockboard.Stream

/-- The token under which a command reads the samples of a container for the monitor. -/
def Cmd.monitorRead? (id : String) : Cmd → Option Token
  | .openStats (.monitor other) _ token => if other = id then some token else none
  | .readStats (.monitor other) _ token => if other = id then some token else none
  | _ => none

theorem Cmd.of_monitorRead? {id : String} {cmd : Cmd} {token : Token}
    (h : cmd.monitorRead? id = some token) :
    (∃ other, cmd = .openStats (.monitor id) other token) ∨
      ∃ feed, cmd = .readStats (.monitor id) feed token := by
  unfold monitorRead? at h
  split at h
  · next other name found =>
    split at h
    · next heq =>
      cases h
      exact Or.inl ⟨name, by rw [heq]⟩
    · cases h
  · next other feed found =>
    split at h
    · next heq =>
      cases h
      exact Or.inr ⟨feed, by rw [heq]⟩
    · cases h
  · cases h

/-- A command that neither reads samples for the monitor nor loads its rows as those of a list. -/
def Cmd.Plain (cmd : Cmd) : Prop :=
  (∀ id, cmd.monitorRead? id = none) ∧ ∀ all scope, cmd ≠ .load .monitor all scope

/-- The tokens under which commands read the samples of a container for the monitor. -/
def readsOf (id : String) (cmds : List Cmd) : List Token := cmds.filterMap (Cmd.monitorRead? id)

theorem readsOf_append (id : String) (cmds more : List Cmd) :
    readsOf id (cmds ++ more) = readsOf id cmds ++ readsOf id more :=
  List.filterMap_append

theorem readsOf_openStats_cons (id other : String) (token : Token) (cmds : List Cmd) :
    readsOf id (.openStats (.monitor other) other token :: cmds) =
      if other = id then token :: readsOf id cmds else readsOf id cmds := by
  have hopen : (Cmd.openStats (.monitor other) other token).monitorRead? id =
      if other = id then some token else none := rfl
  unfold readsOf
  split
  · next h =>
    rw [if_pos h] at hopen
    rw [List.filterMap_cons_some hopen]
  · next h =>
    rw [if_neg h] at hopen
    rw [List.filterMap_cons_none hopen]

theorem readsOf_plain {cmds : List Cmd} (h : ∀ cmd ∈ cmds, cmd.Plain) (id : String) :
    readsOf id cmds = [] :=
  List.filterMap_eq_nil_iff.mpr fun cmd hcmd => (h cmd hcmd).1 id

/-! ## Rows -/

namespace State

/-- The monitor has a row for a container. -/
def Shows (s : State) (id : String) : Prop := ∃ m ∈ s.monitoredRows, m.id = id

theorem mem_monitoredRows {s : State} {m : Monitored} :
    m ∈ s.monitoredRows ↔ Row.monitored m ∈ (s.tables.get .monitor).rows := by
  unfold monitoredRows
  rw [List.mem_filterMap]
  constructor
  · rintro ⟨row, hrow, heq⟩
    cases row <;> cases heq
    exact hrow
  · intro hrow
    exact ⟨.monitored m, hrow, rfl⟩

/-- Rows that are kept, perhaps in another place, are still shown. -/
theorem Shows.of_rows {s s' : State} {id : String} (h : s.Shows id)
    (hrows : ∀ row ∈ (s.tables.get .monitor).rows, row ∈ (s'.tables.get .monitor).rows) :
    s'.Shows id := by
  obtain ⟨m, hm, hid⟩ := h
  exact ⟨m, mem_monitoredRows.mpr (hrows _ (mem_monitoredRows.mp hm)), hid⟩

theorem Shows.modifyTable {s : State} {id : String} (h : s.Shows id) {view : View}
    {f : Table Row → Table Row} (hf : view = .monitor → ∀ t, ∀ row ∈ t.rows, row ∈ (f t).rows) :
    (s.modifyTable view f).Shows id := by
  refine h.of_rows fun row hrow => ?_
  show row ∈ ((s.tables.modify view f).get .monitor).rows
  rw [ByView.get_modify]
  split
  · next hview =>
    rw [hview]
    exact hf hview _ row hrow
  · exact hrow

theorem setRows_rows_perm (s : State) (view : View) (rows : List Row) :
    ((s.setRows view rows).tables.get view).rows.Perm rows := by
  show ((s.tables.modify view _).get view).rows.Perm rows
  rw [ByView.get_modify, if_pos rfl]
  simp only
  split
  · exact (Table.sortByField_rows_perm _ _).trans (by rw [Table.replaceRows_rows])
  · rw [Table.replaceRows_rows]

/-- Changing a row of the monitor keeps it the row of its container. -/
theorem changeRow_shows {id : String} {change : Monitored → Monitored} {rows rows' : List Row}
    (hchange : ∀ m, (change m).id = m.id) (h : changeRow id change rows = some rows')
    {m : Monitored} (hm : Row.monitored m ∈ rows) :
    ∃ m', Row.monitored m' ∈ rows' ∧ m'.id = m.id := by
  induction rows generalizing rows' with
  | nil => cases hm
  | cons row rest ih =>
      unfold changeRow at h
      split at h
      · split at h
        · cases h
          rcases List.mem_cons.mp hm with heq | hrest
          · cases heq
            exact ⟨_, List.mem_cons_self, hchange m⟩
          · exact ⟨m, List.mem_cons_of_mem _ hrest, rfl⟩
        · cases h
      · obtain ⟨rest', hrest', rfl⟩ := Option.map_eq_some_iff.mp h
        rcases List.mem_cons.mp hm with heq | hrest
        · exact ⟨m, by rw [heq]; exact List.mem_cons_self, rfl⟩
        · obtain ⟨m', hm', hid⟩ := ih hrest' hrest
          exact ⟨m', List.mem_cons_of_mem _ hm', hid⟩

theorem Shows.updateMonitored {s : State} {id other : String} (h : s.Shows other)
    {change : Monitored → Monitored} (hchange : ∀ m, (change m).id = m.id) :
    (s.updateMonitored id change).Shows other := by
  unfold State.updateMonitored
  split
  · next rows hrows =>
    obtain ⟨m, hm, hid⟩ := h
    obtain ⟨m', hm', hid'⟩ := changeRow_shows hchange hrows (mem_monitoredRows.mp hm)
    refine ⟨m', mem_monitoredRows.mpr ?_, hid'.trans hid⟩
    exact (setRows_rows_perm s .monitor rows).mem_iff.mpr hm'
  · exact h

/-! ## Subscriptions -/

theorem mem_of_subscription? {s : State} {id : String} {token : Token}
    (h : s.subscription? id = some token) : (id, token) ∈ s.monitor := by
  obtain ⟨entry, hfind, heq⟩ := Option.map_eq_some_iff.mp h
  have hid : entry.1 = id := by simpa using List.find?_some hfind
  have hmem := List.mem_of_find?_eq_some hfind
  rw [← hid, ← heq]
  exact hmem

theorem subscription?_of_mem {s : State} {id : String} {token : Token}
    (hids : (s.monitor.map Prod.fst).Nodup) (h : (id, token) ∈ s.monitor) :
    s.subscription? id = some token := by
  unfold subscription?
  cases hfind : s.monitor.find? fun entry => entry.1 == id with
  | none =>
      have hne := List.find?_eq_none.mp hfind _ h
      simp at hne
  | some entry =>
      have hid : entry.1 = id := by simpa using List.find?_some hfind
      rw [List.inj_on_of_nodup_map hids (List.mem_of_find?_eq_some hfind) h hid]
      rfl

theorem subscription?_unsubscribe (s : State) (id other : String) :
    (s.unsubscribe id).subscription? other =
      if id = other then none else s.subscription? other := by
  unfold subscription? unsubscribe
  split
  · next h =>
    rw [Option.map_eq_none_iff, List.find?_eq_none]
    intro entry hentry
    have hne := (List.mem_filter.mp hentry).2
    rw [← h]
    simpa using hne
  · next h =>
    rw [List.find?_filter]
    congr 2
    funext entry
    by_cases hentry : entry.1 = other
    · have hne : other ≠ id := fun heq => h heq.symm
      simp [hentry, hne]
    · simp [hentry]

theorem subscription?_subscribe (s : State) (id other : String) (token : Token) :
    (s.subscribe id token).subscription? other =
      if id = other then some token else s.subscription? other := by
  have hbefore := subscription?_unsubscribe s id other
  unfold subscription? unsubscribe at hbefore
  unfold subscription? subscribe
  rw [List.find?_append]
  split
  · next h =>
    rw [if_pos h, Option.map_eq_none_iff] at hbefore
    rw [hbefore]
    simp [h]
  · next h =>
    rw [if_neg h] at hbefore
    have hlast : [(id, token)].find? (fun entry => entry.1 == other) = none := by simp [h]
    rw [hlast, Option.or_none]
    exact hbefore

/-- The token of the pager on the screen. -/
def shownToken? (s : State) : Option Token :=
  match s.layer with
  | some (.pager layer) => layer.token
  | _ => none

/-- Each container the monitor reads has a token of its own, which has been given out, is not
cancelled and is not that of a pager. -/
structure Sound (s : State) : Prop where
  ids : (s.monitor.map Prod.fst).Nodup
  tokens : (s.monitor.map Prod.snd).Nodup
  given : ∀ token ∈ s.monitor.map Prod.snd, token < s.nextToken
  cancelled_given : ∀ token ∈ s.cancelled, token < s.nextToken
  live : ∀ token ∈ s.monitor.map Prod.snd, token ∉ s.cancelled
  apart : ∀ token, s.shownToken? = some token →
    token < s.nextToken ∧ token ∉ s.monitor.map Prod.snd

/-- Every container the monitor reads has a row. -/
def Rowed (s : State) : Prop := ∀ id token, s.subscription? id = some token → s.Shows id

theorem Sound.token_mem {s : State} {id : String} {token : Token}
    (h : s.subscription? id = some token) : token ∈ s.monitor.map Prod.snd :=
  List.mem_map.mpr ⟨_, mem_of_subscription? h, rfl⟩

theorem Sound.not_cancelled {s : State} (hs : s.Sound) {id : String} {token : Token}
    (h : s.subscription? id = some token) : token ∉ s.cancelled :=
  hs.live token (Sound.token_mem h)

/-- A token belongs to one container only. -/
theorem Sound.id_eq {s : State} (hs : s.Sound) {id other : String} {token : Token}
    (h : s.subscription? id = some token) (h' : s.subscription? other = some token) :
    id = other := by
  have heq := List.inj_on_of_nodup_map hs.tokens (mem_of_subscription? h)
    (mem_of_subscription? h') rfl
  exact congrArg Prod.fst heq

/-! ## Lists of containers -/

/-- The reads in flight after a step, if there were those of `held` and the step issues `r.2`: one
for each container that is read, under its token. -/
def Serves (held : String → List Token) (r : Step) : Prop :=
  ∀ id, (r.1.subscription? id).toList =
    (held id ++ readsOf id r.2).filter fun token => !r.1.cancelled.contains token

theorem mem_cancelled_cancel {s : State} {token other : Token} :
    other ∈ (s.cancel token).cancelled ↔ other = token ∨ other ∈ s.cancelled := by
  unfold cancel
  split
  · next h =>
    have hmem : token ∈ s.cancelled := by simpa using h
    refine ⟨Or.inr, fun hor => ?_⟩
    rcases hor with rfl | hold
    · exact hmem
    · exact hold
  · exact List.mem_cons

theorem subscribe_sound {s : State} (hs : s.Sound) (id : String) :
    ((s.freshToken.2).subscribe id s.freshToken.1).Sound := by
  have hsub : (s.monitor.filter fun entry => entry.1 != id).Sublist s.monitor :=
    List.filter_sublist
  -- The new token has not been given out, so nothing else has it and it is not cancelled.
  have hfresh : s.nextToken ∉ s.monitor.map Prod.snd :=
    fun hmem => Nat.lt_irrefl _ (hs.given _ hmem)
  have hcases {token : Token}
      (h : token ∈ ((s.freshToken.2).subscribe id s.freshToken.1).monitor.map Prod.snd) :
      token ∈ s.monitor.map Prod.snd ∨ token = s.nextToken := by
    rw [show ((s.freshToken.2).subscribe id s.freshToken.1).monitor =
      (s.monitor.filter fun entry => entry.1 != id) ++ [(id, s.nextToken)] from rfl,
      List.map_append, List.mem_append] at h
    rcases h with hold | hnew
    · exact Or.inl ((hsub.map Prod.snd).subset hold)
    · exact Or.inr (List.mem_singleton.mp hnew)
  refine ⟨?_, ?_, ?_, ?_, ?_, ?_⟩
  · show (((s.monitor.filter fun entry => entry.1 != id) ++ [(id, s.nextToken)]).map Prod.fst).Nodup
    rw [List.map_append, List.nodup_append]
    refine ⟨hs.ids.sublist (hsub.map Prod.fst), List.nodup_singleton _, ?_⟩
    intro other hold new hnew
    obtain ⟨entry, hentry, rfl⟩ := List.mem_map.mp hold
    rw [List.mem_singleton.mp hnew]
    simpa using (List.mem_filter.mp hentry).2
  · show (((s.monitor.filter fun entry => entry.1 != id) ++ [(id, s.nextToken)]).map Prod.snd).Nodup
    rw [List.map_append, List.nodup_append]
    refine ⟨hs.tokens.sublist (hsub.map Prod.snd), List.nodup_singleton _, ?_⟩
    intro other hold new hnew
    rw [List.mem_singleton.mp hnew]
    rintro rfl
    exact hfresh ((hsub.map Prod.snd).subset hold)
  · intro token htoken
    rcases hcases htoken with hold | rfl
    · exact Nat.lt_succ_of_lt (hs.given token hold)
    · exact Nat.lt_succ_self _
  · exact fun token htoken => Nat.lt_succ_of_lt (hs.cancelled_given token htoken)
  · intro token htoken hcancelled
    rcases hcases htoken with hold | rfl
    · exact hs.live token hold hcancelled
    · exact Nat.lt_irrefl _ (hs.cancelled_given _ hcancelled)
  · intro token htoken
    obtain ⟨hlt, hnot⟩ := hs.apart token htoken
    refine ⟨Nat.lt_succ_of_lt hlt, fun hmem => ?_⟩
    rcases hcases hmem with hold | rfl
    · exact hnot hold
    · exact Nat.lt_irrefl _ hlt

theorem unsubscribe_sound {s : State} (hs : s.Sound) (id : String) : (s.unsubscribe id).Sound := by
  have hsub : (s.unsubscribe id).monitor.Sublist s.monitor := List.filter_sublist
  have hmem {token : Token} (h : token ∈ (s.unsubscribe id).monitor.map Prod.snd) :
      token ∈ s.monitor.map Prod.snd :=
    (hsub.map Prod.snd).subset h
  refine ⟨hs.ids.sublist (hsub.map Prod.fst), hs.tokens.sublist (hsub.map Prod.snd),
    fun token htoken => hs.given token (hmem htoken), hs.cancelled_given,
    fun token htoken => hs.live token (hmem htoken), fun token htoken => ?_⟩
  obtain ⟨hlt, hnot⟩ := hs.apart token htoken
  exact ⟨hlt, fun h => hnot (hmem h)⟩

theorem relist_sound {s : State} (hs : s.Sound) (previous : List Monitored)
    (containers : List Container) : (s.relist previous containers).1.Sound := by
  induction containers generalizing s previous with
  | nil => exact hs
  | cons c rest ih =>
      unfold relist
      simp only
      split
      · exact ih hs _
      · exact ih (subscribe_sound hs c.id) _

/-- The rows left over are those of containers that are not listed. -/
theorem mem_relist_left {s : State} {previous : List Monitored} {containers : List Container}
    {m : Monitored} (hm : m ∈ previous) (hgone : m.id ∉ containers.map Container.id) :
    m ∈ (s.relist previous containers).2.1 := by
  induction containers generalizing s previous with
  | nil => exact hm
  | cons c rest ih =>
      rw [List.map_cons, List.mem_cons, not_or] at hgone
      have hkept : m ∈ previous.filter fun m => m.id != c.id :=
        List.mem_filter.mpr ⟨hm, by simpa using hgone.1⟩
      unfold relist
      simp only
      split
      · exact ih hkept hgone.2
      · exact ih hkept hgone.2

/-- The rows left over are those of before of which the container is not listed. -/
theorem mem_relist_left_iff {s : State} {previous : List Monitored} {containers : List Container}
    {m : Monitored} :
    m ∈ (s.relist previous containers).2.1 ↔
      m ∈ previous ∧ m.id ∉ containers.map Container.id := by
  refine ⟨fun h => ?_, fun ⟨hm, hgone⟩ => mem_relist_left hm hgone⟩
  induction containers generalizing s previous with
  | nil => exact ⟨h, List.not_mem_nil⟩
  | cons c rest ih =>
      have hleft : m ∈ (previous.filter fun m => m.id != c.id) ∧ m.id ∉ rest.map Container.id := by
        unfold relist at h
        simp only at h
        split at h
        · exact ih h
        · exact ih h
      obtain ⟨hm, hne⟩ := List.mem_filter.mp hleft.1
      rw [List.map_cons, List.mem_cons, not_or]
      exact ⟨hm, by simpa using hne, hleft.2⟩

/-- Every listed container has a row. -/
theorem mem_relist_rows {s : State} {previous : List Monitored} {containers : List Container}
    {c : Container} (hc : c ∈ containers) :
    ∃ m, Row.monitored m ∈ (s.relist previous containers).2.2.1 ∧ m.id = c.id := by
  induction containers generalizing s previous with
  | nil => cases hc
  | cons first rest ih =>
      unfold relist
      simp only
      split
      · next m hkept =>
        rcases List.mem_cons.mp hc with rfl | hrest
        · refine ⟨_, List.mem_cons_self, ?_⟩
          obtain ⟨hfind, -⟩ := Option.filter_eq_some_iff.mp hkept
          simpa using List.find?_some hfind
        · obtain ⟨m', hm', hid⟩ := ih hrest
          exact ⟨m', List.mem_cons_of_mem _ hm', hid⟩
      · rcases List.mem_cons.mp hc with rfl | hrest
        · exact ⟨_, List.mem_cons_self, rfl⟩
        · obtain ⟨m', hm', hid⟩ := ih hrest
          exact ⟨m', List.mem_cons_of_mem _ hm', hid⟩

/-- A list changes nothing about containers that are not on it. -/
theorem relist_subscription? {s : State} {previous : List Monitored}
    {containers : List Container} {id : String}
    (hid : id ∉ containers.map Container.id) :
    (s.relist previous containers).1.subscription? id = s.subscription? id := by
  induction containers generalizing s previous with
  | nil => rfl
  | cons c rest ih =>
      rw [List.map_cons, List.mem_cons, not_or] at hid
      unfold relist
      simp only
      split
      · exact ih hid.2
      · rw [ih hid.2, subscription?_subscribe, if_neg fun heq => hid.1 heq.symm]
        rfl

/-- When every container stands on the list once, a read begins for those and only those that had
none. -/
theorem relist_reads {s : State} {previous : List Monitored} {containers : List Container}
    (hnodup : (containers.map Container.id).Nodup)
    (hrows : ∀ id token, s.subscription? id = some token → id ∈ containers.map Container.id →
      ∃ m ∈ previous, m.id = id) (id : String) :
    ((s.relist previous containers).1.subscription? id).toList =
      (s.subscription? id).toList ++ readsOf id (s.relist previous containers).2.2.2 := by
  induction containers generalizing s previous with
  | nil => simp [relist, readsOf]
  | cons c rest ih =>
      obtain ⟨hc, hrest⟩ := List.nodup_cons.mp hnodup
      -- Rows of the other containers are still to be found when that of the first is taken away.
      have hlater {m : Monitored} (hm : m ∈ previous) (hmem : m.id ∈ rest.map Container.id) :
          m ∈ previous.filter fun m => m.id != c.id := by
        refine List.mem_filter.mpr ⟨hm, ?_⟩
        have hne : m.id ≠ c.id := by
          intro heq
          rw [heq] at hmem
          exact hc hmem
        simpa using hne
      unfold relist
      simp only
      split
      · refine ih hrest fun other token hother hmem => ?_
        obtain ⟨m, hm, rfl⟩ := hrows other token hother (List.mem_cons_of_mem _ hmem)
        exact ⟨m, hlater hm hmem, rfl⟩
      · next hkept =>
        -- A container that is read has a row, which would have been kept.
        have hnone : s.subscription? c.id = none := by
          cases hsub : s.subscription? c.id with
          | none => rfl
          | some token =>
              obtain ⟨m, hm, hid⟩ := hrows c.id token hsub List.mem_cons_self
              rw [hsub, Option.filter_eq_none_iff] at hkept
              cases hfind : previous.reverse.find? fun m => m.id == c.id with
              | none =>
                  have hne := List.find?_eq_none.mp hfind m (List.mem_reverse.mpr hm)
                  simp [hid] at hne
              | some found =>
                  have hnot := hkept found hfind
                  simp at hnot
        have hrows' : ∀ other token,
            ((s.freshToken.2).subscribe c.id s.freshToken.1).subscription? other = some token →
            other ∈ rest.map Container.id →
            ∃ m ∈ previous.filter fun m => m.id != c.id, m.id = other := by
          intro other token hother hmem
          have hne : c.id ≠ other := by
            rintro rfl
            exact hc hmem
          rw [subscription?_subscribe, if_neg hne] at hother
          obtain ⟨m, hm, rfl⟩ := hrows other token hother (List.mem_cons_of_mem _ hmem)
          exact ⟨m, hlater hm hmem, rfl⟩
        -- The read that begins is the only one of the first container, and the first of all.
        have hreads := ih hrest hrows'
        show _ = _ ++ readsOf id (.openStats (.monitor c.id) c.id s.freshToken.1 :: _)
        rw [hreads, subscription?_subscribe, readsOf_openStats_cons]
        by_cases hid : c.id = id
        · rw [if_pos hid, if_pos hid, ← hid, hnone]
          rfl
        · rw [if_neg hid, if_neg hid]
          rfl

theorem drop_subscription? (s : State) (m : Monitored) (id : String) :
    (s.drop m).subscription? id = if m.id = id then none else s.subscription? id := by
  unfold drop
  split
  · next token htoken =>
    obtain ⟨cancelled, hcancel⟩ := cancel_changes (s.unsubscribe m.id) token
    rw [hcancel]
    exact subscription?_unsubscribe s m.id id
  · next hnone =>
    split
    · next h => rw [← h, hnone]
    · rfl

theorem mem_cancelled_drop {s : State} {m : Monitored} {token : Token} :
    token ∈ (s.drop m).cancelled ↔ token ∈ s.cancelled ∨ s.subscription? m.id = some token := by
  unfold drop
  split
  · next found hfound =>
    rw [mem_cancelled_cancel, hfound, Option.some.injEq]
    constructor
    · rintro (rfl | hold)
      · exact Or.inr rfl
      · exact Or.inl hold
    · rintro (hold | rfl)
      · exact Or.inr hold
      · exact Or.inl rfl
  · next hnone =>
    rw [hnone]
    simp

theorem drop_sound {s : State} (hs : s.Sound) (m : Monitored) : (s.drop m).Sound := by
  have hmonitor : (s.drop m).monitor.Sublist s.monitor := by
    unfold drop
    split
    · next token _ =>
      obtain ⟨cancelled, hcancel⟩ := cancel_changes (s.unsubscribe m.id) token
      rw [hcancel]
      exact List.filter_sublist
    · exact List.Sublist.refl _
  have hsame : (s.drop m).nextToken = s.nextToken ∧ (s.drop m).shownToken? = s.shownToken? := by
    obtain ⟨monitor, cancelled, hdrop⟩ := drop_changes s m
    rw [hdrop]
    exact ⟨rfl, rfl⟩
  have hsub {token : Token} (h : token ∈ (s.drop m).monitor.map Prod.snd) :
      token ∈ s.monitor.map Prod.snd :=
    (hmonitor.map Prod.snd).subset h
  have hids : ((s.drop m).monitor.map Prod.fst).Nodup := hs.ids.sublist (hmonitor.map Prod.fst)
  refine ⟨hids, hs.tokens.sublist (hmonitor.map Prod.snd), ?_, ?_, ?_, ?_⟩
  · rw [hsame.1]
    exact fun token htoken => hs.given token (hsub htoken)
  · rw [hsame.1]
    intro token htoken
    rcases mem_cancelled_drop.mp htoken with hold | hread
    · exact hs.cancelled_given token hold
    · exact hs.given token (Sound.token_mem hread)
  · intro token htoken hcancelled
    rcases mem_cancelled_drop.mp hcancelled with hold | hread
    · exact hs.live token (hsub htoken) hold
    · -- The token of another container would be that of the one that is gone.
      obtain ⟨⟨id, token⟩, hentry, rfl⟩ := List.mem_map.mp htoken
      have hleft := subscription?_of_mem hids hentry
      rw [drop_subscription?] at hleft
      split at hleft
      · cases hleft
      · next hne => exact hne (hs.id_eq hread hleft)
  · rw [hsame.1, hsame.2]
    intro token htoken
    obtain ⟨hlt, hnot⟩ := hs.apart token htoken
    exact ⟨hlt, fun hmem => hnot (hsub hmem)⟩

theorem drops_sound {s : State} (hs : s.Sound) (gone : List Monitored) :
    (gone.foldl drop s).Sound := by
  induction gone generalizing s with
  | nil => exact hs
  | cons m gone ih => exact ih (drop_sound hs m)

theorem drops_subscription? (s : State) (gone : List Monitored) (id : String) :
    (gone.foldl drop s).subscription? id =
      if id ∈ gone.map Monitored.id then none else s.subscription? id := by
  induction gone generalizing s with
  | nil => rfl
  | cons m gone ih =>
      rw [List.foldl_cons, ih, drop_subscription?, List.map_cons]
      by_cases hid : m.id = id
      · simp [hid]
      · have hne : id ≠ m.id := fun heq => hid heq.symm
        simp [hid, hne]

theorem drops_kept {s : State} {gone : List Monitored} {token : Token}
    (h : token ∈ s.cancelled) : token ∈ (gone.foldl drop s).cancelled := by
  induction gone generalizing s with
  | nil => exact h
  | cons m gone ih => exact ih (mem_cancelled_drop.mpr (Or.inl h))

theorem drops_cancels {s : State} {gone : List Monitored} {m : Monitored} {token : Token}
    (hm : m ∈ gone) (h : s.subscription? m.id = some token) :
    token ∈ (gone.foldl drop s).cancelled := by
  induction gone generalizing s with
  | nil => cases hm
  | cons first gone ih =>
      rw [List.foldl_cons]
      -- It is cancelled with the first row of its container, and stays cancelled.
      by_cases hid : first.id = m.id
      · exact drops_kept (mem_cancelled_drop.mpr (Or.inr (by rw [hid]; exact h)))
      · refine ih ((List.mem_cons.mp hm).resolve_left ?_) ?_
        · rintro rfl
          exact hid rfl
        · rw [drop_subscription?, if_neg hid]
          exact h

/-- The tokens of containers that are gone are cancelled, and no others. -/
theorem mem_cancelled_drops {s : State} {gone : List Monitored} {token : Token} :
    token ∈ (gone.foldl drop s).cancelled ↔
      token ∈ s.cancelled ∨ ∃ m ∈ gone, s.subscription? m.id = some token := by
  constructor
  · intro h
    induction gone generalizing s with
    | nil => exact Or.inl h
    | cons m gone ih =>
        rcases ih h with hdropped | ⟨later, hlater, hsub⟩
        · rcases mem_cancelled_drop.mp hdropped with hold | hread
          · exact Or.inl hold
          · exact Or.inr ⟨m, List.mem_cons_self, hread⟩
        · rw [drop_subscription?] at hsub
          split at hsub
          · cases hsub
          · exact Or.inr ⟨later, List.mem_cons_of_mem _ hlater, hsub⟩
  · rintro (hold | ⟨m, hm, hsub⟩)
    · exact drops_kept hold
    · exact drops_cancels hm hsub

/-- Reads of containers that are gone are cancelled, and no others. -/
theorem drops_serves {s : State} (hs : s.Sound) (gone : List Monitored) (id : String) :
    ((gone.foldl drop s).subscription? id).toList =
      (s.subscription? id).toList.filter fun token =>
        !(gone.foldl drop s).cancelled.contains token := by
  cases hsub : s.subscription? id with
  | none =>
      rw [drops_subscription?, hsub]
      split <;> rfl
  | some token =>
      by_cases hgone : id ∈ gone.map Monitored.id
      · obtain ⟨m, hm, rfl⟩ := List.mem_map.mp hgone
        have hcancelled := drops_cancels hm hsub
        rw [drops_subscription?, if_pos hgone]
        simp [hcancelled]
      · have hleft : (gone.foldl drop s).subscription? id = some token := by
          rw [drops_subscription?, if_neg hgone, hsub]
        have hlive := (drops_sound hs gone).not_cancelled hleft
        rw [hleft]
        simp [hlive]

theorem relisted_sound {s : State} (hs : s.Sound) (containers : List Container) :
    (s.relisted containers).1.Sound := by
  have hlisted := relist_sound hs s.monitoredRows (containers.filter Container.isRunning)
  have hsound := drops_sound hlisted
    (s.relist s.monitoredRows (containers.filter Container.isRunning)).2.1
  exact ⟨hsound.ids, hsound.tokens, hsound.given, hsound.cancelled_given, hsound.live, hsound.apart⟩

theorem relisted_kept {s : State} {containers : List Container} {token : Token}
    (h : token ∈ s.cancelled) : token ∈ (s.relisted containers).1.cancelled := by
  obtain ⟨monitor, nextToken, hrelist⟩ :=
    relist_changes s s.monitoredRows (containers.filter Container.isRunning)
  refine drops_kept ?_
  rw [hrelist]
  exact h

/-- A list cancels nothing but the tokens of containers that it names no more. -/
theorem mem_cancelled_relisted {s : State} {containers : List Container} {token : Token} :
    token ∈ (s.relisted containers).1.cancelled ↔
      token ∈ s.cancelled ∨ ∃ m ∈ s.monitoredRows, s.subscription? m.id = some token ∧
        m.id ∉ (containers.filter Container.isRunning).map Container.id := by
  obtain ⟨monitor, nextToken, hrelist⟩ :=
    relist_changes s s.monitoredRows (containers.filter Container.isRunning)
  have hcancelled : (s.relist s.monitoredRows (containers.filter Container.isRunning)).1.cancelled =
      s.cancelled := by
    rw [hrelist]
  refine Iff.trans mem_cancelled_drops (or_congr (by rw [hcancelled]) ?_)
  constructor
  · rintro ⟨m, hm, hsub⟩
    obtain ⟨hrow, hgone⟩ := mem_relist_left_iff.mp hm
    rw [relist_subscription? hgone] at hsub
    exact ⟨m, hrow, hsub, hgone⟩
  · rintro ⟨m, hrow, hsub, hgone⟩
    refine ⟨m, mem_relist_left hrow hgone, ?_⟩
    rw [relist_subscription? hgone]
    exact hsub

/-- After a list, what is read is on the list and so has a row. -/
theorem relisted_rowed {s : State} (hrowed : s.Rowed) (containers : List Container) :
    (s.relisted containers).1.Rowed := by
  intro id token hsub
  have hdrops : (((s.relist s.monitoredRows (containers.filter Container.isRunning)).2.1.foldl drop
      (s.relist s.monitoredRows (containers.filter Container.isRunning)).1).subscription? id) =
      some token := hsub
  rw [drops_subscription?] at hdrops
  split at hdrops
  · cases hdrops
  · next hgone =>
    have hlisted : id ∈ (containers.filter Container.isRunning).map Container.id := by
      -- Otherwise its row would have been left over, and it would have been dropped.
      by_contra hnot
      rw [relist_subscription? hnot] at hdrops
      obtain ⟨m, hm, rfl⟩ := hrowed id token hdrops
      exact hgone (List.mem_map.mpr ⟨m, mem_relist_left hm hnot, rfl⟩)
    obtain ⟨c, hc, rfl⟩ := List.mem_map.mp hlisted
    obtain ⟨m, hm, hid⟩ : ∃ m, Row.monitored m ∈
        (s.relist s.monitoredRows (containers.filter Container.isRunning)).2.2.1 ∧ m.id = c.id :=
      mem_relist_rows hc
    refine ⟨m, mem_monitoredRows.mpr ?_, hid⟩
    exact (setRows_rows_perm _ .monitor _).mem_iff.mpr hm

theorem relisted_serves {s : State} (hs : s.Sound) (hrowed : s.Rowed) {containers : List Container}
    (hnodup : ((containers.filter Container.isRunning).map Container.id).Nodup) :
    Serves (fun id => (s.subscription? id).toList) (s.relisted containers) := by
  intro id
  have hrows : ∀ id token, s.subscription? id = some token →
      id ∈ (containers.filter Container.isRunning).map Container.id →
      ∃ m ∈ s.monitoredRows, m.id = id :=
    fun id token hsub _ => hrowed id token hsub
  have hreads := relist_reads hnodup hrows id
  have hlisted := relist_sound hs s.monitoredRows (containers.filter Container.isRunning)
  have hserves := drops_serves hlisted
    (s.relist s.monitoredRows (containers.filter Container.isRunning)).2.1 id
  rw [hreads] at hserves
  exact hserves

end State

end Dockboard
