import Dockboard.Proofs.Session.Tables

set_option autoImplicit false

/-! # Views that are sorted

Once a view has been sorted it is sorted for good. Its rows may be loaded again, be listed anew or
change under the samples that arrive, and each time they are sorted by the column that is the sort
column then; all else leaves the order of its rows as it is.

    InOrder b     the tables of the views that are sorted are in order

One event keeps this, and ends the sorting of no view (`Effect.inOrder`, `Effect.stays_sorted`), and
so does a run. What begins it is one key (`press_sort`).
-/

namespace Dockboard

namespace Board

variable {b b' : Board} {msg? : Option Msg}

/-- The tables of the views that are sorted are in order. -/
def InOrder (b : Board) : Prop :=
  ∀ view, b.sorted.get view = true → (b.tables.get view).Ordered b.format

/-- Rows that are put into the table of a sorted view are in order there. -/
theorem fill_ordered {view : View} (h : b.sorted.get view = true) (rows : List Row)
    (t : Table Row) : (b.fill view rows t).Ordered b.format := by
  simp only [fill, h, if_true]
  exact Table.sortByField_ordered _

/-- A change of one table, after which it is in order if its view is sorted. -/
theorem InOrder.modify (hb : b.InOrder) {view : View} {f : Table Row → Table Row}
    (hf : b.sorted.get view = true → (f (b.tables.get view)).Ordered b.format) :
    InOrder { b with tables := b.tables.modify view f } := by
  intro other hsorted
  show ((b.tables.modify view f).get other).Ordered b.format
  rw [ByView.get_modify]
  split
  · next heq =>
    subst heq
    exact hf hsorted
  · exact hb other hsorted

/-- **One event** leaves the sorted tables in order. -/
theorem Effect.inOrder (h : b.Effect msg? b') (hb : b.InOrder) : b'.InOrder := by
  cases h with
  | shown view hmonitor => exact hb
  | fitted msg hmsg hfits width height =>
      intro view hsorted
      show ((b.tables.map _).get view).Ordered b.format
      rw [ByView.get_map]
      exact Table.Ordered.settle ((hb view hsorted).of_eq rfl rfl)
  | moved place =>
      exact hb.modify fun hsorted => Table.Ordered.settle ((hb b.view hsorted).of_eq rfl rfl)
  | filtered filter =>
      exact hb.modify fun hsorted => Table.Ordered.settle ((hb b.view hsorted).of_eq rfl rfl)
  | sorted =>
      intro view hsorted
      show ((b.tables.modify b.view _).get view).Ordered b.format
      rw [ByView.get_modify]
      by_cases hview : b.view = view
      · rw [if_pos hview]
        exact Table.sortByField_ordered _
      · have hbefore : b.sorted.get view = true := by
          rw [← ByView.get_set_of_ne hview b.sorted true]
          exact hsorted
        rw [if_neg hview]
        exact hb view hbefore
  | loaded msg hmsg view rows hbrings => exact hb.modify fun hsorted => fill_ordered hsorted rows _
  | monitored hview rows => exact hb.modify fun hsorted => fill_ordered hsorted rows _
  | left hleft view hview => exact hb.modify fun _ => Table.replaceRows_nil_ordered _
  | entered scope hrow =>
      intro view hsorted
      show ((if b.taskScope = some scope then b.tables else _).get view).Ordered b.format
      split
      · exact hb view hsorted
      · exact hb.modify (fun _ => Table.replaceRows_nil_ordered _) view hsorted

/-- A view that is sorted stays so. -/
theorem Effect.stays_sorted (h : b.Effect msg? b') {view : View}
    (hsorted : b.sorted.get view = true) : b'.sorted.get view = true := by
  cases h with
  | sorted =>
      show (b.sorted.set b.view true).get view = true
      rw [ByView.get_set]
      split
      · rfl
      · exact hsorted
  | _ => exact hsorted

end Board

namespace State

theorem new_silent (config : Config) (now : Int) : (State.new config now).Silent := fun _ => rfl

/-- No view of a new session is sorted. -/
theorem new_inOrder (config : Config) (now : Int) : (State.new config now).board.InOrder := by
  intro view hsorted
  have hnone : (State.new config now).board.sorted.get view = false := ByView.get_ofFn _ _
  rw [hnone] at hsorted
  cases hsorted

/-- The key that sorts the active view. -/
theorem press_sort {s : State} {key : Key} (hlayer : s.layer = none)
    (hcode : key.code = .function 1) (hcontrol : key.control = false) :
    s.press key = ({ s with status := none } : State).sortNext.noCmds := by
  rw [press_bare key hlayer]
  unfold pressGlobal? pressView
  simp only [hcontrol, hcode, Bool.false_eq_true, if_false, Option.getD_none]

/-- **Sorted for good.** When the sort key has been pressed once in a view, with nothing before it,
then whatever happens before and after that: every run of rows of the view that holds no heading is
in the order of the keys of its sort column, whether the view is active or not. -/
theorem run_sorted (config : Config) (now : Int) (earlier later : List Event) (pressed : Event)
    (key : Key) (hkey : pressed.key? = some key) (hcode : key.code = .function 1)
    (hcontrol : key.control = false) (hlayer : ((State.new config now).run earlier).layer = none) :
    let view := ((State.new config now).run earlier).view
    let s := (State.new config now).run (earlier ++ pressed :: later)
    ∀ run, run <:+: s.rows view → (∀ row ∈ run, row.isHeading = false) →
      run.Pairwise fun a b =>
        ((a.sortKey (s.tables.get view).sortField).compare
          (b.sortKey (s.tables.get view).sortField)).isLE = true := by
  intro view s run hpart hrows
  let before := (State.new config now).run earlier
  have hstart : before.Silent ∧ before.board.InOrder :=
    run_keeps (fun _ _ _ heffect => heffect.inOrder) (new_silent config now)
      (new_inOrder config now) earlier
  obtain ⟨hsilent, horder⟩ := hstart
  -- The key sorts the view that is active.
  have hpressed : (before.react pressed).1.board.sorted.get view = true := by
    rw [react_key before hkey, press_sort hlayer hcode hcontrol]
    exact ByView.get_set_self _ _ _
  have hsplit : s = ((before.react pressed).1).run later := by
    show State.run _ _ = _
    rw [run_append]
    rfl
  obtain ⟨-, horder', hsorted⟩ := run_keeps
    (P := fun b => b.InOrder ∧ b.sorted.get view = true)
    (fun _ _ _ heffect hb => ⟨heffect.inOrder hb.1, heffect.stays_sorted hb.2⟩)
    ((react_reaction before pressed).silent hsilent)
    ⟨(react_reaches hsilent pressed).inOrder horder, hpressed⟩ later
  rw [← hsplit] at horder' hsorted
  exact horder' view hsorted run ⟨hpart, hrows⟩

/-- The containers are sorted by their names and loaded again later on, in another order, while the
images are shown. -/
theorem run_sorted_of_names :
    let earlier : List Event :=
      [.begin, .input (.loaded .containers none [.container { id := "f00", name := "web" }])]
    let later : List Event :=
      [.input (.key { code := .char '2' }),
        .input (.loaded .containers none
          [.container { id := "f00", name := "web" }, .container { id := "bad", name := "db" }])]
    let sort : Event := .input (.key { code := .function 1 })
    let s := (State.new {} 0).run (earlier ++ sort :: later)
    s.view = .images ∧
      ∀ run, run <:+: s.rows .containers → (∀ row ∈ run, row.isHeading = false) →
        run.Pairwise fun a b =>
          ((a.sortKey (s.tables.get .containers).sortField).compare
            (b.sortKey (s.tables.get .containers).sortField)).isLE = true := by
  intro earlier later sort s
  exact ⟨rfl, run_sorted {} 0 earlier later sort { code := .function 1 } rfl rfl rfl rfl⟩

end State

end Dockboard
