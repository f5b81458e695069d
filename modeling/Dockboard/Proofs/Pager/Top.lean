import Dockboard.Proofs.Pager.Pieces

set_option autoImplicit false

/-! # The line at the top of the window

The window of a pager begins at a place among the visible lines. When text arrives while the pager
does not follow, this place stays, but the lines that are dropped for want of room leave the places
of the others, so that the window moves over them.

    numbers p        the numbers of the visible lines among the lines of content
    top? p           the number of the line in the first row of the window
    dropped p text   how many lines are dropped when `text` arrives
    gone p text      how many of these have been visible

A line that is held keeps its text, unless it is the open one, and its number is less by the lines
dropped, its place by those gone (`Kept.numbers_append`).
-/

namespace Dockboard

open Dockboard.Text

/-- The place of an element among those that satisfy `f` is how many of these come before it. -/
theorem getElem?_findIdxs {α : Type} {f : α → Bool} {xs : List α} {i j : Nat} :
    (xs.findIdxs f)[j]? = some i ↔
      (∃ x, xs[i]? = some x ∧ f x = true) ∧ (xs.take i).countP f = j := by
  induction xs generalizing i j with
  | nil => simp
  | cons x xs ih =>
      rw [List.findIdxs_cons, List.findIdxs_start]
      cases i with
      | zero => cases j <;> by_cases hx : f x <;> simp [hx]
      | succ i =>
          by_cases hx : f x
          · cases j with
            | zero => simp [hx]
            | succ j => simp [hx, ih]
          · simp [hx, ih]

theorem getElem?_filter_findIdxs {α : Type} (f : α → Bool) (xs : List α) (j : Nat) :
    (xs.filter f)[j]? = (xs.findIdxs f)[j]?.bind fun i => xs[i]? := by
  induction xs generalizing j with
  | nil => rfl
  | cons x xs ih =>
      have hrest (j : Nat) : (xs.filter f)[j]? =
          ((xs.findIdxs f).map (· + 1))[j]?.bind fun i => (x :: xs)[i]? := by
        rw [ih, List.getElem?_map, Option.bind_map]
        rfl
      rw [List.findIdxs_cons, List.findIdxs_start]
      by_cases hx : f x
      · rw [List.filter_cons_of_pos hx, if_pos hx]
        cases j with
        | zero => rfl
        | succ j => exact hrest j
      · rw [List.filter_cons_of_neg hx, if_neg hx]
        exact hrest j

namespace Pager

/-- The numbers of the visible lines among the lines of content, from the top. -/
def numbers (p : Pager) : List Nat := (content p.lines).findIdxs (passes p.filter)

/-- The number of the line in the first row of the window. -/
def top? (p : Pager) : Option Nat := p.numbers[p.offset]?

/-- How many lines are dropped when `text` arrives. -/
def dropped (p : Pager) (text : List Char) : Nat :=
  contentLength (extend p.lines text) - p.maxLines

/-- How many of the lines dropped when `text` arrives have been visible. -/
def gone (p : Pager) (text : List Char) : Nat :=
  ((content p.lines).take (p.dropped text)).countP (passes p.filter)

/-! ## Lines that are held -/

theorem extend_ne_nil {lines : List (List Char)} (h : lines ≠ []) (text : List Char) :
    extend lines text ≠ [] := by
  by_cases htext : text = []
  · rwa [htext]
  · obtain ⟨before, line, rfl⟩ := (List.eq_nil_or_concat' lines).resolve_left h
    obtain ⟨_, _, -, hextend⟩ := extend_singleton line htext
    rw [extend_append (List.cons_ne_nil _ _), hextend]
    exact List.append_ne_nil_of_right_ne_nil _ (List.cons_ne_nil _ _)

/-- The lines before the open one stay as they are. -/
theorem take_content_extend {lines : List (List Char)} {i : Nat} (h : i < lines.length)
    (text : List Char) : (content (extend lines text)).take i = (content lines).take i := by
  have hne : lines ≠ [] := List.ne_nil_of_length_pos (Nat.zero_lt_of_lt h)
  obtain ⟨before, line, rfl⟩ := (List.eq_nil_or_concat' lines).resolve_left hne
  rw [List.length_append, List.length_singleton, Nat.lt_succ_iff] at h
  rw [extend_append (List.cons_ne_nil _ _), content_append (extend_ne_nil (List.cons_ne_nil _ _) _),
    content_append (List.cons_ne_nil _ _), List.take_append_of_le_length h,
    List.take_append_of_le_length h]

theorem append_filter (p : Pager) (text : List Char) : (p.append text).filter = p.filter := by
  unfold append settleFollowing
  split <;> rfl

theorem append_offset {p : Pager} (hfollow : p.follow = false) (text : List Char) :
    (p.append text).offset = min p.offset (p.append text).maxOffset := by
  have hsettle : p.append text =
      (rederive { p with lines := appendText p.maxLines p.lines text }).settle := by
    refine if_neg ?_
    show ¬ p.follow = true
    rw [hfollow]
    decide
  rw [hsettle]
  rfl

section Kept

variable {cap i place : Nat} {p : Pager} {text : List Char}

theorem Kept.append_lines (h : p.Kept cap) (text : List Char) :
    (p.append text).lines = (extend p.lines text).drop (p.dropped text) := by
  have hlines : (p.append text).lines = appendText p.maxLines p.lines text :=
    congrArg Holding.lines (p.append_holding text)
  rw [hlines]
  by_cases htext : text = []
  · have hcount : contentLength p.lines ≤ p.maxLines := h.maxLines ▸ h.lineCount_le
    rw [htext, dropped]
    show p.lines = p.lines.drop (contentLength p.lines - p.maxLines)
    rw [Nat.sub_eq_zero_of_le hcount, List.drop_zero]
  · exact appendText_of_ne_nil _ _ htext

/-- A visible line that is held and still visible when `text` has arrived. -/
theorem Kept.numbers_append (h : p.Kept cap) (hplace : p.numbers[place]? = some i)
    (hheld : p.dropped text ≤ i) (hpasses : i - p.dropped text ∈ (p.append text).numbers) :
    p.gone text ≤ place ∧
      (p.append text).numbers[place - p.gone text]? = some (i - p.dropped text) := by
  obtain ⟨⟨line, hline, -⟩, hcount⟩ := getElem?_findIdxs.mp hplace
  obtain ⟨_, hagain⟩ := List.mem_iff_getElem?.mp hpasses
  obtain ⟨hvisible, -⟩ := getElem?_findIdxs.mp hagain
  have hi : i < p.lines.length := by
    have hlt := (List.getElem?_eq_some_iff.mp hline).1
    rw [length_content] at hlt
    exact hlt.trans_le (contentLength_le _)
  have hne : p.lines ≠ [] := List.ne_nil_of_length_pos (Nat.zero_lt_of_lt hi)
  have hdropped : p.dropped text < (extend p.lines text).length := by
    rw [dropped, h.maxLines]
    exact contentLength_sub_lt h.cap_pos (extend_ne_nil hne text)
  -- The lines before it are what is left of those that were before it.
  let before := (content p.lines).take i
  have hbefore : (content (p.append text).lines).take (i - p.dropped text) =
      before.drop (p.dropped text) := by
    rw [h.append_lines, content_drop hdropped, ← List.drop_take, take_content_extend hi]
  have hgone : p.gone text = (before.take (p.dropped text)).countP (passes p.filter) := by
    rw [gone, List.take_take, Nat.min_eq_left hheld]
  have hsplit : place =
      p.gone text + (before.drop (p.dropped text)).countP (passes p.filter) := by
    rw [hgone, ← List.countP_append, List.take_append_drop, hcount]
  refine ⟨hsplit ▸ Nat.le_add_right _ _, getElem?_findIdxs.mpr ⟨hvisible, ?_⟩⟩
  rw [hbefore, append_filter, hsplit, Nat.add_sub_cancel_left]

end Kept

/-! ## The window -/

theorem settleFollowing_height (p : Pager) : p.settleFollowing.height = p.height := by
  unfold settleFollowing
  split <;> rfl

theorem jumpToCurrent_height (p : Pager) : p.jumpToCurrent.height = p.height := by
  unfold jumpToCurrent
  split <;> rfl

theorem stepMatch_height (p : Pager) (forward : Bool) :
    (p.stepMatch forward).height = p.height := by
  simp only [stepMatch]
  split
  · rfl
  · exact jumpToCurrent_height _

theorem browse_height (p : Pager) (key : Key) : (p.browse key).1.height = p.height :=
  browse_cases (motive := fun q => q.height = p.height) p key rfl (fun _ => rfl) (fun _ => rfl) rfl
    rfl (fun _ => rfl) (fun _ _ => rfl) p.stepMatch_height

theorem confirmPrompt_height (p : Pager) : p.confirmPrompt.height = p.height := by
  unfold confirmPrompt
  cases p.mode with
  | browsing => rfl
  | searching => exact jumpToCurrent_height _
  | filtering => rfl

theorem cancelPrompt_height (p : Pager) : p.cancelPrompt.height = p.height := by
  unfold cancelPrompt
  split <;> rfl

theorem edit_height (p : Pager) (key : Key) : (p.edit key).height = p.height :=
  edit_cases (motive := fun q => q.height = p.height) p key (fun _ => rfl)
    (fun _ => p.confirmPrompt_height) fun _ => p.cancelPrompt_height

theorem press_height (p : Pager) (key : Key) : (p.press key).1.height = p.height := by
  unfold press
  cases p.mode with
  | browsing => exact browse_height p key
  | searching => exact edit_height p key
  | filtering => exact edit_height p key

/-- The window has at least one row. -/
theorem Given.height_pos {cap : Nat} {texts : List (List Char)} {p : Pager}
    (h : Given cap texts p) : 0 < p.height := by
  induction h with
  | new title text => exact Nat.one_pos
  | live title => exact Nat.one_pos
  | @change texts p h c ih =>
      cases c with
      | press key => exact (press_height p key).symm ▸ ih
      | append text => exact (settleFollowing_height _).symm ▸ ih
      | setFilter filter => exact ih
      | setSearch search => exact (jumpToCurrent_height _).symm ▸ ih
      | setFollow follow => exact ih
      | resize width height =>
          show 0 < (settleFollowing _).height
          rw [settleFollowing_height]
          exact Nat.lt_of_lt_of_le Nat.one_pos (Nat.le_max_right _ _)
      | close error =>
          show 0 < (p.close error).height
          unfold Pager.close
          split <;> exact ih

/-- The visible lines are those whose numbers are `numbers`. -/
theorem Derived.visible_getElem? {cap : Nat} {p : Pager} (h : p.Derived cap) (place : Nat) :
    p.visible[place]? = p.numbers[place]?.bind fun i => (content p.lines)[i]? := by
  rw [h.visible, ← content_eq, ← filter_passes, getElem?_filter_findIdxs]
  rfl

/-- The first row of the window shows the line whose number is `top?`. -/
theorem Given.view_head? {cap : Nat} {texts : List (List Char)} {p : Pager}
    (h : Given cap texts p) :
    p.view.head?.map PagerLine.text =
      p.top?.bind fun i => (content p.lines)[i]?.map (List.take p.width) := by
  have hfirst : p.visible[p.offset]? = p.top?.bind fun i => (content p.lines)[i]? :=
    h.kept.toDerived.visible_getElem? p.offset
  have hhead : p.view.head?.map PagerLine.text = p.visible[p.offset]?.map (List.take p.width) := by
    obtain ⟨height, hheight⟩ := Nat.exists_eq_succ_of_ne_zero h.height_pos.ne'
    unfold view
    rw [← List.head?_drop, hheight]
    cases p.visible.drop p.offset with
    | nil => rfl
    | cons line lines => rfl
  rw [hhead, hfirst, Option.map_bind]
  rfl

/-- **Text that arrives below the window.** The line in the first row, if it is still held and
visible, has gone up by as many places as visible lines have been dropped before it, but the window
stays in its place, unless it would reach beyond the end. So the line stays in the first row exactly
if no visible line is dropped and there are lines enough to fill the window, or if the window has to
go up as far as the line. -/
theorem append_top_iff {cap i : Nat} {texts : List (List Char)} {p : Pager} {text : List Char}
    (hp : Given cap texts p) (hfollow : p.follow = false) (htop : p.top? = some i)
    (hheld : p.dropped text ≤ i) (hpasses : i - p.dropped text ∈ (p.append text).numbers) :
    let q := p.append text
    q.view.head?.map PagerLine.text =
      q.top?.bind (fun i => (content q.lines)[i]?.map (List.take q.width)) ∧
    q.offset = min p.offset q.maxOffset ∧
    q.numbers[p.offset - p.gone text]? = some (i - p.dropped text) ∧
    (q.top? = some (i - p.dropped text) ↔
      p.gone text = 0 ∧ p.offset ≤ q.maxOffset ∨
        0 < p.gone text ∧ q.maxOffset = p.offset - p.gone text) := by
  intro q
  obtain ⟨hgone, hnumber⟩ := hp.kept.numbers_append htop hheld hpasses
  have hoffset : q.offset = min p.offset q.maxOffset := append_offset hfollow text
  refine ⟨(hp.change (.append text)).view_head?, hoffset, hnumber, ?_⟩
  have hplace : q.top? = some (i - p.dropped text) ↔ q.offset = p.offset - p.gone text := by
    constructor
    · intro hsame
      exact (getElem?_findIdxs.mp hsame).2.symm.trans (getElem?_findIdxs.mp hnumber).2
    · intro hsame
      rw [top?, hsame]
      exact hnumber
  rw [hplace, hoffset]
  omega

/-- Of three lines the second one is in the first row when the first one is dropped. It is held, and
yet the third one is in the first row then. -/
theorem append_top_iff_of_three :
    let p := ((live "logs" 3).append ['1', '\n', '2', '\n', '3', '\n']).change
      (.press { code := .up })
    let q := p.append ['4', '\n']
    p.follow = false ∧ p.view.map PagerLine.text = [['2']] ∧
      content q.lines = [['2'], ['3'], ['4']] ∧
      q.view.map PagerLine.text = [['3']] ∧ q.top? ≠ some 0 := by
  intro p q
  have hp : Given 3 [['1', '\n', '2', '\n', '3', '\n']] p :=
    ((Given.live "logs").change (.append ['1', '\n', '2', '\n', '3', '\n'])).change
      (.press { code := .up })
  have hfollow : p.follow = false := by decide
  have htop : p.top? = some 1 := by decide
  have hdropped : p.dropped ['4', '\n'] = 1 := by decide
  have hgone : p.gone ['4', '\n'] = 1 := by decide
  have hheld : p.dropped ['4', '\n'] ≤ 1 := by decide
  have hpasses : 1 - p.dropped ['4', '\n'] ∈ q.numbers := by decide
  obtain ⟨-, -, -, hstays⟩ := append_top_iff hp hfollow htop hheld hpasses
  refine ⟨hfollow, by decide, by decide, by decide, fun hsame => ?_⟩
  rw [hdropped, hgone] at hstays
  have hmoved := hstays.mp hsame
  exact absurd hmoved (by decide)

end Pager

end Dockboard
