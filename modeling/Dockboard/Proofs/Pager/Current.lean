import Dockboard.Proofs.Pager.Stepping

set_option autoImplicit false

/-! # The current match

When text arrives or a filter is set, a pager looks for its search text anew, and takes the match
that has been the current one for the current one again. It knows it by its place among the visible
lines and by its span of bytes, but the place of a line is another one when visible lines before it
have been dropped, or when the filter leaves fewer or more of them.

    placeOf p i           the place of line number `i` among the visible ones
    Carried p m place     what becomes of the current match `m`, whose line is now at `place`

What has been found in a line is found in it again while its text is the same (`mem_places`), and is
the current match again if the line has its place (`rederive_current?`).
-/

namespace Dockboard

open Dockboard.Text

namespace Pager

/-- How many visible lines come before line number `i`. -/
def placeOf (p : Pager) (i : Nat) : Nat := ((content p.lines).take i).countP (passes p.filter)

/-! ## Places -/

theorem numbers_placeOf {p : Pager} {i : Nat} {line : List Char}
    (hline : (content p.lines)[i]? = some line) (hpasses : passes p.filter line = true) :
    p.numbers[p.placeOf i]? = some i :=
  getElem?_findIdxs.mpr ⟨⟨line, hline, hpasses⟩, rfl⟩

/-! ## The match that is current -/

theorem firstMatch_bind (p : Pager) : (p.firstMatch.bind fun i => p.found[i]?) = p.found.head? := by
  unfold firstMatch
  cases p.found <;> rfl

/-- The current match stays the current one if the same place is found again. Else the first match
is the current one. -/
theorem rederive_current? {p : Pager} {m : Match} (h : p.current? = some m) :
    p.rederive.current? = if m ∈ p.rederive.found then some m else p.rederive.found.head? := by
  have hplace : p.rederive.currentMatch =
      (p.rederive.found.findIdx? (· == m)).or p.rederive.firstMatch := by
    show (p.current?.bind fun m => p.rederive.found.findIdx? (· == m)).or _ = _
    rw [h]
    rfl
  rw [current?, hplace]
  cases hfind : p.rederive.found.findIdx? (· == m) with
  | some i =>
      obtain ⟨hlt, hsame, -⟩ := List.findIdx?_eq_some_iff_getElem.mp hfind
      have hi : p.rederive.found[i]? = some m := by
        rw [List.getElem?_eq_getElem hlt, beq_iff_eq.mp hsame]
      rw [if_pos (List.mem_of_getElem? hi)]
      exact hi
  | none =>
      have hgone : m ∉ p.rederive.found := by
        intro hm
        have hdiffers := List.findIdx?_eq_none_iff.mp hfind m hm
        rw [beq_self_eq_true] at hdiffers
        cases hdiffers
      rw [if_neg hgone]
      exact firstMatch_bind _

theorem append_current? {p : Pager} {m : Match} (h : p.current? = some m) (text : List Char) :
    (p.append text).current? =
      if m ∈ (p.append text).found then some m else (p.append text).found.head? := by
  let q : Pager := { p with lines := appendText p.maxLines p.lines text }
  have hrederived := rederive_current? (p := q) h
  unfold append settleFollowing
  split <;> exact hrederived

theorem append_search (p : Pager) (text : List Char) : (p.append text).search = p.search := by
  unfold append settleFollowing
  split <;> rfl

theorem setFilter_current? {p : Pager} {m : Match} (h : p.current? = some m)
    (filter : List Char) : (p.setFilter filter).current? =
      if m ∈ (p.setFilter filter).found then some m else (p.setFilter filter).found.head? :=
  rederive_current? (p := { p with filter }) h

/-! ## Carrying the current match over -/

/-- What becomes of the current match `m`, whose line is now at `place`. -/
structure Carried (q : Pager) (m : Match) (place : Nat) : Prop where
  again : { m with line := place } ∈ q.found
  current : q.current? = if m ∈ q.found then some m else q.found.head?
  /-- It is still the current one exactly if its line has its place, or if nothing is found at its
  old place and it happens to be the first match. -/
  stays_iff : q.current? = some { m with line := place } ↔
    place = m.line ∨ m ∉ q.found ∧ q.found.head? = some { m with line := place }
  /-- Steps go on from the match that is the current one. -/
  goesOn : ∃ j, q.currentMatch = some j ∧ q.found[j]? = q.current? ∧
    ∀ forward, (q.stepMatch forward).current? =
      q.found[(j + stride q.found.length forward) % q.found.length]?

section Carried

variable {cap : Nat} {p q : Pager} {m : Match} {line : List Char} {place : Nat}

theorem Kept.current?_stepMatch (h : p.Kept cap) (hfound : p.found ≠ []) :
    ∃ j, p.currentMatch = some j ∧ p.found[j]? = p.current? ∧
      ∀ forward, (p.stepMatch forward).current? =
        p.found[(j + stride p.found.length forward) % p.found.length]? := by
  obtain ⟨j, hj, hlt⟩ := h.exists_currentMatch hfound
  refine ⟨j, hj, ?_, fun forward => ?_⟩
  · rw [current?, hj]
    rfl
  · rw [current?, stepMatch_currentMatch hj hlt, stepMatch_found]
    rfl

theorem Kept.carried (h : q.Kept cap)
    (hcurrent : q.current? = if m ∈ q.found then some m else q.found.head?)
    (hline : q.visible[place]? = some line)
    (hspan : (m.begins, m.ends) ∈ findSpans (lower q.search) line) : q.Carried m place := by
  have hagain : { m with line := place } ∈ q.found := by
    rw [h.found]
    exact mem_places.mpr ⟨line, hline, hspan⟩
  refine ⟨hagain, hcurrent, ?_, h.current?_stepMatch (List.ne_nil_of_mem hagain)⟩
  rw [hcurrent]
  by_cases hm : m ∈ q.found
  · rw [if_pos hm]
    constructor
    · intro hsame
      exact .inl (congrArg Match.line (Option.some.inj hsame)).symm
    · rintro (rfl | ⟨hgone, -⟩)
      · rfl
      · exact absurd hm hgone
  · rw [if_neg hm]
    constructor
    · intro hfirst
      exact .inr ⟨hm, hfirst⟩
    · rintro (rfl | ⟨-, hfirst⟩)
      · exact absurd hagain hm
      · exact hfirst

end Carried

/-- **The current match.** The line of the current match has a number and a text. When text arrives,
and the line is held with the same text, its place is less by the visible lines dropped. When a
filter is set that the line matches, its place is the number of lines before it that match. The same
span of the line is found again, and it is the current match again exactly if the place is the same,
or if nothing is found at the old place and it happens to be the first match of all. -/
theorem current_stays_iff {cap : Nat} {texts : List (List Char)} {p : Pager} {m : Match}
    (hp : Given cap texts p) (hcurrent : p.current? = some m) :
    ∃ i line, p.numbers[m.line]? = some i ∧ (content p.lines)[i]? = some line ∧
      (∀ text, p.dropped text ≤ i →
        (content (p.append text).lines)[i - p.dropped text]? = some line →
          p.gone text ≤ m.line ∧
          (p.append text).numbers[m.line - p.gone text]? = some (i - p.dropped text) ∧
          (p.append text).Carried m (m.line - p.gone text)) ∧
      (∀ filter, Matches filter line →
        (p.setFilter filter).numbers[(p.setFilter filter).placeOf i]? = some i ∧
        (p.setFilter filter).Carried m ((p.setFilter filter).placeOf i)) := by
  have hkept := hp.kept
  obtain ⟨j, -, hj⟩ := Option.bind_eq_some_iff.mp hcurrent
  obtain ⟨line, hline, hspan⟩ := mem_places.mp (hkept.found ▸ List.mem_of_getElem? hj)
  have hvisible := hline
  rw [hkept.toDerived.visible_getElem?] at hvisible
  obtain ⟨i, hnumber, htext⟩ := Option.bind_eq_some_iff.mp hvisible
  obtain ⟨⟨other, hother, hpasses⟩, -⟩ := getElem?_findIdxs.mp hnumber
  obtain rfl : other = line := Option.some.inj (hother.symm.trans htext)
  refine ⟨i, other, hnumber, htext, fun text hheld hsame => ?_, fun filter hmatches => ?_⟩
  · -- The filter is what it was, so that the line is still visible.
    have hnow : passes (p.append text).filter other = true := by rwa [append_filter]
    obtain ⟨hgone, hplace⟩ := hkept.numbers_append hnumber hheld
      (List.mem_of_getElem? (numbers_placeOf hsame hnow))
    have hafter : (p.append text).visible[m.line - p.gone text]? = some other := by
      rw [(hkept.append text).toDerived.visible_getElem?, hplace]
      exact hsame
    refine ⟨hgone, hplace, (hkept.append text).carried (append_current? hcurrent text) hafter ?_⟩
    rwa [append_search]
  · have hplace : (p.setFilter filter).numbers[(p.setFilter filter).placeOf i]? = some i :=
      numbers_placeOf htext (passes_iff.mpr hmatches)
    have hafter : (p.setFilter filter).visible[(p.setFilter filter).placeOf i]? = some other := by
      rw [(hkept.setFilter filter).toDerived.visible_getElem?, hplace]
      exact htext
    have hfound := setFilter_current? hcurrent filter
    exact ⟨hplace, (hkept.setFilter filter).carried hfound hafter hspan⟩

/-- The match in the last of three lines is the current one. When the first line is dropped, another
line has its place and becomes the line of the current match. When a filter hides the first line, no
line has its place, and the first match becomes the current one. -/
theorem current_stays_iff_of_third :
    let text : List Char := ['1', 'x', '\n', '2', 'x', 'y', '\n', '3', 'x', 'y', '\n']
    let p := (((live "logs" 3).append text).setSearch ['x']).change
      (.press { code := .char 'N' })
    let q := p.append ['4', 'x', '\n']
    let r := p.setFilter ['y']
    p.current? = some ⟨2, 1, 2⟩ ∧ (content p.lines)[2]? = some ['3', 'x', 'y'] ∧
      q.visible[1]? = some ['3', 'x', 'y'] ∧ ⟨1, 1, 2⟩ ∈ q.found ∧ q.current? ≠ some ⟨1, 1, 2⟩ ∧
      r.visible[1]? = some ['3', 'x', 'y'] ∧ ⟨1, 1, 2⟩ ∈ r.found ∧ r.current? ≠ some ⟨1, 1, 2⟩ := by
  intro text p q r
  have hp : Given 3 [text] p := (((Given.live "logs").change (.append text)).change
    (.setSearch ['x'])).change (.press { code := .char 'N' })
  have hcurrent : p.current? = some ⟨2, 1, 2⟩ := by decide
  have hthird : p.numbers[2]? = some 2 ∧ (content p.lines)[2]? = some ['3', 'x', 'y'] := by decide
  have harrived : p.dropped ['4', 'x', '\n'] = 1 ∧ p.gone ['4', 'x', '\n'] = 1 := by decide
  obtain ⟨i, line, hnumber, hline, happended, hfiltered⟩ := current_stays_iff hp hcurrent
  obtain rfl : 2 = i := Option.some.inj (hthird.1.symm.trans hnumber)
  obtain rfl : ['3', 'x', 'y'] = line := Option.some.inj (hthird.2.symm.trans hline)
  have hheld : p.dropped ['4', 'x', '\n'] ≤ 2 := by decide
  obtain ⟨-, -, hcarried⟩ := happended ['4', 'x', '\n'] hheld (by decide)
  obtain ⟨-, hunder⟩ := hfiltered ['y'] (by decide)
  have hplace : r.placeOf 2 = 1 := by decide
  rw [harrived.2] at hcarried
  rw [hplace] at hunder
  refine ⟨hcurrent, hline, by decide, hcarried.again, ?_, by decide, hunder.again, ?_⟩
  · intro hstays
    exact absurd (hcarried.stays_iff.mp hstays) (by decide)
  · intro hstays
    exact absurd (hunder.stays_iff.mp hstays) (by decide)

end Pager

end Dockboard
