import Dockboard.Proofs.Pager.Prompt
import Dockboard.Proofs.Pager.Top
import Mathlib.Data.List.Nodup
import Mathlib.Data.List.Perm.Subperm
import Mathlib.Data.Nat.GCD.Basic
import Mathlib.Data.Nat.ModEq

set_option autoImplicit false

/-! # From match to match

The keys `n` and `N` make the next match the current one, or the one before it, round and round, and
move the window to it.

    stepAll p directions   the pager after steps in these directions, `true` being forward
    stride count forward   how far a step goes, round the `count` matches
    ShowsCurrent p         `p` does not follow, and the line of the current match is in the window
    Circular p             what holds of the steps from match to match

A step back goes as far as `count - 1` steps forward (`stepMatch_eq`). As no divisor of the number
of matches is shared by the stride, every match is come by once before the first one comes again
(`perm_strides`).
-/

namespace Dockboard

open Dockboard.Text

namespace Pager

/-! ## Round and round -/

/-- How far a step goes forward, round `count` places. -/
def stride (count : Nat) (forward : Bool) : Nat := if forward then 1 else count - 1

section Stride

variable {count i : Nat}

theorem stride_add_stride (hcount : 0 < count) (forward : Bool) :
    stride count forward + stride count (!forward) = count := by
  cases forward with
  | true => exact Nat.add_sub_cancel' hcount
  | false => exact Nat.sub_add_cancel hcount

/-- A stride forward and one back, in whatever order, lead to the same place again. -/
theorem mod_stride_mod_stride (hi : i < count) (forward : Bool) :
    ((i + stride count forward) % count + stride count (!forward)) % count = i :=
  calc ((i + stride count forward) % count + stride count (!forward)) % count
      = (i + stride count forward + stride count (!forward)) % count := Nat.mod_add_mod _ _ _
    _ = (i + count) % count := by
        rw [Nat.add_assoc, stride_add_stride (Nat.zero_lt_of_lt hi)]
    _ = i := by rw [Nat.add_mod_right, Nat.mod_eq_of_lt hi]

theorem coprime_stride (hcount : 0 < count) (forward : Bool) :
    count.Coprime (stride count forward) := by
  cases forward with
  | true => exact Nat.coprime_one_right count
  | false => exact (Nat.coprime_self_sub_right hcount).mpr (Nat.coprime_one_right count)

/-- As many strides as there are places lead to every place once. -/
theorem perm_strides (hcount : 0 < count) (i : Nat) (forward : Bool) :
    ((List.range count).map fun k => (i + (k + 1) * stride count forward) % count).Perm
      (List.range count) := by
  have hnodup : ((List.range count).map fun k =>
      (i + (k + 1) * stride count forward) % count).Nodup := by
    refine List.Nodup.map_on (fun k hk l hl hsame => ?_) List.nodup_range
    have hstrides : (k + 1) * stride count forward ≡ (l + 1) * stride count forward [MOD count] :=
      Nat.ModEq.add_left_cancel' i hsame
    have hnext : k + 1 ≡ l + 1 [MOD count] :=
      Nat.ModEq.cancel_right_of_coprime (coprime_stride hcount forward) hstrides
    have hkl : k ≡ l [MOD count] := Nat.ModEq.add_right_cancel' 1 hnext
    exact hkl.eq_of_lt_of_lt (List.mem_range.mp hk) (List.mem_range.mp hl)
  have hsubset : ((List.range count).map fun k =>
      (i + (k + 1) * stride count forward) % count) ⊆ List.range count := by
    intro place hplace
    obtain ⟨k, -, rfl⟩ := List.mem_map.mp hplace
    exact List.mem_range.mpr (Nat.mod_lt _ hcount)
  refine (List.subperm_of_subset hnodup hsubset).perm_of_length_le ?_
  rw [List.length_map]

end Stride

/-! ## Moving to the current match -/

/-- The pager does not follow, and the line of the current match is in the window. -/
def ShowsCurrent (p : Pager) : Prop :=
  p.follow = false ∧ ∃ m, p.current? = some m ∧ p.offset ≤ m.line ∧ m.line < p.offset + p.height

theorem jumpToCurrent_eq {p : Pager} {m : Match} (h : p.current? = some m) :
    p.jumpToCurrent = { p with follow := false, offset := min m.line p.maxOffset } := by
  unfold jumpToCurrent
  rw [h]

theorem jumpToCurrent_current? (p : Pager) : p.jumpToCurrent.current? = p.current? := by
  unfold jumpToCurrent
  split <;> rfl

theorem jumpToCurrent_currentMatch (p : Pager) :
    p.jumpToCurrent.currentMatch = p.currentMatch := by
  unfold jumpToCurrent
  split <;> rfl

theorem jumpToCurrent_mode (p : Pager) : p.jumpToCurrent.mode = p.mode := by
  unfold jumpToCurrent
  split <;> rfl

theorem jumpToCurrent_found (p : Pager) : p.jumpToCurrent.found = p.found := by
  unfold jumpToCurrent
  split <;> rfl

/-- What is found in a line depends on its text alone, and not on its place. -/
theorem mem_places {search : List Char} {visible : List (List Char)} {m : Match} :
    m ∈ places search visible ↔ ∃ line, visible[m.line]? = some line ∧
      (m.begins, m.ends) ∈ findSpans (lower search) line := by
  constructor
  · intro hm
    obtain ⟨⟨line, place⟩, hline, hmatch⟩ := List.mem_flatMap.mp hm
    obtain ⟨span, hspan, rfl⟩ := List.mem_map.mp hmatch
    exact ⟨line, List.mem_zipIdx_iff_getElem?.mp hline, hspan⟩
  · rintro ⟨line, hline, hspan⟩
    refine List.mem_flatMap.mpr ⟨(line, m.line), List.mem_zipIdx_iff_getElem?.mpr hline, ?_⟩
    exact List.mem_map.mpr ⟨(m.begins, m.ends), hspan, rfl⟩

theorem Derived.line_lt {cap : Nat} {p : Pager} {m : Match} (h : p.Derived cap)
    (hm : p.current? = some m) : m.line < p.visible.length := by
  obtain ⟨i, -, hi⟩ := Option.bind_eq_some_iff.mp hm
  obtain ⟨line, hline, -⟩ := mem_places.mp (h.found ▸ List.mem_of_getElem? hi)
  exact (List.getElem?_eq_some_iff.mp hline).1

/-- When the window has been moved to the current match, it shows it. -/
theorem Kept.jumpToCurrent_shows {cap : Nat} {p : Pager} (h : p.jumpToCurrent.Kept cap)
    (hheight : 0 < p.height) (hfound : p.found ≠ []) : p.jumpToCurrent.ShowsCurrent := by
  obtain ⟨-, m, -, -, hcurrent⟩ := h.consistent.current (by rwa [jumpToCurrent_found])
  have hline := h.toDerived.line_lt hcurrent
  rw [jumpToCurrent_current?] at hcurrent
  rw [jumpToCurrent_eq hcurrent] at hline ⊢
  refine ⟨rfl, m, hcurrent, Nat.min_le_left _ _, ?_⟩
  -- The window ends at the last line, or begins at the line of the match.
  show m.line < min m.line (p.visible.length - p.height) + p.height
  have hvisible : m.line < p.visible.length := hline
  omega

/-! ## One step -/

/-- The key that leads to the next match, or to the one before it. -/
def stepKey (forward : Bool) : KeyCode := .char (if forward then 'n' else 'N')

section Step

variable {cap i : Nat} {p : Pager}

theorem stepMatch_eq (hi : p.currentMatch = some i) (hlt : i < p.found.length) (forward : Bool) :
    p.stepMatch forward = jumpToCurrent
      { p with currentMatch := some ((i + stride p.found.length forward) % p.found.length) } := by
  have hpos : 0 < p.found.length := Nat.zero_lt_of_lt hlt
  unfold stepMatch
  simp only [if_neg hpos.ne', hi]
  cases forward with
  | true => rfl
  | false =>
      rw [Nat.add_sub_assoc hpos]
      rfl

theorem stepMatch_currentMatch (hi : p.currentMatch = some i) (hlt : i < p.found.length)
    (forward : Bool) : (p.stepMatch forward).currentMatch =
      some ((i + stride p.found.length forward) % p.found.length) := by
  rw [stepMatch_eq hi hlt, jumpToCurrent_currentMatch]

theorem stepMatch_found (p : Pager) (forward : Bool) : (p.stepMatch forward).found = p.found := by
  simp only [stepMatch]
  split
  · rfl
  · exact jumpToCurrent_found _

theorem stepMatch_mode (p : Pager) (forward : Bool) : (p.stepMatch forward).mode = p.mode := by
  simp only [stepMatch]
  split
  · rfl
  · exact jumpToCurrent_mode _

theorem press_step {key : Key} {forward : Bool} (hmode : p.mode = .browsing)
    (hcode : key.code = stepKey forward) : (p.press key).1 = p.stepMatch forward := by
  unfold press
  rw [hmode]
  unfold browse
  rw [hcode]
  cases forward <;> rfl

theorem Kept.exists_currentMatch (h : p.Kept cap) (hfound : p.found ≠ []) :
    ∃ i, p.currentMatch = some i ∧ i < p.found.length := by
  obtain ⟨i, hi⟩ := h.current_some hfound
  exact ⟨i, hi, h.current_lt i hi⟩

theorem Kept.stepMatch_shows (h : p.Kept cap) (hheight : 0 < p.height) (hfound : p.found ≠ [])
    (forward : Bool) : (p.stepMatch forward).ShowsCurrent := by
  obtain ⟨i, hi, hlt⟩ := h.exists_currentMatch hfound
  have hstep := h.stepMatch forward
  rw [stepMatch_eq hi hlt] at hstep ⊢
  exact hstep.jumpToCurrent_shows hheight hfound

end Step

/-! ## Many steps -/

/-- The pager after steps from match to match. -/
def stepAll (p : Pager) (directions : List Bool) : Pager := directions.foldl stepMatch p

section Steps

variable {cap i : Nat} {p : Pager}

theorem stepAll_concat (p : Pager) (directions : List Bool) (forward : Bool) :
    p.stepAll (directions ++ [forward]) = (p.stepAll directions).stepMatch forward :=
  List.foldl_concat _ _ _ _

/-- What every step preserves is preserved by all of them. -/
theorem stepAll_preserves {motive : Pager → Prop} (hp : motive p)
    (step : ∀ q forward, motive q → motive (q.stepMatch forward)) (directions : List Bool) :
    motive (p.stepAll directions) :=
  List.foldlRecOn directions stepMatch hp fun q hq forward _ => step q forward hq

theorem stepAll_found (p : Pager) (directions : List Bool) :
    (p.stepAll directions).found = p.found :=
  stepAll_preserves (motive := fun q => q.found = p.found) rfl
    (fun q forward hq => (stepMatch_found q forward).trans hq) directions

theorem stepAll_height (p : Pager) (directions : List Bool) :
    (p.stepAll directions).height = p.height :=
  stepAll_preserves (motive := fun q => q.height = p.height) rfl
    (fun q forward hq => (stepMatch_height q forward).trans hq) directions

theorem Kept.stepAll (h : p.Kept cap) (directions : List Bool) : (p.stepAll directions).Kept cap :=
  stepAll_preserves (motive := fun q => q.Kept cap) h (fun _ forward hq => hq.stepMatch forward)
    directions

theorem stepAll_replicate (hi : p.currentMatch = some i) (hlt : i < p.found.length) (k : Nat)
    (forward : Bool) : (p.stepAll (List.replicate k forward)).currentMatch =
      some ((i + k * stride p.found.length forward) % p.found.length) := by
  induction k with
  | zero =>
      rw [Nat.zero_mul, Nat.add_zero, Nat.mod_eq_of_lt hlt]
      exact hi
  | succ k ih =>
      have hpos : 0 < p.found.length := Nat.zero_lt_of_lt hlt
      have hbefore := stepAll_found p (List.replicate k forward)
      have hstep := stepMatch_currentMatch ih (hbefore.symm ▸ Nat.mod_lt _ hpos) forward
      rw [List.replicate_succ', stepAll_concat, hstep, hbefore, Nat.mod_add_mod, Nat.add_assoc,
        Nat.succ_mul]

/-- The keys `n` and `N`, pressed in any order. -/
theorem changed_stepKeys (hmode : p.mode = .browsing) {keys : List Key} {directions : List Bool}
    (hkeys : keys.map Key.code = directions.map stepKey) :
    p.changed (keys.map .press) = p.stepAll directions := by
  induction directions generalizing keys p with
  | nil =>
      rw [List.map_eq_nil_iff.mp hkeys]
      rfl
  | cons forward directions ih =>
      obtain ⟨key, rest, rfl, hcode, hrest⟩ := List.map_eq_cons_iff.mp hkeys
      show (p.press key).1.changed (rest.map .press) = (p.stepMatch forward).stepAll directions
      rw [press_step hmode hcode]
      exact ih ((stepMatch_mode p forward).trans hmode) hrest

/-- The steps from match to match in a pager where something is found. -/
structure Circular (p : Pager) : Prop where
  found_eq : ∀ directions, (p.stepAll directions).found = p.found
  /-- As many steps in one direction as there are matches lead to each of them once. -/
  visits : ∀ forward,
    ((List.range p.found.length).map fun k =>
      (p.stepAll (List.replicate (k + 1) forward)).currentMatch).Perm
        ((List.range p.found.length).map some)
  returns : ∀ forward,
    (p.stepAll (List.replicate p.found.length forward)).currentMatch = p.currentMatch
  undone : ∀ forward, (p.stepAll [forward, !forward]).currentMatch = p.currentMatch
  shows : ∀ directions, directions ≠ [] → (p.stepAll directions).ShowsCurrent
  /-- These are the steps that the keys make while no prompt is open. -/
  pressed : p.mode = .browsing → ∀ (keys : List Key) (directions : List Bool),
    keys.map Key.code = directions.map stepKey →
      p.changed (keys.map .press) = p.stepAll directions

theorem Kept.circular (h : p.Kept cap) (hheight : 0 < p.height) (hfound : p.found ≠ []) :
    p.Circular := by
  obtain ⟨i, hi, hlt⟩ := h.exists_currentMatch hfound
  have hpos : 0 < p.found.length := Nat.zero_lt_of_lt hlt
  refine ⟨stepAll_found p, fun forward => ?_, fun forward => ?_, fun forward => ?_,
    fun directions hsome => ?_, fun hmode _ _ => changed_stepKeys hmode⟩
  · have hvisits := (perm_strides hpos i forward).map some
    rw [List.map_map] at hvisits
    simp only [stepAll_replicate hi hlt]
    exact hvisits
  · rw [stepAll_replicate hi hlt, Nat.add_mul_mod_self_left, Nat.mod_eq_of_lt hlt, hi]
  · have hstep := stepMatch_currentMatch hi hlt forward
    have hbefore := stepMatch_found p forward
    have hback := stepMatch_currentMatch hstep (hbefore.symm ▸ Nat.mod_lt _ hpos) (!forward)
    show ((p.stepMatch forward).stepMatch !forward).currentMatch = _
    rw [hback, hbefore, mod_stride_mod_stride hlt, hi]
  · obtain ⟨before, forward, rfl⟩ := (List.eq_nil_or_concat' directions).resolve_left hsome
    rw [stepAll_concat]
    refine (h.stepAll before).stepMatch_shows ?_ ?_ forward
    · rwa [stepAll_height]
    · rwa [stepAll_found]

end Steps

/-! ## Searches -/

/-- The window moves to what a search finds. -/
theorem Kept.setSearch_shows {cap : Nat} {p : Pager} (h : p.Kept cap) (hheight : 0 < p.height)
    {search : List Char} (hfound : (p.setSearch search).found ≠ []) :
    (p.setSearch search).ShowsCurrent := by
  let q := research { p with search }
  have hkept : (Pager.jumpToCurrent { q with currentMatch := q.firstMatch }).Kept cap :=
    h.setSearch search
  refine hkept.jumpToCurrent_shows hheight ?_
  rwa [← jumpToCurrent_found]

/-- **From match to match.** As many steps forward as there are matches, or as many back, come by
each of them once and end at the match they began with, and a step back undoes a step forward. The
line of the match that a step leads to, or that a search leads to, is in the window, which stays
there. -/
theorem circular_of_given {cap : Nat} {texts : List (List Char)} {p : Pager}
    (hp : Given cap texts p) :
    (p.found ≠ [] → p.Circular) ∧
    (∀ search, (p.setSearch search).found ≠ [] → (p.setSearch search).ShowsCurrent) ∧
    (p.mode = .searching → ∀ key, key.code = .enter →
      (p.press key).1.found ≠ [] → (p.press key).1.ShowsCurrent) := by
  refine ⟨hp.kept.circular hp.height_pos, fun _ => hp.kept.setSearch_shows hp.height_pos,
    fun hmode key hcode => ?_⟩
  have hopen : p.mode ≠ .browsing := by
    rw [hmode]
    decide
  rw [press_enter hopen hcode, confirmPrompt_search hmode]
  -- That the prompt is closed makes no difference to the window.
  intro hfound
  exact hp.kept.setSearch_shows hp.height_pos hfound

/-- Two matches are in the last line, which is the third of those that the filter leaves. The window
has two rows, and cannot begin at that line. -/
theorem circular_of_given_of_three :
    let text : List Char := ['a', '\n', 'b', '\n', 'a', 'b', '\n', 'a', 'c', 'a', '\n']
    let q := (((live "logs" 9).append text).setFilter ['a']).resize 80 2
    let r := q.changed [.press { code := .char '/' }, .press { code := .char 'A' }]
    let p := (r.press { code := .enter }).1
    let next : Key := { code := .char 'n' }
    let before : Key := { code := .char 'N', shift := true }
    p.found = [⟨0, 0, 1⟩, ⟨1, 0, 1⟩, ⟨2, 0, 1⟩, ⟨2, 2, 3⟩] ∧
      p.ShowsCurrent ∧ (q.setSearch ['c']).ShowsCurrent ∧
      (p.changed [.press before]).current? = some ⟨2, 2, 3⟩ ∧
      (p.changed [.press before]).ShowsCurrent ∧
      (p.changed [.press before, .press next]).currentMatch = p.currentMatch ∧
      (p.changed [.press next, .press next, .press next, .press next]).currentMatch =
        p.currentMatch := by
  intro text q r p next before
  have hq : Given 9 [text] q :=
    (((Given.live "logs").change (.append text)).change (.setFilter ['a'])).change (.resize 80 2)
  have hr : Given 9 [text] r :=
    (hq.change (.press { code := .char '/' })).change (.press { code := .char 'A' })
  have hp : Given 9 [text] p := hr.change (.press { code := .enter })
  have hfound : p.found = [⟨0, 0, 1⟩, ⟨1, 0, 1⟩, ⟨2, 0, 1⟩, ⟨2, 2, 3⟩] := by decide
  have hsome : p.found ≠ [] := by
    rw [hfound]
    exact List.cons_ne_nil _ _
  have hcircular := (circular_of_given hp).1 hsome
  have hback := hcircular.pressed rfl [before] [false] rfl
  have hundone := hcircular.pressed rfl [before, next] [false, true] rfl
  have hround := hcircular.pressed rfl [next, next, next, next] [true, true, true, true] rfl
  refine ⟨hfound, (circular_of_given hr).2.2 (by decide) _ rfl hsome,
    (circular_of_given hq).2.1 ['c'] (by decide), by decide, ?_, ?_, ?_⟩
  · exact hback ▸ hcircular.shows [false] (List.cons_ne_nil _ _)
  · exact hundone ▸ hcircular.undone false
  · have hreturns := hcircular.returns true
    rw [hfound] at hreturns
    exact hround ▸ hreturns

end Pager

end Dockboard
