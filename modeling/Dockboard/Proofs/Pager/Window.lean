import Dockboard.Proofs.Pager
import Dockboard.Proofs.Text.Search

set_option autoImplicit false

/-! # The window of a pager

What a pager holds and shows after any keys, texts and changes to it.

    lines        as they have been read, the last one open
    written      the lines without an open one that is still empty; at most `maxLines` of them
    visible      those of them that match the filter
    found        the places of the search text in the visible lines
    current      one of the places found, if there are any
    window       `height` of the visible lines, from `offset` on

The visible lines and the places found are kept in the pager. Every operation that changes what
they come from makes them anew (`derived_rederive`, `research_found`), and all the others do no more
than move the window or change what the keys mean (`Derived.moved`).
-/

namespace Dockboard

open Dockboard.Text

namespace Pager

/-! ## Lines -/

/-- The lines without an open line that is still empty. -/
def written (lines : List (List Char)) : List (List Char) :=
  if lines.getLast? = some [] then lines.dropLast else lines

theorem content_eq (lines : List (List Char)) : content lines = written lines := by
  unfold content contentLength written
  split
  · exact List.dropLast_eq_take.symm
  · exact List.take_length

theorem contentLength_le (lines : List (List Char)) : contentLength lines ≤ lines.length := by
  unfold contentLength
  split <;> omega

theorem length_written (lines : List (List Char)) :
    (written lines).length = contentLength lines := by
  rw [← content_eq, content, List.length_take_of_le (contentLength_le lines)]

/-- No more lines are kept than there is room for. -/
theorem contentLength_capLines {cap : Nat} (hcap : 0 < cap) (lines : List (List Char)) :
    contentLength (capLines cap lines) ≤ cap := by
  have hle := contentLength_le lines
  by_cases hfew : contentLength lines ≤ cap
  · rw [capLines, Nat.sub_eq_zero_of_le hfew]
    exact hfew
  · -- Some line is left, and so the last line is what it was.
    have hsome : ¬ lines.length ≤ contentLength lines - cap := by omega
    have hlast : (capLines cap lines).getLast? = lines.getLast? := by
      rw [capLines, List.getLast?_drop, if_neg hsome]
    have hlength : (capLines cap lines).length = lines.length - (contentLength lines - cap) :=
      List.length_drop
    unfold contentLength at *
    rw [hlast, hlength]
    split at hle <;> split <;> omega

theorem contentLength_appendText {cap : Nat} (hcap : 0 < cap) {lines : List (List Char)}
    (h : contentLength lines ≤ cap) (text : List Char) :
    contentLength (appendText cap lines text) ≤ cap := by
  unfold appendText
  split
  · exact h
  · exact contentLength_capLines hcap _

/-- A line is visible if the filter is empty or occurs in it, both in lower case. -/
def Matches (filter line : List Char) : Prop := filter = [] ∨ lower filter <:+: lower line

theorem passes_iff {filter line : List Char} :
    passes filter line = true ↔ Matches filter line := by
  rw [passes, Bool.or_eq_true, List.isEmpty_iff, matchesFilter_iff, Matches]

instance (filter : List Char) : DecidablePred (Matches filter) :=
  fun _ => decidable_of_iff _ passes_iff

/-- The lines that a filter leaves visible. -/
def matching (filter : List Char) (lines : List (List Char)) : List (List Char) :=
  lines.filter fun line => Matches filter line

theorem filter_passes (filter : List Char) (lines : List (List Char)) :
    lines.filter (passes filter) = matching filter lines :=
  filter_of_iff (fun _ => passes_iff) lines

/-! ## Places -/

/-- Where a search text is found: line by line from the top, in each line from left to right. -/
def places (search : List Char) (visible : List (List Char)) : List Match :=
  visible.zipIdx.flatMap fun (line, place) =>
    (findSpans (lower search) line).map fun span => ⟨place, span.1, span.2⟩

theorem findFrom_eq (search : List Char) (first : Nat) (lines : List (List Char)) :
    findFrom search first lines =
      (lines.zipIdx first).flatMap fun (line, place) =>
        (findSpans (lower search) line).map fun span => ⟨place, span.1, span.2⟩ := by
  induction lines generalizing first with
  | nil => rfl
  | cons line lines ih => rw [findFrom, ih, List.zipIdx_cons, List.flatMap_cons]

theorem places_nil (visible : List (List Char)) : places [] visible = [] := by
  refine List.flatMap_eq_nil_iff.mpr fun line _ => ?_
  rfl

/-! ## Changes -/

/-- What can be done to a pager. -/
inductive Change where
  | press (key : Key)
  | append (text : List Char)
  | setFilter (filter : List Char)
  | setSearch (search : List Char)
  | setFollow (follow : Bool)
  | resize (width height : Nat)
  | close (error : Option String)

/-- Change a pager. -/
def change (p : Pager) : Change → Pager
  | .press key => (p.press key).1
  | .append text => p.append text
  | .setFilter filter => p.setFilter filter
  | .setSearch search => p.setSearch search
  | .setFollow follow => p.setFollow follow
  | .resize width height => p.resize width height
  | .close error => p.close error

/-- A pager after some changes. -/
def changed (p : Pager) (changes : List Change) : Pager := changes.foldl change p

/-- In a pager of at most `cap` lines: what is visible and what is found belong to the lines, the
filter and the search text, and one of the places found is the current one, if there are any. -/
structure Derived (cap : Nat) (p : Pager) : Prop where
  cap_pos : 0 < cap
  maxLines : p.maxLines = cap
  lineCount_le : p.lineCount ≤ cap
  visible : p.visible = matching p.filter (written p.lines)
  found : p.found = places p.search p.visible
  current_lt : ∀ i, p.currentMatch = some i → i < p.found.length
  current_some : p.found ≠ [] → ∃ i, p.currentMatch = some i

/-- Besides, the window does not reach beyond the last line, unless it is larger than all lines. -/
structure Kept (cap : Nat) (p : Pager) : Prop extends p.Derived cap where
  offset_le : p.offset ≤ p.visible.length - p.height

section Step

variable {cap : Nat} {p : Pager}

/-! ### The window -/

/-- Moving the window and changing what the keys mean. -/
theorem Derived.moved (h : p.Derived cap) (mode : PagerMode) (input : List Char) (follow : Bool)
    {offset : Nat} (width height : Nat) (stream : StreamState)
    (hoffset : offset ≤ p.visible.length - height) :
    ({ p with mode, input, follow, offset, width, height, stream } : Pager).Kept cap := by
  obtain ⟨hpos, hmax, hcount, hvisible, hfound, hlt, hsome⟩ := h
  exact ⟨⟨hpos, hmax, hcount, hvisible, hfound, hlt, hsome⟩, hoffset⟩

theorem Derived.settle (h : p.Derived cap) : p.settle.Kept cap :=
  h.moved p.mode p.input p.follow p.width p.height p.stream (Nat.min_le_right _ _)

theorem Derived.settleFollowing (h : p.Derived cap) : p.settleFollowing.Kept cap := by
  unfold Pager.settleFollowing
  split
  · exact h.moved p.mode p.input p.follow p.width p.height p.stream (Nat.le_refl _)
  · exact h.settle

theorem Kept.scrollUp (h : p.Kept cap) (n : Nat) : (p.scrollUp n).Kept cap :=
  h.moved p.mode p.input _ p.width p.height p.stream ((Nat.sub_le _ _).trans h.offset_le)

theorem Kept.scrollDown (h : p.Kept cap) (n : Nat) : (p.scrollDown n).Kept cap :=
  h.moved p.mode p.input p.follow p.width p.height p.stream (Nat.min_le_right _ _)

theorem Kept.setFollow (h : p.Kept cap) (follow : Bool) : (p.setFollow follow).Kept cap := by
  refine h.moved p.mode p.input follow p.width p.height p.stream ?_
  cases follow with
  | true => exact Nat.le_refl _
  | false => exact h.offset_le

theorem Derived.resize (h : p.Derived cap) (width height : Nat) :
    (p.resize width height).Kept cap := by
  obtain ⟨hpos, hmax, hcount, hvisible, hfound, hlt, hsome⟩ := h
  exact Derived.settleFollowing ⟨hpos, hmax, hcount, hvisible, hfound, hlt, hsome⟩

theorem Kept.close (h : p.Kept cap) (error : Option String) : (p.close error).Kept cap := by
  unfold Pager.close
  split
  · exact h.moved p.mode p.input p.follow p.width p.height _ h.offset_le
  · exact h

/-- Moving to the current match, which need not be the one that was current before. -/
theorem Kept.jumpToCurrent (h : p.Kept cap) : p.jumpToCurrent.Kept cap := by
  unfold Pager.jumpToCurrent
  split
  · exact h.moved p.mode p.input false p.width p.height p.stream (Nat.min_le_right _ _)
  · exact h

/-! ### What is found -/

theorem research_found (p : Pager) : p.research.found = places p.search p.visible := by
  unfold research
  by_cases hnil : p.search = []
  · rw [hnil, places_nil]
    rfl
  · have hsearch : p.search.isEmpty = false := by rwa [List.isEmpty_eq_false_iff]
    show (if p.search.isEmpty then [] else findFrom p.search 0 p.visible) = _
    rw [hsearch, findFrom_eq]
    rfl

theorem firstMatch_lt {i : Nat} (h : p.firstMatch = some i) : i < p.found.length := by
  unfold firstMatch at h
  split at h
  · cases h
  · next hne =>
      cases h
      exact List.length_pos_iff.mpr (by rwa [List.isEmpty_iff] at hne)

theorem firstMatch_some (h : p.found ≠ []) : p.firstMatch = some 0 := by
  rw [firstMatch, if_neg (by rwa [List.isEmpty_iff])]

/-- **Deriving anew.** Nothing of what was visible or found before is left, save that the current
match stays current when it is found again. -/
theorem derived_rederive (hpos : 0 < cap) (hmax : p.maxLines = cap) (hcount : p.lineCount ≤ cap) :
    p.rederive.Derived cap := by
  have hvisible : p.rederive.visible = matching p.filter (written p.lines) := by
    show (content p.lines).filter (passes p.filter) = _
    rw [filter_passes, content_eq]
  have hcurrent : p.rederive.currentMatch =
      (p.current?.bind fun m => p.rederive.found.findIdx? (· == m)).or p.rederive.firstMatch := rfl
  constructor
  · exact hpos
  · exact hmax
  · exact hcount
  · exact hvisible
  · exact research_found _
  · intro i hi
    rw [hcurrent] at hi
    -- The old match has been found again, or the first one takes its place.
    rcases Option.or_eq_some_iff.mp hi with hagain | ⟨-, hfirst⟩
    · obtain ⟨m, -, hm⟩ := Option.bind_eq_some_iff.mp hagain
      obtain ⟨hlt, -⟩ := List.findIdx?_eq_some_iff_getElem.mp hm
      exact hlt
    · exact firstMatch_lt hfirst
  · intro hne
    rw [hcurrent, firstMatch_some hne]
    cases p.current?.bind fun m => p.rederive.found.findIdx? (· == m) with
    | none => exact ⟨0, rfl⟩
    | some i => exact ⟨i, rfl⟩

theorem Kept.setFilter (h : p.Kept cap) (filter : List Char) : (p.setFilter filter).Kept cap := by
  have hderived : (rederive { p with filter }).Derived cap :=
    derived_rederive h.cap_pos h.maxLines h.lineCount_le
  exact hderived.settle

theorem Kept.append (h : p.Kept cap) (text : List Char) : (p.append text).Kept cap := by
  have hcount : contentLength (appendText p.maxLines p.lines text) ≤ cap := by
    rw [h.maxLines]
    exact contentLength_appendText h.cap_pos h.lineCount_le text
  have hderived : (rederive { p with lines := appendText p.maxLines p.lines text }).Derived cap :=
    derived_rederive h.cap_pos h.maxLines hcount
  exact hderived.settleFollowing

theorem Kept.setSearch (h : p.Kept cap) (search : List Char) : (p.setSearch search).Kept cap := by
  -- The offset is that of before until the window jumps to the first match.
  let q := research { p with search }
  have hq : ({ q with currentMatch := q.firstMatch } : Pager).Kept cap := by
    refine ⟨⟨h.cap_pos, h.maxLines, h.lineCount_le, h.visible, research_found _, ?_, ?_⟩,
      h.offset_le⟩
    · intro i hi
      exact firstMatch_lt hi
    · intro hne
      exact ⟨0, firstMatch_some hne⟩
  exact hq.jumpToCurrent

/-- Another match is made the current one. -/
theorem Kept.stepMatch (h : p.Kept cap) (forward : Bool) : (p.stepMatch forward).Kept cap := by
  have hcurrent (i : Nat) (hi : i < p.found.length) :
      ({ p with currentMatch := some i } : Pager).Kept cap := by
    refine ⟨⟨h.cap_pos, h.maxLines, h.lineCount_le, h.visible, h.found, ?_, ?_⟩, h.offset_le⟩
    · rintro j ⟨⟩
      exact hi
    · exact fun _ => ⟨i, rfl⟩
  unfold Pager.stepMatch
  by_cases hnone : p.found.length = 0
  · simp only [if_pos hnone]
    exact h
  · simp only [if_neg hnone]
    refine (hcurrent _ ?_).jumpToCurrent
    have hpos : 0 < p.found.length := Nat.pos_of_ne_zero hnone
    -- Forward and backward the next place is a remainder by the number of places.
    cases p.currentMatch with
    | none => exact hpos
    | some i =>
        cases forward with
        | true => exact Nat.mod_lt _ hpos
        | false => exact Nat.mod_lt _ hpos

/-! ### Keys -/

theorem Kept.browse (h : p.Kept cap) (key : Key) : (p.browse key).1.Kept cap := by
  have hprompt (mode : PagerMode) (input : List Char) :
      ({ p with mode, input } : Pager).Kept cap :=
    h.moved mode input p.follow p.width p.height p.stream h.offset_le
  have hmove (follow : Bool) (offset : Nat) (hle : offset ≤ p.maxOffset) :
      ({ p with follow, offset } : Pager).Kept cap :=
    h.moved p.mode p.input follow p.width p.height p.stream hle
  exact browse_cases p key h h.scrollUp h.scrollDown (hmove false 0 (Nat.zero_le _))
    (hmove p.follow _ (Nat.le_refl _)) h.setFollow hprompt h.stepMatch

theorem Kept.confirmPrompt (h : p.Kept cap) : p.confirmPrompt.Kept cap := by
  -- The search or the filter is set in a pager whose prompt has been emptied.
  let q : Pager := { p with input := [] }
  have hq : q.Kept cap := h.moved p.mode [] p.follow p.width p.height p.stream h.offset_le
  have hdone {q' : Pager} (hq' : q'.Kept cap) : ({ q' with mode := .browsing } : Pager).Kept cap :=
    hq'.moved .browsing q'.input q'.follow q'.width q'.height q'.stream hq'.offset_le
  unfold Pager.confirmPrompt
  refine hdone ?_
  split
  · exact hq.setSearch p.input
  · exact hq.setFilter p.input
  · exact hq

theorem Kept.cancelPrompt (h : p.Kept cap) : p.cancelPrompt.Kept cap := by
  have hdone {q : Pager} (hq : q.Kept cap) :
      ({ q with input := [], mode := .browsing } : Pager).Kept cap :=
    hq.moved .browsing [] q.follow q.width q.height q.stream hq.offset_le
  unfold Pager.cancelPrompt
  split
  · exact hdone (h.setFilter [])
  · exact hdone h

theorem Kept.edit (h : p.Kept cap) (key : Key) : (p.edit key).Kept cap := by
  have htyped (input : List Char) : ({ p with input } : Pager).Kept cap :=
    h.moved p.mode input p.follow p.width p.height p.stream h.offset_le
  exact edit_cases p key htyped (fun _ => h.confirmPrompt) fun _ => h.cancelPrompt

theorem Kept.press (h : p.Kept cap) (key : Key) : (p.press key).1.Kept cap := by
  unfold Pager.press
  cases p.mode with
  | browsing => exact h.browse key
  | searching => exact h.edit key
  | filtering => exact h.edit key

/-- **One change.** -/
theorem Kept.change (h : p.Kept cap) (c : Change) : (p.change c).Kept cap := by
  cases c with
  | press key => exact h.press key
  | append text => exact h.append text
  | setFilter filter => exact h.setFilter filter
  | setSearch search => exact h.setSearch search
  | setFollow follow => exact h.setFollow follow
  | resize width height => exact h.toDerived.resize width height
  | close error => exact h.close error

theorem Kept.changed (h : p.Kept cap) (changes : List Change) : (p.changed changes).Kept cap := by
  induction changes generalizing p with
  | nil => exact h
  | cons c changes ih => exact ih (h.change c)

end Step

theorem new_kept (title : String) (text : List Char) (maxLines : Nat) :
    (new title text maxLines).Kept (max maxLines 1) := by
  have hpos : 0 < max maxLines 1 := Nat.lt_of_lt_of_le Nat.one_pos (Nat.le_max_right _ _)
  have hderived : (new title text maxLines).Derived (max maxLines 1) :=
    derived_rederive hpos rfl (contentLength_appendText hpos (Nat.zero_le _) text)
  exact ⟨hderived, Nat.zero_le _⟩

theorem live_kept (title : String) (maxLines : Nat) :
    (live title maxLines).Kept (max maxLines 1) := by
  have h := new_kept title [] maxLines
  exact h.moved .browsing [] true 80 1 .live h.offset_le

/-! ## What is shown -/

/-- What a pager of at most `cap` lines holds and shows. -/
structure Consistent (cap : Nat) (p : Pager) : Prop where
  lineCount_eq : p.lineCount = (written p.lines).length
  lineCount_le : p.lineCount ≤ cap
  visible : p.visible = (written p.lines).filter fun line => Matches p.filter line
  found : p.found = places p.search p.visible
  found_nil : p.search = [] → p.found = []
  /-- There is a current match if anything is found, and it is one of those found. -/
  current : p.found ≠ [] →
    ∃ i m, p.currentMatch = some i ∧ p.found[i]? = some m ∧ p.current? = some m
  no_current : p.found = [] → p.currentMatch = none ∧ p.current? = none
  offset_le : p.offset ≤ p.visible.length - p.height
  length_view : p.view.length = min p.height (p.visible.length - p.offset)

theorem Kept.consistent {cap : Nat} {p : Pager} (h : p.Kept cap) : p.Consistent cap := by
  constructor
  · exact (length_written p.lines).symm
  · exact h.lineCount_le
  · exact h.visible
  · exact h.found
  · intro hnil
    rw [h.found, hnil, places_nil]
  · intro hne
    obtain ⟨i, hi⟩ := h.current_some hne
    obtain ⟨m, hm⟩ : ∃ m, p.found[i]? = some m :=
      ⟨_, List.getElem?_eq_getElem (h.current_lt i hi)⟩
    refine ⟨i, m, hi, hm, ?_⟩
    rw [current?, hi, Option.bind_some, hm]
  · intro hnil
    have hnone : p.currentMatch = none := by
      refine Option.eq_none_iff_forall_ne_some.mpr fun i hi => ?_
      have hlt := h.current_lt i hi
      rw [hnil] at hlt
      exact Nat.not_lt_zero i hlt
    exact ⟨hnone, by rw [current?, hnone, Option.bind_none]⟩
  · exact h.offset_le
  · rw [view, List.length_map, List.length_zipIdx, List.length_take, List.length_drop]

/-- **The window.** After any keys, texts and changes a pager holds no more lines than there is room
for. The lines visible are those that match the filter, and the places found those of the search
text in them, of which one is the current one, if there are any. The window is filled as far as
there are lines for it. -/
theorem changed_consistent (title : String) (text : List Char) (maxLines : Nat)
    (changes : List Change) :
    ((new title text maxLines).changed changes).Consistent (max maxLines 1) ∧
      ((live title maxLines).changed changes).Consistent (max maxLines 1) :=
  ⟨((new_kept title text maxLines).changed changes).consistent,
    ((live_kept title maxLines).changed changes).consistent⟩

end Pager

end Dockboard
