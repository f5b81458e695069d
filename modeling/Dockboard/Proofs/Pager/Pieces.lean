import Dockboard.Proofs.Pager.Sheet

set_option autoImplicit false

/-! # A text and its pieces

A text that arrives is appended to a pager piece by piece, and the pager holds the last lines of it.

    Given cap texts p   `p` has room for `cap` lines and has been given `texts`

What is lost of the text where it is cut are carriage returns, and nothing else (`read_in_pieces`).
What is lost for want of room are the oldest lines, whenever they are dropped (`holds_latest`).
-/

namespace Dockboard

open Dockboard.Text

theorem latest_latest {α : Type} {n m : Nat} (h : n ≤ m) (xs : List α) :
    latest n (latest m xs) = latest n xs := by
  unfold latest
  rw [List.drop_drop, List.length_drop]
  congr 1
  omega

namespace Pager

/-! ## Content -/

theorem length_content (lines : List (List Char)) :
    (content lines).length = contentLength lines := by
  rw [content_eq, length_written]

theorem content_append {lines : List (List Char)} (h : lines ≠ []) (before : List (List Char)) :
    content (before ++ lines) = before ++ content lines := by
  rw [content, contentLength_append h, List.take_length_add_append]
  rfl

theorem content_drop {k : Nat} {lines : List (List Char)} (h : k < lines.length) :
    content (lines.drop k) = (content lines).drop k := by
  have hne : lines.drop k ≠ [] := by simpa using h
  have hall := content_append hne (lines.take k)
  rw [List.take_append_drop] at hall
  rw [hall, List.drop_left' (List.length_take_of_le h.le)]

theorem contentLength_sub_lt {cap : Nat} (hcap : 0 < cap) {lines : List (List Char)}
    (h : lines ≠ []) : contentLength lines - cap < lines.length := by
  have hle := contentLength_le lines
  have hpos := List.length_pos_iff.mpr h
  omega

theorem content_capLines {cap : Nat} (hcap : 0 < cap) (lines : List (List Char)) :
    content (capLines cap lines) = latest cap (content lines) := by
  by_cases h : lines = []
  · simp [h, capLines, content, latest]
  · rw [capLines, content_drop (contentLength_sub_lt hcap h), latest, length_content]

theorem getLast?_capLines {cap : Nat} (hcap : 0 < cap) (lines : List (List Char)) :
    (capLines cap lines).getLast? = lines.getLast? := by
  by_cases h : lines = []
  · simp [h, capLines]
  · rw [capLines, List.getLast?_drop, if_neg (Nat.not_le_of_lt (contentLength_sub_lt hcap h))]

theorem contentLength_sheet_le (text : List Char) :
    contentLength (sheet text) ≤ text.count '\n' + 1 :=
  length_sheet text ▸ contentLength_le _

/-! ## Pagers that have been given texts -/

/-- The text that a change brings. -/
def Change.text? : Change → Option (List Char)
  | .append text => some text
  | _ => none

/-- `p` is a pager with room for `cap` lines that has been given `texts` one after the other,
whatever has been done to it besides. -/
inductive Given (cap : Nat) : List (List Char) → Pager → Prop
  | new (title : String) (text : List Char) : Given cap [text] (new title text cap)
  | live (title : String) : Given cap [] (live title cap)
  | change {texts : List (List Char)} {p : Pager} (h : Given cap texts p) (c : Change) :
      Given cap (texts ++ c.text?.toList) (p.change c)

theorem change_lines (p : Pager) (c : Change) :
    (p.change c).lines = c.text?.toList.foldl (appendText p.maxLines) p.lines := by
  cases c with
  | press key => exact congrArg Holding.lines (p.press_holding key)
  | append text => exact congrArg Holding.lines (p.append_holding text)
  | setFilter filter => rfl
  | setSearch search => exact congrArg Holding.lines (jumpToCurrent_holding _)
  | setFollow follow => rfl
  | resize width height => exact congrArg Holding.lines (p.resize_holding width height)
  | close error =>
      show (p.close error).lines = p.lines
      unfold Pager.close
      split <;> rfl

section Given

variable {cap : Nat} {texts : List (List Char)} {p : Pager}

theorem Given.kept (h : Given cap texts p) : p.Kept (max cap 1) := by
  induction h with
  | new title text => exact new_kept title text cap
  | live title => exact live_kept title cap
  | change _ c ih => exact ih.change c

theorem Given.lines_eq (h : Given cap texts p) :
    p.lines = capLines (max cap 1) (texts.foldl extend []) := by
  have hpos : 0 < max cap 1 := Nat.lt_of_lt_of_le Nat.one_pos (Nat.le_max_right _ _)
  rw [← foldl_appendText hpos]
  induction h with
  | new title text => rfl
  | live title => rfl
  | change h c ih => rw [change_lines, h.kept.maxLines, ih, List.foldl_append]

theorem Given.content_eq_latest (h : Given cap texts p) :
    content p.lines = latest (max cap 1) (content (sheet (texts.flatMap dropReturn))) := by
  have hpos : 0 < max cap 1 := Nat.lt_of_lt_of_le Nat.one_pos (Nat.le_max_right _ _)
  rw [h.lines_eq, content_capLines hpos, content_foldl_extend]

/-- There is room for all lines if there are fewer newlines. -/
theorem contentLength_foldl_extend_le (texts : List (List Char)) :
    contentLength (texts.foldl extend []) ≤ texts.flatten.count '\n' + 1 := by
  have hle := contentLength_sheet_le (texts.flatMap dropReturn)
  rwa [count_flatMap_dropReturn, ← length_content, ← content_foldl_extend, length_content] at hle

theorem Given.lines_of_count_lt (h : Given cap texts p)
    (hroom : texts.flatten.count '\n' < max cap 1) : p.lines = texts.foldl extend [] := by
  rw [h.lines_eq, capLines_of_le ((contentLength_foldl_extend_le texts).trans hroom)]

end Given

/-- **A text and its pieces.** What a pager shows of a text that arrives in pieces are the last
lines of the text that the pieces make up without a carriage return at the end of each. It shows the
same of all seamless pieces of a text, and if there is room for all lines, of no others. -/
theorem read_in_pieces {cap : Nat} {pieces others : List (List Char)} {p q : Pager}
    (hp : Given cap pieces p) (hq : Given cap others q) (htext : pieces.flatten = others.flatten) :
    content p.lines = latest (max cap 1) (content (sheet (pieces.flatMap dropReturn))) ∧
    (Seamless pieces → Seamless others → content p.lines = content q.lines) ∧
    (Seamless others → pieces.flatten.count '\n' < max cap 1 →
      (content p.lines = content q.lines ↔ Seamless pieces)) := by
  have hsame (hpieces : Seamless pieces) (hothers : Seamless others) :
      content p.lines = content q.lines := by
    rw [hp.content_eq_latest, hq.content_eq_latest, sheet_of_seamless hpieces,
      sheet_of_seamless hothers, htext]
  refine ⟨hp.content_eq_latest, hsame, fun hothers hroom => ⟨fun hcontent => ?_,
    fun hpieces => hsame hpieces hothers⟩⟩
  by_contra hlost
  have hless := extent_of_not_seamless hlost
  rw [hp.lines_of_count_lt hroom, hq.lines_of_count_lt (htext ▸ hroom), content_foldl_extend,
    content_foldl_extend, sheet_of_seamless hothers] at hcontent
  rw [← extent_content, hcontent, extent_content, htext] at hless
  exact Nat.lt_irrefl _ hless

/-- A carriage return is lost that is followed by no newline. -/
theorem read_in_pieces_of_return :
    let pieces : List (List Char) := [['a', '\r'], ['b', '\n']]
    let p := ((live "logs" 100).append ['a', '\r']).append ['b', '\n']
    let q := (live "logs" 100).append ['a', '\r', 'b', '\n']
    content p.lines = [['a', 'b']] ∧ content q.lines = [['a', '\r', 'b']] ∧
      ¬ Seamless pieces := by
  intro pieces p q
  have hp : Given 100 pieces p :=
    ((Given.live "logs").change (.append ['a', '\r'])).change (.append ['b', '\n'])
  have hq : Given 100 [pieces.flatten] q := (Given.live "logs").change (.append pieces.flatten)
  have hlines : content p.lines = [['a', 'b']] := by decide
  have hwhole : content q.lines = [['a', '\r', 'b']] := by decide
  have hiff := (read_in_pieces hp hq (List.append_nil _).symm).2.2 (seamless_singleton _)
    (by decide)
  refine ⟨hlines, hwhole, fun hseamless => ?_⟩
  have hsame := hiff.mpr hseamless
  rw [hlines, hwhole] at hsame
  cases hsame

/-- **Lines that are dropped.** A pager holds the last lines of one with more room that has been
given the same texts, and its open line is the same. With room for all lines none is dropped. -/
theorem holds_latest {cap room : Nat} (hcap : 1 ≤ cap) (hroom : cap ≤ room)
    {texts : List (List Char)} {p q : Pager} (hp : Given cap texts p) (hq : Given room texts q) :
    content p.lines = latest cap (content q.lines) ∧
    p.lines.getLast? = q.lines.getLast? ∧
    (texts.flatten.count '\n' < room → q.lines = texts.foldl extend []) := by
  have hmax : max cap 1 = cap := Nat.max_eq_left hcap
  have hmax' : max room 1 = room := Nat.max_eq_left (hcap.trans hroom)
  refine ⟨?_, ?_, fun hall => hq.lines_of_count_lt (hmax'.symm ▸ hall)⟩
  · rw [hp.content_eq_latest, hq.content_eq_latest, hmax, hmax', latest_latest hroom]
  · rw [hp.lines_eq, hq.lines_eq, hmax, hmax', getLast?_capLines hcap,
      getLast?_capLines (hcap.trans hroom)]

/-- Two lines are dropped when the third piece arrives, which continues the second one. -/
theorem holds_latest_of_two :
    let texts : List (List Char) := [['1', '\r', '\n', '2'], [], ['0', '\n', '\n', '3']]
    let p := (((live "logs" 2).append ['1', '\r', '\n', '2']).append []).append
      ['0', '\n', '\n', '3']
    let q := ((((live "logs" 9).append ['1', '\r', '\n', '2']).setFollow false).append []).append
      ['0', '\n', '\n', '3']
    content q.lines = [['1'], ['2', '0'], [], ['3']] ∧ content p.lines = [[], ['3']] ∧
      p.lines.getLast? = q.lines.getLast? ∧ q.lines = texts.foldl extend [] := by
  intro texts p q
  have hp : Given 2 texts p := (((Given.live "logs").change (.append ['1', '\r', '\n', '2'])).change
    (.append [])).change (.append ['0', '\n', '\n', '3'])
  have hq : Given 9 texts q := ((((Given.live "logs").change
    (.append ['1', '\r', '\n', '2'])).change (.setFollow false)).change (.append [])).change
      (.append ['0', '\n', '\n', '3'])
  obtain ⟨hlatest, hopen, hall⟩ := holds_latest (by decide) (by decide) hp hq
  have hwhole : content q.lines = [['1'], ['2', '0'], [], ['3']] := by decide
  rw [hwhole] at hlatest
  exact ⟨hwhole, hlatest, hopen, hall (by decide)⟩

end Pager

end Dockboard
